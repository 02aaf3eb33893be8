import Amana.Backend.Schema
import Amana.Lib.Jobs
import Amana.Lib.Text
import Mathlib.Data.List.Sort

/-!
# Payout intents

`payoutIntent.service.ts`: every payout is recorded under an idempotency key before its transaction
is built, so that a retry is recognised.  The calls of the service run side by side; each of their
database statements is atomic, and what other calls do comes in between.  Metrics and logging are
left out.
-/

namespace Amana.Backend

open Lib Lib.Database
open Lib.Jobs (Job Onward Wp Continues Recovers wp_tryCatch wp_except_bind)

/-! ## The table -/

inductive PayoutIntentStatus where
  | pending
  | submitted
  | confirmed
  | failed
  deriving DecidableEq, Repr

inductive PayoutKind where
  | release
  | milestoneRelease
  | refund
  | clawback
  deriving DecidableEq, Repr

/-- A row of `PayoutIntent`. -/
structure PayoutIntent where
  idempotencyKey : String
  kind : PayoutKind
  tradeId : String
  milestoneIndex : Option Nat
  amountUsdc : String
  destination : String
  requestedBy : String
  status : PayoutIntentStatus
  txHash : Option String
  duplicateAttempts : Nat
  lastError : Option String
  submittedAt : Option Nat
  confirmedAt : Option Nat
  updatedAt : Nat
  deriving DecidableEq, Repr

/-- `TERMINAL_STATUSES`. -/
def terminalStatuses : List PayoutIntentStatus := [.confirmed]

/-- `UNRESOLVED_STATUSES`. -/
def unresolvedStatuses : List PayoutIntentStatus := [.pending, .submitted]

/-- `PayoutIntentInput`. -/
structure PayoutIntentInput where
  idempotencyKey : Option String
  kind : PayoutKind
  tradeId : String
  milestoneIndex : Option Nat
  amountUsdc : String
  destination : String
  requestedBy : String
  deriving DecidableEq, Repr

/-- `PayoutIntentResult`. -/
structure PayoutIntentResult where
  intent : PayoutIntent
  duplicate : Bool
  deriving DecidableEq, Repr

/-- The data of an update. -/
inductive IntentUpdate where
  /-- One more `duplicateAttempts`. -/
  | duplicate
  | submitted (txHash : String)
  | confirmed (txHash : Option String)
  | failed (lastError : String)
  deriving DecidableEq, Repr

def IntentUpdate.apply (now : Nat) (row : PayoutIntent) : IntentUpdate → PayoutIntent
  | .duplicate => { row with duplicateAttempts := row.duplicateAttempts + 1, updatedAt := now }
  | .submitted txHash =>
    { row with
      status := .submitted
      txHash := some txHash
      submittedAt := some now
      updatedAt := now }
  | .confirmed txHash =>
    { row with
      status := .confirmed
      confirmedAt := some now
      txHash := txHash.or row.txHash
      updatedAt := now }
  | .failed lastError =>
    { row with status := .failed, lastError := some lastError, updatedAt := now }

/-- A new row. -/
def PayoutIntentInput.row (input : PayoutIntentInput) (idempotencyKey : String) (now : Nat) :
    PayoutIntent where
  idempotencyKey := idempotencyKey
  kind := input.kind
  tradeId := input.tradeId
  milestoneIndex := input.milestoneIndex
  amountUsdc := input.amountUsdc
  destination := input.destination
  requestedBy := input.requestedBy
  status := .pending
  txHash := none
  duplicateAttempts := 0
  lastError := none
  submittedAt := none
  confirmedAt := none
  updatedAt := now

/-! ## What the calls ask for -/

/-- The columns of `Trade` the release of a milestone looks at. -/
structure ReleaseTrade where
  id : Nat
  tradeId : String
  buyerAddress : String
  sellerAddress : String
  status : TradeStatus
  deriving DecidableEq, Repr

/-- A row of `EscrowReleaseMilestone`. -/
structure ReleaseMilestone where
  tradeId : String
  milestoneIndex : Nat
  amountUsdc : String
  dueAt : Nat
  releasedAt : Option Nat
  deriving DecidableEq, Repr

/-- What is known on the chain about a transaction. -/
inductive ChainOutcome where
  | success
  | failed
  | notFound
  deriving DecidableEq, Repr

inductive PayoutOp where
  /-- `Date.now()`. -/
  | now
  | createIntent (input : PayoutIntentInput) (idempotencyKey : String)
  | updateIntent (idempotencyKey : String) (data : IntentUpdate)
  | findUnresolved (olderThanMs limit : Nat)
  /-- The chain's status of a transaction. -/
  | lookup (txHash : String)
  /-- The first trade with this `tradeId`, or with this `id`. -/
  | findTrade (tradeId : String) (id : Option Nat)
  | findSchedule (tradeId : String)
  | buildReleaseMilestoneTx (tradeId sourceAddress : String) (milestoneIndex : Nat)
  deriving DecidableEq, Repr

abbrev PayoutOp.Res : PayoutOp → Type
  | .now => Nat
  | .createIntent .. => PayoutIntent
  | .updateIntent .. => PayoutIntent
  | .findUnresolved .. => List PayoutIntent
  | .lookup _ => ChainOutcome
  | .findTrade .. => Option ReleaseTrade
  | .findSchedule _ => List ReleaseMilestone
  | .buildReleaseMilestoneTx .. => String

/-- Everything that is asked for may fail. -/
abbrev PayoutAnswer (op : PayoutOp) : Type := Except Fault op.Res

inductive PayoutError where
  /-- `DuplicatePayoutError`. -/
  | duplicatePayout (intent : PayoutIntent)
  | fault (fault : Fault)
  deriving DecidableEq, Repr

/-- A call of the service, or a part of one. -/
abbrev PayoutJob := ExceptT PayoutError (Job PayoutAnswer)

/-- Ask, and raise what fails. -/
def PayoutOp.ask (op : PayoutOp) : PayoutJob op.Res :=
  ExceptT.mk <| .ask op fun r => .done (r.mapError .fault)

/-! ## The service -/

/-- `PayoutKind`, as a text. -/
def PayoutKind.name : PayoutKind → String
  | .release => "RELEASE"
  | .milestoneRelease => "MILESTONE_RELEASE"
  | .refund => "REFUND"
  | .clawback => "CLAWBACK"

/-- `sha256` is the digest in hexadecimal; addresses are of ASCII characters. -/
def derivePayoutIdempotencyKey (sha256 : String → String) (input : PayoutIntentInput) : String :=
  let parts := [input.kind.name, input.tradeId, (input.milestoneIndex.map toString).getD "-",
    input.amountUsdc, Text.toLowerCase input.destination]
  "derived:" ++ sha256 ("|".intercalate parts)

/-- The key an input is claimed under. -/
def PayoutIntentInput.key (sha256 : String → String) (input : PayoutIntentInput) : String :=
  input.idempotencyKey.getD (derivePayoutIdempotencyKey sha256 input)

def handleExisting (idempotencyKey : String) : PayoutJob PayoutIntentResult := do
  let existing ← (PayoutOp.updateIntent idempotencyKey .duplicate).ask
  if terminalStatuses.contains existing.status then throw (.duplicatePayout existing)
  return ⟨existing, true⟩

def claim (sha256 : String → String) (input : PayoutIntentInput) : PayoutJob PayoutIntentResult :=
  tryCatch
    (do
      let intent ← (PayoutOp.createIntent input (input.key sha256)).ask
      return ⟨intent, false⟩)
    fun
      | .fault .unique => handleExisting (input.key sha256)
      | error => throw error

def recordSubmission (idempotencyKey txHash : String) : PayoutJob PayoutIntent :=
  (PayoutOp.updateIntent idempotencyKey (.submitted txHash)).ask

def confirm (idempotencyKey : String) (txHash : Option String) : PayoutJob PayoutIntent :=
  (PayoutOp.updateIntent idempotencyKey (.confirmed (txHash.filter (· ≠ "")))).ask

def fail (idempotencyKey reason : String) : PayoutJob PayoutIntent :=
  (PayoutOp.updateIntent idempotencyKey (.failed (Text.slice reason 2000))).ask

/-- What a sweep has done. -/
structure SweepCounts where
  scanned : Nat
  confirmed : Nat
  failed : Nat
  pending : Nat
  deriving DecidableEq, Repr

/-- The reason for failing an intent without a hash. -/
def neverSubmitted : String := "Reconciled: no transaction was submitted"

/-- The reason for failing an intent whose transaction failed. -/
def failedOnChain : String := "Reconciled: transaction failed on-chain"

/-- The loop of `reconcile`, over the intents that are left. -/
def resolveIntents : List PayoutIntent → SweepCounts → PayoutJob SweepCounts
  | [], counts => return counts
  | intent :: rest, counts =>
    -- An empty hash counts as none.
    match intent.txHash.filter (· ≠ "") with
    | none => do
      let _ ← fail intent.idempotencyKey neverSubmitted
      resolveIntents rest { counts with failed := counts.failed + 1 }
    | some txHash => do
      let outcome ← (PayoutOp.lookup txHash).ask
      match outcome with
      | .success =>
        let _ ← confirm intent.idempotencyKey none
        resolveIntents rest { counts with confirmed := counts.confirmed + 1 }
      | .failed =>
        let _ ← fail intent.idempotencyKey failedOnChain
        resolveIntents rest { counts with failed := counts.failed + 1 }
      | .notFound => resolveIntents rest { counts with pending := counts.pending + 1 }

def reconcile (olderThanMs limit : Option Nat) : PayoutJob SweepCounts := do
  let intents ← (PayoutOp.findUnresolved (olderThanMs.getD 60000) (limit.getD 100)).ask
  resolveIntents intents ⟨intents.length, 0, 0, 0⟩

/-! ## The database and the chain -/

/-- What the calls share.  `settled` is what has become of transactions on the chain: applied or
failed. -/
structure Payouts where
  now : Nat
  intents : Db fun _ : String => PayoutIntent
  /-- The keys of the intents in the order of their creation. -/
  keys : List String
  trades : List ReleaseTrade
  schedule : List ReleaseMilestone
  settled : String → Option Bool
  /-- The worker that created an intent, and the hash of the first transaction a worker has built;
  nothing looks at these. -/
  creator : String → Option Nat
  built : Nat → Option String

/-- What an answer also depends on: the connection, and the answers of the chain and of the contract
service. -/
structure PayoutInput where
  connection : Connection
  outcome : ChainOutcome
  xdr : Except Fault String

/-- What changes from the outside. -/
inductive PayoutChange where
  | elapse (ms : Nat)
  /-- A transaction is applied, or fails, for good. -/
  | settle (txHash : String) (applied : Bool)
  /-- Other parts of the program write their tables. -/
  | edit (trades : List ReleaseTrade) (schedule : List ReleaseMilestone)

/-- The unresolved intents that have not been touched for a while, the oldest first. -/
def Payouts.unresolved (s : Payouts) (olderThanMs limit : Nat) : List PayoutIntent :=
  (((s.keys.filterMap s.intents).filter fun row =>
    unresolvedStatuses.contains row.status && decide (row.updatedAt + olderThanMs < s.now)
    ).insertionSort fun a b => a.updatedAt ≤ b.updatedAt).take limit

/-- The schedule of a trade. -/
def Payouts.scheduleOf (s : Payouts) (tradeId : String) : List ReleaseMilestone :=
  (s.schedule.filter fun milestone => milestone.tradeId = tradeId).insertionSort
    fun a b => a.milestoneIndex ≤ b.milestoneIndex

/-- The table with a new row. -/
def Payouts.insert (s : Payouts) (worker : Nat) (idempotencyKey : String) (row : PayoutIntent) :
    Payouts :=
  { s with
    intents := Function.update s.intents idempotencyKey (some row)
    keys := s.keys ++ [idempotencyKey]
    creator := Function.update s.creator idempotencyKey (some worker) }

/-- The table with another row. -/
def Payouts.put (s : Payouts) (idempotencyKey : String) (row : PayoutIntent) : Payouts :=
  { s with intents := Function.update s.intents idempotencyKey (some row) }

/-- A worker builds a transaction. -/
def Payouts.build (s : Payouts) (worker : Nat) (txHash : String) : Payouts :=
  { s with
    built := Function.update s.built worker ((s.built worker).or (some txHash)) }

def Payouts.createIntent (s : Payouts) (worker : Nat) (input : PayoutIntentInput)
    (idempotencyKey : String) : Except Fault (PayoutIntent × Payouts) :=
  match s.intents idempotencyKey with
  | some _ => .error .unique
  | none =>
    let row := input.row idempotencyKey s.now
    .ok (row, s.insert worker idempotencyKey row)

def Payouts.updateIntent (s : Payouts) (idempotencyKey : String) (data : IntentUpdate) :
    Except Fault (PayoutIntent × Payouts) :=
  match s.intents idempotencyKey with
  | none => .error .missing
  | some row =>
    let row := data.apply s.now row
    .ok (row, s.put idempotencyKey row)

/-- What worker `i` is answered; `hash` is the hash of a transaction. -/
def answer (hash : String → String) (i : Nat) :
    (op : PayoutOp) → PayoutInput → Payouts → PayoutAnswer op × Payouts
  | .now, _, s => (.ok s.now, s)
  | .createIntent data key, input, s => deliver input.connection s (s.createIntent i data key)
  | .updateIntent key data, input, s => deliver input.connection s (s.updateIntent key data)
  | .findUnresolved olderThanMs limit, input, s =>
    deliver input.connection s (.ok (s.unresolved olderThanMs limit, s))
  | .lookup _, input, s => deliver input.connection s (.ok (input.outcome, s))
  | .findTrade tradeId id, input, s =>
    deliver input.connection s
      (.ok (s.trades.find? fun t => t.tradeId = tradeId || some t.id = id, s))
  | .findSchedule tradeId, input, s => deliver input.connection s (.ok (s.scheduleOf tradeId, s))
  | .buildReleaseMilestoneTx .., input, s =>
    match input.xdr with
    | .ok xdr => (.ok xdr, s.build i (hash xdr))
    | .error fault => (.error fault, s)

/-- What the outside does. -/
def PayoutChange.apply : PayoutChange → Payouts → Payouts
  | .elapse ms, s => { s with now := s.now + ms }
  | .settle txHash applied, s =>
    { s with
      settled := Function.update s.settled txHash ((s.settled txHash).or (some applied)) }
  | .edit trades schedule, s => { s with trades := trades, schedule := schedule }

/-! ## Effects -/

section Effects

/-- What is asked creates an intent, updates one, builds a transaction, or changes nothing. -/
inductive PayoutEffect (hash : String → String) (i : Nat) (input : PayoutInput) (s : Payouts) :
    PayoutOp → Payouts → Prop
  | nothing (op : PayoutOp) : PayoutEffect hash i input s op s
  | create (data : PayoutIntentInput) (key : String) (free : s.intents key = none)
      (reached : input.connection ≠ .down) :
      PayoutEffect hash i input s (.createIntent data key) (s.insert i key (data.row key s.now))
  | update (key : String) (data : IntentUpdate) (row : PayoutIntent)
      (found : s.intents key = some row) (reached : input.connection ≠ .down) :
      PayoutEffect hash i input s (.updateIntent key data) (s.put key (data.apply s.now row))
  | build (tradeId sourceAddress : String) (milestoneIndex : Nat) (xdr : String) :
      PayoutEffect hash i input s (.buildReleaseMilestoneTx tradeId sourceAddress milestoneIndex)
        (s.build i (hash xdr))

theorem answer_effect (hash : String → String) (i : Nat) (op : PayoutOp) (input : PayoutInput)
    (s : Payouts) : PayoutEffect hash i input s op (answer hash i op input s).2 := by
  cases op with
  | now => exact .nothing _
  | createIntent data key =>
    rw [answer, Payouts.createIntent]
    cases hrow : s.intents key with
    | some row => exact .nothing _
    | none =>
      cases hc : input.connection with
      | down => exact .nothing _
      | heard | unheard => exact .create data key hrow (by simp [hc])
  | updateIntent key data =>
    rw [answer, Payouts.updateIntent]
    cases hrow : s.intents key with
    | none => exact .nothing _
    | some row =>
      cases hc : input.connection with
      | down => exact .nothing _
      | heard | unheard => exact .update key data row hrow (by simp [hc])
  | findUnresolved | lookup | findTrade | findSchedule =>
    rw [answer, deliver_read]
    exact .nothing _
  | buildReleaseMilestoneTx =>
    rw [answer]
    cases input.xdr with
    | ok xdr => exact .build ..
    | error fault => exact .nothing _

end Effects

/-! ## Rules -/

section Rules

variable {hash sha256 : String → String} {i : Nat} {R : Payouts → Payouts → Prop}
  {allowed : PayoutOp → PayoutInput → Payouts → Prop} {s : Payouts}

theorem wp_ask {op : PayoutOp} {Ψ : Except PayoutError op.Res → Payouts → Prop} :
    Wp (answer hash i) R allowed Ψ op.ask.run s ↔
      ∀ s', R s s' → ∀ input, allowed op input s' → R s' (answer hash i op input s').2 ∧
        Ψ ((answer hash i op input s').1.mapError .fault) (answer hash i op input s').2 := Iff.rfl

/-- An update reaches the intent, or there is none, or the connection is lost. -/
theorem wp_updateIntent {key : String} {data : IntentUpdate}
    {Ψ : Except PayoutError PayoutIntent → Payouts → Prop} (onward : Onward R)
    (updates : ∀ s' input row, R s s' → allowed (.updateIntent key data) input s' →
      s'.intents key = some row → input.connection ≠ .down →
        R s' (s'.put key (data.apply s'.now row)) ∧
          Ψ (.ok (data.apply s'.now row)) (s'.put key (data.apply s'.now row)))
    (missing : ∀ s', R s s' → s'.intents key = none → Ψ (.error (.fault .missing)) s')
    (lost : ∀ s', R s s' → Ψ (.error (.fault .lost)) s') :
    Wp (answer hash i) R allowed Ψ (PayoutOp.updateIntent key data).ask.run s := by
  intro s' hR input hallowed
  simp only [answer, Payouts.updateIntent]
  cases hrow : s'.intents key with
  | none =>
    cases hc : input.connection with
    | heard => exact ⟨onward.refl s', missing s' hR hrow⟩
    | unheard | down => exact ⟨onward.refl s', lost s' hR⟩
  | some row =>
    have hupdates := updates s' input row hR hallowed hrow
    cases hc : input.connection with
    | down => exact ⟨onward.refl s', lost s' hR⟩
    | heard => exact hupdates (by simp [hc])
    | unheard =>
      obtain ⟨hput, -⟩ := hupdates (by simp [hc])
      exact ⟨hput, lost _ (onward.trans hR hput)⟩

/-- What `claim` returns for the row it finds. -/
def foundResult (row : PayoutIntent) : Except PayoutError PayoutIntentResult :=
  if terminalStatuses.contains row.status then .error (.duplicatePayout row)
  else .ok ⟨row, true⟩

/-- A claim creates the intent, or counts another attempt on the one that is there, or the
connection is lost. -/
theorem wp_claim {input : PayoutIntentInput}
    {Ψ : Except PayoutError PayoutIntentResult → Payouts → Prop} (onward : Onward R)
    (fresh : ∀ s' given, R s s' → allowed (.createIntent input (input.key sha256)) given s' →
      s'.intents (input.key sha256) = none → given.connection ≠ .down →
        let row := input.row (input.key sha256) s'.now
        R s' (s'.insert i (input.key sha256) row) ∧
          Ψ (.ok ⟨row, false⟩) (s'.insert i (input.key sha256) row))
    (found : ∀ s' given row, R s s' → allowed (.updateIntent (input.key sha256) .duplicate) given s' →
      s'.intents (input.key sha256) = some row → given.connection ≠ .down →
        let row' := IntentUpdate.duplicate.apply s'.now row
        R s' (s'.put (input.key sha256) row') ∧
          Ψ (foundResult row') (s'.put (input.key sha256) row'))
    (missing : ∀ s', R s s' → s'.intents (input.key sha256) = none →
      Ψ (.error (.fault .missing)) s')
    (lost : ∀ s', R s s' → Ψ (.error (.fault .lost)) s') :
    Wp (answer hash i) R allowed Ψ (claim sha256 input).run s := by
  have hexisting : ∀ s', R s s' →
      Wp (answer hash i) R allowed Ψ (handleExisting (input.key sha256)).run s' := by
    intro s' hR
    rw [handleExisting, wp_except_bind]
    apply wp_updateIntent onward
    · intro s'' given row hR' hallowed hrow hc
      obtain ⟨hput, hΨ⟩ := found s'' given row (onward.trans hR hR') hallowed hrow hc
      refine ⟨hput, ?_⟩
      rw [foundResult] at hΨ
      simp only [Continues]
      split at hΨ
      · rw [if_pos ‹_›]
        exact hΨ
      · rw [if_neg ‹_›]
        exact hΨ
    · exact fun s'' hR' => missing s'' (onward.trans hR hR')
    · exact fun s'' hR' => lost s'' (onward.trans hR hR')
  unfold claim
  rw [wp_tryCatch, wp_except_bind, wp_ask]
  intro s' hR given hallowed
  simp only [answer, Payouts.createIntent]
  cases hrow : s'.intents (input.key sha256) with
  | some row =>
    cases hc : given.connection with
    | heard => exact ⟨onward.refl s', hexisting s' hR⟩
    | unheard | down => exact ⟨onward.refl s', lost s' hR⟩
  | none =>
    have hfresh := fresh s' given hR hallowed hrow
    cases hc : given.connection with
    | heard => exact hfresh (by simp [hc])
    | unheard =>
      obtain ⟨hinsert, -⟩ := hfresh (by simp [hc])
      exact ⟨hinsert, lost _ (onward.trans hR hinsert)⟩
    | down => exact ⟨onward.refl s', lost s' hR⟩

end Rules

end Amana.Backend
