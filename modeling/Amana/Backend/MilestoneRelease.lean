import Amana.Backend.Disputes
import Amana.Backend.PayoutIntents

/-!
# The release of a milestone

`escrow.release.routes.ts`: the route checks the trade and its schedule, claims the payout and
builds the transaction, which the caller signs and submits.  `payouts` is the service with all its
calls: the route, and those of `payoutIntent.service.ts` themselves.
-/

namespace Amana.Backend

open Lib Lib.Database Lib.Jobs

/-- What the service is run with: a digest, the hash of a transaction, `Number` where it is a
positive integer, and the allowlist of mediators. -/
structure PayoutConfig where
  sha256 : String → String
  hash : String → String
  toNumber : String → Option Nat
  mediatorAllowlist : List String

/-- A request for the release of a milestone, as it is validated; `walletAddress` is that of the
token. -/
structure ReleaseRequest where
  id : String
  milestoneIndex : Nat
  walletAddress : Option String
  /-- The header `Idempotency-Key`. -/
  idempotencyKey : Option String
  deriving DecidableEq, Repr

/-- What the route responds. -/
inductive ReleaseResponse where
  | error (statusCode : Nat) (error : String)
  /-- 409: an earlier attempt is unresolved. -/
  | inProgress (idempotencyKey : String) (status : PayoutIntentStatus) (txHash : Option String)
  /-- 409: the payout is settled. -/
  | alreadyReleased (idempotencyKey : String) (txHash : Option String)
  /-- 200. -/
  | ok (unsignedXdr idempotencyKey : String)
  deriving DecidableEq, Repr

/-- A text that is there, without the blanks around it. -/
def trimmed (text : Option String) : Option String :=
  (text.map Text.trim).filter (· ≠ "")

/-- Addresses are of ASCII characters. -/
def canRelease (config : PayoutConfig) (trade : ReleaseTrade) (walletAddress : String) : Bool :=
  let callerAddress := Text.toLowerCase walletAddress
  Text.toLowerCase trade.buyerAddress = callerAddress ||
    config.mediatorAllowlist.contains callerAddress

/-- The milestone that may be claimed, or the status code and the text of the error. -/
def claimable (schedule : List ReleaseMilestone) (milestoneIndex now : Nat) :
    Except (Nat × String) ReleaseMilestone :=
  if schedule.isEmpty then .error (404, "Release schedule not found")
  else if schedule.all (·.releasedAt.isSome) then
    .error (409, "Release schedule is already completed")
  else
    match schedule.find? fun item => item.milestoneIndex = milestoneIndex with
    | none => .error (400, "Milestone index is outside the release schedule")
    | some milestone =>
      if milestone.releasedAt.isSome then .error (409, "Milestone has already been released")
      else if milestone.dueAt > now then .error (400, "Milestone is not due yet")
      else .ok milestone

/-- The input the route claims a payout with. -/
def ReleaseRequest.input (request : ReleaseRequest) (trade : ReleaseTrade)
    (milestone : ReleaseMilestone) (walletAddress : String) : PayoutIntentInput where
  idempotencyKey := trimmed request.idempotencyKey
  kind := .milestoneRelease
  tradeId := trade.tradeId
  milestoneIndex := some request.milestoneIndex
  amountUsdc := milestone.amountUsdc
  destination := trade.sellerAddress
  requestedBy := walletAddress

/-- What the route does once the payout is claimed. -/
def respondClaimed (tradeId walletAddress : String) (milestoneIndex : Nat) :
    Except PayoutError PayoutIntentResult → PayoutJob ReleaseResponse
  | .error (.duplicatePayout intent) =>
    return .alreadyReleased intent.idempotencyKey intent.txHash
  | .error error => throw error
  | .ok ⟨intent, true⟩ => return .inProgress intent.idempotencyKey intent.status intent.txHash
  | .ok ⟨intent, false⟩ => do
    let unsignedXdr ←
      (PayoutOp.buildReleaseMilestoneTx tradeId walletAddress milestoneIndex).ask
    return .ok unsignedXdr intent.idempotencyKey

/-- `POST /:id/release/milestone`; what is raised goes to the error handler. -/
def releaseMilestone (config : PayoutConfig) (request : ReleaseRequest) :
    PayoutJob ReleaseResponse := do
  match trimmed request.walletAddress with
  | none => return .error 401 "Unauthorized"
  | some walletAddress =>
    match ← (PayoutOp.findTrade request.id (config.toNumber request.id)).ask with
    | none => return .error 404 "Trade not found"
    | some trade =>
      if trade.status ≠ .funded ∧ trade.status ≠ .delivered then
        return .error 400 ("Trade must be FUNDED or DELIVERED for milestone release (current: " ++
          trade.status.name ++ ")")
      else if ¬ canRelease config trade walletAddress then
        return .error 403 "Only the buyer or an admin may release a milestone"
      else
        let schedule ← (PayoutOp.findSchedule trade.tradeId).ask
        let now ← PayoutOp.now.ask
        match claimable schedule request.milestoneIndex now with
        | .error (statusCode, text) => return .error statusCode text
        | .ok milestone =>
          let claimed ← ExceptT.lift
            (claim config.sha256 (request.input trade milestone walletAddress)).run
          respondClaimed trade.tradeId walletAddress request.milestoneIndex claimed

/-! ## All calls -/

inductive PayoutCall where
  | claim (input : PayoutIntentInput)
  | recordSubmission (idempotencyKey txHash : String)
  | confirm (idempotencyKey : String) (txHash : Option String)
  | fail (idempotencyKey reason : String)
  | reconcile (olderThanMs limit : Option Nat)
  | releaseMilestone (request : ReleaseRequest)
  deriving DecidableEq, Repr

/-- What a call returns. -/
inductive PayoutReturn where
  | claimed (result : Except PayoutError PayoutIntentResult)
  | updated (result : Except PayoutError PayoutIntent)
  | swept (result : Except PayoutError SweepCounts)
  | responded (result : Except PayoutError ReleaseResponse)
  deriving DecidableEq

def PayoutCall.job (config : PayoutConfig) : PayoutCall → Job PayoutAnswer PayoutReturn
  | .claim input => .claimed <$> (Backend.claim config.sha256 input).run
  | .recordSubmission key txHash => .updated <$> (Backend.recordSubmission key txHash).run
  | .confirm key txHash => .updated <$> (Backend.confirm key txHash).run
  | .fail key reason => .updated <$> (Backend.fail key reason).run
  | .reconcile olderThanMs limit => .swept <$> (Backend.reconcile olderThanMs limit).run
  | .releaseMilestone request => .responded <$> (Backend.releaseMilestone config request).run

/-- The calls on the payout intents. -/
def payouts (config : PayoutConfig) :
    Service PayoutCall PayoutAnswer Payouts PayoutInput PayoutChange PayoutReturn where
  program := PayoutCall.job config
  serve := answer config.hash
  drift := PayoutChange.apply

abbrev PayoutWorld := World PayoutCall PayoutAnswer Payouts PayoutReturn

abbrev PayoutStep := Activity PayoutCall PayoutInput PayoutChange

/-! ## Rules -/

section Rules

variable {config : PayoutConfig} {i : Nat} {R : Payouts → Payouts → Prop}
  {allowed : PayoutOp → PayoutInput → Payouts → Prop} {s : Payouts}
  {Ψ : Except PayoutError ReleaseResponse → Payouts → Prop}

/-- Reading leaves everything as it is. -/
theorem wp_read {α : Type} {op : PayoutOp} {f : op.Res → PayoutJob α}
    {Ψ : Except PayoutError α → Payouts → Prop} (onward : Onward R)
    (reads : ∀ given s, (answer config.hash i op given s).2 = s)
    (goes : ∀ r s', R s s' → Wp (answer config.hash i) R allowed Ψ (f r).run s')
    (fails : ∀ fault s', R s s' → Ψ (.error (.fault fault)) s') :
    Wp (answer config.hash i) R allowed Ψ (op.ask >>= f).run s := by
  rw [wp_except_bind, wp_ask]
  intro s' hR given _
  have hsame := reads given s'
  cases hanswer : (answer config.hash i op given s').1 with
  | ok r =>
    rw [hsame]
    exact ⟨onward.refl s', goes r s' hR⟩
  | error fault =>
    rw [hsame]
    exact ⟨onward.refl s', fails fault s' hR⟩

/-- The response is an error, or there is no transaction in it. -/
def Unpaid (r : Except PayoutError ReleaseResponse) : Prop :=
  ∀ xdr key, r ≠ .ok (.ok xdr key)

theorem wp_respondClaimed {tradeId walletAddress : String} {milestoneIndex : Nat}
    {r : Except PayoutError PayoutIntentResult} (onward : Onward R)
    (builds : ∀ intent, r = .ok ⟨intent, false⟩ → ∀ s' given xdr, R s s' →
      allowed (.buildReleaseMilestoneTx tradeId walletAddress milestoneIndex) given s' →
        R s' (s'.build i (config.hash xdr)) ∧
          Ψ (.ok (.ok xdr intent.idempotencyKey)) (s'.build i (config.hash xdr)))
    (other : ∀ r s', R s s' → Unpaid r → Ψ r s') :
    Wp (answer config.hash i) R allowed Ψ
      (respondClaimed tradeId walletAddress milestoneIndex r).run s := by
  match r with
  | .error (.duplicatePayout intent) => exact other _ s (onward.refl s) (by simp [Unpaid])
  | .error (.fault fault) => exact other _ s (onward.refl s) (by simp [Unpaid])
  | .ok ⟨intent, true⟩ => exact other _ s (onward.refl s) (by simp [Unpaid])
  | .ok ⟨intent, false⟩ =>
    rw [respondClaimed, wp_except_bind, wp_ask]
    intro s' hR given hallowed
    rw [answer]
    cases hxdr : given.xdr with
    | ok xdr => exact builds intent rfl s' given xdr hR hallowed
    | error fault => exact ⟨onward.refl s', other _ s' hR (by simp [Unpaid])⟩

/-- A release reads the trade and its schedule, and then claims the payout. -/
theorem wp_releaseMilestone {request : ReleaseRequest} (onward : Onward R)
    (claims : ∀ s', R s s' → ∀ trade milestone walletAddress,
      Wp (answer config.hash i) R allowed
        (fun r s => Wp (answer config.hash i) R allowed Ψ
          (respondClaimed trade.tradeId walletAddress request.milestoneIndex r).run s)
        (claim config.sha256 (request.input trade milestone walletAddress)).run s')
    (other : ∀ r s', R s s' → Unpaid r → Ψ r s') :
    Wp (answer config.hash i) R allowed Ψ (releaseMilestone config request).run s := by
  have hfails {s' : Payouts} (hR : R s s') (fault : Fault) (s'' : Payouts) (hR' : R s' s'') :
      Ψ (.error (.fault fault)) s'' :=
    other _ s'' (onward.trans hR hR') (by simp [Unpaid])
  have hresponds {s' : Payouts} (hR : R s s') (statusCode : Nat) (text : String) :
      Ψ (.ok (.error statusCode text)) s' := other _ s' hR (by simp [Unpaid])
  unfold releaseMilestone
  cases trimmed request.walletAddress with
  | none => exact hresponds (onward.refl s) _ _
  | some walletAddress =>
    apply wp_read onward (fun given s => by rw [answer, deliver_read])
    · intro found s₁ hR₁
      cases found with
      | none => exact hresponds hR₁ _ _
      | some trade =>
        by_cases hstatus : trade.status ≠ .funded ∧ trade.status ≠ .delivered
        · simp only [if_pos hstatus]
          exact hresponds hR₁ _ _
        by_cases hcaller : ¬ canRelease config trade walletAddress
        · simp only [if_neg hstatus, if_pos hcaller]
          exact hresponds hR₁ _ _
        simp only [if_neg hstatus, if_neg hcaller]
        apply wp_read onward (fun given s => by rw [answer, deliver_read])
        · intro schedule s₂ hR₂
          apply wp_read onward (fun given s => rfl)
          · intro now s₃ hR₃
            have hR := onward.trans (onward.trans hR₁ hR₂) hR₃
            cases claimable schedule request.milestoneIndex now with
            | error e => exact hresponds hR _ _
            | ok milestone =>
              refine wp_except_bind.2 (wp_map.2 ?_)
              exact claims s₃ hR trade milestone walletAddress
          · exact hfails (onward.trans hR₁ hR₂)
        · exact hfails hR₁
    · exact hfails (onward.refl s)

end Rules

/-! A trade with one milestone that is due. -/

def Sample.payoutConfig : PayoutConfig := ⟨id, id, fun _ => none, []⟩

/-- Nothing was paid yet. -/
def Sample.unpaid : Payouts :=
  ⟨0, fun _ => none, [], [⟨1, "7", "gbuyer", "GSELLER", .funded⟩], [⟨"7", 0, "100", 0, none⟩],
    fun _ => none, fun _ => none, fun _ => none⟩

/-- A payout of 100 from trade 7, claimed under the key `k`. -/
def Sample.payoutInput : PayoutIntentInput :=
  ⟨some "k", .release, "7", none, "100", "GSELLER", "gbuyer"⟩

/-- The buyer's request for the milestone, under a key. -/
def Sample.request (key : String) : ReleaseRequest := ⟨"7", 0, some "gbuyer", some key⟩

/-- What a worker that reaches the database is given. -/
def Sample.reached : PayoutInput := ⟨.heard, .notFound, .ok "xdr"⟩

/-- Worker `i` goes on until it has responded. -/
def Sample.released (i : Nat) : List PayoutStep := List.replicate 5 (.advance i Sample.reached)

example : (run (payouts Sample.payoutConfig) (.fresh Sample.unpaid)
    (.call (.releaseMilestone (Sample.request "k")) :: Sample.released 0)).result 0 =
      some (.responded (.ok (.ok "xdr" "k"))) := by
  decide

end Amana.Backend
