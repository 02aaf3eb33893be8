import Amana.Backend.ReleaseSchedule

/-!
# Milestones that are released

The schedule route and the release route side by side.  A schedule request deletes milestones
whether or not they are released, and a payout is claimed under a key of the caller's choice; so a
milestone stays released, and nothing is paid for it again, as long as no released milestone is
deleted and no payout is claimed or built across its release (`stays_released`).
-/

namespace Amana.Backend

open Lib Lib.Database Lib.Jobs

/-! ## The service -/

inductive EscrowCall where
  | releaseMilestone (request : ReleaseRequest)
  | postSchedule (request : ScheduleRequest)
  deriving DecidableEq, Repr

/-- What a call returns. -/
inductive EscrowReturn where
  | released (result : Except PayoutError ReleaseResponse)
  | scheduled (result : Except Fault ScheduleResponse)
  deriving DecidableEq

/-- What changes from the outside. -/
inductive EscrowChange where
  | elapse (ms : Nat)
  /-- Other parts of the program write trades. -/
  | edit (trades : List ReleaseTrade)
  /-- The event that a milestone was released is confirmed. -/
  | released (tradeId : String) (milestoneIndex time : Nat)

/-- A job on payouts, as a job of the routes. -/
def payoutJob {α : Type} : Jobs.Job PayoutAnswer α → Jobs.Job EscrowAnswer α
  | .done a => .done a
  | .ask op next => .ask (.payout op) fun r => payoutJob (next r)

def EscrowCall.job (config : PayoutConfig) : EscrowCall → Jobs.Job EscrowAnswer EscrowReturn
  | .releaseMilestone request =>
    .released <$> payoutJob (Backend.releaseMilestone config request).run
  | .postSchedule request => .scheduled <$> (Backend.postSchedule config request).run

/-- The milestone with this key. -/
def MilestoneRow.Is (row : MilestoneRow) (tradeId : String) (milestoneIndex : Nat) : Prop :=
  row.tradeId = tradeId ∧ row.milestoneIndex = milestoneIndex

instance (row : MilestoneRow) (tradeId : String) (milestoneIndex : Nat) :
    Decidable (row.Is tradeId milestoneIndex) := by
  unfold MilestoneRow.Is
  infer_instance

/-- A row when a release is confirmed. -/
def MilestoneRow.confirmed (row : MilestoneRow) (tradeId : String) (milestoneIndex time : Nat) :
    MilestoneRow :=
  if row.Is tradeId milestoneIndex then { row with releasedAt := row.releasedAt.or (some time) }
  else row

/-- What the outside does. -/
def EscrowChange.apply : EscrowChange → EscrowStore → EscrowStore
  | .elapse ms, s => { s with payouts := { s.payouts with now := s.payouts.now + ms } }
  | .edit trades, s => { s with payouts := { s.payouts with trades := trades } }
  | .released tradeId milestoneIndex time, s =>
    { s with rows := s.rows.map fun row => row.confirmed tradeId milestoneIndex time }

/-- Both routes. -/
def escrows (config : PayoutConfig) :
    Service EscrowCall EscrowAnswer EscrowStore PayoutInput EscrowChange EscrowReturn where
  program := EscrowCall.job config
  serve := serveEscrow config.hash
  drift := EscrowChange.apply

abbrev EscrowWorld := World EscrowCall EscrowAnswer EscrowStore EscrowReturn

abbrev EscrowStep := Activity EscrowCall PayoutInput EscrowChange

/-! ## Staying released -/

/-- The milestone is there, and it is released. -/
def EscrowStore.Released (s : EscrowStore) (tradeId : String) (milestoneIndex : Nat) : Prop :=
  (∃ row ∈ s.rows, row.Is tradeId milestoneIndex) ∧
    ∀ row ∈ s.rows, row.Is tradeId milestoneIndex → row.releasedAt ≠ none

/-- A worker waits for a transaction that releases the milestone. -/
def waitsToBuild (tradeId : String) (milestoneIndex : Nat)
    (job : Option (Jobs.Job EscrowAnswer EscrowReturn)) : Bool :=
  match job with
  | some (.ask (.payout (.buildReleaseMilestoneTx tradeId' _ milestoneIndex')) _) =>
    tradeId' = tradeId && milestoneIndex' = milestoneIndex
  | _ => false

/-- A transaction is built that releases the milestone. -/
def BuildsRelease (w : EscrowWorld) (a : EscrowStep) (tradeId : String) (milestoneIndex : Nat) : Prop :=
  ∃ i given xdr, a = .advance i given ∧ given.xdr = .ok xdr ∧
    ∃ p ∈ w.workers[i]?, waitsToBuild tradeId milestoneIndex p.2 = true

/-- Once a milestone is released, it stays so, and no transaction is built that releases it. -/
structure StaysReleased (config : PayoutConfig) (s : EscrowStore) (as : List EscrowStep) :
    Prop where
  released : ∀ before later, before <+: later → later <+: as → ∀ tradeId milestoneIndex,
    (run (escrows config) (.fresh s) before).shared.Released tradeId milestoneIndex →
      (run (escrows config) (.fresh s) later).shared.Released tradeId milestoneIndex
  unpaid : ∀ before later a, before <+: later → later ++ [a] <+: as → ∀ tradeId milestoneIndex,
    (run (escrows config) (.fresh s) before).shared.Released tradeId milestoneIndex →
      ¬ BuildsRelease (run (escrows config) (.fresh s) later) a tradeId milestoneIndex

/-- A schedule request that deletes milestones finds none released, and no payout is claimed for a
milestone that is released. -/
def EscrowOp.InTime : EscrowOp → PayoutInput → EscrowStore → Prop
  | .deleteMilestones tradeId, given, s => given.connection ≠ .down →
    ∀ row ∈ s.rows, row.tradeId = tradeId → row.releasedAt = none
  | .payout (.createIntent input key), given, s =>
    given.connection = .heard → s.payouts.intents key = none →
      ∀ milestoneIndex ∈ input.milestoneIndex, ¬ s.Released input.tradeId milestoneIndex
  | _, _, _ => True

/-- What is asked comes in time, and a milestone is not released while a transaction is built for it. -/
def Unhurried (w : EscrowWorld) : EscrowStep → Prop
  | .advance i given => ∀ c op next, w.workers[i]? = some (c, some (.ask op next)) →
      op.InTime given w.shared
  | .outside (.released tradeId milestoneIndex _) =>
    (∃ row ∈ w.shared.rows, row.Is tradeId milestoneIndex) →
      ∀ p ∈ w.workers, waitsToBuild tradeId milestoneIndex p.2 = false
  | _ => True

theorem waitsToBuild_iff {tradeId : String} {milestoneIndex : Nat}
    {job : Option (Jobs.Job EscrowAnswer EscrowReturn)} :
    waitsToBuild tradeId milestoneIndex job = true ↔ ∃ source next, job =
      some (.ask (.payout (.buildReleaseMilestoneTx tradeId source milestoneIndex)) next) := by
  constructor
  · intro h
    unfold waitsToBuild at h
    split at h
    · next tradeId' source milestoneIndex' next =>
      obtain ⟨rfl, rfl⟩ : tradeId' = tradeId ∧ milestoneIndex' = milestoneIndex := by simpa using h
      exact ⟨source, next, rfl⟩
    · cases h
  · rintro ⟨source, next, rfl⟩
    simp [waitsToBuild]

section Decide

instance (s : EscrowStore) (tradeId : String) (milestoneIndex : Nat) :
    Decidable (s.Released tradeId milestoneIndex) := by
  unfold EscrowStore.Released
  infer_instance

instance (op : EscrowOp) (given : PayoutInput) (s : EscrowStore) : Decidable (op.InTime given s) := by
  induction op using EscrowOp.casesOn with
  | payout op =>
    induction op using PayoutOp.casesOn <;> dsimp only [EscrowOp.InTime] <;> infer_instance
  | deleteMilestones | createMilestone => dsimp only [EscrowOp.InTime]; infer_instance

instance (w : EscrowWorld) : (a : EscrowStep) → Decidable (Unhurried w a)
  | .advance i given =>
    match found : w.workers[i]? with
    | some (c, some (.ask op next)) =>
      decidable_of_iff (op.InTime given w.shared)
        ⟨fun h _ _ _ e => by cases found.symm.trans e; exact h, fun h => h c op next found⟩
    | none | some (_, none) | some (_, some (.done _)) =>
      isTrue fun _ _ _ e => by cases found.symm.trans e
  | .outside (.released tradeId milestoneIndex _) =>
    inferInstanceAs (Decidable ((∃ row ∈ w.shared.rows, row.Is tradeId milestoneIndex) →
      ∀ p ∈ w.workers, waitsToBuild tradeId milestoneIndex p.2 = false))
  | .outside (.elapse _) | .outside (.edit _) | .call _ | .crash _ => isTrue trivial

end Decide

/-! ## The store -/

section Store

variable {s : EscrowStore} {tradeId : String} {milestoneIndex : Nat} {hash : String → String}
  {i : Nat} {op : EscrowOp} {given : PayoutInput}

/-- What is asked leaves the milestones as they are, deletes those of a trade, or adds one that was
not there. -/
theorem serveEscrow_rows (hash : String → String) (i : Nat) (op : EscrowOp) (given : PayoutInput)
    (s : EscrowStore) : (serveEscrow hash i op given s).2.rows = s.rows ∨
      (∃ tradeId, op = .deleteMilestones tradeId ∧ given.connection ≠ .down ∧
        (serveEscrow hash i op given s).2.rows = s.rows.filter fun row => row.tradeId ≠ tradeId) ∨
      ∃ row, op = .createMilestone row ∧
        (∀ other ∈ s.rows, ¬ other.Is row.tradeId row.milestoneIndex) ∧
        (serveEscrow hash i op given s).2.rows = s.rows ++ [row] := by
  cases op with
  | payout op => exact .inl rfl
  | deleteMilestones tradeId =>
    rw [serveEscrow]
    cases given.connection with
    | down => exact .inl rfl
    | heard | unheard => exact .inr (.inl ⟨tradeId, rfl, by decide, rfl⟩)
  | createMilestone row =>
    rw [serveEscrow, EscrowStore.createMilestone]
    split
    · exact .inl rfl
    split
    · exact .inl rfl
    · next hfree =>
      split
      · exact .inl rfl
      · cases given.connection with
        | down => exact .inl rfl
        | heard | unheard =>
          refine .inr (.inr ⟨row, rfl, fun other hother his => hfree ?_, rfl⟩)
          exact List.any_eq_true.2 ⟨other, hother, by simpa [MilestoneRow.Is] using his⟩

/-- What a worker waits for: it builds for what is not released, and creates what is not. -/
def Posed : EscrowOp → EscrowStore → Prop
  | .payout (.buildReleaseMilestoneTx tradeId _ milestoneIndex), s =>
    ¬ s.Released tradeId milestoneIndex
  | .createMilestone row, _ => row.releasedAt = none
  | _, _ => True

theorem released_congr {s' : EscrowStore}
    (same : ∀ row, row.Is tradeId milestoneIndex → (row ∈ s'.rows ↔ row ∈ s.rows)) :
    s'.Released tradeId milestoneIndex ↔ s.Released tradeId milestoneIndex := by
  refine and_congr (exists_congr fun row => and_congr_left (same row)) (forall_congr' fun row => ?_)
  exact ⟨fun h hrow his => h ((same row his).2 hrow) his,
    fun h hrow his => h ((same row his).1 hrow) his⟩

/-- What comes in time releases nothing, and no milestone that is released is lost. -/
theorem released_serve (intime : op.InTime given s) (posed : Posed op s) :
    (serveEscrow hash i op given s).2.Released tradeId milestoneIndex ↔
      s.Released tradeId milestoneIndex := by
  obtain hsame | ⟨deleted, rfl, hreached, hrows⟩ | ⟨row, rfl, hfresh, hrows⟩ :=
    serveEscrow_rows hash i op given s
  · exact released_congr fun row _ => by rw [hsame]
  · by_cases hother : tradeId = deleted
    · subst hother
      refine iff_of_false (fun h => ?_) fun h => ?_
      · obtain ⟨row, hrow, hkey, -⟩ := h.1
        rw [hrows, List.mem_filter] at hrow
        simp [hkey] at hrow
      · obtain ⟨row, hrow, his⟩ := h.1
        exact h.2 row hrow his (intime hreached row hrow his.1)
    · refine released_congr fun row his => ?_
      rw [hrows, List.mem_filter, his.1]
      simp [hother]
  · by_cases hnew : row.Is tradeId milestoneIndex
    · refine iff_of_false (fun h => ?_) fun h => ?_
      · exact h.2 row (by rw [hrows]; simp) hnew posed
      · obtain ⟨other, hother, his⟩ := h.1
        exact hfresh other hother ⟨his.1.trans hnew.1.symm, his.2.trans hnew.2.symm⟩
    · refine released_congr fun other his => ?_
      rw [hrows, List.mem_append, List.mem_singleton, or_iff_left]
      rintro rfl
      exact hnew his

theorem MilestoneRow.confirmed_is {row : MilestoneRow} {confirmed : String} {index time : Nat} :
    (row.confirmed confirmed index time).Is tradeId milestoneIndex ↔
      row.Is tradeId milestoneIndex := by
  rw [MilestoneRow.confirmed]
  split <;> rfl

theorem MilestoneRow.confirmed_of_not {row : MilestoneRow} {time : Nat}
    (h : ¬ row.Is tradeId milestoneIndex) : row.confirmed tradeId milestoneIndex time = row :=
  if_neg h

theorem MilestoneRow.confirmed_released {row : MilestoneRow} {time : Nat}
    (h : row.Is tradeId milestoneIndex) :
    (row.confirmed tradeId milestoneIndex time).releasedAt ≠ none := by
  rw [MilestoneRow.confirmed, if_pos h]
  cases row.releasedAt <;> nofun

/-- A milestone is released since before, or its release is confirmed now. -/
theorem released_confirmed {confirmed : String} {index time : Nat} :
    ((EscrowChange.released confirmed index time).apply s).Released tradeId milestoneIndex ↔
      s.Released tradeId milestoneIndex ∨
        (tradeId = confirmed ∧ milestoneIndex = index) ∧
          ∃ row ∈ s.rows, row.Is tradeId milestoneIndex := by
  by_cases hevent : tradeId = confirmed ∧ milestoneIndex = index
  · obtain ⟨rfl, rfl⟩ := hevent
    constructor
    · rintro ⟨⟨row, hrow, his⟩, -⟩
      obtain ⟨old, hold, rfl⟩ := List.mem_map.1 hrow
      exact .inr ⟨⟨rfl, rfl⟩, old, hold, MilestoneRow.confirmed_is.1 his⟩
    · intro h
      obtain ⟨row, hrow, his⟩ := h.elim (fun h => h.1) fun h => h.2
      refine ⟨⟨_, List.mem_map_of_mem hrow, MilestoneRow.confirmed_is.2 his⟩, fun row' hrow' his' => ?_⟩
      obtain ⟨old, -, rfl⟩ := List.mem_map.1 hrow'
      exact MilestoneRow.confirmed_released (MilestoneRow.confirmed_is.1 his')
  · rw [or_iff_left fun h => hevent h.1]
    have hapart {row : MilestoneRow} (his : row.Is tradeId milestoneIndex) :
        ¬ row.Is confirmed index := fun h => hevent ⟨his.1.symm.trans h.1, his.2.symm.trans h.2⟩
    refine released_congr fun row his => ⟨fun hrow => ?_, fun hrow => ?_⟩
    · obtain ⟨old, hold, rfl⟩ := List.mem_map.1 hrow
      rwa [MilestoneRow.confirmed_of_not (hapart (MilestoneRow.confirmed_is.1 his))]
    · exact List.mem_map.2 ⟨row, hrow, MilestoneRow.confirmed_of_not (hapart his)⟩

end Store

/-! ## What the routes wait for -/

section Jobs

variable {hash : String → String} {i : Nat} {s : EscrowStore} {α : Type}

/-- What a job on payouts waits for. -/
abbrev PosesPayout (hash : String → String) (i : Nat) (Ψ : α → EscrowStore → Prop)
    (job : Jobs.Job PayoutAnswer α) (s : EscrowStore) : Prop :=
  Poses (fun op => serveEscrow hash i (.payout op)) (fun op => EscrowOp.InTime (.payout op))
    (fun op => Posed (.payout op)) Ψ job s

theorem poses_payoutJob {Ψ : α → EscrowStore → Prop} {job : Jobs.Job PayoutAnswer α} :
    Poses (serveEscrow hash i) EscrowOp.InTime Posed Ψ (payoutJob job) s ↔
      PosesPayout hash i Ψ job s := by
  induction job generalizing s with
  | done a => rfl
  | ask op next ih =>
    refine and_congr_right fun _ => forall_congr' fun s' => forall_congr' fun given =>
      forall_congr' fun _ => ?_
    exact ih _

/-- Whatever is answered. -/
theorem poses_seek {op : PayoutOp} {f : op.Res → PayoutJob α}
    {Ψ : Except PayoutError α → EscrowStore → Prop} (posed : Posed (.payout op) s)
    (goes : ∀ r s', PosesPayout hash i Ψ (f r).run s')
    (fails : ∀ fault s', Ψ (.error (.fault fault)) s') :
    PosesPayout hash i Ψ (op.ask >>= f).run s := by
  apply poses_except_bind.2
  refine ⟨posed, fun s' given _ => ?_⟩
  show Continues Ψ _ ((serveEscrow hash i (.payout op) given s').1.mapError .fault) _
  cases (serveEscrow hash i (.payout op) given s').1 with
  | ok r => exact goes r _
  | error fault => exact fails fault _

/-- A claim creates an intent for a milestone that is not released, or it creates none. -/
theorem poses_claim {sha256 : String → String} {input : PayoutIntentInput}
    {Ψ : Except PayoutError PayoutIntentResult → EscrowStore → Prop}
    (fresh : ∀ intent s', (∀ milestoneIndex ∈ input.milestoneIndex,
      ¬ s'.Released input.tradeId milestoneIndex) → Ψ (.ok ⟨intent, false⟩) s')
    (other : ∀ r s', (∀ intent, r ≠ .ok ⟨intent, false⟩) → Ψ r s') :
    PosesPayout hash i Ψ (claim sha256 input).run s := by
  have hfails (fault : Fault) (s' : EscrowStore) : Ψ (.error (.fault fault)) s' :=
    other _ s' fun intent h => by cases h
  have hexisting (s' : EscrowStore) :
      PosesPayout hash i Ψ (handleExisting (input.key sha256)).run s' := by
    refine poses_seek trivial (fun existing s'' => ?_) hfails
    by_cases hterminal : terminalStatuses.contains existing.status = true
    · rw [if_pos hterminal]
      exact other (.error (.duplicatePayout existing)) s'' fun intent h => by cases h
    · rw [if_neg hterminal]
      exact other (.ok ⟨existing, true⟩) s'' fun intent h => by cases h
  unfold claim
  apply poses_tryCatch.2
  apply poses_except_bind.2
  refine ⟨trivial, fun s' given hintime => ?_⟩
  dsimp only [serveEscrow, answer, Payouts.createIntent]
  cases hrow : s'.tables.intents (input.key sha256) with
  | some row =>
    cases given.connection with
    | heard => exact hexisting _
    | unheard | down => exact hfails .lost _
  | none =>
    cases hc : given.connection with
    | heard => exact fresh _ _ (hintime hc hrow)
    | unheard | down => exact hfails .lost _

theorem poses_releaseMilestone (config : PayoutConfig) (request : ReleaseRequest)
    (s : EscrowStore) :
    PosesPayout hash i (fun _ _ => True) (releaseMilestone config request).run s := by
  unfold releaseMilestone
  cases trimmed request.walletAddress with
  | none => trivial
  | some walletAddress =>
    refine poses_seek trivial (fun found s => ?_) fun _ _ => trivial
    cases found with
    | none => trivial
    | some trade =>
      dsimp only
      split
      · trivial
      split
      · trivial
      refine poses_seek trivial (fun schedule s => ?_) fun _ _ => trivial
      refine poses_seek trivial (fun now s => ?_) fun _ _ => trivial
      cases claimable schedule request.milestoneIndex now with
      | error e => trivial
      | ok milestone =>
        refine poses_except_bind.2 (poses_map.2 ?_)
        apply poses_claim
        · intro intent s hfree
          exact poses_seek (hfree _ rfl) (fun _ _ => trivial) fun _ _ => trivial
        · rintro (error | ⟨intent, duplicate⟩) s hold
          · cases error <;> trivial
          · cases duplicate with
            | false => exact absurd rfl (hold intent)
            | true => trivial

theorem poses_escrow {op : EscrowOp} {f : op.Res → ScheduleJob α}
    {Ψ : Except Fault α → EscrowStore → Prop} (posed : Posed op s)
    (goes : ∀ r s', Poses (serveEscrow hash i) EscrowOp.InTime Posed Ψ (f r).run s')
    (fails : ∀ fault s', Ψ (.error fault) s') :
    Poses (serveEscrow hash i) EscrowOp.InTime Posed Ψ (op.ask >>= f).run s := by
  apply poses_except_bind.2
  refine ⟨posed, fun s' given _ => ?_⟩
  show Continues Ψ _ (serveEscrow hash i op given s').1 _
  cases (serveEscrow hash i op given s').1 with
  | ok r => exact goes r _
  | error fault => exact fails fault _

theorem poses_createMilestones {tradeId : String} {f : List MilestoneRow → ScheduleJob α}
    {Ψ : Except Fault α → EscrowStore → Prop} (milestones : List MilestoneBody)
    (created : List MilestoneRow)
    (goes : ∀ rows s', Poses (serveEscrow hash i) EscrowOp.InTime Posed Ψ (f rows).run s')
    (fails : ∀ fault s', Ψ (.error fault) s') :
    Poses (serveEscrow hash i) EscrowOp.InTime Posed Ψ
      (createMilestones tradeId milestones created >>= f).run s := by
  induction milestones generalizing created s with
  | nil => exact goes _ _
  | cons m rest ih =>
    have hloop : (createMilestones tradeId (m :: rest) created >>= f) =
        (EscrowOp.createMilestone (m.row tradeId)).ask >>= fun record =>
          createMilestones tradeId rest (created ++ [record]) >>= f := ask_bind_bind
    rw [hloop]
    exact poses_escrow rfl (fun record s' => ih _) fails

theorem poses_postSchedule (config : PayoutConfig) (request : ScheduleRequest) (s : EscrowStore) :
    Poses (serveEscrow hash i) EscrowOp.InTime Posed (fun _ _ => True)
      (postSchedule config request).run s := by
  unfold postSchedule
  cases trimmed request.walletAddress with
  | none => trivial
  | some walletAddress =>
    refine poses_escrow trivial (fun found s => ?_) fun _ _ => trivial
    cases found with
    | none => trivial
    | some trade =>
      dsimp only
      split
      · trivial
      split
      · trivial
      refine poses_escrow trivial (fun _ s => ?_) fun _ _ => trivial
      refine poses_createMilestones _ _ (fun created s => ?_) fun _ _ => trivial
      exact poses_escrow trivial (fun _ _ => trivial) fun _ _ => trivial

theorem poses_job (config : PayoutConfig) (i : Nat) (call : EscrowCall) (s : EscrowStore) :
    Poses ((escrows config).serve i) EscrowOp.InTime Posed (fun _ _ => True)
      ((escrows config).program call) s := by
  cases call with
  | releaseMilestone request =>
    exact poses_map.2 (poses_payoutJob.2 (poses_releaseMilestone config request s))
  | postSchedule request => exact poses_map.2 (poses_postSchedule config request s)

end Jobs

/-! ## Both routes side by side -/

section Together

variable {config : PayoutConfig} {w : EscrowWorld} {a : EscrowStep} {tradeId : String}
  {milestoneIndex : Nat}

/-- What an unhurried step releases was released, or its release is confirmed now. -/
theorem released_step (poses : w.Poses (escrows config) EscrowOp.InTime Posed)
    (unhurried : Unhurried w a) :
    (step (escrows config) w a).shared.Released tradeId milestoneIndex ↔
      w.shared.Released tradeId milestoneIndex ∨
        (∃ time, a = .outside (.released tradeId milestoneIndex time)) ∧
          ∃ row ∈ w.shared.rows, row.Is tradeId milestoneIndex := by
  have hsame {s' : EscrowStore} (hrows : s'.rows = w.shared.rows)
      (hnot : ∀ time, a ≠ .outside (.released tradeId milestoneIndex time)) :
      s'.Released tradeId milestoneIndex ↔ w.shared.Released tradeId milestoneIndex ∨
        (∃ time, a = .outside (.released tradeId milestoneIndex time)) ∧
          ∃ row ∈ w.shared.rows, row.Is tradeId milestoneIndex := by
    rw [or_iff_left fun h => h.1.elim hnot]
    exact released_congr fun row _ => by rw [hrows]
  cases a with
  | call c => exact hsame rfl fun time h => by cases h
  | crash i =>
    refine hsame ?_ fun time h => by cases h
    rw [step]
    split <;> rfl
  | advance i given =>
    obtain hstill | hmoves := step_moves (escrows config) w (.advance i given)
    · rw [hstill]
      exact hsame rfl fun time h => by cases h
    generalize step (escrows config) w (.advance i given) = w' at hmoves
    cases hmoves with
    | advance _ _ c op next found workers shared =>
      rw [shared, or_iff_left fun h => h.1.elim fun time h => by cases h]
      exact released_serve (unhurried c op next found) (poses.waits found)
  | outside e =>
    cases e with
    | elapse ms => exact hsame rfl fun time h => by cases h
    | edit trades => exact hsame rfl fun time h => by cases h
    | released confirmed index time =>
      refine released_confirmed.trans (or_congr_right (and_congr_left fun _ => ?_))
      constructor
      · rintro ⟨rfl, rfl⟩
        exact ⟨time, rfl⟩
      · rintro ⟨_, h⟩
        cases h
        exact ⟨rfl, rfl⟩

theorem poses_step (poses : w.Poses (escrows config) EscrowOp.InTime Posed)
    (unhurried : Unhurried w a) :
    (step (escrows config) w a).Poses (escrows config) EscrowOp.InTime Posed := by
  apply poses.step
  · rintro i given c op next rfl found
    exact unhurried c op next found
  · intro i c op next found posed
    cases op with
    | createMilestone row => exact posed
    | deleteMilestones tradeId => trivial
    | payout op =>
      cases op with
      | buildReleaseMilestoneTx tradeId source milestoneIndex =>
        intro hreleased
        obtain hbefore | ⟨⟨time, rfl⟩, hrow⟩ := (released_step poses unhurried).1 hreleased
        · exact posed hbefore
        · have hnot := unhurried hrow _ (List.mem_of_getElem? found)
          rw [waitsToBuild_iff.2 ⟨source, next, rfl⟩] at hnot
          cases hnot
      | now | createIntent _ _ | updateIntent _ _ | findUnresolved _ _ | lookup _ | findTrade _ _
      | findSchedule _ => trivial
  · exact fun i c s => poses_job config i c s

end Together

/-- However the routes are called side by side: where no schedule request deletes a released
milestone, and no payout is claimed or built across a release, milestones stay released. -/
theorem stays_released (config : PayoutConfig) (s : EscrowStore) (as : List EscrowStep)
    (unhurried : ∀ p ∈ trail (escrows config) (.fresh s) as, Unhurried p.1 p.2) :
    StaysReleased config s as := by
  have hposes {bs : List EscrowStep} (hbs : bs <+: as) :
      (run (escrows config) (.fresh s) bs).Poses (escrows config) EscrowOp.InTime Posed := by
    apply Machine.run_invariant (step (escrows config))
    · rintro i c job ⟨⟩
    · rintro ⟨w, a⟩ hp hposes
      exact poses_step hposes (unhurried _ (Machine.trail_of_isPrefix _ hbs hp))
  have hstays {before later : List EscrowStep} (hbefore : before <+: later) (hlater : later <+: as)
      {tradeId : String} {milestoneIndex : Nat}
      (hreleased : (run (escrows config) (.fresh s) before).shared.Released tradeId milestoneIndex) :
      (run (escrows config) (.fresh s) later).shared.Released tradeId milestoneIndex := by
    obtain ⟨more, rfl⟩ := hbefore
    rw [run, Machine.run_append]
    refine (Machine.run_invariant (step (escrows config))
      (P := fun w => w.Poses (escrows config) EscrowOp.InTime Posed ∧
        w.shared.Released tradeId milestoneIndex)
      ⟨hposes ((List.prefix_append before more).trans hlater), hreleased⟩ ?_).2
    rintro ⟨w, a⟩ hp ⟨hw, hstill⟩
    have hunhurried : Unhurried w a := by
      refine unhurried (w, a) (Machine.trail_of_isPrefix _ hlater ?_)
      rw [Machine.trail_append]
      exact List.mem_append_right _ hp
    exact ⟨poses_step hw hunhurried, (released_step hw hunhurried).2 (.inl hstill)⟩
  refine ⟨fun before later hbefore hlater _ _ => hstays hbefore hlater, ?_⟩
  rintro before later a hbefore hlater tradeId milestoneIndex hreleased
    ⟨i, given, xdr, rfl, -, ⟨c, job⟩, found, waits⟩
  have hlater' : later <+: as := (List.prefix_append later _).trans hlater
  obtain ⟨source, next, rfl⟩ := waitsToBuild_iff.1 waits
  exact (hposes hlater').waits found (hstays hbefore hlater' hreleased)

namespace Sample

/-- A trade without a schedule. -/
def unscheduled : EscrowStore := ⟨unpaid, []⟩

def scheduleOf (amountUsdc : String) (accepted : createScheduleBodySchema
    [⟨0, amountUsdc, 0, none⟩] = true) : EscrowStep :=
  .call (.postSchedule ⟨"7", some "gbuyer", ⟨[⟨0, amountUsdc, 0, none⟩], accepted⟩⟩)

/-- Worker `i` goes on for `n` answers. -/
def escrowSteps (n i : Nat) : List EscrowStep := List.replicate n (.advance i reached)

/-- The buyer sets a schedule, and the milestone is released. -/
def paidOnce : List EscrowStep :=
  scheduleOf "100" (by decide +kernel) :: escrowSteps 4 0 ++
    .call (.releaseMilestone (request "k")) :: escrowSteps 5 1 ++ [.outside (.released "7" 0 0)]

/-- Then the milestone is requested again. -/
def requestedAgain : List EscrowStep :=
  paidOnce ++ .call (.releaseMilestone (request "j")) :: escrowSteps 5 2

/-- Then the buyer sets the schedule again, and requests the milestone under another key. -/
def scheduledAgain : List EscrowStep :=
  paidOnce ++ scheduleOf "100" (by decide +kernel) :: escrowSteps 4 2 ++
    .call (.releaseMilestone (request "j")) :: escrowSteps 4 3

end Sample

theorem stays_released_requested_again :
    StaysReleased Sample.payoutConfig Sample.unscheduled Sample.requestedAgain :=
  stays_released _ _ _ (by decide +kernel)

/-- The schedule is set again, and a second transaction is built. -/
theorem not_staysReleased :
    ¬ StaysReleased Sample.payoutConfig Sample.unscheduled
      (Sample.scheduledAgain ++ [.advance 3 Sample.reached]) := by
  intro h
  apply h.unpaid Sample.paidOnce Sample.scheduledAgain (.advance 3 Sample.reached)
    ⟨_, (List.append_assoc ..).symm⟩ (List.prefix_refl _) "7" 0
  · decide +kernel
  · exact ⟨3, Sample.reached, "xdr", rfl, rfl, by decide +kernel⟩

end Amana.Backend
