import Amana.Backend.Workers

/-!
# The versions of disputes

Mediators, the listener and the parties work on disputes side by side.  Each of them looks at a row,
and writes it if it still is as required.  So every change that is committed moves a dispute along an
edge of the workflow (`disputes_versioned`): closed disputes stay as they are, the version counts
the changes, and exactly the closed disputes are dated.
-/

namespace Amana.Backend

open Lib Lib.Database
open Lib.ReadCommitted (Task World Activity Config Changes)

/-! ## Edges of the workflow -/

/-- A change by a mediator or by the chain. -/
structure DisputeRow.Moves (old new : DisputeRow) : Prop where
  status : new.status ∈ getAllowedTransitions old.status ∨
    (old.status = .opened ∨ old.status = .underReview) ∧ new.status = .resolved
  version : new.version = old.version + 1
  closing : isTerminalDisputeStatus new.status = true → new.resolvedAt ≠ none
  staying : isTerminalDisputeStatus new.status = false → new.resolvedAt = old.resolvedAt

/-- A dispute that has just been opened. -/
structure DisputeRow.New (row : DisputeRow) : Prop where
  status : row.status = .opened
  version : row.version = 0
  resolvedAt : row.resolvedAt = none

/-- A dispute is opened, or moved along an edge. -/
def DisputeEdge : (k : Key) → Option (Row k) → Option (Row k) → Prop
  | .dispute _, none, some new => DisputeRow.New new
  | .dispute _, some old, some new => DisputeRow.Moves old new
  | .dispute _, _, none => False
  | _, _, _ => True

def IsDispute : Key → Prop
  | .dispute _ => True
  | _ => False

theorem DisputeRow.moves_resolve {row : DisputeRow} (now : Nat)
    (active : row.status = .opened ∨ row.status = .underReview) : row.Moves (row.resolve now) where
  status := .inr ⟨active, rfl⟩
  version := rfl
  closing := fun _ => by simp [DisputeRow.resolve]
  staying := fun h => by cases h

/-- No edge leads away from a closed dispute. -/
theorem DisputeRow.Moves.active {old new : DisputeRow} (h : old.Moves new) :
    isTerminalDisputeStatus old.status = false := by
  rcases h.status with hallowed | ⟨hactive | hactive, -⟩
  · cases hstatus : old.status with
    | opened | underReview => rfl
    | resolved | closed =>
      rw [hstatus] at hallowed
      cases hallowed
  · rw [hactive]
    rfl
  · rw [hactive]
    rfl

/-! ## Writers -/

theorem single_syncDisputeFromEvent (now : Nat) (event : ParsedEvent) (resolved : Bool) :
    (syncDisputeFromEvent now event resolved).Single IsDispute DisputeEdge := by
  refine Program.Avoids.bind_single (avoids_ask fun _ => rfl) fun existing => ?_
  refine single_ite (fun _ => single_ite (fun _ => ?_) fun _ => trivial)
    fun _ => single_ite (fun _ => ?_) fun _ => trivial
  · refine .bind (single_ask fun _ => ?_) fun _ => trivial
    intro row _ hrequired
    exact DisputeRow.moves_resolve now (.inl (of_decide_eq_true hrequired))
  · exact single_ask fun _ => ⟨rfl, rfl, rfl⟩

theorem single_dispatchEvent (now : Nat) (event : ParsedEvent) :
    (dispatchEvent now event).Single IsDispute DisputeEdge := by
  have htrade (payload : TradeRow) := avoids_applyStatusTransition (P := IsDispute)
    (fun _ => id) event payload
  unfold dispatchEvent
  cases event.eventType with
  | disputeInitiated | disputeResolved =>
    exact (htrade _).bind_single fun _ => single_syncDisputeFromEvent ..
  | streamClawback =>
    refine single_ite (fun _ => ?_) fun _ => trivial
    exact Program.Single.bind (single_ask fun h => h.elim) fun _ => trivial
  | _ => exact (htrade _).single

theorem single_transitionDisputeStatus (mediators : String → Bool) (now : Nat)
    (tradeId mediatorAddress : String) (newStatus : DisputeStatus) :
    (transitionDisputeStatus mediators now tradeId mediatorAddress newStatus).Single IsDispute
      DisputeEdge := by
  refine single_ite (fun _ => trivial) fun _ =>
    Program.Avoids.bind_single (avoids_ask fun _ => rfl) fun found => ?_
  cases found with
  | none => trivial
  | some dispute =>
    refine single_ite (fun _ => trivial) fun _ => ?_
    by_cases hallowed : newStatus ∈ getAllowedTransitions dispute.status
    · rw [assertValidTransition, if_pos hallowed]
      refine .bind (p := applyDisputeStatusTransition now tradeId dispute newStatus) ?_
        fun applied => ?_
      · refine .bind (single_ask fun _ => ?_) fun count => trivial
        intro row _ hrequired
        simp only [Bool.and_eq_true, decide_eq_true_eq] at hrequired
        refine ⟨.inl (by rw [hrequired.1]; exact hallowed), rfl, fun hterminal => ?_, fun hopen => ?_⟩
        · cases newStatus with
          | opened | underReview => cases hterminal
          | resolved | closed => simp [resolvedAtForStatus]
        · cases newStatus with
          | opened | underReview => simp [resolvedAtForStatus]
          | resolved | closed => cases hopen
      · refine .bind (avoids_ite trivial trivial) fun _ => .bind (avoids_ask fun _ => rfl) ?_
        rintro (_ | updated)
        · trivial
        · trivial
    · rw [assertValidTransition, if_neg hallowed]
      trivial

theorem single_syncDisputeResolvedFromChain (now : Nat) (tradeId : String) :
    (syncDisputeResolvedFromChain now tradeId).Single IsDispute DisputeEdge := by
  refine Program.Avoids.bind_single (avoids_ask fun _ => rfl) fun dispute => ?_
  cases dispute with
  | none => trivial
  | some dispute =>
    refine single_ite (fun _ => trivial) fun _ => .bind (single_ask fun _ => ?_) fun count => ?_
    · intro row _ hrequired
      simp only [Bool.and_eq_true, Bool.or_eq_true, decide_eq_true_eq] at hrequired
      exact DisputeRow.moves_resolve now hrequired.1
    · exact avoids_ite trivial trivial

theorem single_syncDisputeInitiatedFromChain (tradeId initiator : String) :
    (syncDisputeInitiatedFromChain tradeId initiator).Single IsDispute DisputeEdge := by
  refine Program.Avoids.bind_single (avoids_ask fun _ => rfl) fun existing => ?_
  exact single_ite (fun _ => single_ask fun _ => ⟨rfl, rfl, rfl⟩) fun _ => trivial

theorem single_initiateDispute (request : DisputeRequest) :
    (initiateDispute request).Single IsDispute DisputeEdge := by
  refine Program.Avoids.bind_single (avoids_ask fun _ => rfl) fun found => ?_
  cases found with
  | none => trivial
  | some trade =>
    refine single_ite (fun _ => trivial) fun _ => single_ite (fun _ => trivial) fun _ => ?_
    cases request.categoryId with
    | none => trivial
    | some categoryId =>
      exact single_ite (fun _ => trivial) fun _ => single_ask fun _ => ⟨rfl, rfl, rfl⟩

/-! ## Jobs -/

/-- What workers are set to do with disputes. -/
inductive DisputeJob where
  | backend (job : Job)
  | transition (mediators : String → Bool) (now : Nat) (tradeId mediatorAddress : String)
      (newStatus : DisputeStatus)
  | resolvedFromChain (now : Nat) (tradeId : String)
  | initiatedFromChain (tradeId initiator : String)

/-- A transaction whose result does not matter. -/
def inTransaction {α : Type} (body : Program Row α) : Work :=
  .transaction (do let _ ← body; return none) fun _ => .done

def DisputeJob.work : DisputeJob → Work
  | .backend job => job.work
  | .transition mediators now tradeId mediatorAddress newStatus =>
    inTransaction (transitionDisputeStatus mediators now tradeId mediatorAddress newStatus)
  | .resolvedFromChain now tradeId => inTransaction (syncDisputeResolvedFromChain now tradeId)
  | .initiatedFromChain tradeId initiator =>
    inTransaction (syncDisputeInitiatedFromChain tradeId initiator)

theorem single_inTransaction {α : Type} {body : Program Row α}
    (h : body.Single IsDispute DisputeEdge) : (inTransaction body).Single IsDispute DisputeEdge :=
  ⟨h.bind fun _ => trivial, fun _ => trivial⟩

theorem single_outboxTransaction (now : Nat) (event : ParsedEvent) :
    (outboxTransaction now event).Single IsDispute DisputeEdge := by
  refine Program.Avoids.bind_single (avoids_ask fun _ => rfl) fun current => ?_
  refine single_ite (fun _ => trivial) fun _ => (single_dispatchEvent now event).bind fun _ => ?_
  exact .bind (avoids_ask fun h => h.elim) fun _ => .bind (avoids_ask fun h => h.elim) fun _ => trivial

theorem single_recordOutboxFailure (config : ListenerConfig) (now : Nat) (key : EventKey)
    (outbox : OutboxRow) (fault : Fault) :
    (recordOutboxFailure config now key outbox fault).Single IsDispute DisputeEdge :=
  ⟨fun h => h.elim, fun _ => trivial⟩

theorem single_processOutboxEventAtomically (config : ListenerConfig) (now : Nat)
    (event : ParsedEvent) (outbox : OutboxRow) :
    (processOutboxEventAtomically config now event outbox).Single IsDispute DisputeEdge := by
  refine ⟨single_outboxTransaction now event, fun answer => ?_⟩
  match answer with
  | .ok _ => trivial
  | .error .unique =>
    refine ⟨fun h => h.elim, fun answer => ?_⟩
    cases answer with
    | ok row => trivial
    | error fault => apply single_recordOutboxFailure
  | .error .reference | .error .missing | .error .lost | .error (.raised _) =>
    apply single_recordOutboxFailure

theorem single_processEvent (config : ListenerConfig) (now : Nat) (event : ParsedEvent) :
    (processEvent config now event).Single IsDispute DisputeEdge := by
  refine ⟨fun h => h.elim, fun found => ?_⟩
  match found with
  | .error _ => trivial
  | .ok (some _) => trivial
  | .ok none =>
    refine ⟨fun h => h.elim, fun answer => ?_⟩
    match answer with
    | .error _ => trivial
    | .ok outbox =>
      by_cases hready : isOutboxReadyForAttempt now outbox = true
      · simp only [hready, if_true]
        exact single_processOutboxEventAtomically config now event outbox
      · simp only [hready]
        trivial

theorem single_work (job : Job) : job.work.Single IsDispute DisputeEdge := by
  have havoids {task : Work} (h : task.Avoids IsDispute fun _ => True) :
      task.Single IsDispute DisputeEdge := h.single
  cases job with
  | processEvent config now event => exact single_processEvent config now event
  | processEventAtomically now event =>
    exact ⟨(single_dispatchEvent now event).bind fun _ =>
      .bind (avoids_ask fun h => h.elim) fun _ => trivial, fun _ => trivial⟩
  | replayOutbox now key =>
    refine ⟨fun h => h.elim, fun found => ?_⟩
    match found with
    | .ok (some _) => exact ⟨fun h => h.elim, fun _ => trivial⟩
    | .ok none => trivial
    | .error _ => trivial
  | sweepExpiredTrades now tradeIds =>
    exact havoids (avoids_sweepExpiredTrades (fun _ => id) now tradeIds [])
  | batchStatus updates => exact havoids (avoids_batchStatus (fun _ => id) updates)
  | createPendingTrade tradeId buyer seller amount =>
    exact ⟨fun h => h.elim, fun _ => trivial⟩
  | initiateDispute request => exact Task.single_ofProgram (single_initiateDispute request)

theorem single_disputeWork (job : DisputeJob) : job.work.Single IsDispute DisputeEdge := by
  cases job with
  | backend job => exact single_work job
  | transition => exact single_inTransaction (single_transitionDisputeStatus ..)
  | resolvedFromChain => exact single_inTransaction (single_syncDisputeResolvedFromChain ..)
  | initiatedFromChain => exact single_inTransaction (single_syncDisputeInitiatedFromChain ..)

/-! ## Runs -/

/-- New workers do these jobs, or something else that writes no disputes. -/
def StaffsDisputes : Activity Row (Option EventKey) → Prop
  | .spawn task => (∃ job : DisputeJob, task = job.work) ∨ task.Avoids IsDispute fun _ => True
  | _ => True

theorem single_of_staffs {a : Activity Row (Option EventKey)} (staffs : StaffsDisputes a)
    (task : Work) (spawned : a = .spawn task) : task.Single IsDispute DisputeEdge := by
  subst spawned
  obtain ⟨job, rfl⟩ | havoids := staffs
  · exact single_disputeWork job
  · exact havoids.single

/-- The dispute of a trade, as it is committed. -/
def disputeIn (w : World Row (Option EventKey)) (tradeId : String) : Option DisputeRow :=
  w.config.db (.dispute tradeId)

/-- Whether a step changes a dispute that is there. -/
def disputeChanges (tradeId : String) (w : World Row (Option EventKey))
    (a : Activity Row (Option EventKey)) : Nat :=
  if (disputeIn w tradeId).isSome ∧ disputeIn (ReadCommitted.step w a) tradeId ≠ disputeIn w tradeId then
    1
  else 0

variable {c : Config Row (Option EventKey)} {as : List (Activity Row (Option EventKey))}

theorem single_run (staffs : ∀ a ∈ as, StaffsDisputes a) :
    (Machine.run ReadCommitted.step ⟨c, []⟩ as).Single IsDispute DisputeEdge := by
  refine Machine.run_invariant ReadCommitted.step
    (P := fun w : World Row (Option EventKey) => w.Single IsDispute DisputeEdge) (.start c) ?_
  rintro ⟨w, a⟩ hp hw
  have hmem := Machine.mem_of_mem_trail ReadCommitted.step hp
  exact (hw.step (single_of_staffs (staffs a hmem))).1

/-- A step that changes a dispute goes along an edge. -/
theorem edge_of_step (staffs : ∀ a ∈ as, StaffsDisputes a) (tradeId : String) :
    ∀ p ∈ Machine.trail ReadCommitted.step ⟨c, []⟩ as,
      disputeIn (ReadCommitted.step p.1 p.2) tradeId ≠ disputeIn p.1 tradeId →
        DisputeEdge (.dispute tradeId) (disputeIn p.1 tradeId)
          (disputeIn (ReadCommitted.step p.1 p.2) tradeId) := by
  rintro ⟨w, a⟩ hp hchanged
  obtain ⟨bs, cs, rfl, rfl⟩ := Machine.exists_append_of_mem_trail ReadCommitted.step hp
  have hsingle := single_run (c := c) fun b hb => staffs b (List.mem_append_left _ hb)
  have hchanges := (hsingle.step (single_of_staffs (staffs a (by simp)))).2 (.dispute tradeId) trivial
  exact hchanges.resolve_left hchanged

/-- A dispute that is there has as many changes as its version says, and is dated exactly when it is
closed. -/
structure Versioned (changes : Nat) (row : DisputeRow) : Prop where
  version : row.version = changes
  dated : row.resolvedAt ≠ none ↔ isTerminalDisputeStatus row.status = true

theorem versioned_run (new : ∀ tradeId, c.db (.dispute tradeId) = none)
    (staffs : ∀ a ∈ as, StaffsDisputes a) (tradeId : String) :
    match disputeIn (Machine.run ReadCommitted.step ⟨c, []⟩ as) tradeId with
    | none => Machine.tally ReadCommitted.step (disputeChanges tradeId) ⟨c, []⟩ as = 0
    | some row =>
      Versioned (Machine.tally ReadCommitted.step (disputeChanges tradeId) ⟨c, []⟩ as) row := by
  induction as using List.reverseRecOn with
  | nil =>
    rw [Machine.run_nil, disputeIn, new tradeId]
    rfl
  | append_singleton as a ih =>
    replace ih := ih fun b hb => staffs b (List.mem_append_left _ hb)
    have hedge := edge_of_step (c := c) staffs tradeId
      (Machine.run ReadCommitted.step ⟨c, []⟩ as, a) (by simp)
    simp only [Machine.run_snoc, Machine.tally_snoc]
    generalize Machine.run ReadCommitted.step ⟨c, []⟩ as = w at ih hedge ⊢
    by_cases hsame : disputeIn (ReadCommitted.step w a) tradeId = disputeIn w tradeId
    · have hzero : disputeChanges tradeId w a = 0 := if_neg fun h => h.2 hsame
      rw [hsame, hzero, Nat.add_zero]
      exact ih
    · replace hedge := hedge hsame
      have hsome : ∃ row, disputeIn (ReadCommitted.step w a) tradeId = some row := by
        cases hnew : disputeIn (ReadCommitted.step w a) tradeId with
        | none =>
          rw [hnew] at hedge
          cases hold : disputeIn w tradeId <;> rw [hold] at hedge <;> exact hedge.elim
        | some row => exact ⟨row, rfl⟩
      obtain ⟨row, hrow⟩ := hsome
      rw [disputeChanges]
      rw [hrow] at hedge hsame ⊢
      cases hold : disputeIn w tradeId with
      | none =>
        rw [hold] at ih hedge
        refine ⟨?_, ?_⟩
        · rw [hedge.version, ih]
          rfl
        · rw [hedge.status, hedge.resolvedAt]
          decide
      | some old =>
        rw [hold] at ih hedge hsame
        refine ⟨?_, ?_⟩
        · rw [hedge.version, ih.version, if_pos ⟨rfl, hsame⟩]
        · cases hterminal : isTerminalDisputeStatus row.status with
          | true => exact iff_of_true (hedge.closing hterminal) rfl
          | false =>
            rw [hedge.staying hterminal, ih.dated, hedge.active]

/-- A closed dispute stays as it is. -/
theorem closed_stays (staffs : ∀ a ∈ as, StaffsDisputes a) {tradeId : String}
    {bs : List (Activity Row (Option EventKey))} (before : bs <+: as) {row : DisputeRow}
    (there : disputeIn (Machine.run ReadCommitted.step ⟨c, []⟩ bs) tradeId = some row)
    (terminal : isTerminalDisputeStatus row.status = true) :
    disputeIn (Machine.run ReadCommitted.step ⟨c, []⟩ as) tradeId = some row := by
  obtain ⟨cs, rfl⟩ := before
  rw [Machine.run_append]
  refine Machine.run_invariant ReadCommitted.step
    (P := fun w => disputeIn w tradeId = some row) there fun p hp hrow => ?_
  by_contra hchanged
  have hedge := edge_of_step (c := c) staffs tradeId p
    (by rw [Machine.trail_append]; exact List.mem_append_right _ hp) (hrow ▸ hchanged)
  rw [hrow] at hedge
  cases hnew : disputeIn (ReadCommitted.step p.1 p.2) tradeId with
  | none =>
    rw [hnew] at hedge
    exact hedge
  | some new =>
    rw [hnew] at hedge
    have hactive : isTerminalDisputeStatus row.status = false := hedge.active
    rw [terminal] at hactive
    cases hactive

/-- Whatever is done side by side: every change of a dispute that is committed goes along an edge of
the workflow, its version is the number of these changes, it is dated exactly when it is closed, and
once it is closed it stays as it is. -/
theorem disputes_versioned (new : ∀ tradeId, c.db (.dispute tradeId) = none)
    (staffs : ∀ a ∈ as, StaffsDisputes a) (tradeId : String) :
    (∀ p ∈ Machine.trail ReadCommitted.step ⟨c, []⟩ as,
      disputeIn (ReadCommitted.step p.1 p.2) tradeId ≠ disputeIn p.1 tradeId →
        DisputeEdge (.dispute tradeId) (disputeIn p.1 tradeId)
          (disputeIn (ReadCommitted.step p.1 p.2) tradeId)) ∧
    (∀ row, disputeIn (Machine.run ReadCommitted.step ⟨c, []⟩ as) tradeId = some row →
      Versioned (Machine.tally ReadCommitted.step (disputeChanges tradeId) ⟨c, []⟩ as) row) ∧
    ∀ bs, bs <+: as → ∀ row,
      disputeIn (Machine.run ReadCommitted.step ⟨c, []⟩ bs) tradeId = some row →
      isTerminalDisputeStatus row.status = true →
      disputeIn (Machine.run ReadCommitted.step ⟨c, []⟩ as) tradeId = some row := by
  refine ⟨edge_of_step staffs tradeId, fun row hrow => ?_, fun bs before row there terminal =>
    closed_stays staffs before there terminal⟩
  have hversioned := versioned_run new staffs tradeId
  rw [hrow] at hversioned
  exact hversioned

namespace Sample

/-- Worker `i` comes up with a job on disputes, and does `n` steps of it. -/
def workOnDispute (job : DisputeJob) (i n : Nat) : List (Activity Row (Option EventKey)) :=
  .spawn job.work :: goOn i n

/-- The mediator's move to a status. -/
def moveTo (newStatus : DisputeStatus) : DisputeJob :=
  .transition (· = "GMED") 7 (toString Escrow.Sample.first) "GMED" newStatus

/-- A dispute is opened on the chain and taken under review.  Two mediators close it side by side,
and the second one finds it changed. -/
def reviewed : List (Activity Row (Option EventKey)) :=
  workOnDispute (.backend (.processEventAtomically 0 (chainEvent 1 .disputeInitiated))) 0 8 ++
    workOnDispute (moveTo .underReview) 1 6 ++ workOnDispute (moveTo .resolved) 2 2 ++
    workOnDispute (moveTo .closed) 3 2 ++ goOn 2 4 ++ goOn 3 4

theorem staffsDisputes_workOn (job : DisputeJob) (i n : Nat) :
    ∀ a ∈ workOnDispute job i n, StaffsDisputes a := by
  refine List.forall_mem_cons.2 ⟨.inl ⟨job, rfl⟩, fun a ha => ?_⟩
  rw [List.eq_of_mem_replicate ha]
  trivial

theorem staffsDisputes_goOn (i n : Nat) : ∀ a ∈ goOn i n, StaffsDisputes a := by
  intro a ha
  rw [List.eq_of_mem_replicate ha]
  trivial

end Sample

theorem disputes_versioned_of_reviewed :
    (disputeIn (Machine.run ReadCommitted.step ⟨⟨Sample.fundedTrade, []⟩, []⟩ Sample.reviewed)
        (toString Escrow.Sample.first)).map (fun row => (row.status, row.version)) =
      some (.resolved, 2) ∧
    ∀ row, disputeIn (Machine.run ReadCommitted.step ⟨⟨Sample.fundedTrade, []⟩, []⟩
        Sample.reviewed) (toString Escrow.Sample.first) = some row →
      Versioned (Machine.tally ReadCommitted.step (disputeChanges (toString Escrow.Sample.first))
        ⟨⟨Sample.fundedTrade, []⟩, []⟩ Sample.reviewed) row := by
  have hstaffs : ∀ a ∈ Sample.reviewed, StaffsDisputes a := by
    simp only [Sample.reviewed, List.forall_mem_append]
    exact ⟨⟨⟨⟨⟨Sample.staffsDisputes_workOn _ _ _, Sample.staffsDisputes_workOn _ _ _⟩,
      Sample.staffsDisputes_workOn _ _ _⟩, Sample.staffsDisputes_workOn _ _ _⟩,
      Sample.staffsDisputes_goOn _ _⟩, Sample.staffsDisputes_goOn _ _⟩
  exact ⟨by decide +kernel, (disputes_versioned Sample.fundedTrade_dispute hstaffs
    (toString Escrow.Sample.first)).2.1⟩

end Amana.Backend
