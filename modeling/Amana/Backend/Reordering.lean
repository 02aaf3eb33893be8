import Amana.Backend.ChainStatus
import Mathlib.Data.List.Permutation

/-!
# Processing out of order

An event whose handler fails is tried again after later events of the same trade.  The row ends up
where it does in order exactly when no event comes before one it waits for (`sameOutcome_iff`): an
event that comes too early is dropped, and recorded as processed.
-/

namespace Amana.Backend

open Lib Lib.Database
open Escrow (Address Milestone Action IssuedOnce milestonesOf courses)

variable {refs : References} {db : Db Row} {d : Delivery} {ds inOrder order : List Delivery}
  {k : String} {ts os : List EventType}

/-! ## Folding the events of a trade -/

/-- Each event goes through when its turn comes.  Attempts that fail change nothing, and are left
out. -/
def Commits (refs : References) : Db Row → List Delivery → Prop
  | _, [] => True
  | db, d :: ds =>
    ((dispatchEvent d.now d.event).exec refs.valid db).isOk = true ∧
      Commits refs (process refs db d) ds

theorem rejected_of_isOk (type : d.event.eventType ≠ .streamClawback)
    (h : ((dispatchEvent d.now d.event).exec refs.valid db).isOk = true) :
    rejected refs db d.event = false := by
  rw [exec_dispatchEvent type] at h
  by_contra hrejected
  rw [if_pos (by simpa using hrejected)] at h
  cases h

theorem tradeStatus_processAll (about : About k ds) (commits : Commits refs db ds) :
    tradeStatus (processAll refs db ds) k =
      (ds.map (·.event.eventType)).foldl follow (tradeStatus db k) := by
  induction ds generalizing db with
  | nil => rfl
  | cons d ds ih =>
    obtain ⟨rfl, type⟩ := about d (List.mem_cons_self ..)
    have hrest := ih (fun d hd => about d (List.mem_cons_of_mem _ hd)) commits.2
    rw [tradeStatus_process type (rejected_of_isOk type commits.1)] at hrest
    exact hrest

/-- A dispute without the time of its resolution. -/
def DisputeRow.timeless (row : DisputeRow) : DisputeRow :=
  { row with resolvedAt := row.resolvedAt.map fun _ => 0 }

theorem timeless_syncedDispute (now : Nat) (event : ParsedEvent) (row : Option DisputeRow) :
    (syncedDispute now event row).map DisputeRow.timeless =
      syncedDispute 0 event (row.map DisputeRow.timeless) := by
  unfold syncedDispute
  cases event.eventType with
  | disputeInitiated => cases row <;> rfl
  | disputeResolved =>
    cases row with
    | none => rfl
    | some row =>
      by_cases h : row.status = .opened <;> simp [h, DisputeRow.timeless, DisputeRow.resolve]
  | _ => rfl

theorem dispute_processAll (about : About k ds) (commits : Commits refs db ds) :
    (processAll refs db ds (.dispute k)).map DisputeRow.timeless =
      (ds.map (·.event)).foldl (fun row event => syncedDispute 0 event row)
        ((db (.dispute k)).map DisputeRow.timeless) := by
  induction ds generalizing db with
  | nil => rfl
  | cons d ds ih =>
    obtain ⟨rfl, type⟩ := about d (List.mem_cons_self ..)
    have hrest := ih (fun d hd => about d (List.mem_cons_of_mem _ hd)) commits.2
    rw [process_dispute type (rejected_of_isOk type commits.1), timeless_syncedDispute] at hrest
    exact hrest

/-! ## The status -/

/-- The events that are emitted after the first one to be processed are processed in the order of
their emission; where the funding is not among them, the first one is the creation. -/
def InStep (ts os : List EventType) : Prop :=
  if .tradeFunded ∈ ts then ∀ t ∈ os.head?, (ts.dropWhile (· ≠ t)).tail.Sublist os
  else os.head? = ts.head?

instance (ts os : List EventType) : Decidable (InStep ts os) :=
  inferInstanceAs (Decidable (if .tradeFunded ∈ ts then
    ∀ t ∈ os.head?, (ts.dropWhile (· ≠ t)).tail.Sublist os else os.head? = ts.head?))

theorem foldl_follow_iff {ms : List Milestone} (h : ms ∈ courses)
    (perm : os.Perm (ms.map milestoneType)) :
    os.foldl follow none = (ms.map milestoneType).foldl follow none ↔
      InStep (ms.map milestoneType) os := by
  have hall : ∀ ms ∈ courses, ∀ os ∈ (ms.map milestoneType).permutations',
      (os.foldl follow none = (ms.map milestoneType).foldl follow none ↔
        InStep (ms.map milestoneType) os) := by
    decide
  exact hall ms h os (List.mem_permutations'.2 perm)

/-- A row that waits for its signature goes on waiting. -/
theorem foldl_follow_pending (ts : List EventType) :
    ts.foldl follow (some .pendingSignature) = some .pendingSignature := by
  induction ts with
  | nil => rfl
  | cons t ts ih =>
    have hstays : follow (some .pendingSignature) t = some .pendingSignature := by
      cases t <;> rfl
    rw [List.foldl_cons, hstays, ih]

/-! ## The dispute -/

/-- The events that change a dispute. -/
def ParsedEvent.disputes (event : ParsedEvent) : Bool :=
  event.eventType = .disputeInitiated || event.eventType = .disputeResolved

/-- The other events can be left out. -/
theorem foldl_syncedDispute (events : List ParsedEvent) (row : Option DisputeRow) :
    events.foldl (fun row event => syncedDispute 0 event row) row =
      (events.filter ParsedEvent.disputes).foldl (fun row event => syncedDispute 0 event row)
        row := by
  induction events generalizing row with
  | nil => rfl
  | cons event events ih =>
    by_cases h : event.disputes = true
    · rw [List.filter_cons_of_pos h, List.foldl_cons, List.foldl_cons, ih]
    · have hsame : syncedDispute 0 event row = row := by
        unfold ParsedEvent.disputes at h
        unfold syncedDispute
        cases htype : event.eventType with
        | disputeInitiated | disputeResolved => exact absurd (by simp [htype]) h
        | _ => rfl
      rw [List.filter_cons_of_neg h, List.foldl_cons, hsame, ih]

/-- A dispute is initiated before it is resolved. -/
theorem disputes_of_course {ms : List Milestone} (h : ms ∈ courses) {events : List ParsedEvent}
    (types : events.map ParsedEvent.eventType = ms.map milestoneType) :
    events.filter ParsedEvent.disputes = [] ∨
      (∃ i, i.eventType = .disputeInitiated ∧ events.filter ParsedEvent.disputes = [i]) ∨
      ∃ i r, i.eventType = .disputeInitiated ∧ r.eventType = .disputeResolved ∧
        events.filter ParsedEvent.disputes = [i, r] := by
  have hall : ∀ ms ∈ courses, (ms.map milestoneType).filter
      (fun t => t = .disputeInitiated || t = .disputeResolved) ∈
        [[], [.disputeInitiated], [.disputeInitiated, .disputeResolved]] := by
    decide
  have hfilter := hall ms h
  rw [← types, List.filter_map] at hfilter
  change (events.filter ParsedEvent.disputes).map ParsedEvent.eventType ∈ _ at hfilter
  generalize events.filter ParsedEvent.disputes = found at hfilter
  simp only [List.mem_cons, List.not_mem_nil, or_false, List.map_eq_nil_iff,
    List.map_eq_cons_iff] at hfilter
  rcases hfilter with hnil | ⟨i, _, rfl, hi, rfl⟩ | ⟨i, _, rfl, hi, r, _, rfl, hr, rfl⟩
  · exact .inl hnil
  · exact .inr (.inl ⟨i, hi, rfl⟩)
  · exact .inr (.inr ⟨i, r, hi, hr, rfl⟩)

theorem sublist_disputes (events : List ParsedEvent) :
    [.disputeInitiated, .disputeResolved].Sublist (events.map ParsedEvent.eventType) ↔
      [.disputeInitiated, .disputeResolved].Sublist
        ((events.filter ParsedEvent.disputes).map ParsedEvent.eventType) := by
  constructor
  · intro h
    have hfilter := h.filter fun t => t = .disputeInitiated || t = .disputeResolved
    rw [List.filter_map] at hfilter
    exact hfilter
  · intro h
    exact h.trans (List.filter_sublist.map _)

/-- Where the order matters: there is no dispute yet, and both events are there. -/
theorem foldl_dispute_iff {ms : List Milestone} (h : ms ∈ courses)
    {events events' : List ParsedEvent}
    (types : events.map ParsedEvent.eventType = ms.map milestoneType)
    (perm : events'.Perm events) (row : Option DisputeRow) :
    events'.foldl (fun row event => syncedDispute 0 event row) row =
        events.foldl (fun row event => syncedDispute 0 event row) row ↔
      (row = none →
        [.disputeInitiated, .disputeResolved].Sublist (events.map ParsedEvent.eventType) →
        [.disputeInitiated, .disputeResolved].Sublist (events'.map ParsedEvent.eventType)) := by
  rw [foldl_syncedDispute events', foldl_syncedDispute events, sublist_disputes events,
    sublist_disputes events']
  have hperm := perm.filter ParsedEvent.disputes
  generalize events'.filter ParsedEvent.disputes = found' at hperm ⊢
  rcases disputes_of_course h types with hnil | ⟨i, hi, hone⟩ | ⟨i, r, hi, hr, hboth⟩
  · rw [hnil] at hperm ⊢
    rw [List.perm_nil.1 hperm]
    simp
  · rw [hone] at hperm ⊢
    rw [List.perm_singleton.1 hperm]
    simp
  · rw [hboth] at hperm ⊢
    have hmem := List.mem_permutations'.2 hperm
    simp only [List.permutations', List.permutations'Aux, List.flatMap_cons, List.flatMap_nil,
      List.map_cons, List.map_nil, List.append_nil, List.mem_cons, List.not_mem_nil,
      or_false] at hmem
    rcases hmem with rfl | rfl
    · simp
    · -- Resolved before it is initiated, a dispute stays open.
      have hnot : ¬ [EventType.disputeInitiated, .disputeResolved].Sublist
          [.disputeResolved, .disputeInitiated] := by decide
      cases row with
      | none => simp [syncedDispute, hi, hr, disputeOf, DisputeRow.resolve, hnot]
      | some row => simp [syncedDispute, hi, hr]

/-! ## Any order -/

/-- Trade `k` has the same status, and the same dispute up to the time it was resolved at. -/
def SameOutcome (k : String) (db db' : Db Row) : Prop :=
  tradeStatus db k = tradeStatus db' k ∧
    (db (.dispute k)).map DisputeRow.timeless = (db' (.dispute k)).map DisputeRow.timeless

/-- For every contract run and trade, and every order of its events: the outcome is that of
processing in order exactly when the order is in step, or there was a row that waits for its
signature, and a dispute that was not there before is not resolved before it is initiated. -/
theorem sameOutcome_iff {k : Nat} {tokens : Token.Ledger Address} {actions : List Action}
    (once : IssuedOnce tokens actions k)
    (relays : Relays k (milestonesOf k (Escrow.run tokens actions).events) inOrder)
    (perm : (order.map (·.event)).Perm (inOrder.map (·.event)))
    (start : tradeStatus db (toString k) = none ∨
      tradeStatus db (toString k) = some .pendingSignature)
    (commits : Commits refs db inOrder) (commits' : Commits refs db order) :
    SameOutcome (toString k) (processAll refs db order) (processAll refs db inOrder) ↔
      (tradeStatus db (toString k) = none →
        InStep (inOrder.map (·.event.eventType)) (order.map (·.event.eventType))) ∧
      (db (.dispute (toString k)) = none →
        [.disputeInitiated, .disputeResolved].Sublist (inOrder.map (·.event.eventType)) →
        [.disputeInitiated, .disputeResolved].Sublist (order.map (·.event.eventType))) := by
  have hcourse := (Escrow.course_run once).mem_courses
  have habout' : About (toString k) order := by
    intro d hd
    have hmem : d.event ∈ inOrder.map (·.event) := perm.subset (List.mem_map_of_mem hd)
    obtain ⟨d', hd', heq⟩ := List.mem_map.1 hmem
    have habout := relays.about d' hd'
    rwa [heq] at habout
  have htypes : (inOrder.map (·.event)).map ParsedEvent.eventType = _ :=
    (List.map_map ..).trans relays.types
  unfold SameOutcome
  apply and_congr
  · rw [tradeStatus_processAll habout' commits', tradeStatus_processAll relays.about commits]
    rcases start with hnone | hpending
    · rw [hnone, relays.types, foldl_follow_iff hcourse]
      · simp
      · have hperm := perm.map ParsedEvent.eventType
        rwa [htypes, List.map_map] at hperm
    · rw [hpending, foldl_follow_pending, foldl_follow_pending]
      simp
  · rw [dispute_processAll habout' commits', dispute_processAll relays.about commits,
      foldl_dispute_iff hcourse htypes perm, List.map_map, List.map_map]
    simp [Function.comp_def]

/-- A run in which the first trade is created, funded and delivered. -/
def Sample.deliveredRun : List Action :=
  Escrow.Sample.funded ++
    [Escrow.Sample.call 4 Escrow.Sample.alice (.confirmDelivery Escrow.Sample.first)]

theorem Sample.relays_delivered :
    Relays Escrow.Sample.first (milestonesOf Escrow.Sample.first
        (Escrow.run Escrow.Sample.tokens Sample.deliveredRun).events)
      [Sample.delivery .tradeCreated, Sample.delivery .tradeFunded,
        Sample.delivery .deliveryConfirmed] :=
  ⟨by decide, by simp [Sample.delivery]⟩

/-- A row that waits for its signature does not notice the order. -/
theorem sameOutcome_of_pending :
    SameOutcome (toString Escrow.Sample.first)
      (processAll Sample.users Sample.pending [Sample.delivery .tradeCreated,
        Sample.delivery .deliveryConfirmed, Sample.delivery .tradeFunded])
      (processAll Sample.users Sample.pending [Sample.delivery .tradeCreated,
        Sample.delivery .tradeFunded, Sample.delivery .deliveryConfirmed]) := by
  have honce : IssuedOnce Escrow.Sample.tokens Sample.deliveredRun Escrow.Sample.first :=
    (Escrow.noReissue_of_creations_le (by decide)).issuedOnce _
  have hperm : ([Sample.delivery .tradeCreated, Sample.delivery .deliveryConfirmed,
      Sample.delivery .tradeFunded].map (·.event)).Perm ([Sample.delivery .tradeCreated,
        Sample.delivery .tradeFunded, Sample.delivery .deliveryConfirmed].map (·.event)) :=
    .cons _ (.swap ..)
  refine (sameOutcome_iff honce Sample.relays_delivered hperm (.inr (by decide))
    ?_ ?_).2 ⟨fun hnone => ?_, fun _ hsub => ?_⟩
  · exact ⟨by decide, by decide, by decide, trivial⟩
  · exact ⟨by decide, by decide, by decide, trivial⟩
  · exact absurd hnone (by decide)
  · exact absurd hsub (by decide)

/-- The funding fails at first, and is processed again after the delivery: the delivery is
dropped. -/
theorem not_sameOutcome_of_retry :
    (Relays Escrow.Sample.first (milestonesOf Escrow.Sample.first
        (Escrow.run Escrow.Sample.tokens Sample.deliveredRun).events)
      [Sample.delivery .tradeCreated, Sample.delivery .tradeFunded,
        Sample.delivery .deliveryConfirmed] ∧
      Commits Sample.users (fun _ => none) [Sample.delivery .tradeCreated,
        Sample.delivery .tradeFunded, Sample.delivery .deliveryConfirmed] ∧
      Commits Sample.users (fun _ => none) [Sample.delivery .tradeCreated,
        Sample.delivery .deliveryConfirmed, Sample.delivery .tradeFunded]) ∧
      ¬ SameOutcome (toString Escrow.Sample.first)
        (processAll Sample.users (fun _ => none) [Sample.delivery .tradeCreated,
          Sample.delivery .deliveryConfirmed, Sample.delivery .tradeFunded])
        (processAll Sample.users (fun _ => none) [Sample.delivery .tradeCreated,
          Sample.delivery .tradeFunded, Sample.delivery .deliveryConfirmed]) := by
  refine ⟨⟨Sample.relays_delivered, ?_, ?_⟩, ?_⟩
  · exact ⟨by decide, by decide, by decide, trivial⟩
  · exact ⟨by decide, by decide, by decide, trivial⟩
  · rintro ⟨hstatus, -⟩
    exact absurd hstatus (by decide)

end Amana.Backend
