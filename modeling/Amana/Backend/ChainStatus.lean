import Amana.Backend.Projection

/-!
# Contract runs in the database

The events of a contract run, handed to the backend in order.  A trade row depicts the on-chain
status as long as each change of it is announced by a milestone: the backend does not react to path
payments, cancellations, expiries and clawbacks (`depicts_of_quiet`), and where one of them comes
between two milestones the second is dropped.  A row that waits for its signature drops all of them
(`projects_run_iff`).
-/

namespace Amana.Backend

open Lib Lib.Database
open Escrow (Address Event Milestone State Action IssuedOnce milestonesOf announcements statusOf
  Announces Silent)

variable {refs : References} {db : Db Row} {d : Delivery} {ds : List Delivery} {k : Nat}
  {tokens : Token.Ledger Address} {actions : List Action}

/-- The type a milestone is decoded to. -/
def milestoneType : Milestone → EventType
  | .created => .tradeCreated
  | .funded => .tradeFunded
  | .delivered => .deliveryConfirmed
  | .released => .fundsReleased
  | .disputed => .disputeInitiated
  | .resolved => .disputeResolved

/-- The row status for a status on the chain; a cancelled trade may also be expired. -/
def image : Escrow.TradeStatus → TradeStatus
  | .created => .created
  | .funded => .funded
  | .delivered => .delivered
  | .completed => .completed
  | .disputed => .disputed
  | .cancelled => .cancelled

theorem eventToStatus_milestoneType (m : Milestone) :
    eventToStatus (milestoneType m) = some (image m.status) := by
  cases m <;> rfl

theorem milestoneType_ne_clawback (m : Milestone) : milestoneType m ≠ .streamClawback := by
  cases m <;> decide

theorem milestoneType_eq_tradeFunded {m : Milestone} :
    milestoneType m = .tradeFunded ↔ m = .funded := by
  cases m <;> decide

theorem handled_of_milestone {e : Event} {m : Milestone} (h : e.milestone = some (k, m)) :
    handled e = some (milestoneType m, k) := by
  cases e <;> cases h <;> rfl

/-- What is handled without being a milestone is a clawback. -/
theorem handled_of_no_milestone {e : Event} (h : e.milestone = none) :
    ∀ p ∈ handled e, p.1 = .streamClawback := by
  cases e with
  | tradeCreated | tradeFunded | deliveryConfirmed | fundsReleased | disputeInitiated
  | disputeResolved => cases h
  | _ => simp [handled]

/-! ## The events of one trade -/

/-- The deliveries are these milestones of trade `k`, in their order. -/
structure Relays (k : Nat) (ms : List Milestone) (ds : List Delivery) : Prop where
  types : ds.map (·.event.eventType) = ms.map milestoneType
  trade : ∀ d ∈ ds, d.event.tradeId = toString k

theorem Relays.about {ms : List Milestone} (h : Relays k ms ds) : About (toString k) ds := by
  intro d hd
  refine ⟨h.trade d hd, ?_⟩
  have hmem : d.event.eventType ∈ ms.map milestoneType := by
    rw [← h.types]
    exact List.mem_map_of_mem hd
  obtain ⟨m, -, hm⟩ := List.mem_map.1 hmem
  rw [← hm]
  exact milestoneType_ne_clawback m

/-- A milestone has the status the trade has when it is published. -/
theorem image_of_announced {before : List Action} {a : Action} {e : Event} {m : Milestone}
    {new : List Event}
    (hevents : (Escrow.run tokens (before ++ [a])).events =
      (Escrow.run tokens before).events ++ new)
    (he : e ∈ new) (hm : e.milestone = some (k, m)) :
    (statusOf (Escrow.run tokens (before ++ [a])) k).map image =
      eventToStatus (milestoneType m) := by
  obtain ⟨new', hevents', hannounces⟩ :=
    Escrow.step_announces (Escrow.wellFormed_run tokens before) a k
  rw [Escrow.run_snoc] at hevents ⊢
  obtain rfl := List.append_cancel_left (hevents.symm.trans hevents')
  have hmem : e ∈ announcements k new := Escrow.mem_announcements.2 ⟨he, m, hm⟩
  generalize announcements k new = es at hmem hannounces
  cases hannounces with
  | quiet => cases hmem
  | silent => cases hmem
  | milestone m' event status _ =>
    obtain rfl := List.mem_singleton.1 hmem
    obtain rfl : m = m' := congrArg Prod.snd (Option.some.inj (hm.symm.trans event))
    rw [status, eventToStatus_milestoneType]
    rfl

/-- In a course the milestones follow one another unless the funding is missing. -/
theorem expected_course_iff {ms : List Milestone} {status : Option Escrow.TradeStatus}
    (h : Escrow.Course ms status) :
    Expected none (ms.map milestoneType) ↔ ms.length ≤ 1 ∨ .funded ∈ ms := by
  have hall : ∀ ms ∈ Escrow.courses,
      (Expected none (ms.map milestoneType) ↔ ms.length ≤ 1 ∨ .funded ∈ ms) := by decide
  exact hall ms h.mem_courses

/-- For every contract run and trade, the events of the trade are projected exactly when the trade
has no row yet, its parties and the initiator of its dispute are registered, and every event is
expected after the one before it.  For a trade that is created once the last means that its
funding, if it went on, was a deposit. -/
theorem projects_run_iff (relays : Relays k (milestonesOf k (Escrow.run tokens actions).events) ds)
    (start : tradeStatus db (toString k) = none ∨
      tradeStatus db (toString k) = some .pendingSignature) :
    (Projects refs (toString k) db ds ↔
      ∀ d ∈ ds.head?, tradeStatus db (toString k) = none ∧
        refs.valid (.trade (toString k)) d.event.payload = true ∧
        Expected none (ds.map (·.event.eventType)) ∧ Signed refs (toString k) db ds) ∧
      (∀ before a e m new, before ++ [a] <+: actions →
        (Escrow.run tokens (before ++ [a])).events = (Escrow.run tokens before).events ++ new →
        e ∈ new → e.milestone = some (k, m) →
          (statusOf (Escrow.run tokens (before ++ [a])) k).map image =
            eventToStatus (milestoneType m)) ∧
      (IssuedOnce tokens actions k →
        (Expected none (ds.map (·.event.eventType)) ↔
          ds.length ≤ 1 ∨ ∃ d ∈ ds, d.event.eventType = .tradeFunded)) := by
  refine ⟨projects_iff relays.about start, ?_, ?_⟩
  · intro before a e m new _ hevents he hm
    exact image_of_announced hevents he hm
  · intro once
    have hlength : ds.length = (milestonesOf k (Escrow.run tokens actions).events).length := by
      simpa using congrArg List.length relays.types
    have hfunded : (∃ d ∈ ds, d.event.eventType = .tradeFunded) ↔
        .funded ∈ milestonesOf k (Escrow.run tokens actions).events := by
      have hmem : .tradeFunded ∈ ds.map (·.event.eventType) ↔ .tradeFunded ∈
          (milestonesOf k (Escrow.run tokens actions).events).map milestoneType := by
        rw [relays.types]
      simpa [milestoneType_eq_tradeFunded] using hmem
    rw [relays.types, expected_course_iff (Escrow.course_run once), hlength, hfunded]

/-- Users Alice and Bob. -/
def Sample.users : References where
  users u := u = "GALICE" || u = "GBOB"
  streams _ := false

/-- An event about the first trade of ledger 1, with the names of its parties. -/
def Sample.delivery (eventType : EventType) : Delivery where
  now := 0
  event :=
    { eventType
      tradeId := toString Escrow.Sample.first
      ledgerSequence := 1
      contractId := "C"
      eventId := "0-1"
      data := fun field =>
        if field = "buyer" then some (.string "GALICE")
        else if field = "seller" || field = "initiator" then some (.string "GBOB")
        else none }

/-- The row `createPendingTrade` writes. -/
def Sample.pending : Db Row :=
  Function.update (fun _ => none) (.trade (toString Escrow.Sample.first))
    (some ⟨"GALICE", "GBOB", "100", 0, .pendingSignature, none, none⟩)

/-- A trade that is funded by a deposit and disputed is projected from the start. -/
theorem projects_of_accused :
    Projects Sample.users (toString Escrow.Sample.first) (fun _ => none)
      [Sample.delivery .tradeCreated, Sample.delivery .tradeFunded,
        Sample.delivery .disputeInitiated] := by
  have relays : Relays Escrow.Sample.first (milestonesOf Escrow.Sample.first
      (Escrow.run Escrow.Sample.tokens Escrow.Sample.accused).events)
      [Sample.delivery .tradeCreated, Sample.delivery .tradeFunded,
        Sample.delivery .disputeInitiated] := ⟨by decide, by simp [Sample.delivery]⟩
  apply (projects_run_iff relays (.inl rfl)).1.2
  intro d hd
  obtain rfl : Sample.delivery .tradeCreated = d := by simpa using hd
  refine ⟨rfl, by decide, by decide, ?_⟩
  intro _ d hd
  obtain rfl : Sample.delivery .disputeInitiated = d := by simpa [Sample.delivery] using hd
  decide

/-- A pending row does not become a created one. -/
theorem not_projects_of_pending :
    Relays Escrow.Sample.first (milestonesOf Escrow.Sample.first
        (Escrow.run Escrow.Sample.tokens [Escrow.Sample.setup, Escrow.Sample.create none]).events)
        [Sample.delivery .tradeCreated] ∧
      tradeStatus Sample.pending (toString Escrow.Sample.first) = some .pendingSignature ∧
      tradeStatus (process Sample.users Sample.pending (Sample.delivery .tradeCreated))
        (toString Escrow.Sample.first) = some .pendingSignature ∧
      ¬ Projects Sample.users (toString Escrow.Sample.first) Sample.pending
        [Sample.delivery .tradeCreated] := by
  refine ⟨⟨by decide, by simp [Sample.delivery]⟩, by decide, by decide, ?_⟩
  rintro ⟨hcreated, -⟩
  exact absurd hcreated (by decide)

/-! ## Changes without an event the backend handles -/

/-- The step moves trade `k` without a milestone. -/
def SilentStep (k : Nat) (s : State) (a : Action) : Prop :=
  statusOf (Escrow.step s a) k ≠ statusOf s k ∧
    milestonesOf k (Escrow.step s a).events = milestonesOf k s.events

instance (k : Nat) (s : State) (a : Action) : Decidable (SilentStep k s a) :=
  inferInstanceAs (Decidable (_ ∧ _))

/-- Only a payment by path or a cancellation is silent. -/
theorem SilentStep.silent {s : State} {a : Action} (h : SilentStep k s a)
    (wf : Escrow.WellFormed s.toSettings s.toBooks) :
    Silent (statusOf s k) (statusOf (Escrow.step s a) k) := by
  cases Escrow.step_advances wf a k with
  | quiet same _ => exact absurd same h.1
  | silent moved _ => exact moved
  | create _ _ new => simp [h.2] at new
  | reach m _ _ _ _ new => simp [h.2] at new

/-- The status of the last of some events. -/
def lastStatus (old : Option TradeStatus) (ts : List EventType) : Option TradeStatus :=
  ts.foldl (fun _ t => eventToStatus t) old

theorem expected_snoc {old : Option TradeStatus} {ts : List EventType} {t : EventType} :
    Expected old (ts ++ [t]) ↔ Expected old ts ∧ ∀ status ∈ lastStatus old ts,
      status ∈ (validPredecessors t).getD [] ∨ eventToStatus t = some status := by
  induction ts generalizing old with
  | nil => simp [Expected, lastStatus]
  | cons t' ts ih =>
    simp only [List.cons_append, Expected, ih, and_assoc]
    rfl

theorem Projects.tradeStatus_eq {k : String} (h : Projects refs k db ds) :
    tradeStatus (processAll refs db ds) k =
      lastStatus (tradeStatus db k) (ds.map (·.event.eventType)) := by
  induction ds generalizing db with
  | nil => rfl
  | cons d ds ih =>
    have hrest := ih h.2
    rw [h.1] at hrest
    exact hrest

/-- In a run without silent steps the last milestone has the status of the trade, and every
milestone is expected after the one before it. -/
theorem lastStatus_of_quiet (once : IssuedOnce tokens actions k)
    (quiet : ∀ p ∈ Escrow.trail tokens actions, ¬ SilentStep k p.1 p.2) :
    lastStatus none ((milestonesOf k (Escrow.run tokens actions).events).map milestoneType) =
        (statusOf (Escrow.run tokens actions) k).map image ∧
      Expected none ((milestonesOf k (Escrow.run tokens actions).events).map milestoneType) := by
  induction actions using List.reverseRecOn with
  | nil => exact ⟨rfl, trivial⟩
  | append_singleton actions a ih =>
    obtain ⟨hlast, hexpected⟩ := ih once.of_append fun p hp =>
      quiet p (Machine.trail_of_isPrefix Escrow.step (List.prefix_append ..) hp)
    have hquiet := quiet _ (Machine.mem_trail_append Escrow.step (.deployed tokens) actions [] a)
    rw [Escrow.run_snoc]
    cases Escrow.step_advances (Escrow.wellFormed_run tokens actions) a k with
    | quiet same none =>
      rw [same, none]
      exact ⟨hlast, hexpected⟩
    | silent moved none => exact absurd ⟨moved.ne, none⟩ hquiet
    | create issues status new =>
      have hcourse := Escrow.course_run once.of_append
      rw [statusOf, once.last issues] at hcourse
      rw [status, new, hcourse.eq_nil]
      exact ⟨rfl, by decide⟩
    | reach m old follows before status new =>
      rw [status, new, List.map_append, lastStatus, List.foldl_append]
      refine ⟨eventToStatus_milestoneType m, expected_snoc.2 ⟨hexpected, ?_⟩⟩
      rw [hlast, before]
      intro status hstatus
      obtain rfl : image old = status := by simpa using hstatus
      cases m <;> cases follows <;> decide

/-! ## All events of a run -/

/-- The deliveries are all the events of the contract the backend handles, in their order, each
with its trade. -/
def Reports (events : List Event) (ds : List Delivery) : Prop :=
  ds.map (fun d => (d.event.eventType, d.event.tradeId)) =
    (events.filterMap handled).map fun p => (p.1, toString p.2)

/-- The deliveries about trade `k` that can move it. -/
def ofTrade (k : Nat) (ds : List Delivery) : List Delivery :=
  ds.filter fun d => d.event.eventType ≠ .streamClawback ∧ d.event.tradeId = toString k

/-- The parties of a new trade, or the initiator of a dispute, are registered. -/
def Registered (refs : References) (event : ParsedEvent) : Prop :=
  match event.eventType with
  | .tradeCreated => refs.valid (.trade event.tradeId) event.payload = true
  | .disputeInitiated => refs.users (disputeOf event).initiator = true
  | _ => True

/-- The handled events about trade `k` are its milestones. -/
theorem handled_filter (k : Nat) (events : List Event) :
    ((events.filterMap handled).filter
        fun p => p.1 ≠ .streamClawback ∧ toString p.2 = toString k).map Prod.fst =
      (milestonesOf k events).map milestoneType := by
  induction events with
  | nil => rfl
  | cons e events ih =>
    cases hm : e.milestone with
    | none =>
      have hclawback := handled_of_no_milestone hm
      have hrest : milestonesOf k (e :: events) = milestonesOf k events := by
        simp [milestonesOf, announcements, hm]
      rw [hrest, ← ih]
      cases hhandled : handled e with
      | none => rw [List.filterMap_cons_none hhandled]
      | some p =>
        rw [List.filterMap_cons_some hhandled, List.filter_cons_of_neg]
        simp [hclawback p hhandled]
    | some p =>
      obtain ⟨k', m⟩ := p
      rw [List.filterMap_cons_some (handled_of_milestone hm)]
      by_cases hk : k' = k
      · subst hk
        have hfirst : milestonesOf k' (e :: events) = m :: milestonesOf k' events := by
          simp [milestonesOf, announcements, hm]
        rw [hfirst, List.filter_cons_of_pos, List.map_cons, List.map_cons, ih]
        simp [milestoneType_ne_clawback]
      · have hrest : milestonesOf k (e :: events) = milestonesOf k events := by
          simp [milestonesOf, announcements, hm, hk]
        have hne : toString k' ≠ toString k := fun h => hk (toString_inj h)
        rw [hrest, List.filter_cons_of_neg (by simp only [hne]; simp), ih]

theorem Reports.relays {events : List Event} (h : Reports events ds) (k : Nat) :
    Relays k (milestonesOf k events) (ofTrade k ds) where
  types := by
    have hfilter := congrArg (List.filter fun p => p.1 ≠ .streamClawback ∧ p.2 = toString k) h
    rw [List.filter_map, List.filter_map] at hfilter
    have htypes := congrArg (List.map Prod.fst) hfilter
    rw [List.map_map, List.map_map] at htypes
    refine htypes.trans ?_
    rw [← handled_filter]
    simp [Function.comp_def]
  trade := by
    intro d hd
    have hkept := (List.mem_filter.1 hd).2
    rw [decide_eq_true_iff] at hkept
    exact hkept.2

/-- What happens to the rows of a trade depends on its own events only. -/
theorem processAll_ofTrade (k : Nat) (ds : List Delivery) :
    tradeStatus (processAll refs db ds) (toString k) =
      tradeStatus (processAll refs db (ofTrade k ds)) (toString k) := by
  have hagree : ∀ db db' : Db Row, Agree (toString k) db db' →
      Agree (toString k) (processAll refs db ds) (processAll refs db' (ofTrade k ds)) := by
    induction ds with
    | nil => exact fun _ _ h => h
    | cons d ds ih =>
      intro db db' h
      by_cases hd : d.event.eventType ≠ .streamClawback ∧ d.event.tradeId = toString k
      · rw [ofTrade, List.filter_cons_of_pos (by simpa using hd)]
        exact ih _ _ (h.process hd.1 hd.2)
      · rw [ofTrade, List.filter_cons_of_neg (by simpa using hd)]
        apply ih
        have helse : d.event.eventType = .streamClawback ∨ toString k ≠ d.event.tradeId := by
          by_cases htype : d.event.eventType = .streamClawback
          · exact .inl htype
          · exact .inr fun hk => hd ⟨htype, hk.symm⟩
        have hsame : process refs db d (.trade (toString k)) = db (.trade (toString k)) ∧
            process refs db d (.dispute (toString k)) = db (.dispute (toString k)) :=
          process_elsewhere helse
        exact ⟨hsame.1.trans h.1, hsame.2.trans h.2⟩
  exact congrArg (Option.map TradeRow.status) (hagree db db ⟨rfl, rfl⟩).1

/-- A course begins with the creation. -/
theorem Relays.head_created {ms : List Milestone} {status : Option Escrow.TradeStatus}
    (h : Relays k ms ds) (course : Escrow.Course ms status) :
    ∀ d ∈ ds.head?, d.event.eventType = .tradeCreated := by
  intro d hd
  have hall : ∀ ms ∈ Escrow.courses, ∀ m ∈ ms.head?, m = .created := by decide
  have hhead : (ds.map (·.event.eventType)).head? = (ms.map milestoneType).head? :=
    congrArg List.head? h.types
  rw [List.head?_map, List.head?_map, Option.mem_def.1 hd] at hhead
  obtain ⟨m, hm, htype⟩ := Option.map_eq_some_iff.1 hhead.symm
  rw [hall ms course.mem_courses m hm] at htype
  exact htype.symm

/-- As long as every change of its status is one the backend reacts to, the row of a trade between
registered users has the image of the status on the chain; after a change of another kind, which
funds the trade by a path payment or cancels it, the row stays as it is. -/
theorem depicts_of_quiet {before later : List Action} (once : IssuedOnce tokens (before ++ later) k)
    (reports : Reports (Escrow.run tokens (before ++ later)).events ds)
    (registered : ∀ d ∈ ofTrade k ds, Registered refs d.event)
    (start : tradeStatus db (toString k) = none)
    (quiet : ∀ p ∈ Escrow.trail tokens before, ¬ SilentStep k p.1 p.2)
    (nothing : milestonesOf k (Escrow.run tokens (before ++ later)).events =
      milestonesOf k (Escrow.run tokens before).events) :
    tradeStatus (processAll refs db ds) (toString k) =
        (statusOf (Escrow.run tokens before) k).map image ∧
      ∀ p ∈ Escrow.trail tokens (before ++ later), SilentStep k p.1 p.2 →
        Silent (statusOf p.1 k) (statusOf (Escrow.step p.1 p.2) k) := by
  have hrelays := reports.relays k
  rw [nothing] at hrelays
  obtain ⟨hlast, hexpected⟩ := lastStatus_of_quiet once.of_append quiet
  have hprojects : Projects refs (toString k) db (ofTrade k ds) := by
    refine (projects_iff hrelays.about (.inl start)).2 fun d hd => ⟨start, ?_, ?_, ?_⟩
    · have hcreated := hrelays.head_created (Escrow.course_run once.of_append) d hd
      have hregistered := registered d (List.mem_of_mem_head? hd)
      rw [Registered, hcreated] at hregistered
      rwa [hrelays.trade d (List.mem_of_mem_head? hd)] at hregistered
    · rw [hrelays.types]
      exact hexpected
    · intro _ d hd
      have hregistered := registered d (List.mem_of_find?_eq_some hd)
      have hinitiated : d.event.eventType = .disputeInitiated := by
        simpa using List.find?_some hd
      rwa [Registered, hinitiated] at hregistered
  constructor
  · rw [processAll_ofTrade, hprojects.tradeStatus_eq, start, hrelays.types, hlast]
  · rintro ⟨s, a⟩ hp hsilent
    obtain ⟨bs, cs, -, rfl⟩ := Machine.exists_append_of_mem_trail Escrow.step hp
    exact hsilent.silent (Escrow.wellFormed_run tokens bs)

/-- A trade is created, and then its buyer cancels it. -/
theorem depicts_of_created :
    (SilentStep Escrow.Sample.first
        (Escrow.run Escrow.Sample.tokens [Escrow.Sample.setup, Escrow.Sample.create none])
        (Escrow.Sample.call 3 Escrow.Sample.alice (.cancelByBuyer Escrow.Sample.first))) ∧
      tradeStatus (processAll Sample.users (fun _ => none) [Sample.delivery .tradeCreated])
        (toString Escrow.Sample.first) = some .created := by
  refine ⟨by decide, ?_⟩
  have honce : IssuedOnce Escrow.Sample.tokens ([Escrow.Sample.setup, Escrow.Sample.create none] ++
      [Escrow.Sample.call 3 Escrow.Sample.alice (.cancelByBuyer Escrow.Sample.first)])
      Escrow.Sample.first :=
    (Escrow.noReissue_of_creations_le (by decide)).issuedOnce _
  have hreports : Reports (Escrow.run Escrow.Sample.tokens
      ([Escrow.Sample.setup, Escrow.Sample.create none] ++
        [Escrow.Sample.call 3 Escrow.Sample.alice (.cancelByBuyer Escrow.Sample.first)])).events
      [Sample.delivery .tradeCreated] := by
    unfold Reports
    decide
  refine (depicts_of_quiet honce hreports ?_ rfl (by decide) (by decide)).1.trans (by decide)
  intro d hd
  obtain rfl := List.mem_singleton.1 (List.mem_of_mem_filter hd)
  change Sample.users.valid (.trade (toString Escrow.Sample.first))
    (Sample.delivery .tradeCreated).event.payload = true
  decide

/-- A trade that was cancelled, and one that was paid for by a path payment, are still created for
the backend. -/
theorem not_depicts_of_unhandled :
    (Reports (Escrow.run Escrow.Sample.tokens Escrow.Sample.cancelled).events
        [Sample.delivery .tradeCreated] ∧
      statusOf (Escrow.run Escrow.Sample.tokens Escrow.Sample.cancelled) Escrow.Sample.first =
        some .cancelled ∧
      Reports (Escrow.run Escrow.Sample.tokens
          (Escrow.Sample.converting 100 120 ++ [Escrow.Sample.finalize])).events
        [Sample.delivery .tradeCreated] ∧
      statusOf (Escrow.run Escrow.Sample.tokens
          (Escrow.Sample.converting 100 120 ++ [Escrow.Sample.finalize])) Escrow.Sample.first =
        some .funded) ∧
      tradeStatus (processAll Sample.users (fun _ => none) [Sample.delivery .tradeCreated])
        (toString Escrow.Sample.first) = some .created := by
  unfold Reports
  decide

end Amana.Backend
