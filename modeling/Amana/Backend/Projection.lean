import Amana.Backend.Handlers
import Amana.Escrow.Emission

/-!
# The trade row as a projection of the chain

The listener hands the events of a trade to `dispatchEvent` one after the other.  The row follows
them as long as each event is one that `VALID_PREDECESSORS` expects after the last one; an event it
does not expect is dropped.
-/

namespace Amana.Backend

open Lib.Database

/-! ## One event -/

/-- An event, and when its handler runs. -/
structure Delivery where
  now : Nat
  event : ParsedEvent

/-- What the handler of an event creates the trade from. -/
def ParsedEvent.payload (event : ParsedEvent) : TradeRow :=
  if event.eventType = .tradeCreated then createdPayload event else barePayload event

/-- A dispute can only be created for a registered initiator. -/
def unsigned (refs : References) (db : Db Row) (event : ParsedEvent) : Bool :=
  event.eventType = .disputeInitiated && (db (.dispute event.tradeId)).isNone &&
    !refs.users (disputeOf event).initiator

/-- The transaction of the event fails on a foreign key. -/
def rejected (refs : References) (db : Db Row) (event : ParsedEvent) : Bool :=
  refused refs db event event.payload || unsigned refs db event

/-- The database with the dispute brought in line. -/
def withSynced (now : Nat) (db : Db Row) (event : ParsedEvent) : Db Row :=
  match event.eventType with
  | .disputeInitiated => withDispute db event
  | .disputeResolved => withResolved now db event
  | _ => db

/-- The database after the transaction of an event. -/
def process (refs : References) (db : Db Row) (d : Delivery) : Db Row :=
  (dispatchEvent d.now d.event).commit refs.valid db

/-- The database after the transactions of some events. -/
def processAll (refs : References) (db : Db Row) (ds : List Delivery) : Db Row :=
  ds.foldl (process refs) db

variable {refs : References} {db : Db Row} {event : ParsedEvent} {now : Nat} {d : Delivery}
  {k : String}

theorem withMoved_dispute (payload : TradeRow) :
    withMoved db event payload (.dispute k) = db (.dispute k) := by
  simp [withMoved]

theorem exec_dispatchEvent (h : event.eventType ≠ .streamClawback) :
    (dispatchEvent now event).exec refs.valid db =
      if rejected refs db event then .error .reference
      else .ok ((), withSynced now (withMoved db event event.payload) event) := by
  -- What every handler begins with.
  have happly : ∀ payload, (applyStatusTransition event payload).exec refs.valid db =
      if refused refs db event payload then .error .reference
      else .ok ((), withMoved db event payload) := exec_applyStatusTransition
  unfold dispatchEvent rejected unsigned withSynced ParsedEvent.payload
  cases htype : event.eventType with
  | streamClawback => exact absurd htype h
  | tradeCreated => simpa [htype, handleTradeCreated] using happly (createdPayload event)
  | tradeFunded => simpa [htype, handleTradeFunded] using happly (barePayload event)
  | deliveryConfirmed => simpa [htype, handleDeliveryConfirmed] using happly (barePayload event)
  | fundsReleased => simpa [htype, handleFundsReleased] using happly (barePayload event)
  | disputeInitiated =>
    simp only [handleDisputeInitiated, exec_bind, happly]
    by_cases hrefused : refused refs db event (barePayload event) = true
    · simp [hrefused]
    · simp [hrefused, exec_syncDisputeFromEvent_initiated, withMoved_dispute, References.valid]
  | disputeResolved =>
    simp only [handleDisputeResolved, exec_bind, happly]
    by_cases hrefused : refused refs db event (barePayload event) = true
    · simp [hrefused]
    · simp [hrefused, exec_syncDisputeFromEvent_resolved]

/-- A clawback writes its own table only, and leaves a row that is there as it is. -/
theorem exec_handleStreamClawback {db' : Db Row}
    (h : (handleStreamClawback now event).exec refs.valid db = .ok ((), db')) :
    ∃ streamId row, db' = db.write (.streamClawbackEvent streamId event.eventId) row ∧
      ∀ new ∈ row, db (.streamClawbackEvent streamId event.eventId) = some new ∨
        new.amount = (event.data.text "amount").getD "0" := by
  simp only [handleStreamClawback] at h
  split at h
  · generalize ((event.data.text "stream_id").or _).getD _ = streamId at h
    refine ⟨streamId, ?_⟩
    have h := (exec_upsert_bind ..).symm.trans h
    cases hrow : db (.streamClawbackEvent streamId event.eventId) with
    | none =>
      rw [hrow] at h
      by_cases hvalid : refs.valid (.streamClawbackEvent streamId event.eventId)
          ⟨(event.data.text "admin").getD "", (event.data.text "amount").getD "0", now⟩ = true
      · simp only [hvalid, if_true] at h
        cases h
        refine ⟨_, rfl, ?_⟩
        rintro new ⟨⟩
        exact .inr rfl
      · simp [hvalid] at h
    | some row =>
      rw [hrow] at h
      cases h
      refine ⟨_, rfl, ?_⟩
      rintro new ⟨⟩
      exact .inl rfl
  · cases h
    refine ⟨"", none, rfl, ?_⟩
    rintro new ⟨⟩

/-- A transaction that fails leaves everything as it was. -/
theorem process_of_rejected (type : d.event.eventType ≠ .streamClawback)
    (h : rejected refs db d.event = true) : process refs db d = db := by
  rw [process, Program.commit, exec_dispatchEvent type, if_pos h]

theorem process_of_accepted (type : d.event.eventType ≠ .streamClawback)
    (h : rejected refs db d.event = false) :
    process refs db d = withSynced d.now (withMoved db d.event d.event.payload) d.event := by
  rw [process, Program.commit, exec_dispatchEvent type, if_neg (by rw [h]; decide)]

/-- A transaction goes through exactly when it is not rejected. -/
theorem exec_eq_ok_iff {db' : Db Row} (type : event.eventType ≠ .streamClawback) :
    (dispatchEvent now event).exec refs.valid db = .ok ((), db') ↔
      rejected refs db event = false ∧ process refs db ⟨now, event⟩ = db' := by
  by_cases h : rejected refs db event = true
  · simp [exec_dispatchEvent type, h]
  · have haccepted : rejected refs db event = false := by simpa using h
    rw [process_of_accepted type haccepted, exec_dispatchEvent type]
    simp [haccepted]

theorem withSynced_trade : withSynced now db event (.trade k) = db (.trade k) := by
  cases h : event.eventType <;> simp [withSynced, h, withDispute, withResolved]

theorem withSynced_elsewhere (h : k ≠ event.tradeId) :
    withSynced now db event (.dispute k) = db (.dispute k) := by
  cases type : event.eventType <;> simp [withSynced, type, withDispute, withResolved, h]

/-- The trade after one of its events. -/
theorem process_trade (type : d.event.eventType ≠ .streamClawback)
    (h : rejected refs db d.event = false) :
    process refs db d (.trade d.event.tradeId) =
      some (movedTrade d.event d.event.payload (db (.trade d.event.tradeId))) := by
  rw [process_of_accepted type h, withSynced_trade, withMoved, Function.update_self]

/-- The dispute of a trade after one of its events. -/
def syncedDispute (now : Nat) (event : ParsedEvent) (row : Option DisputeRow) :
    Option DisputeRow :=
  match event.eventType with
  | .disputeInitiated => some (row.getD (disputeOf event))
  | .disputeResolved => row.map fun row => if row.status = .opened then row.resolve now else row
  | _ => row

theorem process_dispute (type : d.event.eventType ≠ .streamClawback)
    (h : rejected refs db d.event = false) :
    process refs db d (.dispute d.event.tradeId) =
      syncedDispute d.now d.event (db (.dispute d.event.tradeId)) := by
  rw [process_of_accepted type h]
  cases type : d.event.eventType <;>
    simp [withSynced, syncedDispute, type, withDispute, withResolved, withMoved_dispute]

/-- The rows of a trade are not touched by a clawback or an event of another trade. -/
theorem process_elsewhere (h : d.event.eventType = .streamClawback ∨ k ≠ d.event.tradeId) :
    process refs db d (.trade k) = db (.trade k) ∧
      process refs db d (.dispute k) = db (.dispute k) := by
  by_cases type : d.event.eventType = .streamClawback
  · have hprogram : dispatchEvent d.now d.event = handleStreamClawback d.now d.event := by
      rw [dispatchEvent, type]
    rw [process, Program.commit, hprogram]
    cases hexec : (handleStreamClawback d.now d.event).exec refs.valid db with
    | ok r =>
      obtain ⟨streamId, row, hrow, -⟩ := exec_handleStreamClawback hexec
      simp [hrow]
    | error fault => exact ⟨rfl, rfl⟩
  · have hk := h.resolve_left type
    by_cases hrejected : rejected refs db d.event = true
    · rw [process_of_rejected type hrejected]
      exact ⟨rfl, rfl⟩
    · rw [process_of_accepted type (by simpa using hrejected), withSynced_trade,
        withSynced_elsewhere hk]
      simp [withMoved, hk]

/-- Two databases agree on the rows of a trade. -/
def Agree (k : String) (db db' : Db Row) : Prop :=
  db (.trade k) = db' (.trade k) ∧ db (.dispute k) = db' (.dispute k)

theorem Agree.process {db' : Db Row} (h : Agree k db db')
    (type : d.event.eventType ≠ .streamClawback) (trade : d.event.tradeId = k) :
    Agree k (process refs db d) (Backend.process refs db' d) := by
  subst trade
  have hrejected : rejected refs db d.event = rejected refs db' d.event := by
    simp only [rejected, refused, unsigned, h.1, h.2]
  by_cases hfails : rejected refs db d.event = true
  · rw [process_of_rejected type hfails, process_of_rejected type (hrejected ▸ hfails)]
    exact h
  · have haccepted : rejected refs db d.event = false := by simpa using hfails
    constructor
    · rw [process_of_accepted type haccepted, process_of_accepted type (hrejected ▸ haccepted),
        withSynced_trade, withSynced_trade]
      simp [withMoved, h.1]
    · rw [process_dispute type haccepted, process_dispute type (hrejected ▸ haccepted), h.2]

/-! ## Statuses -/

/-- The status an event moves a trade to. -/
def follow (status : Option TradeStatus) (eventType : EventType) : Option TradeStatus :=
  match status with
  | none => eventToStatus eventType
  | some status =>
    if status ∈ (validPredecessors eventType).getD [] then eventToStatus eventType
    else some status

theorem payload_status (status : TradeStatus) (h : eventToStatus event.eventType = some status) :
    event.payload.status = status := by
  unfold ParsedEvent.payload
  split <;> simp [createdPayload, barePayload, createPayload, h]

/-- Every handled type but the clawback has a status. -/
theorem eventToStatus_isSome {eventType : EventType} (h : eventType ≠ .streamClawback) :
    ∃ status, eventToStatus eventType = some status := by
  cases eventType with
  | streamClawback => exact absurd rfl h
  | _ => exact ⟨_, rfl⟩

/-- No event makes a trade wait for its signature. -/
theorem eventToStatus_ne_pending (eventType : EventType) :
    eventToStatus eventType ≠ some .pendingSignature := by
  cases eventType <;> decide

theorem tradeStatus_process_of_rejected (type : d.event.eventType ≠ .streamClawback)
    (h : rejected refs db d.event = true) :
    tradeStatus (process refs db d) k = tradeStatus db k := by
  rw [process_of_rejected type h]

theorem tradeStatus_process (type : d.event.eventType ≠ .streamClawback)
    (h : rejected refs db d.event = false) :
    tradeStatus (process refs db d) d.event.tradeId =
      follow (tradeStatus db d.event.tradeId) d.event.eventType := by
  obtain ⟨status, hstatus⟩ := eventToStatus_isSome type
  unfold tradeStatus
  rw [process_trade type h]
  cases hrow : db (.trade d.event.tradeId) with
  | none => simp [movedTrade, follow, payload_status status hstatus, hstatus]
  | some row =>
    by_cases hmoves : row.status ∈ (validPredecessors d.event.eventType).getD []
    · simp [movedTrade, follow, hmoves, hstatus, TradeRow.moveTo]
    · simp [movedTrade, follow, hmoves]

/-! ## The events of one trade -/

/-- After each event the row of trade `k` has the status of the event. -/
def Projects (refs : References) (k : String) : Db Row → List Delivery → Prop
  | _, [] => True
  | db, d :: ds =>
    tradeStatus (process refs db d) k = eventToStatus d.event.eventType ∧
      Projects refs k (process refs db d) ds

/-- Each event is one that `VALID_PREDECESSORS` expects after the status before it, or announces
that status again. -/
def Expected : Option TradeStatus → List EventType → Prop
  | _, [] => True
  | old, t :: ts =>
    (∀ status ∈ old, status ∈ (validPredecessors t).getD [] ∨ eventToStatus t = some status) ∧
      Expected (eventToStatus t) ts

instance instDecidableExpected : ∀ old ts, Decidable (Expected old ts)
  | _, [] => .isTrue trivial
  | old, t :: ts =>
    have := instDecidableExpected (eventToStatus t) ts
    inferInstanceAs (Decidable ((∀ status ∈ old, _ ∨ _) ∧ Expected (eventToStatus t) ts))

/-- The initiator of the first dispute is registered, or there is a dispute already. -/
def Signed (refs : References) (k : String) (db : Db Row) (ds : List Delivery) : Prop :=
  db (.dispute k) = none → ∀ d ∈ ds.find? (·.event.eventType = .disputeInitiated),
    refs.users (disputeOf d.event).initiator = true

/-- The deliveries are about trade `k`, and none is a clawback. -/
def About (k : String) (ds : List Delivery) : Prop :=
  ∀ d ∈ ds, d.event.tradeId = k ∧ d.event.eventType ≠ .streamClawback

variable {ds : List Delivery}

theorem follow_eq_iff {eventType : EventType} {old : Option TradeStatus} :
    follow old eventType = eventToStatus eventType ↔
      ∀ status ∈ old, status ∈ (validPredecessors eventType).getD [] ∨
        eventToStatus eventType = some status := by
  cases old with
  | none => simp [follow]
  | some status =>
    by_cases h : status ∈ (validPredecessors eventType).getD []
    · simp [follow, h]
    · simp [follow, h, eq_comm]

/-- Where the trade has a row, a transaction can only fail on the initiator of a dispute. -/
theorem rejected_of_row (h : tradeStatus db event.tradeId ≠ none) :
    rejected refs db event = unsigned refs db event := by
  have hrow : (db (.trade event.tradeId)).isNone = false := by
    cases hrow : db (.trade event.tradeId) with
    | none => simp [tradeStatus, hrow] at h
    | some row => rfl
  simp [rejected, refused, hrow]

theorem process_dispute_of_initiated (type : d.event.eventType = .disputeInitiated)
    (h : rejected refs db d.event = false) :
    process refs db d (.dispute d.event.tradeId) ≠ none := by
  rw [process_dispute (by rw [type]; decide) h, syncedDispute, type]
  simp

theorem eventToStatus_disputed {eventType : EventType}
    (h : eventToStatus eventType = some .disputed) : eventType = .disputeInitiated := by
  cases eventType <;> cases h
  rfl

/-- Past an event that goes through, it is the next dispute that has to be signed. -/
theorem signed_cons (h : rejected refs db d.event = false) :
    Signed refs d.event.tradeId db (d :: ds) ↔
      Signed refs d.event.tradeId (process refs db d) ds := by
  by_cases hinitiated : d.event.eventType = .disputeInitiated
  · have hleft : Signed refs d.event.tradeId db (d :: ds) := by
      intro hnone e he
      obtain rfl : d = e := by simpa [hinitiated] using he
      have hunsigned : unsigned refs db d.event = false := (Bool.or_eq_false_iff.1 h).2
      simpa [unsigned, hinitiated, hnone] using hunsigned
    have hright : Signed refs d.event.tradeId (process refs db d) ds := fun hnone =>
      absurd hnone (process_dispute_of_initiated hinitiated h)
    simp [hleft, hright]
  · have hnone : process refs db d (.dispute d.event.tradeId) = none ↔
        db (.dispute d.event.tradeId) = none := by
      by_cases type : d.event.eventType = .streamClawback
      · rw [(process_elsewhere (.inl type)).2]
      · rw [process_dispute type h, syncedDispute]
        cases htype : d.event.eventType with
        | disputeInitiated => exact absurd htype hinitiated
        | disputeResolved => exact Option.map_eq_none_iff
        | _ => exact Iff.rfl
    simp [Signed, hnone, hinitiated]

theorem not_signed_of_unsigned (h : unsigned refs db d.event = true) :
    ¬ Signed refs d.event.tradeId db (d :: ds) := by
  obtain ⟨⟨hinitiated, hnone⟩, huser⟩ :
      (d.event.eventType = .disputeInitiated ∧ db (.dispute d.event.tradeId) = none) ∧
        refs.users (disputeOf d.event).initiator = false := by
    simpa [unsigned] using h
  intro hsigned
  have hregistered := hsigned hnone d (by simp [hinitiated])
  cases huser.symm.trans hregistered

theorem projects_iff_of_row {status : TradeStatus} (about : About k ds)
    (row : tradeStatus db k = some status)
    (dispute : status = .disputed → db (.dispute k) ≠ none) :
    Projects refs k db ds ↔
      Expected (some status) (ds.map (·.event.eventType)) ∧ Signed refs k db ds := by
  induction ds generalizing db status with
  | nil => simp [Projects, Expected, Signed]
  | cons d ds ih =>
    obtain ⟨rfl, type⟩ := about d (List.mem_cons_self ..)
    have habout : About d.event.tradeId ds := fun d hd => about d (List.mem_cons_of_mem _ hd)
    have hrejected : rejected refs db d.event = unsigned refs db d.event :=
      rejected_of_row (by simp [row])
    obtain ⟨new, hnew⟩ := eventToStatus_isSome type
    by_cases hunsigned : unsigned refs db d.event = true
    · -- The dispute cannot be created, and the row stays behind.
      obtain ⟨hinitiated, hnone⟩ :
          d.event.eventType = .disputeInitiated ∧ db (.dispute d.event.tradeId) = none := by
        rw [unsigned, Bool.and_eq_true] at hunsigned
        simpa using hunsigned.1
      have hleft : ¬ Projects refs d.event.tradeId db (d :: ds) := by
        rintro ⟨hstatus, -⟩
        rw [tradeStatus_process_of_rejected type (hrejected.trans hunsigned), row, hinitiated]
          at hstatus
        exact dispute (Option.some.inj hstatus) hnone
      simp [hleft, not_signed_of_unsigned hunsigned]
    · have haccepted : rejected refs db d.event = false := by simpa [hrejected] using hunsigned
      have hstatus := tradeStatus_process type haccepted
      rw [row] at hstatus
      rw [Projects, List.map_cons, Expected, signed_cons haccepted, and_assoc, hstatus,
        follow_eq_iff]
      apply and_congr_right
      intro hexpected
      rw [follow_eq_iff.2 hexpected] at hstatus
      rw [hnew] at hstatus ⊢
      apply ih habout hstatus
      intro hdisputed
      apply process_dispute_of_initiated _ haccepted
      exact eventToStatus_disputed (by rw [hnew, hdisputed])

/-- The trade row follows the events exactly when it is created by the first one, for registered
parties, and each event is expected after the one before it. -/
theorem projects_iff (about : About k ds)
    (start : tradeStatus db k = none ∨ tradeStatus db k = some .pendingSignature) :
    Projects refs k db ds ↔
      ∀ d ∈ ds.head?, tradeStatus db k = none ∧ refs.valid (.trade k) d.event.payload = true ∧
        Expected none (ds.map (·.event.eventType)) ∧ Signed refs k db ds := by
  cases ds with
  | nil => simp [Projects]
  | cons d ds =>
    obtain ⟨rfl, type⟩ := about d (List.mem_cons_self ..)
    have habout : About d.event.tradeId ds := fun d hd => about d (List.mem_cons_of_mem _ hd)
    obtain ⟨new, hnew⟩ := eventToStatus_isSome type
    have hstays : rejected refs db d.event = true →
        ¬ Projects refs d.event.tradeId db (d :: ds) := by
      rintro hrejected ⟨hstatus, -⟩
      rw [tradeStatus_process_of_rejected type hrejected, hnew] at hstatus
      rcases start with hnone | hpending
      · cases hnone.symm.trans hstatus
      · rw [← hstatus, hpending] at hnew
        exact eventToStatus_ne_pending _ hnew
    by_cases hrejected : rejected refs db d.event = true
    · have hright : tradeStatus db d.event.tradeId = none →
          refs.valid (.trade d.event.tradeId) d.event.payload = true →
            ¬ Signed refs d.event.tradeId db (d :: ds) := by
        intro hnone hvalid
        apply not_signed_of_unsigned
        simpa [rejected, refused, hvalid] using hrejected
      simp only [hstays hrejected, List.head?_cons, Option.mem_some_iff, forall_eq', false_iff]
      rintro ⟨hnone, hvalid, -, hsigned⟩
      exact hright hnone hvalid hsigned
    · have haccepted : rejected refs db d.event = false := by simpa using hrejected
      have hstatus := tradeStatus_process type haccepted
      simp only [List.head?_cons, Option.mem_some_iff, forall_eq', List.map_cons]
      rw [Projects, signed_cons haccepted, hstatus, follow_eq_iff, Expected]
      rcases start with hnone | hpending
      · have hvalid : refs.valid (.trade d.event.tradeId) d.event.payload = true := by
          have hnorow : db (.trade d.event.tradeId) = none := by simpa [tradeStatus] using hnone
          simpa [rejected, refused, hnorow] using (Bool.or_eq_false_iff.1 haccepted).1
        rw [hnone, follow, hnew] at hstatus
        rw [hnone, hnew, projects_iff_of_row habout hstatus]
        · simp [hvalid]
        · intro hdisputed
          apply process_dispute_of_initiated _ haccepted
          exact eventToStatus_disputed (by rw [hnew, hdisputed])
      · rw [hpending]
        have hnever : .pendingSignature ∉ (validPredecessors d.event.eventType).getD [] := by
          cases d.event.eventType <;> decide
        simp [hnever, eventToStatus_ne_pending]

end Amana.Backend
