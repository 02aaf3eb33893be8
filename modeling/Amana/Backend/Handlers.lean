import Amana.Backend.Decoder
import Amana.Backend.Schema

/-!
# The event handlers

What the handlers of `eventHandlers.ts` do inside the transaction of one event.  The handler of an
event moves the trade from a status the event can follow, and ignores the event otherwise; where
there is no row yet it creates one, whatever the event is.  Logging, metrics and webhooks are left
out.
-/

namespace Amana.Backend

open Lib.Database

/-- `EVENT_TO_STATUS`. -/
def eventToStatus : EventType → Option TradeStatus
  | .tradeCreated => some .created
  | .tradeFunded => some .funded
  | .deliveryConfirmed => some .delivered
  | .fundsReleased => some .completed
  | .disputeInitiated => some .disputed
  | .disputeResolved => some .completed
  | .streamClawback => none

/-- `VALID_PREDECESSORS`. -/
def validPredecessors : EventType → Option (List TradeStatus)
  | .tradeFunded => some [.created]
  | .deliveryConfirmed => some [.funded]
  | .fundsReleased => some [.delivered]
  | .disputeInitiated => some [.funded, .delivered]
  | .disputeResolved => some [.disputed]
  | .tradeCreated | .streamClawback => none

/-- The text of an entry of the data, if it is there. -/
def Data.text (data : Data) (field : String) : Option String := (data field).map Native.text

/-- A row that is moved to another status. -/
def TradeRow.moveTo (row : TradeRow) (status : TradeStatus) : TradeRow :=
  { row with status := status, version := row.version + 1 }

def applyStatusTransition (event : ParsedEvent) (createPayload : TradeRow) :
    Program Row Unit := do
  let existing : Option TradeRow ← findUnique (Key.trade event.tradeId)
  match existing with
  | none =>
    -- The row may have come up since; then it is moved, whatever its status is.
    discard <| upsert (Key.trade event.tradeId) createPayload fun row : TradeRow =>
      row.moveTo createPayload.status
  | some existing =>
    if existing.status ∈ (validPredecessors event.eventType).getD [] then
      let count ← updateMany (Key.trade event.tradeId)
        (fun row : TradeRow => row.status = existing.status && row.version = existing.version)
        fun row : TradeRow => row.moveTo ((eventToStatus event.eventType).getD row.status)
      if count = 0 then .raise (.raised "Concurrency conflict")

/-- `TradeCreatePayload`; a row has `CREATED` for a status that is not given, and `"0"` for an
amount. -/
def createPayload (event : ParsedEvent) (buyerAddress sellerAddress amountUsdc : String) :
    TradeRow where
  buyerAddress := buyerAddress
  sellerAddress := sellerAddress
  amountUsdc := amountUsdc
  version := 1
  status := (eventToStatus event.eventType).getD .created
  expiresAt := none
  expiredAt := none

/-- The payload of the handlers that know nothing about the parties. -/
def barePayload (event : ParsedEvent) : TradeRow := createPayload event "" "" "0"

/-- The payload of `handleTradeCreated`. -/
def createdPayload (event : ParsedEvent) : TradeRow :=
  createPayload event ((event.data.text "buyer").getD "") ((event.data.text "seller").getD "")
    (((event.data.text "amount_usdc").or (event.data.text "amount")).getD "0")

def handleTradeCreated (event : ParsedEvent) : Program Row Unit :=
  applyStatusTransition event (createdPayload event)

def handleTradeFunded (event : ParsedEvent) : Program Row Unit :=
  applyStatusTransition event (barePayload event)

def handleDeliveryConfirmed (event : ParsedEvent) : Program Row Unit :=
  applyStatusTransition event (barePayload event)

def handleFundsReleased (event : ParsedEvent) : Program Row Unit :=
  applyStatusTransition event (barePayload event)

/-- The row of a dispute that was initiated on the chain. -/
def disputeOf (event : ParsedEvent) : DisputeRow where
  initiator := (event.data.text "initiator").getD ""
  reason := (event.data.text "reason").getD "Dispute initiated on-chain"
  status := .opened
  version := 0
  resolvedAt := none
  categoryId := none

/-- A dispute that is resolved now. -/
def DisputeRow.resolve (row : DisputeRow) (now : Nat) : DisputeRow :=
  { row with status := .resolved, resolvedAt := some now, version := row.version + 1 }

def syncDisputeFromEvent (now : Nat) (event : ParsedEvent) (resolved : Bool) :
    Program Row Unit := do
  let existing : Option DisputeRow ← findUnique (Key.dispute event.tradeId)
  if resolved then
    if existing.isSome then
      discard <| updateMany (Key.dispute event.tradeId)
        (fun row : DisputeRow => row.status = .opened) fun row : DisputeRow => row.resolve now
  else
    if existing.isNone then create (Key.dispute event.tradeId) (disputeOf event)

def handleDisputeInitiated (now : Nat) (event : ParsedEvent) : Program Row Unit := do
  applyStatusTransition event (barePayload event)
  syncDisputeFromEvent now event false

def handleDisputeResolved (now : Nat) (event : ParsedEvent) : Program Row Unit := do
  applyStatusTransition event (barePayload event)
  syncDisputeFromEvent now event true

def handleStreamClawback (now : Nat) (event : ParsedEvent) : Program Row Unit := do
  let streamId :=
    ((event.data.text "stream_id").or (event.data.text "streamId")).getD event.tradeId
  let admin := (event.data.text "admin").getD ""
  let amount := (event.data.text "amount").getD "0"
  if streamId ≠ "" then
    discard <| upsert (Key.streamClawbackEvent streamId event.eventId)
      (⟨admin, amount, now⟩ : ClawbackRow) id

def dispatchEvent (now : Nat) (event : ParsedEvent) : Program Row Unit :=
  match event.eventType with
  | .tradeCreated => handleTradeCreated event
  | .tradeFunded => handleTradeFunded event
  | .deliveryConfirmed => handleDeliveryConfirmed event
  | .fundsReleased => handleFundsReleased event
  | .disputeInitiated => handleDisputeInitiated now event
  | .disputeResolved => handleDisputeResolved now event
  | .streamClawback => handleStreamClawback now event

/-! ## Alone in the database -/

variable {refs : References} {db : Db Row} {event : ParsedEvent} {now : Nat}

/-- The row of the trade after `applyStatusTransition`. -/
def movedTrade (event : ParsedEvent) (payload : TradeRow) : Option TradeRow → TradeRow
  | none => payload
  | some row =>
    if row.status ∈ (validPredecessors event.eventType).getD [] then
      row.moveTo ((eventToStatus event.eventType).getD row.status)
    else row

/-- Where there is no row, it can only be created for registered parties. -/
def refused (refs : References) (db : Db Row) (event : ParsedEvent) (payload : TradeRow) : Bool :=
  (db (.trade event.tradeId)).isNone && !refs.valid (.trade event.tradeId) payload

/-- The database with the trade moved. -/
def withMoved (db : Db Row) (event : ParsedEvent) (payload : TradeRow) : Db Row :=
  Function.update db (.trade event.tradeId)
    (some (movedTrade event payload (db (.trade event.tradeId))))

theorem exec_applyStatusTransition (payload : TradeRow) :
    (applyStatusTransition event payload).exec refs.valid db =
      if refused refs db event payload then .error .reference
      else .ok ((), withMoved db event payload) := by
  unfold applyStatusTransition refused withMoved
  rw [exec_findUnique_bind]
  cases hrow : db (.trade event.tradeId) with
  | none =>
    by_cases hvalid : refs.valid (.trade event.tradeId) payload = true
    · refine (exec_upsert_bind ..).trans ?_
      rw [hrow]
      simp [hvalid, Db.write, movedTrade]
    · refine (exec_upsert_bind ..).trans ?_
      rw [hrow]
      simp [hvalid]
  | some row =>
    by_cases hstatus : row.status ∈ (validPredecessors event.eventType).getD []
    · simp only [if_pos hstatus]
      refine (exec_updateMany_bind ..).trans ?_
      rw [hrow]
      simp [Option.filter, Db.write, movedTrade, hstatus]
    · have hsame : Function.update db (.trade event.tradeId) (some row) = db := by
        rw [← hrow, Function.update_eq_self]
      simp [hstatus, movedTrade, hsame]

/-- The database with the dispute of an event that initiates one. -/
def withDispute (db : Db Row) (event : ParsedEvent) : Db Row :=
  Function.update db (.dispute event.tradeId)
    (some ((db (.dispute event.tradeId)).getD (disputeOf event)))

/-- The database with an open dispute resolved. -/
def withResolved (now : Nat) (db : Db Row) (event : ParsedEvent) : Db Row :=
  Function.update db (.dispute event.tradeId)
    ((db (.dispute event.tradeId)).map fun row : DisputeRow =>
      if row.status = .opened then row.resolve now else row)

theorem exec_syncDisputeFromEvent_initiated :
    (syncDisputeFromEvent now event false).exec refs.valid db =
      if (db (.dispute event.tradeId)).isNone &&
          !refs.valid (.dispute event.tradeId) (disputeOf event) then .error .reference
      else .ok ((), withDispute db event) := by
  unfold syncDisputeFromEvent withDispute
  rw [exec_findUnique_bind]
  cases hrow : db (.dispute event.tradeId) with
  | none =>
    refine (exec_create ..).trans ?_
    rw [hrow]
    by_cases hvalid : refs.valid (.dispute event.tradeId) (disputeOf event) = true <;>
      simp [hvalid, Db.write]
  | some row =>
    have hsame : Function.update db (.dispute event.tradeId) (some row) = db := by
      rw [← hrow, Function.update_eq_self]
    simp [hsame]

theorem exec_syncDisputeFromEvent_resolved :
    (syncDisputeFromEvent now event true).exec refs.valid db =
      .ok ((), withResolved now db event) := by
  unfold syncDisputeFromEvent withResolved
  rw [exec_findUnique_bind]
  cases hrow : db (.dispute event.tradeId) with
  | none =>
    have hsame : Function.update db (.dispute event.tradeId) none = db := by
      rw [← hrow, Function.update_eq_self]
    simp [hsame]
  | some row =>
    refine (exec_updateMany_bind ..).trans ?_
    rw [hrow]
    by_cases hopen : row.status = .opened
    · simp [hopen, Option.filter, Db.write]
    · have hsame : Function.update db (.dispute event.tradeId) (some row) = db := by
        rw [← hrow, Function.update_eq_self]
      simp [hopen, Option.filter, hsame]

end Amana.Backend
