import Amana.Backend.Disputes
import Amana.Lib.ReadCommittedRules
import Amana.Lib.Text

/-!
# The workers of the backend

What runs side by side on the database: the listener, once for every event it works on, the expiry
sweep, the admin's batch updates and outbox replays, and the requests of the parties.  A committed
transaction leaves the key of the event it has applied in the log, if it has applied one.
-/

namespace Amana.Backend

open Lib Lib.Database
open Lib.ReadCommitted (Task World Activity Config Spawns)

/-- What the workers of the backend do. -/
abbrev Work := Task Row (Option EventKey)

/-! ## The listener -/

/-- `EventListenerConfig`, and the messages of errors. -/
structure ListenerConfig where
  backoffInitialMs : Nat
  backoffMaxMs : Nat
  outboxMaxAttempts : Nat
  message : Fault → String

/-- The composite key of an event. -/
def ParsedEvent.key (event : ParsedEvent) : EventKey :=
  ⟨event.ledgerSequence, event.contractId, event.eventId⟩

/-- The name of an event type, as the outbox has it. -/
def EventType.name : EventType → String
  | .tradeCreated => "TradeCreated"
  | .tradeFunded => "TradeFunded"
  | .deliveryConfirmed => "DeliveryConfirmed"
  | .fundsReleased => "FundsReleased"
  | .disputeInitiated => "DisputeInitiated"
  | .disputeResolved => "DisputeResolved"
  | .streamClawback => "StreamClawback"

/-- The record `ensureOutboxRecord` creates. -/
def newOutboxRecord (now : Nat) (event : ParsedEvent) : OutboxRow where
  eventType := event.eventType.name
  tradeId := event.tradeId
  status := .pending
  attempts := 0
  nextAttemptAt := now
  lastError := none
  deadLetteredAt := none
  processedAt := none

def isOutboxReadyForAttempt (now : Nat) (outbox : OutboxRow) : Bool :=
  outbox.status ≠ .processed && outbox.status ≠ .deadLetter && outbox.nextAttemptAt ≤ now

def computeRetryDelay (config : ListenerConfig) (attemptNumber : Nat) : Nat :=
  min (config.backoffInitialMs * 2 ^ (attemptNumber - 1)) config.backoffMaxMs

/-- A record that is done with. -/
def OutboxRow.markProcessed (row : OutboxRow) (now : Nat) : OutboxRow :=
  { row with
    status := .processed
    nextAttemptAt := now
    lastError := none
    deadLetteredAt := none
    processedAt := some now }

/-- A record whose event could not be processed; `outbox` is what was read before the attempt. -/
def OutboxRow.recordFailure (row : OutboxRow) (config : ListenerConfig) (now : Nat)
    (outbox : OutboxRow) (fault : Fault) : OutboxRow :=
  let nextAttempts := outbox.attempts + 1
  let canRetry := decide (nextAttempts < config.outboxMaxAttempts)
  { row with
    attempts := nextAttempts
    status := if canRetry then .retrying else .deadLetter
    nextAttemptAt := if canRetry then now + computeRetryDelay config nextAttempts else now
    lastError := some (Text.slice (config.message fault) 2000)
    deadLetteredAt := if canRetry then none else some now }

def recordOutboxFailure (config : ListenerConfig) (now : Nat) (key : EventKey)
    (outbox : OutboxRow) (fault : Fault) : Work :=
  .statement (.chainEventOutbox key)
    (.update fun row : OutboxRow => row.recordFailure config now outbox fault) fun _ => .done

/-- The transaction of `processOutboxEventAtomically`. -/
def outboxTransaction (now : Nat) (event : ParsedEvent) : Program Row (Option EventKey) := do
  let current : Option OutboxRow ← findUnique (Key.chainEventOutbox event.key)
  if current.map OutboxRow.status = some .processed then return none
  dispatchEvent now event
  create (Key.processedEvent event.key) ()
  let _ ← update (Key.chainEventOutbox event.key) fun row : OutboxRow =>
    { row.markProcessed now with attempts := row.attempts + 1 }
  return some event.key

/-- A unique constraint that is violated anywhere in the transaction counts as the mark of another
worker. -/
def processOutboxEventAtomically (config : ListenerConfig) (now : Nat) (event : ParsedEvent)
    (outbox : OutboxRow) : Work :=
  .transaction (outboxTransaction now event) fun
    | .ok _ => .done
    | .error .unique =>
      .statement (.chainEventOutbox event.key)
        (.update fun row : OutboxRow => row.markProcessed now) fun
        | .ok _ => .done
        | .error fault => recordOutboxFailure config now event.key outbox fault
    | .error fault => recordOutboxFailure config now event.key outbox fault

/-- `processEvent`, for an event that is not in the cache. -/
def processEvent (config : ListenerConfig) (now : Nat) (event : ParsedEvent) : Work :=
  .statement (.processedEvent event.key) .find fun
    | .error _ => .done
    | .ok (some _) => .done
    | .ok none =>
      .statement (.chainEventOutbox event.key) (.upsert (newOutboxRecord now event) id) fun
        | .error _ => .done
        | .ok outbox =>
          if isOutboxReadyForAttempt now outbox then
            processOutboxEventAtomically config now event outbox
          else .done

/-- `processEventAtomically`: how events are processed without an outbox. -/
def processEventAtomically (now : Nat) (event : ParsedEvent) : Work :=
  .transaction (do
    dispatchEvent now event
    create (Key.processedEvent event.key) ()
    return some event.key) fun _ => .done

/-- The admin's replay of an outbox record. -/
def replayOutbox (now : Nat) (key : EventKey) : Work :=
  .statement (.chainEventOutbox key) .find fun
    | .ok (some _) =>
      .statement (.chainEventOutbox key) (.update fun row : OutboxRow =>
        { row with status := .pending, attempts := 0, nextAttemptAt := now, lastError := none })
        fun _ => .done
    | _ => .done

/-! ## The expiry sweep -/

/-- `EXPIRABLE_STATUSES`. -/
def expirableStatuses : List TradeStatus := [.created, .funded, .pendingSignature]

/-- The trades the sweep looks for. -/
def TradeRow.stale (row : TradeRow) (now : Nat) : Bool :=
  row.expiresAt.any (· ≤ now) && expirableStatuses.contains row.status && row.expiredAt.isNone

/-- The trades that were found stale are expired one after the other, whether it works or not. -/
def expireTrades (now : Nat) : List (String × TradeRow) → Work
  | [] => .done
  | (tradeId, trade) :: rest =>
    .statement (.trade tradeId)
      (.updateMany
        (fun row : TradeRow => row.version = trade.version && expirableStatuses.contains row.status)
        fun row : TradeRow =>
          { row with status := .expired, expiredAt := some now, version := row.version + 1 })
      fun _ => expireTrades now rest

/-- `sweepExpiredTrades`, over the trades it may find.  The query is taken apart into one for each
trade. -/
def sweepExpiredTrades (now : Nat) : List String → List (String × TradeRow) → Work
  | [], found => expireTrades now found
  | tradeId :: rest, found =>
    .statement (.trade tradeId) .find fun
      | .ok (some trade) =>
        sweepExpiredTrades now rest (if trade.stale now then found ++ [(tradeId, trade)] else found)
      | .ok none => sweepExpiredTrades now rest found
      | .error _ => .done

/-! ## The admin's batch updates -/

/-- `VALID_TRANSITIONS` of the batch route. -/
def batchTransitions : TradeStatus → List TradeStatus
  | .pendingSignature => [.created, .cancelled]
  | .created => [.funded, .cancelled]
  | .funded => [.delivered, .disputed, .cancelled]
  | .delivered => [.completed, .disputed, .cancelled]
  | .disputed => [.completed, .cancelled]
  | .completed => []
  | .cancelled => []
  | .expired => []

/-- The loop of `/api/admin/trades/batch/status`. -/
def batchStatus : List (String × TradeStatus) → Work
  | [] => .done
  | (tradeId, targetStatus) :: rest =>
    .statement (.trade tradeId) .find fun
      | .error _ => .done
      | .ok none => batchStatus rest
      | .ok (some trade) =>
        if targetStatus ∈ batchTransitions trade.status then
          .statement (.trade tradeId)
            (.updateMany (fun row : TradeRow => row.version = trade.version)
              fun row : TradeRow => row.moveTo targetStatus) fun
            | .error _ => .done
            | .ok _ => batchStatus rest
        else batchStatus rest

/-! ## Requests -/

def createPendingTrade (tradeId buyerAddress sellerAddress amountUsdc : String) : Work :=
  .statement (.trade tradeId)
    (.create (⟨buyerAddress, sellerAddress, amountUsdc, 0, .pendingSignature, none, none⟩ :
      TradeRow)) fun _ => .done

/-- Opening a dispute writes the row of the dispute only. -/
theorem avoids_initiateDispute {P : Key → Prop} (elsewhere : ∀ tradeId, ¬ P (.dispute tradeId))
    (request : DisputeRequest) : (initiateDispute request).Avoids P (fun _ => True) := by
  refine .bind (avoids_ask fun _ => rfl) fun found => ?_
  cases found with
  | none => trivial
  | some trade =>
    refine avoids_ite trivial (avoids_ite trivial ?_)
    cases request.categoryId with
    | none => trivial
    | some categoryId => exact avoids_ite trivial (avoids_ask fun h => absurd h (elsewhere _))

/-! Jobs that write trades only. -/

section Avoiding

variable {P : Key → Prop} {S : Option EventKey → Prop} (trades : ∀ tradeId, ¬ P (.trade tradeId))

include trades

theorem avoids_expireTrades (now : Nat) (found : List (String × TradeRow)) :
    (expireTrades now found).Avoids P S := by
  induction found with
  | nil => trivial
  | cons entry rest ih => exact ⟨fun h => absurd h (trades _), fun _ => ih⟩

theorem avoids_sweepExpiredTrades (now : Nat) (tradeIds : List String)
    (found : List (String × TradeRow)) :
    (sweepExpiredTrades now tradeIds found).Avoids P S := by
  induction tradeIds generalizing found with
  | nil => exact avoids_expireTrades trades now found
  | cons tradeId rest ih =>
    refine ⟨fun _ => rfl, fun answer => ?_⟩
    match answer with
    | .ok (some _) => apply ih
    | .ok none => apply ih
    | .error _ => trivial

theorem avoids_batchStatus (updates : List (String × TradeStatus)) :
    (batchStatus updates).Avoids P S := by
  induction updates with
  | nil => trivial
  | cons entry rest ih =>
    refine ⟨fun _ => rfl, fun answer => ?_⟩
    match answer with
    | .error _ => trivial
    | .ok none => exact ih
    | .ok (some trade) =>
      by_cases htarget : entry.2 ∈ batchTransitions trade.status
      · simp only [htarget, if_true]
        refine ⟨fun h => absurd h (trades _), fun answer => ?_⟩
        cases answer with
        | ok count => exact ih
        | error fault => trivial
      · simp only [htarget, if_false]
        exact ih

theorem avoids_applyStatusTransition (event : ParsedEvent) (payload : TradeRow) :
    (applyStatusTransition event payload).Avoids P fun _ => True := by
  refine .bind (avoids_ask fun _ => rfl) fun existing => ?_
  cases existing with
  | none => exact .bind (avoids_ask fun h => absurd h (trades _)) fun _ => trivial
  | some existing =>
    refine avoids_ite (.bind (avoids_ask fun h => absurd h (trades _)) fun count => ?_) trivial
    exact avoids_ite trivial trivial

end Avoiding

/-! ## Jobs -/

/-- What the backend sets its workers to. -/
inductive Job where
  | processEvent (config : ListenerConfig) (now : Nat) (event : ParsedEvent)
  | processEventAtomically (now : Nat) (event : ParsedEvent)
  | replayOutbox (now : Nat) (key : EventKey)
  | sweepExpiredTrades (now : Nat) (tradeIds : List String)
  | batchStatus (updates : List (String × TradeStatus))
  | createPendingTrade (tradeId buyerAddress sellerAddress amountUsdc : String)
  | initiateDispute (request : DisputeRequest)

def Job.work : Job → Work
  | .processEvent config now event => Backend.processEvent config now event
  | .processEventAtomically now event => Backend.processEventAtomically now event
  | .replayOutbox now key => Backend.replayOutbox now key
  | .sweepExpiredTrades now tradeIds => Backend.sweepExpiredTrades now tradeIds []
  | .batchStatus updates => Backend.batchStatus updates
  | .createPendingTrade tradeId buyerAddress sellerAddress amountUsdc =>
    Backend.createPendingTrade tradeId buyerAddress sellerAddress amountUsdc
  | .initiateDispute request => .ofProgram (Backend.initiateDispute request)

/-- New workers do the jobs of the backend, or something else that only reads the rows in `P`; its
transactions return something in `S`. -/
def Staffs (P : Key → Prop) (S : Option EventKey → Prop) : Activity Row (Option EventKey) → Prop
  | .spawn task => (∃ job : Job, task = job.work) ∨ task.Avoids P S
  | _ => True

/-- New workers are safe where the jobs are, and the tasks that only read the rows in `P`. -/
theorem Staffs.spawns {P : Key → Prop} {S : Option EventKey → Prop}
    {R : Config Row (Option EventKey) → Config Row (Option EventKey) → Prop}
    {permitted : ∀ k, Statement (Row k) → Option (Row k) → Prop}
    {a : Activity Row (Option EventKey)} (staffs : Staffs P S a)
    (jobs : ∀ (job : Job) c, job.work.Safe R permitted c)
    (others : ∀ {task : Work}, task.Avoids P S → ∀ c, task.Safe R permitted c) :
    Spawns R permitted a := by
  cases a with
  | spawn task =>
    intro c
    rcases staffs with ⟨job, rfl⟩ | havoids
    · exact jobs job c
    · exact others havoids c
  | _ => trivial

/-! ## Samples -/

/-- A listener that gives up after five attempts. -/
def Sample.listener : ListenerConfig := ⟨1000, 60000, 5, fun _ => ""⟩

/-- An event about the first trade, in a ledger of its own. -/
def Sample.chainEvent (ledger : Nat) (eventType : EventType) : ParsedEvent :=
  { (Sample.delivery eventType).event with ledgerSequence := ledger, eventId := toString ledger }

/-- No rows, and no workers. -/
def Sample.newWorld : World Row (Option EventKey) := ⟨⟨fun _ => none, []⟩, []⟩

/-- Worker `i` goes on for `n` steps. -/
def Sample.goOn (i n : Nat) : List (Activity Row (Option EventKey)) :=
  List.replicate n (.advance i Sample.users.valid true)

/-- Worker `i` comes up with a job, and does `n` steps of it. -/
def Sample.workOn (job : Job) (i n : Nat) : List (Activity Row (Option EventKey)) :=
  .spawn job.work :: Sample.goOn i n

theorem Sample.staffs_goOn {P : Key → Prop} {S : Option EventKey → Prop} (i n : Nat) :
    ∀ a ∈ Sample.goOn i n, Staffs P S a := by
  intro a ha
  rw [List.eq_of_mem_replicate ha]
  trivial

theorem Sample.staffs_workOn {P : Key → Prop} {S : Option EventKey → Prop} (job : Job) (i n : Nat) :
    ∀ a ∈ Sample.workOn job i n, Staffs P S a :=
  List.forall_mem_cons.2 ⟨.inl ⟨job, rfl⟩, Sample.staffs_goOn i n⟩

end Amana.Backend
