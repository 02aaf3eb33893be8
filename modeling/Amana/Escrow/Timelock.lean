import Amana.Escrow.Lifecycle

/-!
# Clawbacks and timelocked operations

The immediate `admin_clawback`, and the queue of delayed clawbacks and upgrades that share one
identifier space.
-/

namespace Amana.Escrow

open Lib

def getClawbackTotal (s : State) (tradeId : Nat) : Int := (s.clawbackTotal.get tradeId).getD 0

def adminClawback (env : Env) (tradeId : Nat) (clawbackAmount : Int) (destination : Address)
    (s : State) : Outcome State := do
  let admin ← requireAdmin env s "Not initialized"
  assert (isClawbackEnabled s = true) "admin_clawback: clawback feature is currently disabled"
  assert (clawbackAmount > 0) clawbackInvalidAmount
  let trade ← loadTrade s tradeId
  assert (trade.status = .funded ∨ trade.status = .disputed)
    "Trade must be in Funded or Disputed status for clawback"
  assert (clawbackAmount ≤ trade.amount) "clawback_amount exceeds remaining escrowed amount"
  let s ← tokenTransfer s trade.token currentContract destination clawbackAmount
  let total ← expect (I128.checkedAdd (getClawbackTotal s tradeId) clawbackAmount)
    (.panic "clawback total overflow")
  let s := { s with clawbackTotal := s.clawbackTotal.set tradeId total }
  let remainingAmount := I128.sub trade.amount clawbackAmount
  let trade := { trade with amount := remainingAmount, updatedAt := env.timestamp }
  let (trade, s) :=
    if remainingAmount = 0 then
      let trade := { trade with status := .cancelled }
      let s := updateReleaseSequence env s trade fun sequence now =>
        { sequence with cancelledAt := some now }
      (trade, recordTradeEvent env s tradeId "clawback_full" admin
        "admin full clawback — trade cancelled")
    else
      (trade, recordTradeEvent env s tradeId "clawback_partial" admin "admin partial clawback")
  let s := saveTrade s tradeId trade
  return publish s
    (.clawbackExecuted tradeId clawbackAmount remainingAmount destination admin
      eventSchemaVersion)

/-! ## Views on a trade as a payment stream -/

def getClaimedAmount (s : State) (tradeId : Nat) : Int :=
  match s.trades.get tradeId with
  | none => 0
  | some trade =>
    if trade.status = .completed then
      I128.saturatingSub trade.amount (getClawbackTotal s tradeId)
    else 0

/-- The original, claimed and clawed back amounts of `get_stream_accounting`. -/
def getStreamAccounting (s : State) (tradeId : Nat) : Int × Int × Int :=
  match s.trades.get tradeId with
  | none => (0, 0, 0)
  | some trade => (trade.amount, getClaimedAmount s tradeId, getClawbackTotal s tradeId)

/-! ## The queue -/

def getTimelockConfig (s : State) : TimelockConfig := s.timelockConfig.getD ⟨86400, 604800⟩

/-- Store a new operation under the next identifier. -/
def enqueue (s : State) (admin : Address) (operationType : String) (payload : TimelockOpPayload)
    (now executeAfter : Nat) : Nat × State :=
  let operationId := s.nextTimelockId.getD 0
  let queuedOp : QueuedOperation :=
    { operationId, operationType, payload
      queuedAt := now
      executeAfter
      executed := false
      cancelled := false
      admin }
  (operationId,
    { s with
      timelockOperation := s.timelockOperation.set operationId queuedOp
      nextTimelockId := some (U64.add operationId 1) })

def queueClawback (env : Env) (tradeId : Nat) (clawbackAmount : Int) (destination : Address)
    (s : State) : Outcome (Nat × State) := do
  let admin ← requireAdmin env s "Not initialized"
  assert (clawbackAmount > 0) clawbackInvalidAmount
  let now := env.timestamp
  let executeAfter := U64.add now (getTimelockConfig s).clawbackDelaySeconds
  let (operationId, s) :=
    enqueue s admin "clawback" (.clawback ⟨tradeId, clawbackAmount, destination⟩) now executeAfter
  return (operationId,
    publish s (.timelockOperationQueued operationId "clawback" now executeAfter admin))

def queueUpgrade (env : Env) (newWasmHash : BytesN32) (s : State) : Outcome (Nat × State) := do
  let admin ← requireAdmin env s "Not initialized"
  let now := env.timestamp
  let executeAfter := U64.add now (getTimelockConfig s).upgradeDelaySeconds
  let (operationId, s) := enqueue s admin "upgrade" (.upgrade ⟨newWasmHash⟩) now executeAfter
  return (operationId,
    publish s (.contractUpgradeQueued operationId newWasmHash now executeAfter))

/-- Load an operation that is due and still pending. -/
def loadDueOperation (env : Env) (operationId : Nat) (s : State) : Outcome QueuedOperation := do
  let queuedOp ← expect (s.timelockOperation.get operationId) (.panic "operation not found")
  assert (env.timestamp ≥ queuedOp.executeAfter) "operation not ready for execution"
  assert (queuedOp.executed = false) "operation already executed"
  assert (queuedOp.cancelled = false) "operation has been cancelled"
  return queuedOp

def markExecuted (s : State) (operationId : Nat) (queuedOp : QueuedOperation) : State :=
  { s with
    timelockOperation := s.timelockOperation.set operationId { queuedOp with executed := true } }

def executeClawback (env : Env) (operationId : Nat) (s : State) : Outcome State := do
  let _ ← requireAdmin env s "Not initialized"
  let queuedOp ← loadDueOperation env operationId s
  let now := env.timestamp
  match queuedOp.payload with
  | .clawback op =>
    assert (op.clawbackAmount > 0) clawbackInvalidAmount
    let trade ← loadTrade s op.tradeId
    assert (trade.status = .funded ∨ trade.status = .disputed)
      "Trade must be in Funded or Disputed status for clawback"
    assert (op.clawbackAmount ≤ trade.amount) "clawback_amount exceeds remaining escrowed amount"
    let s ← tokenTransfer s trade.token currentContract op.destination op.clawbackAmount
    let remaining := I128.sub trade.amount op.clawbackAmount
    let s := saveTrade s op.tradeId
      { trade with
        amount := remaining
        status := if remaining = 0 then .cancelled else trade.status
        updatedAt := now }
    let s :=
      { s with
        clawbackTotal := s.clawbackTotal.set op.tradeId
          (I128.add (getClawbackTotal s op.tradeId) op.clawbackAmount) }
    let s := markExecuted s operationId queuedOp
    return publish s (.timelockOperationExecuted operationId now)
  -- An upgrade falls through the `if let` and nothing happens.
  | .upgrade _ => return s

def cancelQueuedOperation (env : Env) (operationId : Nat) (s : State) : Outcome State := do
  let admin ← requireAdmin env s "Not initialized"
  let queuedOp ← expect (s.timelockOperation.get operationId) (.panic "operation not found")
  assert (queuedOp.executed = false) "cannot cancel executed operation"
  assert (queuedOp.cancelled = false) "operation already cancelled"
  let s :=
    { s with
      timelockOperation :=
        s.timelockOperation.set operationId { queuedOp with cancelled := true } }
  return publish s (.timelockOperationCancelled operationId env.timestamp admin)

def executeUpgrade (env : Env) (operationId : Nat) (s : State) : Outcome State := do
  let admin ← requireAdmin env s "Not initialized"
  let queuedOp ← loadDueOperation env operationId s
  match queuedOp.payload with
  | .upgrade op =>
    let s := markExecuted { s with wasm := some op.newWasmHash } operationId queuedOp
    return publish s (.contractUpgraded admin op.newWasmHash)
  | .clawback _ => return s

end Amana.Escrow
