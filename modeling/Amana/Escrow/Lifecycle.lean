import Amana.Escrow.Admin
import Amana.Lib.MachineInt

/-!
# Trade lifecycle

From `create_trade` to `release_funds`: creation, funding directly or by path payment, the
cancellation routes, deadlines, delivery and release, with the fee account.
-/

namespace Amana.Escrow

open Lib

/-! ## Payout arithmetic -/

def checkedFeeAmount (amount : Int) (feeBps : Nat) : Outcome Int := do
  let product ← expect (I128.checkedMul amount feeBps) (.panic "fee calculation overflow")
  return product.tdiv bpsDivisor

def checkedLossAmount (total lossBps : Int) (sellerLossBps : Nat) : Outcome Int := do
  let product ← expect (I128.checkedMul total lossBps) (.panic "loss calculation overflow")
  let product ← expect (I128.checkedMul product sellerLossBps)
    (.panic "loss sharing calculation overflow")
  return product.tdiv (bpsDivisor * bpsDivisor)

/-! ## Fees -/

def getAccruedFees (s : State) : Int := s.accruedFees.getD 0

def getFeeBps (s : State) : Nat := s.feeBps.getD 0

/-- Add a fee to the accrued fees; a zero fee writes nothing. -/
def accrueFee (s : State) (fee : Int) : State :=
  { s with
    accruedFees := if fee > 0 then some (I128.add (getAccruedFees s) fee) else s.accruedFees }

def withdrawFees (env : Env) (amount : Int) (destination : Address) (s : State) :
    Outcome State := do
  let _ ← requireAdmin env s "Not initialized"
  assert (amount > 0) "amount must be greater than zero"
  let accruedFees := getAccruedFees s
  assert (amount ≤ accruedFees) "insufficient accrued fees"
  let token ← expect s.cngnContract (.panic "Not initialized")
  let s ← tokenTransfer s token currentContract destination amount
  let s := { s with accruedFees := some (I128.sub accruedFees amount) }
  return publish s (.feesWithdrawn amount destination)

/-! ## Creation -/

/-- The identifier of the next trade: the ledger sequence above a running counter. -/
def tradeIdOf (sequence nextId : Nat) : Nat := U64.shiftLeft sequence 32 ||| nextId

/-- `create_trade`, with the identifier it returns. -/
def createTrade (env : Env) (buyer seller : Address) (amount : Int)
    (buyerLossBps sellerLossBps : Nat) (expiresAt : Option Nat) (s : State) :
    Outcome (Nat × State) := do
  assertNotPaused s
  requireAuth env buyer
  assert (amount > 0) "amount must be greater than zero"
  assert (amount ≤ maxTradeValue) "TradeValueTooLarge"
  assert (buyer ≠ seller) "buyer and seller must be different addresses"
  assert (buyerLossBps ≤ 10000) "buyer_loss_bps must not exceed 10000"
  assert (sellerLossBps ≤ 10000) "seller_loss_bps must not exceed 10000"
  assert (buyerLossBps + sellerLossBps = 10000) "loss ratios must sum to 10000 (100%)"
  let now := env.timestamp
  assert (∀ deadline ∈ expiresAt, deadline > now) "expires_at must be in the future"
  let nextId := s.nextTradeId.getD 1
  let tradeId := tradeIdOf env.sequence nextId
  let s :=
    { s with
      nextTradeId := some (U64.add nextId 1)
      totalTrades := some (U64.add (s.totalTrades.getD 0) 1) }
  let cngnAddress ← expect s.cngnContract (.panic "Not initialized")
  let trade : Trade :=
    { tradeId, buyer, seller
      token := cngnAddress
      amount
      status := .created
      createdAt := now
      updatedAt := now
      fundedAt := none
      deliveredAt := none
      buyerLossBps, sellerLossBps, expiresAt }
  let s := saveTrade s tradeId trade
  let s :=
    { s with releaseSequence := s.releaseSequence.set tradeId (defaultReleaseSequence trade) }
  let s := recordTradeEvent env s tradeId "created" buyer "trade created"
  return (tradeId, publish s (.tradeCreated tradeId buyer seller amount))

/-! ## Funding -/

def deposit (env : Env) (tradeId : Nat) (s : State) : Outcome State := do
  assertNotPaused s
  let trade ← loadTrade s tradeId
  assert (trade.status = .created) "Trade must be in Created status"
  requireAuth env trade.buyer
  let s ← tokenTransfer s trade.token trade.buyer currentContract trade.amount
  let now := env.timestamp
  let trade := { trade with status := .funded, fundedAt := some now, updatedAt := now }
  let s := saveTrade s tradeId trade
  let s := updateReleaseSequence env s trade fun sequence now =>
    { sequence with fundedAt := some now }
  let s := recordTradeEvent env s tradeId "funded" trade.buyer "escrow funded"
  return publish s (.tradeFunded tradeId trade.amount)

def depositWithPath (env : Env) (tradeId : Nat) (buyer : Address) (sourceAmount destMin : Int)
    (path : List Address) (s : State) : Outcome State := do
  assert (sourceAmount > 0) "source_amount must be greater than zero"
  assert (destMin > 0) "dest_min must be greater than zero"
  let trade ← loadTrade s tradeId
  assert (trade.status = .created) "Trade must be in Created status"
  assert (buyer = trade.buyer) "Only the buyer can perform a path payment deposit"
  requireAuth env buyer
  let sourceToken ← expect s.sourceToken (.panic "SourceToken not configured")
  let s ← tokenTransfer s sourceToken trade.buyer currentContract sourceAmount
  let cngnBefore := s.tokens.balance trade.token currentContract
  assert (s.pathPaymentIntent.has tradeId = false) "Path payment already pending"
  let s :=
    { s with
      pathPaymentIntent := s.pathPaymentIntent.set tradeId
        { buyer, sourceAmount, destMin, path, cngnBalanceBefore := cngnBefore } }
  let s := saveTrade s tradeId { trade with updatedAt := env.timestamp }
  return publish s
    (.pathPaymentInitiated tradeId buyer sourceToken sourceAmount destMin path)

def finalizePathPayment (env : Env) (tradeId : Nat) (caller : Address) (s : State) :
    Outcome State := do
  requireAuth env caller
  let intent ← expect (s.pathPaymentIntent.get tradeId) (.panic "No pending path payment")
  let trade ← loadTrade s tradeId
  assert (trade.status = .created) "Trade must be in Created status"
  let admin ← loadAdmin s "Not initialized"
  assert (caller = intent.buyer ∨ caller = admin) "Unauthorized path payment finalization"
  let cngnAfter := s.tokens.balance trade.token currentContract
  let destAmount ← expect (I128.checkedSub cngnAfter intent.cngnBalanceBefore)
    (.panic "cNGN balance underflow")
  assert (destAmount ≥ intent.destMin) "Path payment: dest_amount below dest_min"
  let now := env.timestamp
  let s := saveTrade s tradeId
    { trade with
      amount := destAmount
      status := .funded
      fundedAt := some now
      updatedAt := now }
  let s := { s with pathPaymentIntent := s.pathPaymentIntent.erase tradeId }
  let sourceToken ← expect s.sourceToken (.panic "SourceToken not configured")
  return publish s
    (.pathPaymentExecuted tradeId intent.buyer sourceToken intent.sourceAmount trade.token
      destAmount)

/-! ## Cancellation and refunds -/

def executeCancellation (env : Env) (trade : Trade) (refundAmount : Int) (caller : Address)
    (s : State) : Outcome State := do
  let s ← payOut s trade.token trade.buyer refundAmount
  let trade := { trade with status := .cancelled, updatedAt := env.timestamp }
  let s := saveTrade s trade.tradeId trade
  let s := updateReleaseSequence env s trade fun sequence now =>
    { sequence with cancelledAt := some now }
  let s := recordTradeEvent env s trade.tradeId "cancelled" caller "trade cancelled"
  return publish s (.tradeCancelled trade.tradeId refundAmount caller env.timestamp)

/-- The cancel request of the calling party joined to those on record. -/
def joinCancelRequest (trade : Trade) (caller : Address) (requests : Bool × Bool) : Bool × Bool :=
  if caller = trade.buyer then (true, requests.2)
  else if caller = trade.seller then (requests.1, true)
  else requests

def cancelTrade (env : Env) (tradeId : Nat) (caller : Address) (s : State) : Outcome State := do
  assertNotPaused s
  let trade ← loadTrade s tradeId
  let admin ← loadAdmin s "Not initialized"
  requireAuth env caller
  match trade.status with
  | .created =>
    assert (caller = trade.buyer ∨ caller = trade.seller ∨ caller = admin) "Unauthorized caller"
    executeCancellation env trade 0 caller s
  | .funded =>
    if caller = admin then
      executeCancellation env trade trade.amount admin s
    else
      assert (caller = trade.buyer ∨ caller = trade.seller) "Unauthorized caller"
      let requests :=
        joinCancelRequest trade caller ((s.cancelRequest.get tradeId).getD (false, false))
      if requests.1 && requests.2 then
        let s ← executeCancellation env trade trade.amount caller s
        return { s with cancelRequest := s.cancelRequest.erase tradeId }
      else
        let s := { s with cancelRequest := s.cancelRequest.set tradeId requests }
        return saveTrade s tradeId { trade with updatedAt := env.timestamp }
  | _ => .error (.panic "Cannot cancel trade in current status")

def cancelByBuyer (env : Env) (tradeId : Nat) (s : State) : Outcome State := do
  let trade ← loadTrade s tradeId
  requireAuth env trade.buyer
  assert (trade.status = .created) "Trade must be in Created status"
  let trade := { trade with status := .cancelled, updatedAt := env.timestamp }
  let s := saveTrade s tradeId trade
  let s := updateReleaseSequence env s trade fun sequence now =>
    { sequence with cancelledAt := some now }
  return publish s (.tradeCancelledByBuyer tradeId trade.buyer)

def refund (env : Env) (tradeId : Nat) (s : State) : Outcome State := do
  let trade ← loadTrade s tradeId
  requireAuth env trade.seller
  assert (trade.status = .funded ∨ trade.status = .delivered)
    "Trade must be Funded or Delivered to be refunded by seller"
  executeCancellation env trade trade.amount trade.seller s

def claimExpiryRefund (env : Env) (tradeId : Nat) (caller : Address) (s : State) :
    Outcome State := do
  requireAuth env caller
  let trade ← loadTrade s tradeId
  assert (caller = trade.buyer ∨ caller = trade.seller)
    "Only the buyer or seller can claim an expiry refund"
  assert (trade.status = .funded) "Trade must be in Funded status to claim expiry refund"
  let deadline ← expect trade.expiresAt (.panic "Trade has no expiry deadline")
  let now := env.timestamp
  assert (now ≥ deadline) "Trade has not yet expired"
  let refundAmount := trade.amount
  let s ← tokenTransfer s trade.token currentContract trade.buyer refundAmount
  let trade := { trade with status := .cancelled, updatedAt := now }
  let s := saveTrade s tradeId trade
  let s := updateReleaseSequence env s trade fun sequence now =>
    { sequence with expiredAt := some now, cancelledAt := some now }
  return publish s (.tradeExpired tradeId refundAmount caller)

/-! ## Deadlines -/

/-- `extension_count`. -/
def getExtensionCount (s : State) (tradeId : Nat) : Nat := (s.extensionCount.get tradeId).getD 0

def extendDeadline (env : Env) (tradeId newDeadline : Nat) (s : State) : Outcome State := do
  let trade ← loadTrade s tradeId
  requireAuth env trade.buyer
  requireAuth env trade.seller
  assert (trade.status = .funded) "Trade must be Funded to extend deadline"
  let oldDeadline ← expect trade.expiresAt (.panic "Trade has no deadline to extend")
  let now := env.timestamp
  assert (now < oldDeadline) "Cannot extend a deadline that has already passed"
  assert (newDeadline > now) "New deadline must be in the future"
  assert (newDeadline > oldDeadline) "New deadline must be later than the current deadline"
  let policy := getExtensionPolicy s
  let used := getExtensionCount s tradeId
  assert (used < policy.maxExtensions) "Trade has exhausted its deadline extension allowance"
  let originalDeadline := (s.originalDeadline.get tradeId).getD oldDeadline
  let extendedBy := newDeadline - originalDeadline
  assert (extendedBy ≤ policy.maxTotalExtensionSecs)
    "New deadline exceeds the maximum total extension for this trade"
  let s :=
    { s with
      originalDeadline :=
        if used = 0 then s.originalDeadline.set tradeId originalDeadline else s.originalDeadline }
  let extensionsUsed := U32.add used 1
  let s := { s with extensionCount := s.extensionCount.set tradeId extensionsUsed }
  let s := saveTrade s tradeId { trade with expiresAt := some newDeadline, updatedAt := now }
  let s := recordTradeEvent env s tradeId "deadline_extended" trade.buyer
    "delivery deadline extended"
  let s := publish s
    (.deadlineExtensionBudget tradeId extensionsUsed (policy.maxExtensions - extensionsUsed)
      originalDeadline extendedBy (policy.maxTotalExtensionSecs - extendedBy) eventSchemaVersion)
  return publish s (.deadlineExtended tradeId oldDeadline newDeadline)

def getExtensionStatus (s : State) (tradeId : Nat) : Outcome ExtensionStatus := do
  let trade ← loadTrade s tradeId
  let policy := getExtensionPolicy s
  let used := getExtensionCount s tradeId
  let originalDeadline := (s.originalDeadline.get tradeId).or trade.expiresAt
  let extendedBy :=
    match originalDeadline, trade.expiresAt with
    | some original, some current => current - original
    | _, _ => 0
  let secsRemaining := policy.maxTotalExtensionSecs - extendedBy
  let countRemaining := policy.maxExtensions - used
  return {
    tradeId
    extensionsUsed := used
    extensionsRemaining := countRemaining
    originalDeadline
    extendedBySecs := extendedBy
    extensionSecsRemaining := secsRemaining
    isFinalExtension := countRemaining == 1
    isExhausted := countRemaining == 0 || secsRemaining == 0 }

/-! ## Delivery and release -/

def confirmDelivery (env : Env) (tradeId : Nat) (s : State) : Outcome State := do
  let trade ← loadTrade s tradeId
  requireAuth env trade.buyer
  assert (trade.status = .funded) "Trade must be funded"
  let now := env.timestamp
  let trade := { trade with status := .delivered, deliveredAt := some now, updatedAt := now }
  let s := saveTrade s tradeId trade
  let s := updateReleaseSequence env s trade fun sequence now =>
    { sequence with deliveredAt := some now }
  let s := recordTradeEvent env s tradeId "delivered" trade.buyer "delivery confirmed"
  return publish s (.deliveryConfirmed tradeId now)

def releaseFunds (env : Env) (tradeId : Nat) (caller : Address) (s : State) : Outcome State := do
  assertNotPaused s
  let trade ← loadTrade s tradeId
  assert (trade.status = .delivered) "Trade must be delivered"
  requireAuth env caller
  let admin ← loadAdmin s "Not initialized"
  assert (caller = trade.buyer ∨ caller = admin) "Unauthorized caller"
  let feeAmount ← checkedFeeAmount trade.amount (getFeeBps s)
  let sellerAmount := I128.sub trade.amount feeAmount
  assert (I128.add sellerAmount feeAmount = trade.amount)
    "release_funds: cNGN conservation invariant violated"
  assert (sellerAmount ≥ 0) "seller_amount must be non-negative"
  assert (feeAmount ≥ 0) "fee_amount must be non-negative"
  let s ← tokenTransfer s trade.token currentContract trade.seller sellerAmount
  let s := accrueFee s feeAmount
  let now := env.timestamp
  let trade := { trade with status := .completed, updatedAt := now }
  let s := saveTrade s tradeId trade
  let s := updateReleaseSequence env s trade fun sequence now =>
    { sequence with releasedAt := some now }
  let s := recordTradeEvent env s tradeId "released" caller "funds released to seller"
  return publish s (.fundsReleased tradeId sellerAmount feeAmount)

end Amana.Escrow
