import Amana.Escrow.Lifecycle

/-!
# Disputes

Opening a dispute, the single-mediator path, the mediator quorum with its fallback, and the shared
settlement `settle_dispute`.
-/

namespace Amana.Escrow

open Lib

def initiateDispute (env : Env) (tradeId : Nat) (initiator : Address) (reasonHash : String)
    (s : State) : Outcome State := do
  requireAuth env initiator
  assert (reasonHash.utf8ByteSize ≠ 0) "reason_hash must not be empty"
  assert (reasonHash.utf8ByteSize ≤ maxHashLen) "reason_hash exceeds max length"
  let trade ← loadTrade s tradeId
  assert (trade.status = .funded) "Trade must be in Funded status to initiate a dispute"
  assert (initiator = trade.buyer ∨ initiator = trade.seller)
    "Only the buyer or seller can initiate a dispute"
  let now := env.timestamp
  let s :=
    { s with
      disputeData := s.disputeData.set tradeId { initiator, reasonHash, disputedAt := now } }
  let trade := { trade with status := .disputed, updatedAt := now }
  let s := saveTrade s tradeId trade
  let s := updateReleaseSequence env s trade fun sequence now =>
    { sequence with disputedAt := some now }
  let s := { s with totalDisputes := some (U64.add (s.totalDisputes.getD 0) 1) }
  let s := recordTradeEvent env s tradeId "disputed" initiator "dispute initiated"
  return publish s (.disputeInitiated tradeId initiator reasonHash)

/-! ## Settlement -/

/-- The three parts a disputed amount is split into. -/
structure Split where
  sellerNet : Int
  buyerRefund : Int
  fee : Int
  deriving DecidableEq, Repr

/-- The payout arithmetic of `settle_dispute`, with its assertions. -/
def disputeSplit (total : Int) (sellerGetsBps sellerLossBps feeBps : Nat) : Outcome Split := do
  let lossBps := I128.sub bpsDivisor sellerGetsBps
  let sellerLossAmount ← checkedLossAmount total lossBps sellerLossBps
  let sellerRaw := I128.sub total sellerLossAmount
  let buyerRefund := I128.sub total sellerRaw
  let fee ← checkedFeeAmount sellerRaw feeBps
  let sellerNet := I128.sub sellerRaw fee
  assert (sellerNet ≥ 0) "seller_net must be non-negative"
  assert (buyerRefund ≥ 0) "buyer_refund must be non-negative"
  assert (fee ≥ 0) "fee must be non-negative"
  assert (I128.add (I128.add sellerNet buyerRefund) fee = total)
    "resolve_dispute: cNGN conservation invariant violated"
  return ⟨sellerNet, buyerRefund, fee⟩

def settleDispute (env : Env) (tradeId sellerGetsBps : Nat) (mediator : Address) (s : State) :
    Outcome State := do
  let trade ← loadTrade s tradeId
  assert (trade.status = .disputed) "Trade must be in Disputed status"
  let split ← disputeSplit trade.amount sellerGetsBps trade.sellerLossBps (getFeeBps s)
  let s ← payOut s trade.token trade.seller split.sellerNet
  let s := accrueFee s split.fee
  let s ← payOut s trade.token trade.buyer split.buyerRefund
  let now := env.timestamp
  let trade := { trade with status := .completed, updatedAt := now }
  let s := saveTrade s tradeId trade
  let s := updateReleaseSequence env s trade fun sequence now =>
    { sequence with resolvedAt := some now }
  let s := { s with totalResolved := some (U64.add (s.totalResolved.getD 0) 1) }
  let s := recordTradeEvent env s tradeId "resolved" mediator "dispute resolved"
  return publish s (.disputeResolved tradeId split.sellerNet split.buyerRefund mediator)

def requiresQuorum (s : State) (tradeId : Nat) : Outcome Bool := do
  let config := getQuorumConfig s
  if config.enabled = false then
    return false
  else
    let trade ← loadTrade s tradeId
    return decide (trade.amount ≥ config.valueThreshold)

def resolveDispute (env : Env) (tradeId : Nat) (mediator : Address) (sellerGetsBps : Nat)
    (s : State) : Outcome State := do
  let mediator ← requireMediator env s mediator
  assert (sellerGetsBps ≤ 10000) "seller_gets_bps must be <= 10_000"
  let quorum ← requiresQuorum s tradeId
  assert (quorum = false) "Trade value requires a mediator quorum; use cast_dispute_vote"
  settleDispute env tradeId sellerGetsBps mediator s

/-! ## Votes -/

/-- Total weight behind one outcome. -/
def weightForOutcome (votes : List MediatorVote) (sellerGetsBps : Nat) : Nat :=
  votes.foldl
    (fun total vote =>
      if vote.sellerGetsBps = sellerGetsBps then U32.saturatingAdd total vote.weight else total)
    0

def totalVoteWeight (votes : List MediatorVote) : Nat :=
  votes.foldl (fun total vote => U32.saturatingAdd total vote.weight) 0

/-- The loop state of `plurality_outcome`: best outcome, its weight, and whether any was seen. -/
structure Plurality where
  bestBps : Nat
  bestWeight : Nat
  seenAny : Bool
  deriving DecidableEq, Repr

def Plurality.consider (votes : List MediatorVote) (best : Plurality) (candidate : MediatorVote) :
    Plurality :=
  let bps := candidate.sellerGetsBps
  let weight := weightForOutcome votes bps
  if !best.seenAny || decide (weight > best.bestWeight) ||
      (weight == best.bestWeight && decide (bps < best.bestBps)) then
    ⟨bps, weight, true⟩
  else best

/-- The outcome of most weight, ties going to the lowest share of the seller. -/
def pluralityOutcome (votes : List MediatorVote) : Nat × Nat :=
  let best := votes.foldl (Plurality.consider votes) ⟨0, 0, false⟩
  (best.bestBps, best.bestWeight)

def finalizeQuorum (env : Env) (tradeId : Nat) (state : QuorumState)
    (sellerGetsBps winningWeight : Nat) (outcome : QuorumOutcome) (s : State) :
    Outcome State := do
  -- The first voter of the winning outcome stands as mediator of record.
  let vote ← expect (state.votes.find? fun vote => vote.sellerGetsBps = sellerGetsBps)
    (.panic "winning outcome must have at least one vote")
  let s ← settleDispute env tradeId sellerGetsBps vote.mediator s
  return publish s
    (.disputeQuorumResolved tradeId sellerGetsBps outcome winningWeight
      (totalVoteWeight state.votes) state.votes.length eventSchemaVersion)

def castDisputeVote (env : Env) (tradeId : Nat) (mediator : Address) (sellerGetsBps : Nat)
    (rationaleHash : String) (s : State) : Outcome State := do
  let mediator ← requireMediator env s mediator
  assert (sellerGetsBps ≤ 10000) "seller_gets_bps must be <= 10_000"
  assert (rationaleHash.utf8ByteSize ≠ 0) "rationale_hash must not be empty"
  assert (rationaleHash.utf8ByteSize ≤ maxHashLen) "rationale_hash exceeds max length"
  let trade ← loadTrade s tradeId
  assert (trade.status = .disputed) "Trade must be in Disputed status"
  let config := getQuorumConfig s
  assert (config.enabled = true ∧ trade.amount ≥ config.valueThreshold)
    "Trade does not require a mediator quorum; use resolve_dispute"
  let now := env.timestamp
  let state := (s.disputeVotes.get tradeId).getD { tradeId, votes := [], openedAt := now }
  assert (∀ existing ∈ state.votes, existing.mediator ≠ mediator)
    "Mediator has already voted on this dispute"
  let weight := getMediatorWeight s mediator
  let state :=
    { state with
      votes := state.votes ++ [⟨mediator, sellerGetsBps, weight, rationaleHash, now⟩] }
  let s := { s with disputeVotes := s.disputeVotes.set tradeId state }
  let outcomeWeight := weightForOutcome state.votes sellerGetsBps
  let s := publish s
    (.disputeVoteCast tradeId mediator sellerGetsBps weight rationaleHash outcomeWeight
      (config.requiredWeight - outcomeWeight) now eventSchemaVersion)
  if outcomeWeight ≥ config.requiredWeight then
    finalizeQuorum env tradeId state sellerGetsBps outcomeWeight .quorum s
  else return s

def resolveDisputeByFallback (env : Env) (tradeId : Nat) (caller : Address) (s : State) :
    Outcome State := do
  requireAuth env caller
  let trade ← loadTrade s tradeId
  assert (trade.status = .disputed) "Trade must be in Disputed status"
  assert ((caller = trade.buyer ∨ caller = trade.seller) ∨ isMediator s caller = true)
    "Only a trade party or an approved mediator may trigger fallback resolution"
  let config := getQuorumConfig s
  assert (config.enabled = true ∧ trade.amount ≥ config.valueThreshold)
    "Trade does not require a mediator quorum; use resolve_dispute"
  let state ← expect (s.disputeVotes.get tradeId) (.panic "No votes cast on this dispute")
  assert (state.votes ≠ []) "No votes cast on this dispute"
  let now := env.timestamp
  assert (now ≥ U64.add state.openedAt config.voteWindowSecs) "Vote window has not closed yet"
  assert (totalVoteWeight state.votes ≥ config.fallbackMinWeight)
    "Insufficient vote weight for fallback resolution"
  let (winningBps, winningWeight) := pluralityOutcome state.votes
  finalizeQuorum env tradeId state winningBps winningWeight .fallback s

end Amana.Escrow
