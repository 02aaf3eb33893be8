import Amana.Escrow.Types

/-!
# Contract events

The events of `events.rs` that an entrypoint publishes, one constructor each, with the event's own
fields.
-/

namespace Amana.Escrow

inductive Event where
  | initialized (admin : Address) (feeBps timestamp : Nat)
  | tradeCreated (tradeId : Nat) (buyer seller : Address) (amount : Int)
  | tradeFunded (tradeId : Nat) (amount : Int)
  | tradeCancelled (tradeId : Nat) (refundAmount : Int) (caller : Address) (timestamp : Nat)
  | tradeCancelledByBuyer (tradeId : Nat) (buyer : Address)
  | contractUpgraded (admin : Address) (newWasmHash : BytesN32)
  | deliveryConfirmed (tradeId deliveredAt : Nat)
  | fundsReleased (tradeId : Nat) (sellerAmount feeAmount : Int)
  | disputeResolved (tradeId : Nat) (sellerPayout buyerRefund : Int) (mediator : Address)
  | disputeVoteCast (tradeId : Nat) (mediator : Address) (sellerGetsBps weight : Nat)
      (rationaleHash : String) (outcomeWeight weightToQuorum votedAt schemaVersion : Nat)
  | disputeQuorumResolved (tradeId sellerGetsBps : Nat) (outcome : QuorumOutcome)
      (winningWeight totalWeight voteCount schemaVersion : Nat)
  | quorumConfigUpdated (enabled : Bool) (valueThreshold : Int)
      (requiredWeight voteWindowSecs fallbackMinWeight schemaVersion : Nat)
  | mediatorWeightUpdated (mediator : Address) (weight schemaVersion : Nat)
  | evidenceSubmitted (tradeId : Nat) (submitter : Address) (evidenceHash : List UInt8)
  | disputeInitiated (tradeId : Nat) (initiator : Address) (reasonHash : String)
  | videoProofSubmitted (tradeId : Nat) (submitter : Address) (ipfsCid : String) (timestamp : Nat)
  | tradeExpired (tradeId : Nat) (refundAmount : Int) (caller : Address)
  | deadlineExtended (tradeId oldDeadline newDeadline : Nat)
  | deadlineExtensionBudget (tradeId extensionsUsed extensionsRemaining originalDeadline
      extendedBySecs extensionSecsRemaining schemaVersion : Nat)
  | extensionPolicyUpdated (maxExtensions maxTotalExtensionSecs schemaVersion : Nat)
  | manifestSubmitted (tradeId : Nat) (seller : Address) (driverNameHash driverIdHash : String)
      (timestamp : Nat)
  | mediatorAdded (mediator : Address)
  | mediatorRemoved (mediator : Address)
  | feeRateUpdated (oldFeeBps newFeeBps : Nat)
  | feesWithdrawn (amount : Int) (destination : Address)
  | pathPaymentInitiated (tradeId : Nat) (buyer sourceToken : Address)
      (sourceAmount destMin : Int) (path : List Address)
  | pathPaymentExecuted (tradeId : Nat) (buyer sourceToken : Address) (sourceAmount : Int)
      (destToken : Address) (destAmount : Int)
  | clawbackExecuted (tradeId : Nat) (clawbackAmount remainingAmount : Int)
      (destination admin : Address) (schemaVersion : Nat)
  | timelockOperationQueued (operationId : Nat) (operationType : String)
      (queuedAt executeAfter : Nat) (admin : Address)
  | timelockOperationExecuted (operationId executedAt : Nat)
  | timelockOperationCancelled (operationId cancelledAt : Nat) (admin : Address)
  | contractUpgradeQueued (operationId : Nat) (newWasmHash : BytesN32)
      (queuedAt executeAfter : Nat)
  deriving DecidableEq, Repr

end Amana.Escrow
