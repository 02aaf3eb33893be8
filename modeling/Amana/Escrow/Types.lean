import Mathlib.Tactic.Common

/-!
# Types and constants of the escrow contract

The records and enumerations of `types.rs`, the constants of `lib.rs`, and the failures a call can
end in.  `u32` and `u64` values are naturals, `i128` values integers.  The `TradeData` envelope has
a single version and is left out: a stored trade is its `V0` payload.
-/

namespace Amana.Escrow

/-- A Stellar account or contract address. -/
structure Address where
  id : Nat
  deriving DecidableEq, Repr

/-- The address of the escrow contract itself. -/
def currentContract : Address := ⟨0⟩

/-- The 32 bytes of a WASM hash. -/
abbrev BytesN32 := BitVec 256

/-- How an invocation fails: a panic of the contract, an authorization the host refuses, or a
transfer the token contract refuses. -/
inductive Failure where
  | panic (message : String)
  | unauthorized (address : Address)
  | token
  deriving DecidableEq, Repr

/-- The result of a fallible operation. -/
abbrev Outcome := Except Failure

/-! ## Constants -/

def bpsDivisor : Int := 10000

def maxHashLen : Nat := 256

def currentSchemaVersion : Nat := 1

def eventSchemaVersion : Nat := 1

def maxTradeValue : Int := 1000000000000

def defaultMaxDeadlineExtensions : Nat := 3

def defaultMaxTotalExtensionSecs : Nat := 30 * 24 * 60 * 60

def extensionPolicyCeilingSecs : Nat := 365 * 24 * 60 * 60

def extensionPolicyCeilingCount : Nat := 12

def defaultQuorumValueThreshold : Int := 10000000000

def defaultQuorumRequiredWeight : Nat := 3

def defaultQuorumVoteWindowSecs : Nat := 7 * 24 * 60 * 60

def defaultQuorumFallbackMinWeight : Nat := 2

def defaultMediatorWeight : Nat := 1

def maxMediatorWeight : Nat := 10

def minFeeBps : Nat := 1

def maxFeeBps : Nat := 500

/-! ## Trades -/

/-- One entry of a trade's on-chain history. -/
structure TradeEvent where
  eventType : String
  timestamp : Nat
  actor : Address
  data : String
  deriving DecidableEq, Repr

inductive TradeStatus where
  | created
  | funded
  | delivered
  | completed
  | disputed
  | cancelled
  deriving DecidableEq, Repr

/-- `TradeV0`. -/
structure Trade where
  tradeId : Nat
  buyer : Address
  seller : Address
  token : Address
  amount : Int
  status : TradeStatus
  createdAt : Nat
  updatedAt : Nat
  fundedAt : Option Nat
  deliveredAt : Option Nat
  buyerLossBps : Nat
  sellerLossBps : Nat
  expiresAt : Option Nat
  deriving DecidableEq, Repr

/-- Caps on deadline extensions. -/
structure ExtensionPolicy where
  maxExtensions : Nat
  maxTotalExtensionSecs : Nat
  deriving DecidableEq, Repr

/-- The remaining extension budget of a trade. -/
structure ExtensionStatus where
  tradeId : Nat
  extensionsUsed : Nat
  extensionsRemaining : Nat
  originalDeadline : Option Nat
  extendedBySecs : Nat
  extensionSecsRemaining : Nat
  isFinalExtension : Bool
  isExhausted : Bool
  deriving DecidableEq, Repr

/-- A path payment waiting for its conversion. -/
structure PathPaymentIntent where
  buyer : Address
  sourceAmount : Int
  destMin : Int
  path : List Address
  cngnBalanceBefore : Int
  deriving DecidableEq, Repr

/-- Timestamps of the steps of a trade, kept beside the trade record. -/
structure ReleaseSequence where
  tradeId : Nat
  createdAt : Nat
  fundedAt : Option Nat
  manifestSubmittedAt : Option Nat
  deliveredAt : Option Nat
  disputedAt : Option Nat
  releasedAt : Option Nat
  resolvedAt : Option Nat
  cancelledAt : Option Nat
  expiredAt : Option Nat
  deriving DecidableEq, Repr

/-! ## Disputes and evidence -/

/-- The mediator quorum policy. -/
structure QuorumConfig where
  enabled : Bool
  valueThreshold : Int
  requiredWeight : Nat
  voteWindowSecs : Nat
  fallbackMinWeight : Nat
  deriving DecidableEq, Repr

structure MediatorVote where
  mediator : Address
  sellerGetsBps : Nat
  weight : Nat
  rationaleHash : String
  votedAt : Nat
  deriving DecidableEq, Repr

/-- The votes on one disputed trade and the time of the first. -/
structure QuorumState where
  tradeId : Nat
  votes : List MediatorVote
  openedAt : Nat
  deriving DecidableEq, Repr

inductive QuorumOutcome where
  | quorum
  | fallback
  deriving DecidableEq, Repr

structure DisputeRecord where
  initiator : Address
  reasonHash : String
  disputedAt : Nat
  deriving DecidableEq, Repr

structure VideoProofRecord where
  submitter : Address
  ipfsCid : String
  submittedAt : Nat
  deriving DecidableEq, Repr

structure EvidenceRecord where
  submitter : Address
  ipfsHash : String
  descriptionHash : String
  submittedAt : Nat
  deriving DecidableEq, Repr

structure DeliveryManifestRecord where
  seller : Address
  driverNameHash : String
  driverIdHash : String
  submittedAt : Nat
  deriving DecidableEq, Repr

/-! ## Timelock -/

structure TimelockClawbackOp where
  tradeId : Nat
  clawbackAmount : Int
  destination : Address
  deriving DecidableEq, Repr

structure TimelockUpgradeOp where
  newWasmHash : BytesN32
  deriving DecidableEq, Repr

inductive TimelockOpPayload where
  | clawback (op : TimelockClawbackOp)
  | upgrade (op : TimelockUpgradeOp)
  deriving DecidableEq, Repr

structure QueuedOperation where
  operationId : Nat
  operationType : String
  payload : TimelockOpPayload
  queuedAt : Nat
  executeAfter : Nat
  executed : Bool
  cancelled : Bool
  admin : Address
  deriving DecidableEq, Repr

structure TimelockConfig where
  clawbackDelaySeconds : Nat
  upgradeDelaySeconds : Nat
  deriving DecidableEq, Repr

/-- The panic text of a non-positive clawback. -/
def clawbackInvalidAmount : String := "CLAWBACK_INVALID_AMOUNT"

end Amana.Escrow
