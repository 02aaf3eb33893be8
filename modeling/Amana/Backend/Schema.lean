import Amana.Lib.Database

/-!
# The tables

The tables of `schema.prisma` the listener and its rivals write to, each row under its unique key,
with the columns that some modelled function reads or writes.
-/

namespace Amana.Backend

open Lib.Database

inductive TradeStatus where
  | pendingSignature
  | created
  | funded
  | delivered
  | completed
  | disputed
  | cancelled
  | expired
  deriving DecidableEq, Repr

inductive DisputeStatus where
  | opened
  | underReview
  | resolved
  | closed
  deriving DecidableEq, Repr

inductive ChainEventSyncStatus where
  | pending
  | retrying
  | processed
  | deadLetter
  deriving DecidableEq, Repr

structure TradeRow where
  buyerAddress : String
  sellerAddress : String
  amountUsdc : String
  version : Nat
  status : TradeStatus
  expiresAt : Option Nat
  expiredAt : Option Nat
  deriving DecidableEq, Repr

structure DisputeRow where
  initiator : String
  reason : String
  status : DisputeStatus
  version : Nat
  resolvedAt : Option Nat
  categoryId : Option Nat
  deriving DecidableEq, Repr

structure ClawbackRow where
  admin : String
  amount : String
  timestamp : Nat
  deriving DecidableEq, Repr

/-- The composite key of an event. -/
structure EventKey where
  ledgerSequence : Nat
  contractId : String
  eventId : String
  deriving DecidableEq, Repr

/-- `ChainEventOutbox`. -/
structure OutboxRow where
  eventType : String
  tradeId : String
  status : ChainEventSyncStatus
  attempts : Nat
  nextAttemptAt : Nat
  lastError : Option String
  deadLetteredAt : Option Nat
  processedAt : Option Nat
  deriving DecidableEq, Repr

/-- The unique keys of the tables. -/
inductive Key where
  | trade (tradeId : String)
  | dispute (tradeId : String)
  | processedEvent (key : EventKey)
  | chainEventOutbox (key : EventKey)
  | streamClawbackEvent (streamId txHash : String)
  deriving DecidableEq

/-- The rows of the tables. -/
abbrev Row : Key → Type
  | .trade _ => TradeRow
  | .dispute _ => DisputeRow
  | .processedEvent _ => Unit
  | .chainEventOutbox _ => OutboxRow
  | .streamClawbackEvent _ _ => ClawbackRow

/-- The rows that the foreign keys of these tables refer to: wallet addresses of users, and
streams. -/
structure References where
  users : String → Bool
  streams : String → Bool

/-- The foreign keys of a new row.  The one from a dispute to its trade is left out: disputes are
created beside a trade that is there. -/
def References.valid (refs : References) : (k : Key) → Row k → Bool
  | .trade _, row => refs.users row.buyerAddress && refs.users row.sellerAddress
  | .dispute _, row => refs.users row.initiator
  | .streamClawbackEvent streamId _, _ => refs.streams streamId
  | .processedEvent _, _ => true
  | .chainEventOutbox _, _ => true

/-- The status of a trade, if it has a row. -/
def tradeStatus (db : Db Row) (tradeId : String) : Option TradeStatus :=
  (db (.trade tradeId)).map TradeRow.status

end Amana.Backend
