import Amana.Escrow.Events
import Amana.Lib.Store
import Amana.Lib.Token
import Amana.Lib.Guard

/-!
# Contract state

Every storage key of `DataKey` is a field: a key without argument an `Option`, a key with an
argument a `Store`.  The fields are grouped by the part of the contract that writes them:
`Settings` (roles and policies), `Books` (trades and money), `Files` (the audit data kept beside a
trade) and `Queue` (timelocked operations).  The books carry the token ledger, since the contract's
balance is part of what it accounts for.

Storage TTLs are not modelled: an entry stays until it is removed.
-/

namespace Amana.Escrow

open Lib

/-- Roles, registries and policies. -/
structure Settings where
  /-- Whether `DataKey::Initialized` is present. -/
  initialized : Bool
  admin : Option Address
  cngnContract : Option Address
  treasury : Option Address
  feeBps : Option Nat
  sourceToken : Option Address
  schemaVersion : Option Nat
  timelockConfig : Option TimelockConfig
  mediator : Option Address
  paused : Option Bool
  extensionPolicy : Option ExtensionPolicy
  quorumConfig : Option QuorumConfig
  clawbackEnabled : Option Bool
  mediatorRegistry : Store Address Bool
  guardianRegistry : Store Address Bool
  allowedAsset : Store Address Bool
  assetDecimals : Store Address Nat
  mediatorWeight : Store Address Nat

/-- Trades, what is pending or counted against them, and the money. -/
structure Books where
  nextTradeId : Option Nat
  trades : Store Nat Trade
  pathPaymentIntent : Store Nat PathPaymentIntent
  clawbackTotal : Store Nat Int
  extensionCount : Store Nat Nat
  originalDeadline : Store Nat Nat
  accruedFees : Option Int
  tokens : Token.Ledger Address

/-- The data kept beside a trade, and the aggregate counters. -/
structure Files where
  tradeHistory : Store Nat (List TradeEvent)
  releaseSequence : Store Nat ReleaseSequence
  cancelRequest : Store Nat (Bool × Bool)
  disputeData : Store Nat DisputeRecord
  disputeVotes : Store Nat QuorumState
  evidence : Store (Nat × Address) (List UInt8)
  evidenceList : Store Nat (List EvidenceRecord)
  videoProof : Store Nat VideoProofRecord
  manifest : Store Nat DeliveryManifestRecord
  totalTrades : Option Nat
  totalDisputes : Option Nat
  totalResolved : Option Nat

/-- Timelocked operations and the code the contract runs. -/
structure Queue where
  nextTimelockId : Option Nat
  timelockOperation : Store Nat QueuedOperation
  /-- The hash of the last installed upgrade. -/
  wasm : Option BytesN32

/-- The contract's storage with the events published so far. -/
structure State extends Settings, Books, Files, Queue where
  events : List Event

/-- What the host tells an invocation: ledger time and sequence, and who authorized it. -/
structure Env where
  timestamp : Nat
  sequence : Nat
  auths : List Address

/-- The storage of a contract that was just deployed, over the tokens that exist by then. -/
def State.deployed (tokens : Token.Ledger Address) : State where
  initialized := false
  admin := none
  cngnContract := none
  treasury := none
  feeBps := none
  sourceToken := none
  schemaVersion := none
  timelockConfig := none
  mediator := none
  paused := none
  extensionPolicy := none
  quorumConfig := none
  clawbackEnabled := none
  mediatorRegistry := .empty
  guardianRegistry := .empty
  allowedAsset := .empty
  assetDecimals := .empty
  mediatorWeight := .empty
  nextTradeId := none
  trades := .empty
  pathPaymentIntent := .empty
  clawbackTotal := .empty
  extensionCount := .empty
  originalDeadline := .empty
  accruedFees := none
  tokens := tokens
  tradeHistory := .empty
  releaseSequence := .empty
  cancelRequest := .empty
  disputeData := .empty
  disputeVotes := .empty
  evidence := .empty
  evidenceList := .empty
  videoProof := .empty
  manifest := .empty
  totalTrades := none
  totalDisputes := none
  totalResolved := none
  nextTimelockId := none
  timelockOperation := .empty
  wasm := none
  events := []

/-! ## Host calls and shared helpers -/

/-- `assert!`. -/
def assert (p : Prop) [Decidable p] (message : String) : Outcome Unit := ensure p (.panic message)

/-- `Address::require_auth`.  The contract has no `__check_auth` and the host forbids re-entry, so
its own address never authorizes a call to it. -/
def requireAuth (env : Env) (address : Address) : Outcome Unit :=
  ensure (address ∈ env.auths ∧ address ≠ currentContract) (.unauthorized address)

/-- `token::Client::transfer`. -/
def tokenTransfer (s : State) (token source dest : Address) (amount : Int) : Outcome State := do
  let tokens ← expect (Token.transfer s.tokens ⟨token, source, dest, amount⟩) .token
  return { s with tokens := tokens }

/-- Pay out of escrow, when there is anything to pay. -/
def payOut (s : State) (token dest : Address) (amount : Int) : Outcome State :=
  if amount > 0 then tokenTransfer s token currentContract dest amount else .ok s

/-- Publish an event. -/
def publish (s : State) (event : Event) : State := { s with events := s.events ++ [event] }

/-- The stored admin, or the panic `expect` gives when there is none. -/
def loadAdmin (s : State) (message : String) : Outcome Address := expect s.admin (.panic message)

/-- The guard of every admin entrypoint. -/
def requireAdmin (env : Env) (s : State) (message : String) : Outcome Address := do
  let admin ← loadAdmin s message
  requireAuth env admin
  return admin

/-- `assert_not_paused`. -/
def assertNotPaused (s : State) : Outcome Unit :=
  assert (s.paused.getD false = false) "contract is paused"

def loadTrade (s : State) (key : Nat) : Outcome Trade :=
  expect (s.trades.get key) (.panic "Trade not found")

def saveTrade (s : State) (key : Nat) (trade : Trade) : State :=
  { s with trades := s.trades.set key trade }

def defaultReleaseSequence (trade : Trade) : ReleaseSequence where
  tradeId := trade.tradeId
  createdAt := trade.createdAt
  fundedAt := trade.fundedAt
  manifestSubmittedAt := none
  deliveredAt := trade.deliveredAt
  disputedAt := none
  releasedAt := none
  resolvedAt := none
  cancelledAt := none
  expiredAt := none

def updateReleaseSequence (env : Env) (s : State) (trade : Trade)
    (updater : ReleaseSequence → Nat → ReleaseSequence) : State :=
  let key := trade.tradeId
  let sequence := (s.releaseSequence.get key).getD (defaultReleaseSequence trade)
  { s with releaseSequence := s.releaseSequence.set key (updater sequence env.timestamp) }

def recordTradeEvent (env : Env) (s : State) (tradeId : Nat) (eventType : String)
    (actor : Address) (data : String) : State :=
  let history := (s.tradeHistory.get tradeId).getD []
  let entry : TradeEvent := ⟨eventType, env.timestamp, actor, data⟩
  { s with tradeHistory := s.tradeHistory.set tradeId (history ++ [entry]) }

/-! ## What a successful helper established -/

theorem assert_eq_ok {p : Prop} [Decidable p] {message : String} {u : Unit} :
    assert p message = .ok u ↔ p := ensure_eq_ok

theorem requireAuth_eq_ok {env : Env} {a : Address} {u : Unit} :
    requireAuth env a = .ok u ↔ a ∈ env.auths ∧ a ≠ currentContract := ensure_eq_ok

theorem loadAdmin_eq_ok {s : State} {message : String} {a : Address} :
    loadAdmin s message = .ok a ↔ s.admin = some a := expect_eq_ok

theorem requireAdmin_eq_ok {env : Env} {s : State} {message : String} {a : Address} :
    requireAdmin env s message = .ok a ↔
      s.admin = some a ∧ a ∈ env.auths ∧ a ≠ currentContract := by
  simp only [requireAdmin, bind_eq_ok, loadAdmin_eq_ok, requireAuth_eq_ok, pure_eq_ok,
    exists_const]
  constructor
  · rintro ⟨a', hadmin, hauth, rfl⟩
    exact ⟨hadmin, hauth⟩
  · rintro ⟨hadmin, hauth⟩
    exact ⟨a, hadmin, hauth, rfl⟩

theorem assertNotPaused_eq_ok {s : State} {u : Unit} :
    assertNotPaused s = .ok u ↔ s.paused.getD false = false := assert_eq_ok

theorem loadTrade_eq_ok {s : State} {k : Nat} {t : Trade} :
    loadTrade s k = .ok t ↔ s.trades.get k = some t := expect_eq_ok

theorem tokenTransfer_eq_ok {s s' : State} {token source dest : Address} {amount : Int} :
    tokenTransfer s token source dest amount = .ok s' ↔
      ∃ tokens, Token.transfer s.tokens ⟨token, source, dest, amount⟩ = some tokens ∧
        { s with tokens := tokens } = s' := by
  simp only [tokenTransfer, bind_eq_ok, expect_eq_ok, pure_eq_ok]

theorem payOut_eq_ok {s s' : State} {token dest : Address} {amount : Int} :
    payOut s token dest amount = .ok s' ↔
      ∃ tokens, Token.pay s.tokens ⟨token, currentContract, dest, amount⟩ = some tokens ∧
        { s with tokens := tokens } = s' := by
  unfold payOut Token.pay
  split
  · exact tokenTransfer_eq_ok
  · constructor
    · intro h
      cases h
      exact ⟨s.tokens, rfl, rfl⟩
    · rintro ⟨tokens, h, rfl⟩
      cases h
      rfl

end Amana.Escrow
