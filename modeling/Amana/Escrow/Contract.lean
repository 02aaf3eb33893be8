import Amana.Escrow.Dispute
import Amana.Escrow.Evidence
import Amana.Escrow.Timelock
import Amana.Lib.Machine

/-!
# The contract as a machine

`Call` lists the state-changing entrypoints with their arguments and `invoke` runs one.  An
`Action` is an invocation under some ledger environment, or a token movement outside the contract.
A failed invocation is rolled back by the host and leaves the state as it was, so `step` is total
and a run is any list of actions from a deployed contract.

After `execute_upgrade` the run goes on with the entrypoints of this code.
-/

namespace Amana.Escrow

open Lib

/-- A state-changing entrypoint with its arguments. -/
inductive Call where
  | initializeContract (admin cngnContract treasury : Address) (feeBps : Nat)
      (sourceToken : Address)
  | setMediator (mediator : Address)
  | addMediator (mediator : Address)
  | removeMediator (mediator : Address)
  | setMediatorWeight (mediator : Address) (weight : Nat)
  | addGuardian (guardian : Address)
  | removeGuardian (guardian : Address)
  | pause (guardian : Address)
  | unpause (guardian : Address)
  | allowAsset (asset : Address) (decimals : Nat)
  | disallowAsset (asset : Address)
  | updateFeeBps (newFeeBps : Nat)
  | setClawbackEnabled (enabled : Bool)
  | setExtensionPolicy (maxExtensions maxTotalExtensionSecs : Nat)
  | setQuorumConfig (config : QuorumConfig)
  | withdrawFees (amount : Int) (destination : Address)
  | createTrade (buyer seller : Address) (amount : Int) (buyerLossBps sellerLossBps : Nat)
      (expiresAt : Option Nat)
  | deposit (tradeId : Nat)
  | depositWithPath (tradeId : Nat) (buyer : Address) (sourceAmount destMin : Int)
      (path : List Address)
  | finalizePathPayment (tradeId : Nat) (caller : Address)
  | cancelTrade (tradeId : Nat) (caller : Address)
  | cancelByBuyer (tradeId : Nat)
  | refund (tradeId : Nat)
  | claimExpiryRefund (tradeId : Nat) (caller : Address)
  | extendDeadline (tradeId newDeadline : Nat)
  | confirmDelivery (tradeId : Nat)
  | releaseFunds (tradeId : Nat) (caller : Address)
  | initiateDispute (tradeId : Nat) (initiator : Address) (reasonHash : String)
  | resolveDispute (tradeId : Nat) (mediator : Address) (sellerGetsBps : Nat)
  | castDisputeVote (tradeId : Nat) (mediator : Address) (sellerGetsBps : Nat)
      (rationaleHash : String)
  | resolveDisputeByFallback (tradeId : Nat) (caller : Address)
  | submitEvidence (tradeId : Nat) (caller : Address) (ipfsHash descriptionHash : String)
  | submitVideoProof (tradeId : Nat) (submitter : Address) (ipfsCid : String)
  | submitManifest (tradeId : Nat) (seller : Address) (driverNameHash driverIdHash : String)
  | adminClawback (tradeId : Nat) (clawbackAmount : Int) (destination : Address)
  | queueClawback (tradeId : Nat) (clawbackAmount : Int) (destination : Address)
  | executeClawback (operationId : Nat)
  | cancelQueuedOperation (operationId : Nat)
  | queueUpgrade (newWasmHash : BytesN32)
  | executeUpgrade (operationId : Nat)
  deriving DecidableEq

/-- Run one entrypoint. -/
def invoke (env : Env) (s : State) : Call → Outcome State
  | .initializeContract admin cngn treasury feeBps source =>
    initializeContract env admin cngn treasury feeBps source s
  | .setMediator mediator => setMediator env mediator s
  | .addMediator mediator => addMediator env mediator s
  | .removeMediator mediator => removeMediator env mediator s
  | .setMediatorWeight mediator weight => setMediatorWeight env mediator weight s
  | .addGuardian guardian => addGuardian env guardian s
  | .removeGuardian guardian => removeGuardian env guardian s
  | .pause guardian => pause env guardian s
  | .unpause guardian => unpause env guardian s
  | .allowAsset asset decimals => allowAsset env asset decimals s
  | .disallowAsset asset => disallowAsset env asset s
  | .updateFeeBps newFeeBps => updateFeeBps env newFeeBps s
  | .setClawbackEnabled enabled => setClawbackEnabled env enabled s
  | .setExtensionPolicy count secs => setExtensionPolicy env count secs s
  | .setQuorumConfig config => setQuorumConfig env config s
  | .withdrawFees amount destination => withdrawFees env amount destination s
  | .createTrade buyer seller amount buyerLossBps sellerLossBps expiresAt =>
    (createTrade env buyer seller amount buyerLossBps sellerLossBps expiresAt s).map Prod.snd
  | .deposit tradeId => deposit env tradeId s
  | .depositWithPath tradeId buyer sourceAmount destMin path =>
    depositWithPath env tradeId buyer sourceAmount destMin path s
  | .finalizePathPayment tradeId caller => finalizePathPayment env tradeId caller s
  | .cancelTrade tradeId caller => cancelTrade env tradeId caller s
  | .cancelByBuyer tradeId => cancelByBuyer env tradeId s
  | .refund tradeId => refund env tradeId s
  | .claimExpiryRefund tradeId caller => claimExpiryRefund env tradeId caller s
  | .extendDeadline tradeId newDeadline => extendDeadline env tradeId newDeadline s
  | .confirmDelivery tradeId => confirmDelivery env tradeId s
  | .releaseFunds tradeId caller => releaseFunds env tradeId caller s
  | .initiateDispute tradeId initiator reasonHash =>
    initiateDispute env tradeId initiator reasonHash s
  | .resolveDispute tradeId mediator bps => resolveDispute env tradeId mediator bps s
  | .castDisputeVote tradeId mediator bps rationale =>
    castDisputeVote env tradeId mediator bps rationale s
  | .resolveDisputeByFallback tradeId caller => resolveDisputeByFallback env tradeId caller s
  | .submitEvidence tradeId caller ipfsHash descriptionHash =>
    submitEvidence env tradeId caller ipfsHash descriptionHash s
  | .submitVideoProof tradeId submitter ipfsCid =>
    submitVideoProof env tradeId submitter ipfsCid s
  | .submitManifest tradeId seller nameHash idHash =>
    submitManifest env tradeId seller nameHash idHash s
  | .adminClawback tradeId amount destination => adminClawback env tradeId amount destination s
  | .queueClawback tradeId amount destination =>
    (queueClawback env tradeId amount destination s).map Prod.snd
  | .executeClawback operationId => executeClawback env operationId s
  | .cancelQueuedOperation operationId => cancelQueuedOperation env operationId s
  | .queueUpgrade newWasmHash => (queueUpgrade env newWasmHash s).map Prod.snd
  | .executeUpgrade operationId => executeUpgrade env operationId s

/-- One event of a run. -/
inductive Action where
  /-- An invocation of the contract. -/
  | call (env : Env) (c : Call)
  /-- A transfer made by somebody else. -/
  | transfer (m : Token.Transfer Address)
  /-- An issuer creates tokens. -/
  | mint (token dest : Address) (amount : Int)
  /-- A holder destroys tokens. -/
  | burn (token source : Address) (amount : Int)

/-- The ledger time of a call. -/
def Action.time : Action → Option Nat
  | .call env _ => some env.timestamp
  | _ => none

/-- Install a new token ledger, if there is one. -/
def State.withTokens (s : State) : Option (Token.Ledger Address) → State
  | some tokens => { s with tokens := tokens }
  | none => s

/-- The state after an action; what fails changes nothing, and nobody else can spend the
contract's tokens. -/
def step (s : State) : Action → State
  | .call env c => (invoke env s c).toOption.getD s
  | .transfer m =>
    if m.source = currentContract then s else s.withTokens (Token.transfer s.tokens m)
  | .mint token dest amount => s.withTokens (Token.mint s.tokens token dest amount)
  | .burn token source amount =>
    if source = currentContract then s else s.withTokens (Token.burn s.tokens token source amount)

/-- The state after a list of actions from a deployed contract. -/
def run (tokens : Token.Ledger Address) (actions : List Action) : State :=
  Machine.run step (.deployed tokens) actions

/-- The actions of a run, each with the state it meets. -/
def trail (tokens : Token.Ledger Address) (actions : List Action) : List (State × Action) :=
  Machine.trail step (.deployed tokens) actions

theorem run_snoc (tokens : Token.Ledger Address) (actions : List Action) (a : Action) :
    run tokens (actions ++ [a]) = step (run tokens actions) a :=
  Machine.run_snoc step _ actions a

theorem step_call_of_ok {env : Env} {c : Call} {s s' : State} (h : invoke env s c = .ok s') :
    step s (.call env c) = s' := by
  simp [step, h, Except.toOption]

theorem step_call_of_error {env : Env} {c : Call} {s : State} {e : Failure}
    (h : invoke env s c = .error e) : step s (.call env c) = s := by
  simp [step, h, Except.toOption]

/-! ## Accounts for concrete runs -/

namespace Sample

def admin : Address := ⟨1⟩

def alice : Address := ⟨2⟩

def bob : Address := ⟨3⟩

def carol : Address := ⟨4⟩

def cngn : Address := ⟨5⟩

def source : Address := ⟨6⟩

/-- Everybody but the contract holds a thousand of every token. -/
def tokens : Token.Ledger Address where
  balance := fun _ a => if a = currentContract then 0 else 1000
  transfers := []
  balance_nonneg := fun _ a => by split <;> decide
  balance_le := fun _ a => by split <;> decide

/-- A call in ledger 1, authorized by one account. -/
def call (now : Nat) (who : Address) (c : Call) : Action := .call ⟨now, 1, [who]⟩ c

/-- Initialize with a fee of one percent. -/
def setup : Action := call 1 admin (.initializeContract admin cngn admin 100 source)

/-- Alice opens a trade of 100 with Bob. -/
def create (expiresAt : Option Nat) : Action :=
  call 2 alice (.createTrade alice bob 100 5000 5000 expiresAt)

/-- The identifier of the first trade of ledger 1. -/
def first : Nat := 2 ^ 32 + 1

/-- The identifier of the second trade of ledger 1. -/
def second : Nat := 2 ^ 32 + 2

/-- Alice funds the first trade. -/
def fund : Action := call 3 alice (.deposit first)

/-- A run that funds a trade of 100. -/
def funded : List Action := [setup, create none, fund]

end Sample

end Amana.Escrow
