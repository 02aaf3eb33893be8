import Amana.Escrow.State

/-!
# Setup, registries and policies

The entrypoints of `lib.rs` that only configure the contract: `initialize`, the mediator and
guardian registries, the pause switch, the asset allowlist, the fee rate and the three policies.
-/

namespace Amana.Escrow

open Lib

/-- `initialize`. -/
def initializeContract (env : Env) (admin cngnContract treasury : Address) (feeBps : Nat)
    (sourceToken : Address) (s : State) : Outcome State := do
  assert (s.initialized = false) "AlreadyInitialized"
  assert (feeBps ≤ 10000) "fee_bps must not exceed 10000"
  requireAuth env admin
  let s :=
    { s with
      admin := some admin
      cngnContract := some cngnContract
      treasury := some treasury
      feeBps := some feeBps
      sourceToken := some sourceToken
      initialized := true
      schemaVersion := some currentSchemaVersion
      timelockConfig := some ⟨86400, 604800⟩
      nextTimelockId := some 0 }
  return publish s (.initialized admin feeBps env.timestamp)

/-! ## Mediators -/

def setMediator (env : Env) (mediator : Address) (s : State) : Outcome State := do
  let _ ← requireAdmin env s "Not initialized"
  let s :=
    { s with
      mediator := some mediator
      mediatorRegistry := s.mediatorRegistry.set mediator true }
  return publish s (.mediatorAdded mediator)

def addMediator (env : Env) (mediatorAddress : Address) (s : State) : Outcome State := do
  let _ ← requireAdmin env s "Not initialized"
  let s := { s with mediatorRegistry := s.mediatorRegistry.set mediatorAddress true }
  return publish s (.mediatorAdded mediatorAddress)

def removeMediator (env : Env) (mediatorAddress : Address) (s : State) : Outcome State := do
  let _ ← requireAdmin env s "Not initialized"
  let s :=
    { s with
      mediatorRegistry := s.mediatorRegistry.erase mediatorAddress
      -- The legacy slot is cleared only when it holds the removed address.
      mediator := if s.mediator = some mediatorAddress then none else s.mediator }
  return publish s (.mediatorRemoved mediatorAddress)

def isMediator (s : State) (address : Address) : Bool :=
  (s.mediatorRegistry.get address).getD false

/-- `require_mediator`: the registry, or the legacy slot. -/
def requireMediator (env : Env) (s : State) (mediator : Address) : Outcome Address := do
  requireAuth env mediator
  assert (isMediator s mediator = true ∨ s.mediator = some mediator) "Unauthorized mediator"
  return mediator

def getMediatorWeight (s : State) (mediator : Address) : Nat :=
  (s.mediatorWeight.get mediator).getD defaultMediatorWeight

def setMediatorWeight (env : Env) (mediator : Address) (weight : Nat) (s : State) :
    Outcome State := do
  let _ ← requireAdmin env s "Not initialized"
  assert (weight > 0) "mediator weight must be positive"
  assert (weight ≤ maxMediatorWeight) "mediator weight exceeds the maximum"
  let s := { s with mediatorWeight := s.mediatorWeight.set mediator weight }
  return publish s (.mediatorWeightUpdated mediator weight eventSchemaVersion)

/-! ## Guardians and the pause switch -/

def addGuardian (env : Env) (guardian : Address) (s : State) : Outcome State := do
  let _ ← requireAdmin env s "not initialized"
  return { s with guardianRegistry := s.guardianRegistry.set guardian true }

def removeGuardian (env : Env) (guardian : Address) (s : State) : Outcome State := do
  let _ ← requireAdmin env s "not initialized"
  return { s with guardianRegistry := s.guardianRegistry.erase guardian }

def isGuardian (s : State) (address : Address) : Bool :=
  (s.guardianRegistry.get address).getD false

/-- `pause` and `unpause` differ in the flag they write. -/
def setPaused (flag : Bool) (env : Env) (guardian : Address) (s : State) : Outcome State := do
  requireAuth env guardian
  assert (isGuardian s guardian = true) "caller is not a guardian"
  return { s with paused := some flag }

def pause (env : Env) (guardian : Address) (s : State) : Outcome State :=
  setPaused true env guardian s

def unpause (env : Env) (guardian : Address) (s : State) : Outcome State :=
  setPaused false env guardian s

def isPaused (s : State) : Bool := s.paused.getD false

/-! ## Asset allowlist -/

def allowAsset (env : Env) (asset : Address) (decimals : Nat) (s : State) : Outcome State := do
  let _ ← requireAdmin env s "not initialized"
  assert (decimals ≤ 18) "decimals must be <= 18"
  return { s with
    allowedAsset := s.allowedAsset.set asset true
    assetDecimals := s.assetDecimals.set asset decimals }

def disallowAsset (env : Env) (asset : Address) (s : State) : Outcome State := do
  let _ ← requireAdmin env s "not initialized"
  return { s with
    allowedAsset := s.allowedAsset.erase asset
    assetDecimals := s.assetDecimals.erase asset }

/-! ## Fee rate and policies -/

def updateFeeBps (env : Env) (newFeeBps : Nat) (s : State) : Outcome State := do
  let _ ← requireAdmin env s "Not initialized"
  assert (minFeeBps ≤ newFeeBps ∧ newFeeBps ≤ maxFeeBps) "fee_bps out of range"
  let oldFeeBps := s.feeBps.getD 0
  let s := { s with feeBps := some newFeeBps }
  return publish s (.feeRateUpdated oldFeeBps newFeeBps)

def setClawbackEnabled (env : Env) (enabled : Bool) (s : State) : Outcome State := do
  let _ ← requireAdmin env s "Not initialized"
  return { s with clawbackEnabled := some enabled }

def isClawbackEnabled (s : State) : Bool := s.clawbackEnabled.getD true

def getExtensionPolicy (s : State) : ExtensionPolicy :=
  s.extensionPolicy.getD ⟨defaultMaxDeadlineExtensions, defaultMaxTotalExtensionSecs⟩

def setExtensionPolicy (env : Env) (maxExtensions maxTotalExtensionSecs : Nat) (s : State) :
    Outcome State := do
  let _ ← requireAdmin env s "Not initialized"
  assert (maxExtensions ≤ extensionPolicyCeilingCount) "max_extensions exceeds the policy ceiling"
  assert (maxTotalExtensionSecs ≤ extensionPolicyCeilingSecs)
    "max_total_extension_secs exceeds the policy ceiling"
  let s := { s with extensionPolicy := some ⟨maxExtensions, maxTotalExtensionSecs⟩ }
  return publish s
    (.extensionPolicyUpdated maxExtensions maxTotalExtensionSecs eventSchemaVersion)

def getQuorumConfig (s : State) : QuorumConfig :=
  s.quorumConfig.getD
    { enabled := false
      valueThreshold := defaultQuorumValueThreshold
      requiredWeight := defaultQuorumRequiredWeight
      voteWindowSecs := defaultQuorumVoteWindowSecs
      fallbackMinWeight := defaultQuorumFallbackMinWeight }

def setQuorumConfig (env : Env) (config : QuorumConfig) (s : State) : Outcome State := do
  let _ ← requireAdmin env s "Not initialized"
  assert (config.valueThreshold ≥ 0) "value_threshold must be non-negative"
  assert (config.requiredWeight > 0) "required_weight must be positive"
  assert (config.voteWindowSecs > 0) "vote_window_secs must be positive"
  assert (config.fallbackMinWeight > 0) "fallback_min_weight must be positive"
  assert (config.fallbackMinWeight ≤ config.requiredWeight)
    "fallback_min_weight must not exceed required_weight"
  let s := { s with quorumConfig := some config }
  return publish s
    (.quorumConfigUpdated config.enabled config.valueThreshold config.requiredWeight
      config.voteWindowSecs config.fallbackMinWeight eventSchemaVersion)

end Amana.Escrow
