import Amana.Escrow.Folder

/-!
# Mediators and the quorum policy

The role of mediator is kept twice: in a registry, which `is_mediator` reads, and in the legacy slot
of `set_mediator`, which `require_mediator` accepts as well.  Five entrypoints write to these and to
the voting weights and the quorum policy beside them (`MediationChange`); all of them keep the slot
inside the registry, so the two readings agree and a removal revokes the role for good
(`mediatorsCoherent_run`).
-/

namespace Amana.Escrow

open Lib

variable {env : Env} {s s' : State} {a : Action} {c : Call} {m : Address} {k : Nat}
  {tokens : Token.Ledger Address} {actions : List Action}

/-- The settings about mediators. -/
structure Mediation where
  mediator : Option Address
  registry : Store Address Bool
  weight : Store Address Nat
  config : Option QuorumConfig

def Settings.mediation (st : Settings) : Mediation :=
  ⟨st.mediator, st.mediatorRegistry, st.mediatorWeight, st.quorumConfig⟩

/-- What `set_quorum_config` accepts. -/
structure QuorumConfig.Valid (config : QuorumConfig) : Prop where
  valueThreshold : config.valueThreshold ≥ 0
  requiredWeight : config.requiredWeight > 0
  voteWindowSecs : config.voteWindowSecs > 0
  fallbackMinWeight : config.fallbackMinWeight > 0
  fallback_le : config.fallbackMinWeight ≤ config.requiredWeight

/-- What `set_mediator_weight` accepts. -/
def ValidWeight (weight : Nat) : Prop := 0 < weight ∧ weight ≤ maxMediatorWeight

/-- Whether a call sets anything about mediators. -/
def Call.setsMediation : Call → Bool
  | .setMediator .. | .addMediator .. | .removeMediator .. | .setMediatorWeight ..
  | .setQuorumConfig .. => true
  | _ => false

/-- What a call does to the settings about mediators. -/
inductive MediationChange (x : Mediation) : Call → Mediation → Prop
  | same {c : Call} (other : c.setsMediation = false) : MediationChange x c x
  | setMediator (m : Address) :
      MediationChange x (.setMediator m)
        { x with mediator := some m, registry := x.registry.set m true }
  | addMediator (m : Address) :
      MediationChange x (.addMediator m) { x with registry := x.registry.set m true }
  | removeMediator (m : Address) :
      MediationChange x (.removeMediator m)
        { x with
          registry := x.registry.erase m
          mediator := if x.mediator = some m then none else x.mediator }
  | setMediatorWeight (m : Address) {weight : Nat} (valid : ValidWeight weight) :
      MediationChange x (.setMediatorWeight m weight) { x with weight := x.weight.set m weight }
  | setQuorumConfig {config : QuorumConfig} (valid : config.Valid) :
      MediationChange x (.setQuorumConfig config) { x with config := some config }

theorem invoke_mediation (wf : WellFormed s.toSettings s.toBooks) (h : invoke env s c = .ok s') :
    MediationChange s.mediation c s'.mediation := by
  by_cases hc : c.setsMediation = true
  · cases c
    case setMediator | addMediator | removeMediator =>
      simp only [invoke, setMediator, addMediator, removeMediator, bind_eq_ok, requireAdmin_eq_ok,
        pure_eq_ok] at h
      obtain ⟨_, -, rfl⟩ := h
      constructor
    case setMediatorWeight =>
      simp only [invoke, setMediatorWeight, bind_eq_ok, requireAdmin_eq_ok, assert_eq_ok,
        pure_eq_ok, exists_const] at h
      obtain ⟨_, -, hpos, hle, rfl⟩ := h
      exact .setMediatorWeight _ ⟨hpos, hle⟩
    case setQuorumConfig =>
      simp only [invoke, setQuorumConfig, bind_eq_ok, requireAdmin_eq_ok, assert_eq_ok, pure_eq_ok,
        exists_const] at h
      obtain ⟨_, -, hvalue, hweight, hwindow, hfallback, hle, rfl⟩ := h
      exact .setQuorumConfig ⟨hvalue, hweight, hwindow, hfallback, hle⟩
    all_goals cases hc
  · rw [Bool.not_eq_true] at hc
    have hsame : s'.mediation = s.mediation := by
      by_cases hconf : c.configures = true
      · cases c
        case initializeContract =>
          simp only [invoke, initializeContract, bind_eq_ok, assert_eq_ok, requireAuth_eq_ok,
            pure_eq_ok, exists_const] at h
          obtain ⟨-, -, -, rfl⟩ := h
          rfl
        case addGuardian | removeGuardian | disallowAsset | setClawbackEnabled =>
          simp only [invoke, addGuardian, removeGuardian, disallowAsset, setClawbackEnabled,
            bind_eq_ok, requireAdmin_eq_ok, pure_eq_ok] at h
          obtain ⟨_, -, rfl⟩ := h
          rfl
        case pause | unpause =>
          simp only [invoke, pause, unpause, setPaused, bind_eq_ok, requireAuth_eq_ok,
            assert_eq_ok, pure_eq_ok, exists_const] at h
          obtain ⟨-, -, rfl⟩ := h
          rfl
        case allowAsset | updateFeeBps =>
          simp only [invoke, allowAsset, updateFeeBps, bind_eq_ok, requireAdmin_eq_ok,
            assert_eq_ok, pure_eq_ok, exists_const] at h
          obtain ⟨_, -, -, rfl⟩ := h
          rfl
        case setExtensionPolicy =>
          simp only [invoke, setExtensionPolicy, bind_eq_ok, requireAdmin_eq_ok, assert_eq_ok,
            pure_eq_ok, exists_const] at h
          obtain ⟨_, -, -, -, rfl⟩ := h
          rfl
        all_goals simp [Call.setsMediation, Call.configures] at hc hconf
      · obtain ⟨-, hsettings, -⟩ := invoke_effect wf (by simpa using hconf) h
        rw [hsettings]
    rw [hsame]
    exact .same hc

/-- A step leaves the settings about mediators, or is a call that changes them. -/
theorem step_mediation (wf : WellFormed s.toSettings s.toBooks) (a : Action) :
    (step s a).mediation = s.mediation ∨
      ∃ env c, a = .call env c ∧ invoke env s c = .ok (step s a) ∧
        MediationChange s.mediation c (step s a).mediation := by
  have hchange := step_change wf a
  generalize step s a = s' at hchange
  cases hchange with
  | stay _ => exact .inl rfl
  | configure ok _ _ => exact .inr ⟨_, _, rfl, ok, invoke_mediation wf ok⟩
  | outside _ _ => exact .inl rfl
  | effect _ _ settings _ => exact .inl (by rw [settings])

/-! ## The slot and the registry -/

/-- What the settings about mediators always satisfy. -/
structure Mediation.Sound (x : Mediation) : Prop where
  /-- The legacy slot holds a registered mediator. -/
  slot : ∀ m, x.mediator = some m → x.registry.get m = some true
  weight : ∀ m w, x.weight.get m = some w → ValidWeight w
  config : ∀ config, x.config = some config → config.Valid

theorem MediationChange.sound {x x' : Mediation} (h : MediationChange x c x') (sound : x.Sound) :
    x'.Sound := by
  cases h with
  | same _ => exact sound
  | setMediator m =>
    refine ⟨fun m' hm => ?_, sound.weight, sound.config⟩
    obtain rfl := Option.some.inj hm
    exact Store.get_set_self ..
  | addMediator m =>
    refine ⟨fun m' hm => ?_, sound.weight, sound.config⟩
    by_cases hmm : m' = m
    · rw [hmm]
      exact Store.get_set_self ..
    · exact (Store.get_set_ne _ _ hmm).trans (sound.slot m' hm)
  | removeMediator m =>
    refine ⟨fun m' hm => ?_, sound.weight, sound.config⟩
    dsimp only at hm
    split at hm
    · cases hm
    · next hother =>
      have hmm : m' ≠ m := fun e => hother (e ▸ hm)
      exact (Store.get_erase_ne _ hmm).trans (sound.slot m' hm)
  | setMediatorWeight m valid =>
    refine ⟨sound.slot, fun m' w hw => ?_, sound.config⟩
    obtain ⟨-, rfl⟩ | ⟨-, hw⟩ := Store.get_set_cases hw
    · exact valid
    · exact sound.weight m' w hw
  | setQuorumConfig valid =>
    refine ⟨sound.slot, sound.weight, fun config hconfig => ?_⟩
    obtain rfl := Option.some.inj hconfig
    exact valid

theorem mediationSound_step (wf : WellFormed s.toSettings s.toBooks) (h : s.mediation.Sound)
    (a : Action) : (step s a).mediation.Sound := by
  obtain hsame | ⟨_, _, -, -, hchange⟩ := step_mediation wf a
  · rwa [hsame]
  · exact hchange.sound h

theorem mediationSound_run (tokens : Token.Ledger Address) (actions : List Action) :
    (run tokens actions).mediation.Sound := by
  have hstart : (State.deployed tokens).mediation.Sound :=
    ⟨fun _ h => (by cases h), fun _ _ h => (by cases h), fun _ h => (by cases h)⟩
  exact (Machine.run_invariant_of_step step
    (P := fun s => WellFormed s.toSettings s.toBooks ∧ s.mediation.Sound) actions
    ⟨wellFormed_deployed tokens, hstart⟩ fun _ a h =>
      ⟨wellFormed_step h.1 a, mediationSound_step h.1 h.2 a⟩).2

/-- The quorum policy in force is one `set_quorum_config` accepts. -/
theorem Mediation.Sound.getQuorumConfig (h : s.mediation.Sound) : (getQuorumConfig s).Valid := by
  unfold Escrow.getQuorumConfig
  cases hconfig : s.quorumConfig with
  | none => exact ⟨by decide, by decide, by decide, by decide, by decide⟩
  | some config => exact h.config config hconfig

theorem Mediation.Sound.getMediatorWeight (h : s.mediation.Sound) (m : Address) :
    ValidWeight (getMediatorWeight s m) := by
  unfold Escrow.getMediatorWeight
  cases hweight : s.mediatorWeight.get m with
  | none => exact ⟨by decide, by decide⟩
  | some w => exact h.weight m w hweight

/-- Under the invariant the two readings of the role agree. -/
theorem Mediation.Sound.mediates_iff (h : s.mediation.Sound) :
    s.Mediates m ↔ isMediator s m = true := by
  constructor
  · rintro (hregistry | hslot)
    · exact hregistry
    · rw [isMediator, show s.mediatorRegistry.get m = some true from h.slot m hslot]
      rfl
  · exact .inl

/-! ## Revocation -/

/-- The action is a successful call that makes `m` a mediator. -/
def Appoints (m : Address) (s : State) : Action → Prop
  | .call env c => (c = .setMediator m ∨ c = .addMediator m) ∧ (invoke env s c).isOk = true
  | _ => False

/-- Whether a call needs `m` to be a mediator: it acts as one, or is made by `m` on a trade `m` is
not a party of. -/
def Call.ReliesOn (s : State) (m : Address) : Call → Prop
  | .resolveDispute _ mediator _ => mediator = m
  | .castDisputeVote _ mediator _ _ => mediator = m
  | .resolveDisputeByFallback k caller =>
    caller = m ∧ ∀ t, s.trades.get k = some t → ¬ t.IsParty m
  | .submitEvidence k caller _ _ => caller = m ∧ ∀ t, s.trades.get k = some t → ¬ t.IsParty m
  | _ => False

/-- The role of mediator is coherent at the end of a run. -/
structure MediatorsCoherent (tokens : Token.Ledger Address) (actions : List Action) : Prop where
  /-- The legacy slot holds a registered mediator. -/
  slot : ∀ m, (run tokens actions).mediator = some m → isMediator (run tokens actions) m = true
  /-- `require_mediator` accepts, of those who authorize the call, exactly the mediators. -/
  accepts : ∀ env m, m ∈ env.auths ∧ m ≠ currentContract →
    ((requireMediator env (run tokens actions) m).isOk = true ↔
      isMediator (run tokens actions) m = true)
  /-- After a removal, and until the next appointment, calls that need the role are rejected. -/
  revoked : ∀ before env m later, actions = before ++ .call env (.removeMediator m) :: later →
    (invoke env (run tokens before) (.removeMediator m)).isOk = true →
    (∀ p ∈ Machine.trail step (step (run tokens before) (.call env (.removeMediator m))) later,
      ¬ Appoints m p.1 p.2) →
    ∀ env c, c.ReliesOn (run tokens actions) m →
      (invoke env (run tokens actions) c).isOk = false

/-- Neither the registry nor the slot knows `m`. -/
structure Dismissed (m : Address) (x : Mediation) : Prop where
  registry : x.registry.get m = none
  slot : x.mediator ≠ some m

theorem MediationChange.dismissed {x x' : Mediation} (h : MediationChange x c x')
    (other : c ≠ .setMediator m ∧ c ≠ .addMediator m) (dismissed : Dismissed m x) :
    Dismissed m x' := by
  cases h with
  | same _ | setMediatorWeight _ _ | setQuorumConfig _ => exact ⟨dismissed.1, dismissed.2⟩
  | setMediator m' =>
    have hne : m ≠ m' := fun e => other.1 (by rw [e])
    refine ⟨(Store.get_set_ne _ _ hne).trans dismissed.1, fun e => ?_⟩
    exact hne (Option.some.inj e).symm
  | addMediator m' =>
    have hne : m ≠ m' := fun e => other.2 (by rw [e])
    exact ⟨(Store.get_set_ne _ _ hne).trans dismissed.1, dismissed.2⟩
  | removeMediator m' =>
    refine ⟨?_, ?_⟩
    · dsimp only
      rw [Store.get_erase]
      split
      · rfl
      · exact dismissed.1
    · dsimp only
      split
      · exact Option.some_ne_none m ∘ Eq.symm
      · exact dismissed.2

theorem dismissed_of_remove (wf : WellFormed s.toSettings s.toBooks)
    (h : invoke env s (.removeMediator m) = .ok s') : Dismissed m s'.mediation := by
  have hchange := invoke_mediation wf h
  generalize s'.mediation = x' at hchange
  cases hchange with
  | same other => cases other
  | removeMediator =>
    refine ⟨Store.get_erase_self .., ?_⟩
    dsimp only
    split
    · exact Option.some_ne_none m ∘ Eq.symm
    · assumption

theorem dismissed_step (wf : WellFormed s.toSettings s.toBooks) (h : Dismissed m s.mediation)
    (other : ¬ Appoints m s a) : Dismissed m (step s a).mediation := by
  obtain hsame | ⟨env, c, rfl, ok, hchange⟩ := step_mediation wf a
  · rwa [hsame]
  · have hok : (invoke env s c).isOk = true := by
      rw [ok]
      rfl
    exact hchange.dismissed ⟨fun e => other ⟨.inl e, hok⟩, fun e => other ⟨.inr e, hok⟩⟩ h

theorem Dismissed.not_mediates (h : Dismissed m s.mediation) : ¬ s.Mediates m := by
  rintro (hregistry | hslot)
  · rw [isMediator, show s.mediatorRegistry.get m = none from h.registry] at hregistry
    cases hregistry
  · exact h.slot hslot

/-- Nobody acts as a mediator who is not one. -/
theorem rejected_of_dismissed (wf : WellFormed s.toSettings s.toBooks)
    (h : Dismissed m s.mediation) (relies : c.ReliesOn s m) : (invoke env s c).isOk = false := by
  have hmediates := h.not_mediates
  have hregistry : isMediator s m ≠ true := fun e => hmediates (.inl e)
  rw [← Bool.not_eq_true]
  intro hok
  obtain ⟨s', ok⟩ := isOk_iff.1 hok
  cases c with
  | resolveDispute k mediator bps =>
    obtain rfl : mediator = m := relies
    obtain ⟨t, t', -, -, entry⟩ := (invoke_filing wf rfl ok).of_subject rfl
    generalize s'.toFiles.folder k = d' at entry
    cases entry with
    | resolve _ _ role _ => exact hmediates role
  | castDisputeVote k mediator bps rationale =>
    obtain rfl : mediator = m := relies
    obtain ⟨t, t', -, -, entry⟩ := (invoke_filing wf rfl ok).of_subject rfl
    generalize s'.toFiles.folder k = d' at entry
    cases entry with
    | vote _ _ role _ _ _ _ => exact hmediates role
    | decide _ _ role _ _ _ _ => exact hmediates role
  | resolveDisputeByFallback k caller =>
    obtain ⟨rfl, hparty⟩ := relies
    obtain ⟨t, t', stored, -, entry⟩ := (invoke_filing wf rfl ok).of_subject rfl
    generalize s'.toFiles.folder k = d' at entry
    cases entry with
    | fallback _ _ role _ _ _ _ => exact role.elim (hparty t stored) hregistry
  | submitEvidence k caller hash description =>
    obtain ⟨rfl, hparty⟩ := relies
    obtain ⟨t, t', stored, -, entry⟩ := (invoke_filing wf rfl ok).of_subject rfl
    generalize s'.toFiles.folder k = d' at entry
    cases entry with
    | evidence _ role => exact role.elim (hparty t stored) hregistry
  | _ => exact relies

/-- In every reachable state the role of mediator is coherent. -/
theorem mediatorsCoherent_run (tokens : Token.Ledger Address) (actions : List Action) :
    MediatorsCoherent tokens actions := by
  have hsound := mediationSound_run tokens actions
  refine ⟨fun m hm => ?_, fun env m hauth => ?_, ?_⟩
  · exact hsound.mediates_iff.1 (.inr hm)
  · rw [← hsound.mediates_iff, isOk_iff]
    constructor
    · rintro ⟨_, h⟩
      exact (requireMediator_eq_ok.1 h).2.1
    · exact fun h => ⟨m, requireMediator_eq_ok.2 ⟨hauth, h, rfl⟩⟩
  · rintro before env m later rfl hok hlater env' c relies
    obtain ⟨s', ok⟩ := isOk_iff.1 hok
    have wf := wellFormed_run tokens before
    have hstart : Dismissed m (step (run tokens before)
        (.call env (.removeMediator m))).mediation := by
      rw [step_call_of_ok ok]
      exact dismissed_of_remove wf ok
    have hrun : run tokens (before ++ .call env (.removeMediator m) :: later) =
        Machine.run step (step (run tokens before) (.call env (.removeMediator m))) later :=
      Machine.run_append step _ before _
    have hend := Machine.run_invariant step
      (P := fun s => WellFormed s.toSettings s.toBooks ∧ Dismissed m s.mediation)
      ⟨wellFormed_step wf _, hstart⟩ fun p hp h =>
        ⟨wellFormed_step h.1 p.2, dismissed_step h.1 h.2 (hlater p hp)⟩
    rw [← hrun] at hend
    exact rejected_of_dismissed hend.1 hend.2 relies

end Amana.Escrow
