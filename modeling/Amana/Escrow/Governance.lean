import Amana.Escrow.Accounting
import Amana.Escrow.Fallback
import Amana.Escrow.Limits

/-!
# Who governs the contract

One call founds the contract, and what it writes down is its charter: the admin, the tokens, the
treasury and the delays of the timelock.  The charter never changes again.  Every other setting
is changed by the admin alone, except for the pause switch, which a guardian flips who stands
appointed by the admin (`wellGoverned_run`).  The one rate that costs the parties money is bounded
for good by the founding rate and `MAX_FEE_BPS`, and so are all fees of a run (`feeCeiling_run`).
-/

namespace Amana.Escrow

open Lib

variable {env : Env} {s s' : State} {c : Call} {a : Action} {g : Address}
  {tokens : Token.Ledger Address} {actions : List Action}

/-! ## The charter -/

/-- The settings that `initialize` alone writes. -/
structure Charter where
  admin : Option Address
  cngnContract : Option Address
  treasury : Option Address
  sourceToken : Option Address
  schemaVersion : Option Nat
  timelockConfig : Option TimelockConfig
  deriving DecidableEq

def Settings.charter (st : Settings) : Charter :=
  ⟨st.admin, st.cngnContract, st.treasury, st.sourceToken, st.schemaVersion, st.timelockConfig⟩

/-- The account authorized the call. -/
def Env.Signed (env : Env) (who : Address) : Prop := who ∈ env.auths ∧ who ≠ currentContract

/-- How a call that configures the contract is entitled to what it changes. -/
inductive Entitled (env : Env) (s : State) : Call → State → Prop
  /-- The contract is founded by the admin it names. -/
  | founds {admin cngn treasury source : Address} {feeBps : Nat} {s' : State}
      (fresh : s.initialized = false) (rate : feeBps ≤ 10000) (signed : env.Signed admin)
      (founded : s'.initialized = true ∧ s'.admin = some admin ∧ s'.cngnContract = some cngn)
      (fee : s'.feeBps = some feeBps)
      (paused : s'.paused = s.paused) (guardians : s'.guardianRegistry = s.guardianRegistry) :
      Entitled env s (.initializeContract admin cngn treasury feeBps source) s'
  /-- The admin changes a setting outside the charter. -/
  | decrees {c : Call} {s' : State} {admin : Address} (installed : s.admin = some admin)
      (signed : env.Signed admin) (charter : s'.charter = s.charter)
      (initialized : s'.initialized = s.initialized) (paused : s'.paused = s.paused)
      (rate : s'.feeBps = s.feeBps ∨
        ∃ feeBps, s'.feeBps = some feeBps ∧ minFeeBps ≤ feeBps ∧ feeBps ≤ maxFeeBps)
      (guardians : ∀ g, s'.guardianRegistry.get g =
        if c = .addGuardian g then some true
        else if c = .removeGuardian g then none else s.guardianRegistry.get g)
      (other : ∀ admin cngn treasury feeBps source,
        c ≠ .initializeContract admin cngn treasury feeBps source) : Entitled env s c s'
  /-- A guardian flips the pause switch. -/
  | flips {c : Call} {s' : State} {guardian : Address} {flag : Bool}
      (route : c = .pause guardian ∨ c = .unpause guardian)
      (role : isGuardian s guardian = true) (signed : env.Signed guardian)
      (only : s'.toSettings = { s.toSettings with paused := some flag }) : Entitled env s c s'

theorem initializeContract_entitled {admin cngn treasury source : Address} {feeBps : Nat}
    (h : initializeContract env admin cngn treasury feeBps source s = .ok s') :
    Entitled env s (.initializeContract admin cngn treasury feeBps source) s' := by
  simp only [initializeContract, bind_eq_ok, assert_eq_ok, requireAuth_eq_ok, pure_eq_ok,
    exists_const] at h
  obtain ⟨hfresh, hrate, hsigned, rfl⟩ := h
  exact .founds hfresh hrate hsigned ⟨rfl, rfl, rfl⟩ rfl rfl rfl

theorem setPaused_entitled {guardian : Address} {flag : Bool}
    (route : c = .pause guardian ∨ c = .unpause guardian)
    (h : setPaused flag env guardian s = .ok s') : Entitled env s c s' := by
  simp only [setPaused, bind_eq_ok, requireAuth_eq_ok, assert_eq_ok, pure_eq_ok,
    exists_const] at h
  obtain ⟨hsigned, hrole, rfl⟩ := h
  exact .flips route hrole hsigned rfl

/-- The guardians after a registration or a removal. -/
theorem guardians_set (registry : Store Address Bool) (g g' : Address) :
    (registry.set g true).get g' =
      if Call.addGuardian g = .addGuardian g' then some true
      else if Call.addGuardian g = .removeGuardian g' then none else registry.get g' := by
  by_cases h : g' = g
  · simp [h]
  · simp [Store.get_set_ne _ _ h, Ne.symm h]

theorem guardians_erase (registry : Store Address Bool) (g g' : Address) :
    (registry.erase g).get g' =
      if Call.removeGuardian g = .addGuardian g' then some true
      else if Call.removeGuardian g = .removeGuardian g' then none else registry.get g' := by
  by_cases h : g' = g
  · simp [h]
  · simp [Store.get_erase_ne _ h, Ne.symm h]

theorem invoke_entitled (hc : c.configures = true) (h : invoke env s c = .ok s') :
    Entitled env s c s' := by
  cases c
  case initializeContract => exact initializeContract_entitled h
  case pause guardian => exact setPaused_entitled (.inl rfl) h
  case unpause guardian => exact setPaused_entitled (.inr rfl) h
  case addGuardian g =>
    simp only [invoke, addGuardian, bind_eq_ok, requireAdmin_eq_ok, pure_eq_ok] at h
    obtain ⟨admin, ⟨hadmin, hsigned⟩, rfl⟩ := h
    exact .decrees hadmin hsigned rfl rfl rfl (.inl rfl) (guardians_set _ g) (by simp)
  case removeGuardian g =>
    simp only [invoke, removeGuardian, bind_eq_ok, requireAdmin_eq_ok, pure_eq_ok] at h
    obtain ⟨admin, ⟨hadmin, hsigned⟩, rfl⟩ := h
    exact .decrees hadmin hsigned rfl rfl rfl (.inl rfl) (guardians_erase _ g) (by simp)
  case updateFeeBps =>
    simp only [invoke, updateFeeBps, bind_eq_ok, requireAdmin_eq_ok, assert_eq_ok, pure_eq_ok,
      exists_const] at h
    obtain ⟨admin, ⟨hadmin, hsigned⟩, hrate, rfl⟩ := h
    exact .decrees hadmin hsigned rfl rfl rfl (.inr ⟨_, rfl, hrate⟩) (by simp [publish]) (by simp)
  case setMediator | addMediator | removeMediator | disallowAsset | setClawbackEnabled =>
    simp only [invoke, setMediator, addMediator, removeMediator, disallowAsset,
      setClawbackEnabled, bind_eq_ok, requireAdmin_eq_ok, pure_eq_ok] at h
    obtain ⟨admin, ⟨hadmin, hsigned⟩, rfl⟩ := h
    exact .decrees hadmin hsigned rfl rfl rfl (.inl rfl) (by simp [publish]) (by simp)
  case setMediatorWeight | allowAsset | setExtensionPolicy =>
    simp only [invoke, setMediatorWeight, allowAsset, setExtensionPolicy, bind_eq_ok,
      requireAdmin_eq_ok, assert_eq_ok, pure_eq_ok, exists_const] at h
    obtain ⟨admin, ⟨hadmin, hsigned⟩, -, -, rfl⟩ := h
    exact .decrees hadmin hsigned rfl rfl rfl (.inl rfl) (by simp [publish]) (by simp)
  case setQuorumConfig =>
    simp only [invoke, setQuorumConfig, bind_eq_ok, requireAdmin_eq_ok, assert_eq_ok, pure_eq_ok,
      exists_const] at h
    obtain ⟨admin, ⟨hadmin, hsigned⟩, -, -, -, -, -, rfl⟩ := h
    exact .decrees hadmin hsigned rfl rfl rfl (.inl rfl) (by simp [publish]) (by simp)
  all_goals exact absurd hc (by simp [Call.configures])

/-- A step leaves the settings, or is a call that is entitled to what it changes. -/
theorem step_entitled (wf : WellFormed s.toSettings s.toBooks) (a : Action) :
    (step s a).toSettings = s.toSettings ∧
        (∀ env c, a = .call env c → (invoke env s c).isOk = true → c.configures = false) ∨
      ∃ env c, a = .call env c ∧ invoke env s c = .ok (step s a) ∧ c.configures = true ∧
        Entitled env s c (step s a) := by
  have hchange := step_change wf a
  generalize step s a = s' at hchange
  cases hchange with
  | stay failed =>
    refine .inl ⟨rfl, ?_⟩
    rintro env c rfl hok
    rw [failed env c rfl] at hok
    cases hok
  | configure ok configures _ => exact .inr ⟨_, _, rfl, ok, configures, invoke_entitled configures ok⟩
  | outside call _ => exact .inl ⟨rfl, fun env c e => absurd e (call env c)⟩
  | @effect env c _ ok effect settings _ =>
    refine .inl ⟨settings, ?_⟩
    rintro env' c' h -
    cases h
    generalize s'.toBooks = b' at effect
    cases effect with
    | idle quiet => cases c <;> first | rfl | cases quiet
    | drop route => rcases route with ⟨_, rfl⟩ | rfl <;> rfl
    | refund route => rcases route with ⟨_, rfl⟩ | rfl | ⟨_, rfl⟩ <;> rfl
    | settle route => rcases route with ⟨_, _, rfl⟩ | ⟨_, _, _, rfl⟩ | ⟨_, rfl⟩ <;> rfl
    | claw route => rcases route with rfl | ⟨_, _, rfl, _⟩ <;> rfl
    | _ => rfl

theorem charter_step (wf : WellFormed s.toSettings s.toBooks) (h : s.initialized = true)
    (a : Action) : (step s a).initialized = true ∧ (step s a).charter = s.charter := by
  obtain ⟨hsame, -⟩ | ⟨env, c, rfl, -, -, hentitled⟩ := step_entitled wf a
  · rw [hsame]
    exact ⟨h, rfl⟩
  · generalize step s (.call env c) = s' at hentitled
    cases hentitled with
    | founds fresh => cases fresh.symm.trans h
    | decrees _ _ charter initialized => exact ⟨initialized.trans h, charter⟩
    | flips _ _ _ only =>
      rw [only]
      exact ⟨h, rfl⟩

theorem charter_run {before : List Action} (h : (run tokens before).initialized = true)
    (hbefore : before <+: actions) :
    (run tokens actions).initialized = true ∧
      (run tokens actions).charter = (run tokens before).charter := by
  obtain ⟨later, rfl⟩ := hbefore
  rw [run, Machine.run_append, ← run]
  exact (Machine.run_invariant_of_step step later
    (P := fun s => WellFormed s.toSettings s.toBooks ∧ s.initialized = true ∧
      s.charter = (run tokens before).charter)
    ⟨wellFormed_run tokens before, h, rfl⟩ fun s a hs =>
      have hstep := charter_step hs.1 hs.2.1 a
      ⟨wellFormed_step hs.1 a, hstep.1, hstep.2.trans hs.2.2⟩).2

/-- A founded contract has an admin other than itself and a token to settle in. -/
structure Founded (s : State) : Prop where
  admin : s.initialized = true → ∃ admin, s.admin = some admin ∧ admin ≠ currentContract
  settlement : s.initialized = true → s.cngnContract.isSome

theorem founded_step (wf : WellFormed s.toSettings s.toBooks) (h : Founded s) (a : Action) :
    Founded (step s a) := by
  obtain ⟨hsame, -⟩ | ⟨env, c, rfl, -, -, hentitled⟩ := step_entitled wf a
  · exact ⟨fun hi => by rw [hsame] at hi ⊢; exact h.admin hi,
      fun hi => by rw [hsame] at hi ⊢; exact h.settlement hi⟩
  · generalize step s (.call env c) = s' at hentitled
    cases hentitled with
    | founds _ _ signed founded => exact ⟨fun _ => ⟨_, founded.2.1, signed.2⟩, fun _ => by simp [founded]⟩
    | decrees _ _ charter initialized =>
      have hadmin : s'.admin = s.admin := congrArg Charter.admin charter
      have htoken : s'.cngnContract = s.cngnContract := congrArg Charter.cngnContract charter
      exact ⟨fun hi => hadmin ▸ h.admin (initialized ▸ hi),
        fun hi => htoken ▸ h.settlement (initialized ▸ hi)⟩
    | flips _ _ _ only =>
      exact ⟨fun hi => by rw [only] at hi ⊢; exact h.admin hi,
        fun hi => by rw [only] at hi ⊢; exact h.settlement hi⟩

theorem founded_run (tokens : Token.Ledger Address) (actions : List Action) :
    Founded (run tokens actions) :=
  (Machine.run_invariant_of_step step actions
    (P := fun s => WellFormed s.toSettings s.toBooks ∧ Founded s)
    ⟨wellFormed_deployed tokens, nofun, nofun⟩ fun _ a h =>
      ⟨wellFormed_step h.1 a, founded_step h.1 h.2 a⟩).2

/-! ## Guardians -/

/-- The action is a successful call that makes `g` a guardian. -/
def Enlists (g : Address) (s : State) : Action → Prop
  | .call env c => c = .addGuardian g ∧ (invoke env s c).isOk = true
  | _ => False

/-- The action is a successful call that removes `g` from the guardians. -/
def Discharges (g : Address) (s : State) : Action → Prop
  | .call env c => c = .removeGuardian g ∧ (invoke env s c).isOk = true
  | _ => False

theorem isGuardian_congr {s' : State} (h : s'.guardianRegistry = s.guardianRegistry)
    (g : Address) : isGuardian s' g = isGuardian s g := by simp [isGuardian, h]

/-- Who is a guardian after a step. -/
theorem isGuardian_step (wf : WellFormed s.toSettings s.toBooks) (a : Action) (g : Address) :
    isGuardian (step s a) g = true ↔
      Enlists g s a ∨ ¬ Discharges g s a ∧ isGuardian s g = true := by
  obtain ⟨hsame, hquiet⟩ | ⟨env, c, rfl, ok, -, hentitled⟩ := step_entitled wf a
  · have hnone : ¬ Enlists g s a ∧ ¬ Discharges g s a := by
      cases a with
      | call env c =>
        constructor
        · rintro ⟨rfl, hok⟩
          cases hquiet env _ rfl hok
        · rintro ⟨rfl, hok⟩
          cases hquiet env _ rfl hok
      | transfer | mint | burn => exact ⟨id, id⟩
    rw [isGuardian_congr (s := s) (by rw [hsame])]
    simp [hnone]
  · have hok : (invoke env s c).isOk = true := by rw [ok]; rfl
    simp only [Enlists, Discharges, hok, and_true]
    generalize step s (.call env c) = s' at hentitled
    cases hentitled with
    | founds _ _ _ _ _ _ guardians =>
      rw [isGuardian_congr guardians]
      simp
    | decrees _ _ _ _ _ _ guardians _ =>
      rw [isGuardian, guardians]
      by_cases hadd : c = .addGuardian g
      · simp [hadd]
      · by_cases hremove : c = .removeGuardian g
        · simp [hremove]
        · simp [hadd, hremove, isGuardian]
    | flips route _ _ only =>
      rw [isGuardian_congr (s := s) (by rw [only])]
      rcases route with rfl | rfl <;> simp

/-- The guardians are those the admin appointed and has not removed since. -/
theorem isGuardian_run (tokens : Token.Ledger Address) (actions : List Action) (g : Address) :
    isGuardian (run tokens actions) g = true ↔
      Machine.Since step (Enlists g) (fun s a => ¬ Discharges g s a) (.deployed tokens)
        actions := by
  induction actions using List.reverseRecOn with
  | nil => exact ⟨nofun, fun h => absurd h (Machine.not_since_nil step)⟩
  | append_singleton actions a ih =>
    rw [Machine.since_snoc_iff, run_snoc, isGuardian_step (wellFormed_run tokens actions), ih]
    rfl

/-! ## Changes of the settings -/

/-- Who changed the settings at the end of `before`. -/
inductive ChangedBy (tokens : Token.Ledger Address) (actions before : List Action) :
    Action → Prop
  /-- The founder, who names himself. -/
  | founder {env : Env} {admin cngn treasury source : Address} {feeBps : Nat}
      (fresh : (run tokens before).initialized = false) (signed : env.Signed admin)
      (installed : (run tokens actions).admin = some admin) :
      ChangedBy tokens actions before
        (.call env (.initializeContract admin cngn treasury feeBps source))
  /-- The admin, who is the founder; he has no hand on the pause switch. -/
  | admin {env : Env} {c : Call} {admin : Address} (signed : env.Signed admin)
      (installed : (run tokens actions).admin = some admin)
      (paused : (run tokens (before ++ [.call env c])).paused = (run tokens before).paused) :
      ChangedBy tokens actions before (.call env c)
  /-- A guardian who stands appointed; he has a hand on nothing else. -/
  | guardian {env : Env} {c : Call} {g : Address} {flag : Bool} (signed : env.Signed g)
      (appointed : Machine.Since step (Enlists g) (fun s a => ¬ Discharges g s a)
        (.deployed tokens) before)
      (only : (run tokens (before ++ [.call env c])).toSettings =
        { (run tokens before).toSettings with paused := some flag }) :
      ChangedBy tokens actions before (.call env c)

/-- The government of a whole run. -/
structure WellGoverned (tokens : Token.Ledger Address) (actions : List Action) : Prop where
  /-- The charter of a founded contract stays as it is. -/
  charter : ∀ before, before <+: actions → (run tokens before).initialized = true →
    (run tokens actions).initialized = true ∧
      (run tokens actions).charter = (run tokens before).charter
  /-- A founded contract has an admin, and the contract is not its own. -/
  admin : (run tokens actions).initialized = true →
    ∃ admin, (run tokens actions).admin = some admin ∧ admin ≠ currentContract
  /-- Every change of the settings is somebody's to make. -/
  changed : ∀ before a later, actions = before ++ a :: later →
    (run tokens (before ++ [a])).toSettings ≠ (run tokens before).toSettings →
      ChangedBy tokens actions before a

/-- The admin of an earlier state is the admin at the end. -/
theorem admin_run {before : List Action} {admin : Address} (hbefore : before <+: actions)
    (h : (run tokens before).admin = some admin) : (run tokens actions).admin = some admin := by
  have hinit := (wellFormed_run tokens before).settings.adminInstalled (by rw [h]; rfl)
  exact (congrArg Charter.admin (charter_run hinit hbefore).2).trans h

theorem wellGoverned_run (tokens : Token.Ledger Address) (actions : List Action) :
    WellGoverned tokens actions where
  charter := fun _ hbefore h => charter_run h hbefore
  admin := (founded_run tokens actions).admin
  changed := by
    rintro before a later rfl hchanged
    have wf := wellFormed_run tokens before
    have hnow : before ++ [a] <+: before ++ a :: later := ⟨later, by simp⟩
    obtain ⟨hsame, -⟩ | ⟨env, c, rfl, -, -, hentitled⟩ := step_entitled wf a
    · rw [run_snoc] at hchanged
      exact absurd hsame hchanged
    · rw [← run_snoc] at hentitled
      generalize hs' : run tokens (before ++ [.call env c]) = s' at hentitled
      cases hentitled with
      | founds fresh _ signed founded =>
        exact .founder fresh signed (admin_run hnow (hs' ▸ founded.2.1))
      | decrees installed signed _ _ paused =>
        exact .admin signed (admin_run ⟨_, rfl⟩ installed) (hs' ▸ paused)
      | flips _ role signed only =>
        exact .guardian signed ((isGuardian_run tokens before _).1 role) (hs' ▸ only)

/-! ## The fee ceiling -/

/-- The fee rate a successful call founds the contract with. -/
def foundingRate (s : State) : Action → Option Nat
  | .call env (.initializeContract admin cngn treasury feeBps source) =>
    if (initializeContract env admin cngn treasury feeBps source s).isOk then some feeBps else none
  | _ => none

/-- The fee rate the contract of a run was founded with. -/
def foundedAt (tokens : Token.Ledger Address) (actions : List Action) : Option Nat :=
  (trail tokens actions).findSome? fun p => foundingRate p.1 p.2

/-- The highest rate the admin of a run can ever charge. -/
def rateCeiling (tokens : Token.Ledger Address) (actions : List Action) : Nat :=
  max ((foundedAt tokens actions).getD 0) maxFeeBps

/-- What the trade held that a step completes out of escrow. -/
def completedAmount (s : State) (a : Action) : Int :=
  match a.subject s with
  | none => 0
  | some k =>
    match s.trades.get k, (step s a).trades.get k with
    | some t, some t' => if t.status.live = true ∧ t'.status = .completed then t.amount else 0
    | _, _ => 0

/-- The fees of a run, step by step and all together. -/
structure FeeCeiling (tokens : Token.Ledger Address) (actions : List Action) : Prop where
  /-- No state of the run has a higher rate. -/
  rate : ∀ before, before <+: actions → getFeeBps (run tokens before) ≤ rateCeiling tokens actions
  /-- No step takes more than the rate it meets allows. -/
  step : ∀ p ∈ trail tokens actions,
    10000 * feeTaken p.1 p.2 ≤ getFeeBps p.1 * completedAmount p.1 p.2
  /-- All fees ever taken are at most the highest rate of all that was ever completed. -/
  total : 10000 * Machine.tally Escrow.step feeTaken (.deployed tokens) actions ≤
    rateCeiling tokens actions *
      Machine.tally Escrow.step completedAmount (.deployed tokens) actions

theorem foundedAt_snoc (tokens : Token.Ledger Address) (actions : List Action) (a : Action) :
    foundedAt tokens (actions ++ [a]) =
      (foundedAt tokens actions).or (foundingRate (run tokens actions) a) := by
  rw [foundedAt, trail, Machine.trail_snoc, List.findSome?_append, ← run, ← trail]
  show (foundedAt tokens actions).or ([_].findSome? _) = _
  cases h : foundingRate (run tokens actions) a <;> simp [h]

theorem foundingRate_eq_none {env : Env} {c : Call} (h : ∀ admin cngn treasury feeBps source,
    c ≠ .initializeContract admin cngn treasury feeBps source) :
    foundingRate s (.call env c) = none := by
  cases c <;> first | rfl | exact absurd rfl (h _ _ _ _ _)

/-- A call that fails founds nothing. -/
theorem foundingRate_of_quiet
    (h : ∀ env c, a = .call env c → (invoke env s c).isOk = true → c.configures = false) :
    foundingRate s a = none := by
  cases a with
  | call env c =>
    cases c with
    | initializeContract admin cngn treasury feeBps source =>
      refine if_neg fun hok => ?_
      cases h env _ rfl hok
    | _ => rfl
  | transfer | mint | burn => rfl

/-- Before the founding there is no rate, and afterwards none above the ceiling. -/
structure RateBounded (founding : Option Nat) (s : State) : Prop where
  before : s.initialized = false → founding = none
  rate : getFeeBps s ≤ max (founding.getD 0) maxFeeBps

theorem rateBounded_step {founding : Option Nat} (wf : WellFormed s.toSettings s.toBooks)
    (h : RateBounded founding s) (a : Action) :
    RateBounded (founding.or (foundingRate s a)) (step s a) := by
  obtain ⟨hsame, hquiet⟩ | ⟨env, c, rfl, ok, -, hentitled⟩ := step_entitled wf a
  · rw [foundingRate_of_quiet hquiet, Option.or_none]
    refine ⟨fun hi => h.before (by rw [hsame] at hi; exact hi), ?_⟩
    rw [getFeeBps, hsame]
    exact h.rate
  · generalize step s (.call env c) = s' at ok hentitled
    cases hentitled with
    | @founds admin cngn treasury source feeBps _ fresh _ _ founded fee =>
      have hfounding : foundingRate s
          (.call env (.initializeContract admin cngn treasury feeBps source)) = some feeBps :=
        if_pos (by rw [show initializeContract env admin cngn treasury feeBps source s = _ from ok]
                   rfl)
      rw [h.before fresh, hfounding]
      refine ⟨fun hi => ?_, ?_⟩
      · cases hi.symm.trans founded.1
      · simp [getFeeBps, fee]
    | decrees _ _ _ initialized _ rate _ other =>
      rw [foundingRate_eq_none other, Option.or_none]
      refine ⟨fun hi => h.before (initialized ▸ hi), ?_⟩
      rcases rate with hrate | ⟨feeBps, hrate, -, hmax⟩
      · rw [getFeeBps, hrate]
        exact h.rate
      · simp only [getFeeBps, hrate, Option.getD_some]
        omega
    | flips route _ _ only =>
      have hnone : foundingRate s (.call env c) = none :=
        foundingRate_eq_none (by rcases route with rfl | rfl <;> simp)
      rw [hnone, Option.or_none]
      refine ⟨fun hi => h.before (by rw [only] at hi; exact hi), ?_⟩
      rw [getFeeBps, only]
      exact h.rate

theorem rateBounded_run (tokens : Token.Ledger Address) (actions : List Action) :
    RateBounded (foundedAt tokens actions) (run tokens actions) := by
  induction actions using List.reverseRecOn with
  | nil => exact ⟨fun _ => rfl, Nat.zero_le _⟩
  | append_singleton actions a ih =>
    rw [foundedAt_snoc, run_snoc]
    exact rateBounded_step (wellFormed_run tokens actions) ih a

theorem rateCeiling_mono {before : List Action} (h : before <+: actions) :
    rateCeiling tokens before ≤ rateCeiling tokens actions := by
  obtain ⟨later, rfl⟩ := h
  have happ : foundedAt tokens (before ++ later) =
      (foundedAt tokens before).or ((Machine.trail step (run tokens before) later).findSome?
        fun p => foundingRate p.1 p.2) := by
    rw [foundedAt, trail, Machine.trail_append, List.findSome?_append]
    rfl
  rw [rateCeiling, rateCeiling, happ]
  cases foundedAt tokens before <;> simp

/-! ## What a completion costs -/

/-- A fee of so many hundredths of a percent. -/
theorem fee_le_of_tdiv {amount base fee : Int} {feeBps : Nat} (lo : 0 ≤ base) (hi : base ≤ amount)
    (hfee : fee = (base * feeBps).tdiv bpsDivisor) : 10000 * fee ≤ feeBps * amount := by
  have hprod : 0 ≤ base * (feeBps : Int) := Int.mul_nonneg lo (Int.natCast_nonneg _)
  have hle : base * (feeBps : Int) ≤ amount * feeBps :=
    Int.mul_le_mul_of_nonneg_right hi (Int.natCast_nonneg _)
  have hquot : fee = base * (feeBps : Int) / 10000 := by
    rw [hfee]
    exact Int.tdiv_eq_ediv_of_nonneg hprod
  have hcomm := Int.mul_comm amount feeBps
  omega

/-- The fee of a settlement, whatever the ruling. -/
theorem fee_le_of_disputeSplit {amount : Int} {bps lossBps feeBps : Nat} {split : Split}
    (h : disputeSplit amount bps lossBps feeBps = .ok split) (lo : 0 ≤ amount)
    (hi : amount ≤ I128.maxValue) : 10000 * split.fee ≤ feeBps * amount := by
  obtain ⟨⟨hnet, hrefund, hfee⟩, hwhole⟩ := disputeSplit_eq_ok h lo hi
  simp only [disputeSplit, bind_eq_ok, assert_eq_ok, pure_eq_ok, exists_const] at h
  obtain ⟨loss, hloss, fee, hchecked, -, -, -, -, rfl⟩ := h
  dsimp only at hnet hrefund hfee hwhole ⊢
  obtain ⟨hlo, hhi⟩ := checkedLossAmount_eq_ok hloss
  have hback : I128.sub amount (I128.sub amount loss) = loss := I128.sub_sub_cancel hlo hhi
  rw [hback] at hrefund hwhole
  have hraw : I128.sub amount loss = amount - loss := I128.sub_of_nonneg lo hi hrefund hhi
  rw [hraw] at hchecked
  exact fee_le_of_tdiv (by omega) (by omega) (checkedFeeAmount_exact hchecked)

/-- What a call paid out that completed a trade, and what it kept. -/
def PaidOut (s : State) (t : Trade) (s' : State) : Prop :=
  ∃ fee : Int, total (s'.tokens.since s.tokens) = t.amount - fee ∧
    10000 * fee ≤ getFeeBps s * t.amount

theorem releaseFunds_paidOut {k : Nat} {t : Trade} {caller : Address}
    (wf : WellFormed s.toSettings s.toBooks) (stored : s.trades.get k = some t)
    (h : releaseFunds env k caller s = .ok s') : PaidOut s t s' := by
  obtain ⟨t', sellerAmount, fee, stored', hsplit, hpaid, -⟩ := releaseFunds_pays h
  obtain rfl := Option.some.inj (stored.symm.trans stored')
  have hsound := wf.trade _ _ stored
  obtain ⟨hfee, hseller⟩ := releaseSplit_exact hsplit hsound.nonneg hsound.le
  refine ⟨fee, ?_, fee_le_of_tdiv hsound.nonneg le_rfl hfee⟩
  rw [Token.since_of_append (Token.transfers_of_transfer hpaid)]
  simp [total, hseller]

theorem SettledWith.paidOut {k bps : Nat} {t : Trade} (wf : WellFormed s.toSettings s.toBooks)
    (stored : s.trades.get k = some t) (h : SettledWith bps k s s') : PaidOut s t s' := by
  obtain ⟨t', _, split, tokens, stored', hsplit, hseller, hbuyer, -⟩ := h
  obtain rfl := Option.some.inj (stored.symm.trans stored')
  have hsound := wf.trade _ _ stored
  obtain ⟨hbounds, hwhole⟩ := disputeSplit_eq_ok hsplit hsound.nonneg hsound.le
  refine ⟨split.fee, ?_, fee_le_of_disputeSplit hsplit hsound.nonneg hsound.le⟩
  obtain ⟨ms₁, hlog₁, htotal₁, -⟩ := log_of_pay hbounds.1 (.inl rfl) hseller
  obtain ⟨ms₂, hlog₂, htotal₂, -⟩ := log_of_pay hbounds.2.1 (.inr rfl) hbuyer
  rw [hlog₁, List.append_assoc] at hlog₂
  rw [Token.since_of_append hlog₂]
  simp only [total, List.map_append, List.sum_append] at htotal₁ htotal₂ ⊢
  omega

theorem resolveDispute_settledWith {k bps : Nat} {mediator : Address}
    (h : resolveDispute env k mediator bps s = .ok s') : SettledWith bps k s s' := by
  simp only [resolveDispute, bind_eq_ok, assert_eq_ok, exists_const] at h
  obtain ⟨_, -, -, _, -, -, h⟩ := h
  exact settleDispute_settledWith h

/-- A dispute that ends in a completed trade was settled. -/
theorem settledWith_of_completed {k : Nat} (wf : WellFormed s.toSettings s.toBooks)
    (hdisputed : Disputed s k)
    (hafter : ((step s a).trades.get k).map Trade.status = some .completed) :
    ∃ bps, SettledWith bps k s (step s a) := by
  obtain ⟨bps, hdecides⟩ | hother := settles_of_completed wf hdisputed hafter
  · exact ⟨bps, settledWith_of_decides wf hdecides⟩
  · unfold SettledOtherwise at hother
    split at hother
    · obtain ⟨rfl, hok⟩ := hother
      obtain ⟨s', ok⟩ := isOk_iff.1 hok
      rw [step_call_of_ok ok]
      obtain ⟨state, -, -, -, -, hsettled⟩ := resolveDisputeByFallback_settledWith ok
      exact ⟨_, hsettled⟩
    · obtain ⟨rfl, hok, -⟩ := hother
      obtain ⟨s', ok⟩ := isOk_iff.1 hok
      rw [step_call_of_ok ok]
      exact ⟨_, resolveDispute_settledWith ok⟩
    · exact hother.elim

/-- An undisputed trade is only completed by a release. -/
theorem Entry.releases {k : Nat} {t t' : Trade} {d d' : Folder} (h : Entry env s k t d c t' d')
    (hlive : t.status.live = true) (hdisputed : t.status ≠ .disputed)
    (hcompleted : t'.status = .completed) : ∃ caller, c = .releaseFunds k caller := by
  cases h with
  | release => exact ⟨_, rfl⟩
  | resolve status | vote status | decide status | fallback status | evidence status =>
    exact absurd status hdisputed
  | video status | manifest status => simp_all [TradeStatus.live]
  | deposit status | openPath status | finalizePath status | drop status | cancelByBuyer status =>
    rw [status] at hlive
    cases hlive
  | request status | extend status => cases status.symm.trans hcompleted
  | override | agree | refund | expire => cases hcompleted
  | deliver _ _ record | dispute _ _ _ record =>
    rw [record] at hcompleted
    cases hcompleted
  | clawPart | clawAll | clawQueued =>
    simp only [Trade.clawed] at hcompleted
    split at hcompleted <;> simp_all [TradeStatus.live]

theorem paidOut_of_completed {k : Nat} {t t' : Trade} (wf : WellFormed s.toSettings s.toBooks)
    (stored : s.trades.get k = some t) (stored' : (step s a).trades.get k = some t')
    (hlive : t.status.live = true) (hcompleted : t'.status = .completed) :
    PaidOut s t (step s a) := by
  by_cases hdisputed : t.status = .disputed
  · obtain ⟨bps, hsettled⟩ := settledWith_of_completed (k := k) wf
      (by rw [Disputed, stored, Option.map_some, hdisputed])
      (by rw [stored', Option.map_some, hcompleted])
    exact hsettled.paidOut wf stored
  · have hchange := step_at wf a k
    generalize hs' : step s a = s' at hchange stored'
    cases hchange with
    | same _ record _ =>
      obtain rfl := Option.some.inj (stored.symm.trans (record.symm.trans stored'))
      rw [hcompleted] at hlive
      cases hlive
    | create _ _ _ _ _ status _ record _ =>
      obtain rfl := Option.some.inj (record.symm.trans stored')
      cases status.symm.trans hcompleted
    | write t₀ t₁ ok _ stored₀ record entry =>
      obtain rfl := Option.some.inj (stored.symm.trans stored₀)
      obtain rfl := Option.some.inj (record.symm.trans stored')
      obtain ⟨caller, rfl⟩ := entry.releases hlive hdisputed hcompleted
      exact releaseFunds_paidOut wf stored ok

theorem feeTaken_le (wf : WellFormed s.toSettings s.toBooks) (a : Action) :
    10000 * feeTaken s a ≤ getFeeBps s * completedAmount s a := by
  cases hsubject : a.subject s with
  | none => simp [feeTaken, completedAmount, hsubject]
  | some k =>
    cases stored : s.trades.get k with
    | none => simp [feeTaken, completedAmount, hsubject, stored]
    | some t =>
      cases stored' : (step s a).trades.get k with
      | none => simp [feeTaken, completedAmount, hsubject, stored, stored']
      | some t' =>
        simp only [feeTaken, completedAmount, hsubject, stored, stored']
        split
        · next h =>
          obtain ⟨fee, htotal, hfee⟩ := paidOut_of_completed wf stored stored' h.1 h.2
          have hkept : t.amount - total (logged s a) = fee := by
            rw [logged, htotal]
            omega
          rwa [hkept]
        · simp

theorem completedAmount_nonneg (wf : WellFormed s.toSettings s.toBooks) (a : Action) :
    0 ≤ completedAmount s a := by
  unfold completedAmount
  split
  · exact le_rfl
  · split
    · next t t' stored _ =>
      have hpos := (wf.trade _ _ stored).nonneg
      split <;> omega
    · exact le_rfl

/-- In every run all fees stay below the founding rate or `MAX_FEE_BPS`, whichever is higher. -/
theorem feeCeiling_run (tokens : Token.Ledger Address) (actions : List Action) :
    FeeCeiling tokens actions where
  rate := fun before hbefore => (rateBounded_run tokens before).rate.trans (rateCeiling_mono hbefore)
  step := by
    rintro ⟨s, a⟩ hp
    obtain ⟨before, later, rfl, rfl⟩ := Machine.exists_append_of_mem_trail step hp
    exact feeTaken_le (wellFormed_run tokens before) a
  total := by
    rw [← Machine.tally_mul_left, ← Machine.tally_mul_left]
    refine Machine.tally_le_tally step ?_
    rintro ⟨s, a⟩ hp
    obtain ⟨before, later, rfl, rfl⟩ := Machine.exists_append_of_mem_trail step hp
    have wf := wellFormed_run tokens before
    have hrate : (getFeeBps (run tokens before) : Int) ≤
        rateCeiling tokens (before ++ a :: later) :=
      Int.ofNat_le.2 ((rateBounded_run tokens before).rate.trans (rateCeiling_mono ⟨_, rfl⟩))
    exact (feeTaken_le wf a).trans
      (Int.mul_le_mul_of_nonneg_right hrate (completedAmount_nonneg wf a))

end Amana.Escrow
