import Amana.Escrow.Effect

/-!
# Well-formed states

Every call is one of the effects (`invoke_effect`) as long as the stored trades are well formed:
each is stored under its own identifier, is denominated in the settlement token, and has a
non-negative `i128` amount that is positive until the trade is closed.  All actions keep this
(`wellFormed_run`).  The entrypoints that configure the contract are the only ones that touch the
settings, and they touch nothing else.
-/

namespace Amana.Escrow

open Lib

variable {env : Env} {s s' : State} {c : Call}

/-! ## Configuration -/

/-- Whether a call only configures the contract. -/
def Call.configures : Call → Bool
  | .initializeContract .. | .setMediator .. | .addMediator .. | .removeMediator ..
  | .setMediatorWeight .. | .addGuardian .. | .removeGuardian .. | .pause .. | .unpause ..
  | .allowAsset .. | .disallowAsset .. | .updateFeeBps .. | .setClawbackEnabled ..
  | .setExtensionPolicy .. | .setQuorumConfig .. => true
  | _ => false

/-- Bounds the settings keep, whoever the admin is. -/
structure Settings.Sound (st : Settings) : Prop where
  /-- The settlement token is only set together with the initialization flag. -/
  installed : st.cngnContract.isSome → st.initialized = true
  adminInstalled : st.admin.isSome → st.initialized = true
  feeBps : st.feeBps.getD 0 ≤ 10000
  extensions : ∀ p, st.extensionPolicy = some p →
    p.maxExtensions ≤ extensionPolicyCeilingCount ∧
      p.maxTotalExtensionSecs ≤ extensionPolicyCeilingSecs
  delays : ∀ p, st.timelockConfig = some p → p = ⟨86400, 604800⟩

/-- What a configuring call does: nothing outside the settings and the queue counter, and the
settings stay within their bounds.  The settlement token of an initialized contract is fixed. -/
structure Configured (s s' : State) : Prop where
  books : s'.toBooks = s.toBooks
  files : s'.toFiles = s.toFiles
  queue : s'.toQueue = s.toQueue ∨
    s.initialized = false ∧ s'.toQueue = { s.toQueue with nextTimelockId := some 0 }
  initialized : s.initialized = true → s'.initialized = true
  settlement : s.initialized = true → s'.cngnContract = s.cngnContract
  sound : s.toSettings.Sound → s'.toSettings.Sound

theorem initializeContract_configured {admin cngn treasury source : Address} {feeBps : Nat}
    (h : initializeContract env admin cngn treasury feeBps source s = .ok s') :
    Configured s s' := by
  simp only [initializeContract, bind_eq_ok, assert_eq_ok, requireAuth_eq_ok, pure_eq_ok,
    exists_const] at h
  obtain ⟨hfresh, hfee, -, rfl⟩ := h
  refine ⟨rfl, rfl, .inr ⟨hfresh, rfl⟩, fun _ => rfl, fun hinit => ?_, fun hs => ?_⟩
  · exact absurd (hfresh.symm.trans hinit) (by decide)
  · refine ⟨fun _ => rfl, fun _ => rfl, hfee, hs.extensions, fun p hp => ?_⟩
    exact (Option.some.inj hp).symm

/-- A configuring call that leaves the token, the flag and the bounded settings alone. -/
theorem configured_of_same (hbooks : s'.toBooks = s.toBooks) (hfiles : s'.toFiles = s.toFiles)
    (hqueue : s'.toQueue = s.toQueue) (hinit : s'.initialized = s.initialized)
    (hadmin : s'.admin = s.admin) (hcngn : s'.cngnContract = s.cngnContract)
    (hfee : s'.feeBps = s.feeBps ∨ s'.feeBps.getD 0 ≤ 10000)
    (hpolicy : ∀ p, s'.extensionPolicy = some p → s.extensionPolicy = some p ∨
      p.maxExtensions ≤ extensionPolicyCeilingCount ∧
        p.maxTotalExtensionSecs ≤ extensionPolicyCeilingSecs)
    (hdelay : s'.timelockConfig = s.timelockConfig) : Configured s s' := by
  refine ⟨hbooks, hfiles, .inl hqueue, fun h => hinit.trans h, fun _ => hcngn, fun hs => ?_⟩
  refine ⟨?_, ?_, ?_, fun p hp => ?_, ?_⟩
  · rw [hcngn, hinit]
    exact hs.installed
  · rw [hadmin, hinit]
    exact hs.adminInstalled
  · rcases hfee with hfee | hfee
    · rw [hfee]
      exact hs.feeBps
    · exact hfee
  · exact (hpolicy p hp).elim (hs.extensions p) id
  · rw [hdelay]
    exact hs.delays

theorem invoke_configured (hc : c.configures = true) (h : invoke env s c = .ok s') :
    Configured s s' := by
  cases c
  case initializeContract => exact initializeContract_configured h
  case setMediator | addMediator | removeMediator | addGuardian | removeGuardian |
      disallowAsset | setClawbackEnabled =>
    simp only [invoke, setMediator, addMediator, removeMediator, addGuardian, removeGuardian,
      disallowAsset, setClawbackEnabled, bind_eq_ok, requireAdmin_eq_ok, pure_eq_ok] at h
    obtain ⟨_, -, rfl⟩ := h
    exact configured_of_same rfl rfl rfl rfl rfl rfl (.inl rfl) (fun _ hp => .inl hp) rfl
  case pause | unpause =>
    simp only [invoke, pause, unpause, setPaused, bind_eq_ok, requireAuth_eq_ok, assert_eq_ok,
      pure_eq_ok, exists_const] at h
    obtain ⟨-, -, rfl⟩ := h
    exact configured_of_same rfl rfl rfl rfl rfl rfl (.inl rfl) (fun _ hp => .inl hp) rfl
  case setMediatorWeight =>
    simp only [invoke, setMediatorWeight, bind_eq_ok, requireAdmin_eq_ok, assert_eq_ok,
      pure_eq_ok, exists_const] at h
    obtain ⟨_, -, -, -, rfl⟩ := h
    exact configured_of_same rfl rfl rfl rfl rfl rfl (.inl rfl) (fun _ hp => .inl hp) rfl
  case allowAsset =>
    simp only [invoke, allowAsset, bind_eq_ok, requireAdmin_eq_ok, assert_eq_ok, pure_eq_ok,
      exists_const] at h
    obtain ⟨_, -, -, rfl⟩ := h
    exact configured_of_same rfl rfl rfl rfl rfl rfl (.inl rfl) (fun _ hp => .inl hp) rfl
  case setQuorumConfig =>
    simp only [invoke, setQuorumConfig, bind_eq_ok, requireAdmin_eq_ok, assert_eq_ok, pure_eq_ok,
      exists_const] at h
    obtain ⟨_, -, -, -, -, -, -, rfl⟩ := h
    exact configured_of_same rfl rfl rfl rfl rfl rfl (.inl rfl) (fun _ hp => .inl hp) rfl
  case updateFeeBps =>
    simp only [invoke, updateFeeBps, bind_eq_ok, requireAdmin_eq_ok, assert_eq_ok, pure_eq_ok,
      exists_const] at h
    obtain ⟨_, -, ⟨-, hmax⟩, rfl⟩ := h
    have hle : maxFeeBps ≤ 10000 := by decide
    exact configured_of_same rfl rfl rfl rfl rfl rfl (.inr (hmax.trans hle)) (fun _ hp => .inl hp)
      rfl
  case setExtensionPolicy =>
    simp only [invoke, setExtensionPolicy, bind_eq_ok, requireAdmin_eq_ok, assert_eq_ok,
      pure_eq_ok, exists_const] at h
    obtain ⟨_, -, hcount, hsecs, rfl⟩ := h
    refine configured_of_same rfl rfl rfl rfl rfl rfl (.inl rfl) (fun p hp => .inr ?_) rfl
    obtain rfl := Option.some.inj hp
    exact ⟨hcount, hsecs⟩
  all_goals exact absurd hc (by simp [Call.configures])

/-! ## Trades -/

/-- A trade record as the contract keeps it under `key`. -/
structure Trade.Sound (key : Nat) (t : Trade) : Prop where
  key : t.tradeId = key
  nonneg : 0 ≤ t.amount
  le : t.amount ≤ I128.maxValue
  positive : t.status ≠ .completed → t.status ≠ .cancelled → 0 < t.amount
  buyer : t.buyer ≠ currentContract

/-- The trades and pending path payments under the given settings. -/
structure WellFormed (st : Settings) (b : Books) : Prop where
  settings : st.Sound
  trade : ∀ k t, b.trades.get k = some t → t.Sound k
  token : ∀ k t, b.trades.get k = some t → st.cngnContract = some t.token
  intent : ∀ k i, b.pathPaymentIntent.get k = some i → 0 < i.destMin ∧ 0 ≤ i.cngnBalanceBefore

theorem WellFormed.amountsInRange {st : Settings} {b : Books} (wf : WellFormed st b) :
    AmountsInRange b := fun k t h => ⟨(wf.trade k t h).nonneg, (wf.trade k t h).le⟩

theorem WellFormed.keyed {st : Settings} {b : Books} (wf : WellFormed st b) (k : Nat) (t : Trade)
    (h : b.trades.get k = some t) : t.tradeId = k := (wf.trade k t h).key

/-- Whether a call works on the timelock queue. -/
def Call.schedules : Call → Bool
  | .queueClawback .. | .executeClawback .. | .cancelQueuedOperation .. | .queueUpgrade ..
  | .executeUpgrade .. => true
  | _ => false

/-- Every successful call that does not configure the contract is one of the effects and leaves the
settings alone, and the queue too unless it works on it. -/
theorem invoke_effect (wf : WellFormed s.toSettings s.toBooks) (hc : c.configures = false)
    (h : invoke env s c = .ok s') :
    Effect env s c s'.toBooks ∧ s'.toSettings = s.toSettings ∧
      (c.schedules = false → s'.toQueue = s.toQueue) := by
  have range := wf.amountsInRange
  cases c
  case withdrawFees => exact (withdrawFees_effect h).imp_right Framed.outside
  case createTrade =>
    obtain ⟨⟨id, _⟩, hcreate, rfl⟩ := map_eq_ok.1 h
    exact (createTrade_effect hcreate).imp_right Framed.outside
  case deposit => exact (deposit_effect h).imp_right Framed.outside
  case depositWithPath => exact (depositWithPath_effect h).imp_right Framed.outside
  case finalizePathPayment => exact (finalizePathPayment_effect h).imp_right Framed.outside
  case cancelTrade t _ => exact (cancelTrade_effect (wf.keyed t) h).imp_right Framed.outside
  case cancelByBuyer => exact (cancelByBuyer_effect h).imp_right Framed.outside
  case refund t => exact (refund_effect (wf.keyed t) h).imp_right Framed.outside
  case claimExpiryRefund t _ =>
    refine (claimExpiryRefund_effect (fun trade hstored hstatus => ?_) h).imp_right Framed.outside
    exact (wf.trade t trade hstored).positive (by simp [hstatus]) (by simp [hstatus])
  case extendDeadline => exact (extendDeadline_effect h).imp_right Framed.outside
  case confirmDelivery => exact (confirmDelivery_effect h).imp_right Framed.outside
  case releaseFunds => exact (releaseFunds_effect range h).imp_right Framed.outside
  case initiateDispute => exact (initiateDispute_effect h).imp_right Framed.outside
  case resolveDispute => exact (resolveDispute_effect range h).imp_right Framed.outside
  case castDisputeVote => exact (castDisputeVote_effect range h).imp_right Framed.outside
  case resolveDisputeByFallback =>
    exact (resolveDisputeByFallback_effect range h).imp_right Framed.outside
  case submitEvidence => exact (submitEvidence_effect h).imp_right Framed.outside
  case submitVideoProof => exact (submitVideoProof_effect h).imp_right Framed.outside
  case submitManifest => exact (submitManifest_effect h).imp_right Framed.outside
  case adminClawback => exact (adminClawback_effect range h).imp_right Framed.outside
  case executeClawback =>
    obtain ⟨heffect, hsettings⟩ := executeClawback_effect range h
    exact ⟨heffect, hsettings, by simp [Call.schedules]⟩
  case queueClawback =>
    obtain ⟨_, hqueue, rfl⟩ := map_eq_ok.1 h
    simp only [queueClawback, bind_eq_ok, requireAdmin_eq_ok, assert_eq_ok, pure_eq_ok,
      exists_const] at hqueue
    obtain ⟨_, -, -, rfl⟩ := hqueue
    exact ⟨.idle rfl, rfl, by simp [Call.schedules]⟩
  case cancelQueuedOperation =>
    simp only [invoke, cancelQueuedOperation, bind_eq_ok, requireAdmin_eq_ok, expect_eq_ok,
      assert_eq_ok, pure_eq_ok, exists_const] at h
    obtain ⟨_, -, _, -, -, -, rfl⟩ := h
    exact ⟨.idle rfl, rfl, by simp [Call.schedules]⟩
  case queueUpgrade =>
    obtain ⟨_, hqueue, rfl⟩ := map_eq_ok.1 h
    simp only [queueUpgrade, bind_eq_ok, requireAdmin_eq_ok, pure_eq_ok] at hqueue
    obtain ⟨_, -, rfl⟩ := hqueue
    exact ⟨.idle rfl, rfl, by simp [Call.schedules]⟩
  case executeUpgrade =>
    simp only [invoke, executeUpgrade, bind_eq_ok, requireAdmin_eq_ok] at h
    obtain ⟨_, -, _, -, h⟩ := h
    split at h <;> cases pure_eq_ok.1 h <;> exact ⟨.idle rfl, rfl, by simp [Call.schedules]⟩
  all_goals exact absurd hc (by simp [Call.configures])

/-! ## Effects keep states well formed -/

/-- An open trade stays sound when its amount does not change. -/
theorem Trade.Sound.of_same_amount {k : Nat} {t t' : Trade} (h : t.Sound k)
    (hopen : t.status ≠ .completed ∧ t.status ≠ .cancelled) (hid : t'.tradeId = t.tradeId)
    (hamount : t'.amount = t.amount) (hbuyer : t'.buyer = t.buyer) : t'.Sound k where
  key := hid.trans h.key
  nonneg := hamount ▸ h.nonneg
  le := hamount ▸ h.le
  positive := fun _ _ => hamount ▸ h.positive hopen.1 hopen.2
  buyer := hbuyer ▸ h.buyer

theorem Trade.Sound.clawed {k : Nat} {t : Trade} {amount : Int} (now : Nat) (h : t.Sound k)
    (hpos : 0 < amount) (hle : amount ≤ t.amount) : (t.clawed amount now).Sound k where
  key := h.key
  nonneg := by
    show 0 ≤ t.amount - amount
    omega
  le := by
    have := h.le
    show t.amount - amount ≤ I128.maxValue
    omega
  positive := fun _ hopen => by
    show 0 < t.amount - amount
    by_cases hzero : t.amount - amount = 0
    · exact absurd (if_pos hzero) hopen
    · omega
  buyer := h.buyer

section Preservation

variable {st : Settings} {b b' : Books}

/-- Storing a sound trade, with the pending intents as they were. -/
theorem WellFormed.store {k : Nat} {t : Trade} (wf : WellFormed st b)
    (htrades : b'.trades = b.trades.set k t) (hsound : t.Sound k)
    (htoken : st.cngnContract = some t.token)
    (hintent : ∀ k i, b'.pathPaymentIntent.get k = some i →
      0 < i.destMin ∧ 0 ≤ i.cngnBalanceBefore) : WellFormed st b' where
  settings := wf.settings
  trade := fun k' t' h => by
    rw [htrades] at h
    obtain ⟨rfl, rfl⟩ | ⟨-, h⟩ := Store.get_set_cases h
    · exact hsound
    · exact wf.trade k' t' h
  token := fun k' t' h => by
    rw [htrades] at h
    obtain ⟨-, rfl⟩ | ⟨-, h⟩ := Store.get_set_cases h
    · exact htoken
    · exact wf.token k' t' h
  intent := hintent

/-- Replacing a stored trade by a sound one in the same token. -/
theorem WellFormed.update {k : Nat} {t t' : Trade} (wf : WellFormed st b)
    (stored : b.trades.get k = some t) (htrades : b'.trades = b.trades.set k t')
    (hsound : t'.Sound k) (htoken : t'.token = t.token)
    (hintent : ∀ k i, b'.pathPaymentIntent.get k = some i →
      0 < i.destMin ∧ 0 ≤ i.cngnBalanceBefore) : WellFormed st b' :=
  wf.store htrades hsound (htoken ▸ wf.token k t stored) hintent

theorem WellFormed.withTokens (wf : WellFormed st b) (tokens : Token.Ledger Address) :
    WellFormed st { b with tokens := tokens } := ⟨wf.settings, wf.trade, wf.token, wf.intent⟩

end Preservation

theorem Effect.wellFormed {b' : Books} (wf : WellFormed s.toSettings s.toBooks)
    (h : Effect env s c b') : WellFormed s.toSettings b' := by
  cases h with
  | idle _ => exact wf
  | create _ tradeId _ amount token buyer _ _ _ _ _ =>
    refine wf.store rfl ⟨rfl, amount.1.le, ?_, fun _ _ => amount.1, buyer⟩ token wf.intent
    exact amount.2.trans (by decide)
  | deposit stored status _ =>
    exact wf.update stored rfl ((wf.trade _ _ stored).of_same_amount (by simp [status]) rfl rfl rfl)
      rfl wf.intent
  | @openPath t trade _ _ _ _ tokens stored status _ positive _ =>
    refine wf.update stored rfl
      ((wf.trade _ _ stored).of_same_amount (by simp [status]) rfl rfl rfl) rfl fun k i hi => ?_
    obtain ⟨-, rfl⟩ | ⟨-, hi⟩ := Store.get_set_cases hi
    · exact ⟨positive, tokens.balance_nonneg _ _⟩
    · exact wf.intent k i hi
  | @finalizePath t _ trade intent stored status pending enough small =>
    have hsound := wf.trade _ _ stored
    have hmin := (wf.intent _ _ pending).1
    refine wf.update stored rfl ⟨hsound.key, ?_, small, fun _ _ => ?_, hsound.buyer⟩
      rfl fun k i hi => ?_
    · exact (hmin.trans_le enough).le
    · exact hmin.trans_le enough
    · dsimp only at hi
      rw [Store.get_erase] at hi
      split at hi
      · cases hi
      · exact wf.intent k i hi
  | drop _ stored status =>
    exact wf.update stored rfl ((wf.trade _ _ stored).of_same_amount (by simp [status]) rfl rfl rfl)
      rfl wf.intent
  | request stored status =>
    exact wf.update stored rfl ((wf.trade _ _ stored).of_same_amount (by simp [status]) rfl rfl rfl)
      rfl wf.intent
  | @refund _ _ trade _ _ stored status _ =>
    have hopen : trade.status ≠ .completed ∧ trade.status ≠ .cancelled := by
      rcases status with e | e <;> simp [e]
    exact wf.update stored rfl ((wf.trade _ _ stored).of_same_amount hopen rfl rfl rfl)
      rfl wf.intent
  | extend stored status _ _ _ _ _ =>
    exact wf.update stored rfl ((wf.trade _ _ stored).of_same_amount (by simp [status]) rfl rfl rfl)
      rfl wf.intent
  | deliver stored status =>
    exact wf.update stored rfl ((wf.trade _ _ stored).of_same_amount (by simp [status]) rfl rfl rfl)
      rfl wf.intent
  | dispute stored status =>
    exact wf.update stored rfl ((wf.trade _ _ stored).of_same_amount (by simp [status]) rfl rfl rfl)
      rfl wf.intent
  | release stored status _ _ =>
    exact wf.update stored rfl ((wf.trade _ _ stored).of_same_amount (by simp [status]) rfl rfl rfl)
      rfl wf.intent
  | settle _ stored status _ _ _ _ =>
    exact wf.update stored rfl ((wf.trade _ _ stored).of_same_amount (by simp [status]) rfl rfl rfl)
      rfl wf.intent
  | claw _ stored _ bounds _ =>
    exact wf.update stored rfl ((wf.trade _ _ stored).clawed env.timestamp bounds.1 bounds.2)
      rfl wf.intent
  | withdraw _ _ _ => exact ⟨wf.settings, wf.trade, wf.token, wf.intent⟩

/-- A call keeps the state well formed. -/
theorem wellFormed_invoke (wf : WellFormed s.toSettings s.toBooks) (h : invoke env s c = .ok s') :
    WellFormed s'.toSettings s'.toBooks := by
  by_cases hc : c.configures = true
  · have hconf := invoke_configured hc h
    have hsettle : ∀ k t, s.trades.get k = some t → s'.cngnContract = some t.token := by
      intro k t ht
      have htoken := wf.token k t ht
      rw [hconf.settlement (wf.settings.installed (by simp [htoken]))]
      exact htoken
    rw [hconf.books]
    exact ⟨hconf.sound wf.settings, wf.trade, hsettle, wf.intent⟩
  · obtain ⟨heffect, hsettings, -⟩ := invoke_effect wf (by simpa using hc) h
    rw [hsettings]
    exact heffect.wellFormed wf

/-! ## Steps and runs -/

/-- How one action changes a state. -/
inductive Change (s : State) : Action → State → Prop
  /-- The action failed. -/
  | stay {a : Action}
      (failed : ∀ env c, a = .call env c → (invoke env s c).isOk = false) : Change s a s
  /-- A configuring call. -/
  | configure {env : Env} {c : Call} {s' : State} (ok : invoke env s c = .ok s')
      (configures : c.configures = true) (conf : Configured s s') : Change s (.call env c) s'
  /-- Any other call. -/
  | effect {env : Env} {c : Call} {s' : State} (ok : invoke env s c = .ok s')
      (effect : Effect env s c s'.toBooks) (settings : s'.toSettings = s.toSettings)
      (queue : c.schedules = false → s'.toQueue = s.toQueue) :
      Change s (.call env c) s'
  /-- A token movement outside the contract, by which the contract loses nothing. -/
  | outside {a : Action} {tokens : Token.Ledger Address} (call : ∀ env c, a ≠ .call env c)
      (keeps : ∀ token,
        s.tokens.balance token currentContract ≤ tokens.balance token currentContract) :
      Change s a { s with tokens := tokens }

theorem change_withTokens {a : Action} {o : Option (Token.Ledger Address)}
    (call : ∀ env c, a ≠ .call env c)
    (keeps : ∀ tokens, o = some tokens → ∀ token,
      s.tokens.balance token currentContract ≤ tokens.balance token currentContract) :
    Change s a (s.withTokens o) := by
  cases o with
  | none => exact .stay fun env c h => absurd h (call env c)
  | some tokens => exact .outside call (keeps tokens rfl)

/-- Every step of a well-formed state is one of the changes. -/
theorem step_change (wf : WellFormed s.toSettings s.toBooks) (a : Action) :
    Change s a (step s a) := by
  cases a with
  | call env c =>
    cases h : invoke env s c with
    | error e =>
      rw [step_call_of_error h]
      refine .stay fun env' c' hcall => ?_
      cases hcall
      rw [h]
      rfl
    | ok s' =>
      rw [step_call_of_ok h]
      by_cases hc : c.configures = true
      · exact .configure h hc (invoke_configured hc h)
      · obtain ⟨heffect, hsettings, hqueue⟩ := invoke_effect wf (by simpa using hc) h
        exact .effect h heffect hsettings hqueue
  | transfer m =>
    simp only [step]
    split
    · exact .stay (by simp)
    · next hne =>
      exact change_withTokens (by simp) fun _ h token => Token.le_of_transfer h token (Ne.symm hne)
  | mint token dest amount =>
    exact change_withTokens (by simp) fun _ h t => Token.le_of_mint h t currentContract
  | burn token source amount =>
    simp only [step]
    split
    · exact .stay (by simp)
    · next hne =>
      exact change_withTokens (by simp) fun _ h t => (Token.balance_of_burn h t (Ne.symm hne)).ge

theorem wellFormed_step (wf : WellFormed s.toSettings s.toBooks) (a : Action) :
    WellFormed (step s a).toSettings (step s a).toBooks := by
  have hchange := step_change wf a
  generalize step s a = s' at hchange
  cases hchange with
  | stay _ => exact wf
  | configure ok _ _ => exact wellFormed_invoke wf ok
  | effect ok _ _ => exact wellFormed_invoke wf ok
  | outside _ _ => exact wf.withTokens _

theorem wellFormed_deployed (tokens : Token.Ledger Address) :
    WellFormed (State.deployed tokens).toSettings (State.deployed tokens).toBooks where
  settings := ⟨by simp [State.deployed], by simp [State.deployed], by simp [State.deployed],
    by simp [State.deployed], by simp [State.deployed]⟩
  trade := by simp [State.deployed]
  token := by simp [State.deployed]
  intent := by simp [State.deployed]

/-- Every reachable state is well formed. -/
theorem wellFormed_run (tokens : Token.Ledger Address) (actions : List Action) :
    WellFormed (run tokens actions).toSettings (run tokens actions).toBooks :=
  Machine.run_invariant_of_step step (P := fun s => WellFormed s.toSettings s.toBooks) actions
    (wellFormed_deployed tokens) fun _ a wf => wellFormed_step wf a

end Amana.Escrow
