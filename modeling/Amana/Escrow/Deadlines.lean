import Amana.Escrow.Offers
import Amana.Escrow.StateMachine

/-!
# Deadline extensions

A deadline is extended under a policy the admin may change at any time, and measured against an
origin that the first extension records.  Whatever the policy was in between, an extended trade
stays within the policy ceilings, counted from the deadline it was created with.
-/

namespace Amana.Escrow

open Lib

variable {env : Env} {s s' : State} {a : Action} {c : Call} {k : Nat} {b' : Books}

/-- The deadline trade `k` was created with. -/
def createdDeadline (tokens : Token.Ledger Address) (actions : List Action) (k : Nat) :
    Option Nat := (offer tokens actions k).bind Offer.expiresAt

/-! ## One step -/

/-- The stored deadline of trade `k`. -/
def Books.deadline (b : Books) (k : Nat) : Option (Option Nat) :=
  (b.trades.get k).map Trade.expiresAt

/-- How one action changes the deadline of trade `k` and its extension data. -/
inductive DeadlineStep (k : Nat) (s : State) (a : Action) (b' : Books) : Prop
  /-- Nothing changes. -/
  | keep (offer : offered k s a = none) (deadline : b'.deadline k = s.toBooks.deadline k)
      (count : b'.extensionCount.get k = s.extensionCount.get k)
      (original : b'.originalDeadline.get k = s.originalDeadline.get k)
  /-- The trade is created. -/
  | create (o : Offer) (offer : offered k s a = some o)
      (free : ¬ Reissues s a → s.trades.get k = none)
      (deadline : b'.deadline k = some o.expiresAt)
      (count : b'.extensionCount.get k = s.extensionCount.get k)
      (original : b'.originalDeadline.get k = s.originalDeadline.get k)
  /-- The deadline is extended. -/
  | extend (oldDeadline newDeadline : Nat) (offer : offered k s a = none)
      (old : s.toBooks.deadline k = some (some oldDeadline))
      (deadline : b'.deadline k = some (some newDeadline))
      (later : oldDeadline < newDeadline)
      (allowed : getExtensionCount s k < (getExtensionPolicy s).maxExtensions)
      (total : newDeadline - (s.originalDeadline.get k).getD oldDeadline ≤
        (getExtensionPolicy s).maxTotalExtensionSecs)
      (count : b'.extensionCount.get k = some (U32.add (getExtensionCount s k) 1))
      (original : b'.originalDeadline.get k =
        if getExtensionCount s k = 0 then some ((s.originalDeadline.get k).getD oldDeadline)
        else s.originalDeadline.get k)

/-- A call that changes no deadline and no extension data. -/
theorem DeadlineStep.of_update {t : Nat} {trade trade' : Trade} (quiet : c.creates = false)
    (stored : s.trades.get t = some trade) (htrades : b'.trades = s.trades.set t trade')
    (hdeadline : trade'.expiresAt = trade.expiresAt)
    (hcount : b'.extensionCount = s.extensionCount)
    (horiginal : b'.originalDeadline = s.originalDeadline) :
    DeadlineStep k s (.call env c) b' := by
  refine .keep (offered_of_not_creates quiet) ?_ (by rw [hcount]) (by rw [horiginal])
  rw [Books.deadline, Books.deadline, htrades, Store.get_set]
  split
  · next e => rw [e, stored, Option.map_some, Option.map_some, hdeadline]
  · rfl

theorem Effect.deadline (h : Effect env s c b') (ok : invoke env s c = .ok s') :
    DeadlineStep k s (.call env c) b' := by
  cases h with
  | idle quiet => exact .keep (offered_of_not_creates (creates_of_mayIdle quiet)) rfl rfl rfl
  | withdraw _ _ _ => exact .keep rfl rfl rfl rfl
  | @create trade n counter tradeId _ _ _ _ _ _ _ _ _ =>
    subst counter
    have hoffer := offered_of_create (k := k) ok
    by_cases hk : k = nextIdentifier env s
    · rw [if_pos hk] at hoffer
      refine .create _ hoffer (fun hfresh => ?_) ?_ rfl rfl
      · by_contra hne
        refine hfresh ⟨rfl, by rw [ok]; rfl, ?_⟩
        rw [← hk]
        exact Option.isSome_iff_ne_none.2 hne
      · rw [Books.deadline, Store.get_set, if_pos (hk.trans tradeId.symm)]
        rfl
    · rw [if_neg hk] at hoffer
      refine .keep hoffer ?_ rfl rfl
      rw [Books.deadline, Store.get_set_ne _ _ (fun e => hk (e.trans tradeId))]
      rfl
  | deposit stored _ _ => exact .of_update rfl stored rfl rfl rfl rfl
  | openPath stored _ _ _ _ => exact .of_update rfl stored rfl rfl rfl rfl
  | finalizePath stored _ _ _ _ => exact .of_update rfl stored rfl rfl rfl rfl
  | drop route stored _ =>
    exact .of_update (creates_of_subject (s := s) (subject_of_drop route)) stored rfl rfl rfl rfl
  | request stored _ => exact .of_update rfl stored rfl rfl rfl rfl
  | refund route stored _ _ =>
    exact .of_update (creates_of_subject (s := s) (subject_of_refund route)) stored rfl rfl rfl rfl
  | deliver stored _ => exact .of_update rfl stored rfl rfl rfl rfl
  | dispute stored _ => exact .of_update rfl stored rfl rfl rfl rfl
  | release stored _ _ _ => exact .of_update rfl stored rfl rfl rfl rfl
  | settle route stored _ _ _ _ _ =>
    exact .of_update (creates_of_subject (s := s) (subject_of_settle route)) stored rfl rfl rfl rfl
  | claw route stored _ _ _ =>
    exact .of_update (creates_of_subject (subject_of_claw route)) stored rfl rfl rfl rfl
  | @extend t newDeadline oldDeadline trade stored _ deadline _ later count total =>
    by_cases hk : k = t
    · subst hk
      refine .extend oldDeadline newDeadline rfl ?_ ?_ later count total ?_ ?_
      · rw [Books.deadline, stored, Option.map_some, deadline]
      · rw [Books.deadline, Store.get_set_self]
        rfl
      · rw [Store.get_set_self]
      · dsimp only
        split
        · rw [Store.get_set_self]
        · rfl
    · refine .keep rfl ?_ (Store.get_set_ne _ _ hk) ?_
      · rw [Books.deadline, Store.get_set_ne _ _ hk]
        rfl
      · dsimp only
        split
        · rw [Store.get_set_ne _ _ hk]
        · rfl

theorem step_deadline (wf : WellFormed s.toSettings s.toBooks) (a : Action) (k : Nat) :
    DeadlineStep k s a (step s a).toBooks := by
  have hchange := step_change wf a
  generalize step s a = s' at hchange
  cases hchange with
  | stay failed => exact .keep (offered_of_failed failed) rfl rfl rfl
  | configure _ configures conf =>
    rw [conf.books]
    exact .keep (offered_of_not_creates (creates_of_configures configures)) rfl rfl rfl
  | outside call _ => exact .keep (offered_of_not_call call) rfl rfl rfl
  | effect ok effect _ => exact effect.deadline ok

/-- Whatever policy is in force, it is below the ceilings. -/
theorem getExtensionPolicy_le (h : s.toSettings.Sound) :
    (getExtensionPolicy s).maxExtensions ≤ extensionPolicyCeilingCount ∧
      (getExtensionPolicy s).maxTotalExtensionSecs ≤ extensionPolicyCeilingSecs := by
  unfold getExtensionPolicy
  cases hpolicy : s.extensionPolicy with
  | none => decide
  | some p => exact h.extensions p hpolicy

/-! ## Runs -/

section Runs

variable {tokens : Token.Ledger Address} {actions before later : List Action}

/-- The count after an extension. -/
theorem extensionCount_succ (wf : WellFormed s.toSettings s.toBooks)
    (allowed : getExtensionCount s k < (getExtensionPolicy s).maxExtensions) :
    U32.add (getExtensionCount s k) 1 = getExtensionCount s k + 1 ∧
      getExtensionCount s k + 1 ≤ extensionPolicyCeilingCount := by
  have hle := (getExtensionPolicy_le wf.settings).1
  refine ⟨Nat.mod_eq_of_lt ?_, by omega⟩
  have : extensionPolicyCeilingCount = 12 := rfl
  omega

theorem extensionCount_step (wf : WellFormed s.toSettings s.toBooks)
    (h : getExtensionCount s k ≤ extensionPolicyCeilingCount) :
    getExtensionCount (step s a) k ≤ extensionPolicyCeilingCount := by
  cases step_deadline wf a k with
  | keep _ _ count _ => rwa [getExtensionCount, count]
  | create _ _ _ _ count _ => rwa [getExtensionCount, count]
  | extend _ _ _ _ _ _ allowed _ count _ =>
    obtain ⟨hsucc, hle⟩ := extensionCount_succ wf allowed
    rwa [getExtensionCount, count, Option.getD_some, hsucc]

/-- A recorded origin stays. -/
theorem originalDeadline_step {d : Nat} (wf : WellFormed s.toSettings s.toBooks)
    (h : s.originalDeadline.get k = some d) : (step s a).originalDeadline.get k = some d := by
  cases step_deadline wf a k with
  | keep _ _ _ original => rw [original, h]
  | create _ _ _ _ _ original => rw [original, h]
  | extend _ _ _ _ _ _ _ _ _ original =>
    rw [original, h]
    split <;> rfl

/-- The extension data of a trade created with deadline `d`. -/
inductive Dated (b : Books) (k : Nat) (d : Option Nat) : Prop
  /-- The deadline was never extended. -/
  | fresh (deadline : b.deadline k = some d) (count : (b.extensionCount.get k).getD 0 = 0)
      (original : b.originalDeadline.get k = none)
  /-- The deadline was extended to `e`. -/
  | extended (d₀ e : Nat) (created : d = some d₀) (deadline : b.deadline k = some (some e))
      (count : 0 < (b.extensionCount.get k).getD 0)
      (original : b.originalDeadline.get k = some d₀)
      (capped : e ≤ d₀ + extensionPolicyCeilingSecs)

/-- The extension data of a trade, stored or not, by what it was created with. -/
def Consistent (b : Books) (k : Nat) : Option Offer → Prop
  | none => b.trades.get k = none ∧ b.extensionCount.get k = none ∧
      b.originalDeadline.get k = none
  | some o => Dated b k o.expiresAt

theorem dated_step {d : Option Nat} (wf : WellFormed s.toSettings s.toBooks)
    (hoffer : offered k s a = none) (h : Dated s.toBooks k d) : Dated (step s a).toBooks k d := by
  cases step_deadline wf a k with
  | create _ hsome _ _ _ _ => cases hoffer.symm.trans hsome
  | keep _ hdeadline hcount horiginal =>
    cases h with
    | fresh deadline count original =>
      exact .fresh (hdeadline.trans deadline) (by rw [hcount, count]) (horiginal.trans original)
    | extended d₀ e created deadline count original capped =>
      exact .extended d₀ e created (hdeadline.trans deadline) (by rwa [hcount])
        (horiginal.trans original) capped
  | extend old new _ hold hnew later allowed total hcount horiginal =>
    have hsecs := (getExtensionPolicy_le wf.settings).2
    have hpos : 0 < ((step s a).extensionCount.get k).getD 0 := by
      rw [hcount, Option.getD_some, (extensionCount_succ wf allowed).1]
      omega
    cases h with
    | fresh deadline count original =>
      obtain rfl := Option.some.inj (deadline.symm.trans hold)
      rw [original, Option.getD_none] at total horiginal
      refine .extended old new rfl hnew hpos ?_ (by omega)
      rw [horiginal, getExtensionCount, if_pos count]
    | extended d₀ e created deadline count original capped =>
      rw [original, Option.getD_some] at total horiginal
      refine .extended d₀ new created hnew hpos ?_ (by omega)
      rw [horiginal]
      split <;> rfl

theorem Books.deadline_eq_none {b : Books} : b.deadline k = none ↔ b.trades.get k = none :=
  Option.map_eq_none_iff

theorem Dated.stored {b : Books} {d : Option Nat} (h : Dated b k d) : b.trades.get k ≠ none := by
  intro hnone
  rw [← Books.deadline_eq_none] at hnone
  cases h with
  | fresh deadline => cases hnone.symm.trans deadline
  | extended _ _ _ deadline => cases hnone.symm.trans deadline

/-- One step keeps the extension data consistent unless it reissues an identifier. -/
theorem consistent_step {o : Option Offer} (wf : WellFormed s.toSettings s.toBooks)
    (fresh : ¬ Reissues s a) (h : Consistent s.toBooks k o) :
    Consistent (step s a).toBooks k ((offered k s a).or o) := by
  have hstep := step_deadline wf a k
  cases hoffer : offered k s a with
  | some o' =>
    cases hstep with
    | keep hnone => cases hoffer.symm.trans hnone
    | extend _ _ hnone => cases hoffer.symm.trans hnone
    | create o'' hsome free hdeadline hcount horiginal =>
      obtain rfl := Option.some.inj (hoffer.symm.trans hsome)
      cases o with
      | some _ => exact absurd (free fresh) (Dated.stored h)
      | none =>
        obtain ⟨-, count, original⟩ := h
        exact .fresh hdeadline (by rw [hcount, count]; rfl) (horiginal.trans original)
  | none =>
    cases o with
    | some o => exact dated_step wf hoffer h
    | none =>
      obtain ⟨stored, count, original⟩ := h
      have hnone : s.toBooks.deadline k = none := Books.deadline_eq_none.2 stored
      cases hstep with
      | keep _ hdeadline hcount horiginal =>
        exact ⟨Books.deadline_eq_none.1 (hdeadline.trans hnone), hcount.trans count,
          horiginal.trans original⟩
      | create _ hsome => cases hoffer.symm.trans hsome
      | extend _ _ _ old => cases hnone.symm.trans old

theorem consistent_run (fresh : NoReissue tokens actions) (k : Nat) :
    Consistent (run tokens actions).toBooks k (offer tokens actions k) := by
  induction actions using List.reverseRecOn with
  | nil => exact ⟨rfl, rfl, rfl⟩
  | append_singleton actions a ih =>
    rw [run_snoc, offer_snoc]
    exact consistent_step (wellFormed_run tokens actions) fresh.last (ih fresh.of_append)

/-- What holds of deadlines in every run. -/
structure ExtensionsBounded (tokens : Token.Ledger Address) (actions : List Action) : Prop where
  /-- No trade is extended more often than the ceiling allows. -/
  count : ∀ k, getExtensionCount (run tokens actions) k ≤ extensionPolicyCeilingCount
  /-- A recorded origin never changes. -/
  fixed : ∀ before later, actions = before ++ later → ∀ k d,
    (run tokens before).originalDeadline.get k = some d →
      (run tokens actions).originalDeadline.get k = some d
  /-- An extension moves the deadline to a later time. -/
  increases : ∀ p ∈ trail tokens actions, ∀ env k newDeadline,
    p.2 = .call env (.extendDeadline k newDeadline) →
    (extendDeadline env k newDeadline p.1).isOk = true →
      ∃ oldDeadline, p.1.toBooks.deadline k = some (some oldDeadline) ∧
        (step p.1 p.2).toBooks.deadline k = some (some newDeadline) ∧ oldDeadline < newDeadline
  /-- A refund for expiry is not paid before the deadline. -/
  expiry : ∀ p ∈ trail tokens actions, ∀ env k caller,
    p.2 = .call env (.claimExpiryRefund k caller) →
    (claimExpiryRefund env k caller p.1).isOk = true →
      ∃ deadline, p.1.toBooks.deadline k = some (some deadline) ∧ deadline ≤ env.timestamp

/-- Deadlines are measured from the one the trade was created with. -/
structure DeadlinesAnchored (tokens : Token.Ledger Address) (actions : List Action) : Prop where
  /-- The recorded origin is the deadline at creation. -/
  original : ∀ k d, (run tokens actions).originalDeadline.get k = some d →
    createdDeadline tokens actions k = some d
  /-- The deadline is within the ceiling of the one at creation. -/
  capped : ∀ k e, (run tokens actions).toBooks.deadline k = some (some e) →
    ∃ d, createdDeadline tokens actions k = some d ∧ e ≤ d + extensionPolicyCeilingSecs

/-- Deadlines stay within the policy ceilings. -/
structure DeadlinesCapped (tokens : Token.Ledger Address) (actions : List Action) : Prop
    extends ExtensionsBounded tokens actions, DeadlinesAnchored tokens actions

theorem extensionsBounded_run (tokens : Token.Ledger Address) (actions : List Action) :
    ExtensionsBounded tokens actions where
  count := by
    intro k
    induction actions using List.reverseRecOn with
    | nil => exact Nat.zero_le _
    | append_singleton actions a ih =>
      rw [run_snoc]
      exact extensionCount_step (wellFormed_run tokens actions) ih
  fixed := by
    rintro before later rfl k d h
    induction later using List.reverseRecOn with
    | nil => rwa [List.append_nil]
    | append_singleton later a ih =>
      rw [← List.append_assoc, run, Machine.run_snoc, ← run]
      exact originalDeadline_step (wellFormed_run tokens _) ih
  increases := by
    rintro ⟨s, a⟩ hp env k newDeadline rfl hok
    obtain ⟨s', hok⟩ := isOk_iff.1 hok
    have hstep : step s (.call env (.extendDeadline k newDeadline)) = s' := step_call_of_ok hok
    simp only [extendDeadline, bind_eq_ok, loadTrade_eq_ok, assert_eq_ok, expect_eq_ok,
      pure_eq_ok, exists_const] at hok
    obtain ⟨trade, stored, _, -, _, -, -, old, hold, -, -, hlater, -, -, rfl⟩ := hok
    refine ⟨old, ?_, ?_, hlater⟩
    · rw [Books.deadline, stored, Option.map_some, hold]
    · rw [hstep]
      show (Store.get (Store.set _ _ _) _).map Trade.expiresAt = _
      rw [Store.get_set_self]
      rfl
  expiry := by
    rintro ⟨s, a⟩ hp env k caller rfl hok
    obtain ⟨s', hok⟩ := isOk_iff.1 hok
    simp only [claimExpiryRefund, bind_eq_ok, loadTrade_eq_ok, assert_eq_ok, expect_eq_ok,
      exists_const] at hok
    obtain ⟨_, -, trade, stored, -, -, deadline, hdeadline, hlate, -⟩ := hok
    exact ⟨deadline, by rw [Books.deadline, stored, Option.map_some, hdeadline], hlate⟩

theorem deadlinesAnchored_of_noReissue (fresh : NoReissue tokens actions) :
    DeadlinesAnchored tokens actions where
  original := by
    intro k d h
    have hrun := consistent_run fresh k
    unfold createdDeadline
    cases hoffer : offer tokens actions k with
    | none =>
      rw [hoffer] at hrun
      cases h.symm.trans hrun.2.2
    | some o =>
      rw [hoffer] at hrun
      cases (hrun : Dated _ _ _) with
      | fresh _ _ original => cases h.symm.trans original
      | extended d₀ _ created _ _ original _ =>
        obtain rfl := Option.some.inj (h.symm.trans original)
        exact created
  capped := by
    intro k e h
    have hrun := consistent_run fresh k
    unfold createdDeadline
    cases hoffer : offer tokens actions k with
    | none =>
      rw [hoffer] at hrun
      cases h.symm.trans (Books.deadline_eq_none.2 hrun.1)
    | some o =>
      rw [hoffer] at hrun
      cases (hrun : Dated _ _ _) with
      | fresh deadline _ _ =>
        exact ⟨e, Option.some.inj (deadline.symm.trans h), Nat.le_add_right _ _⟩
      | extended d₀ e' created deadline _ _ capped =>
        obtain rfl := Option.some.inj (Option.some.inj (h.symm.trans deadline))
        exact ⟨d₀, created, capped⟩

/-- Extensions are bounded in every run, and measured from the deadline at creation in every run
that issues its identifiers once. -/
theorem deadlinesCapped_of_noReissue (tokens : Token.Ledger Address) (actions : List Action) :
    ExtensionsBounded tokens actions ∧
      (NoReissue tokens actions → DeadlinesCapped tokens actions) :=
  ⟨extensionsBounded_run tokens actions, fun fresh =>
    ⟨extensionsBounded_run tokens actions, deadlinesAnchored_of_noReissue fresh⟩⟩

namespace Sample

/-- A trade with deadline 100, extended to 200 by both parties. -/
def extended : List Action :=
  [setup, create (some 100), fund, .call ⟨10, 1, [alice, bob]⟩ (.extendDeadline first 200)]

end Sample

theorem deadlinesCapped_of_extension :
    DeadlinesCapped Sample.tokens Sample.extended ∧
      (run Sample.tokens Sample.extended).originalDeadline.get Sample.first = some 100 :=
  ⟨(deadlinesCapped_of_noReissue _ _).2 (noReissue_of_creations_le (by decide)), by decide⟩

/-- A reissued identifier comes with the origin of the trade that had it before. -/
theorem not_deadlinesCapped_at_wrap :
    ¬ DeadlinesCapped Sample.tokens
      (Sample.countUp Sample.extended (some 50) ++ [Sample.create (some 50)]) := by
  intro h
  obtain ⟨s₁, s₂, trade, hrun₁, hrun₂, hbooks₁, hkeep, -, hexpires, hbooks₂, -⟩ :=
    reissue_at_wrap Sample.tokens Sample.extended (some 50) (by decide) (by decide) (by simp)
      (by decide)
  have horiginal : s₂.originalDeadline.get Sample.first = some 100 := by
    rw [hbooks₂]
    show s₁.originalDeadline.get Sample.first = some 100
    rw [hbooks₁]
    show (run Sample.tokens Sample.extended).originalDeadline.get Sample.first = some 100
    decide
  have hcreated := h.original Sample.first 100 (by rw [hrun₂]; exact horiginal)
  have hold : s₁.toBooks.deadline Sample.first = some (some 200) := by
    rw [Books.deadline, hkeep]
    decide
  have hnew : s₂.toBooks.deadline Sample.first = some (some 50) := by
    rw [hbooks₂, Books.deadline, Store.get_set_self, Option.map_some, hexpires]
  -- The last step neither keeps the deadline 200 nor extends it to 50, so it is a creation.
  have hstep := step_deadline (wellFormed_run Sample.tokens (Sample.countUp Sample.extended
    (some 50))) (Sample.create (some 50)) Sample.first
  rw [run_snoc] at hrun₂
  rw [createdDeadline, offer_snoc] at hcreated
  rw [hrun₂] at hstep
  rw [hrun₁] at hstep hcreated
  cases hstep with
  | keep _ deadline => cases hnew.symm.trans (deadline.trans hold)
  | extend old new _ hold' hnew' later =>
    cases hold.symm.trans hold'
    cases hnew.symm.trans hnew'
    omega
  | create o hoffer _ deadline =>
    rw [hoffer] at hcreated
    cases (hnew.symm.trans deadline).trans (congrArg some hcreated)

end Runs

end Amana.Escrow
