import Amana.Escrow.MoneyFlow
import Amana.Escrow.StateMachine

/-!
# Conservation, trade by trade

What leaves a trade is read off the transfers a step logs: payments to the parties, the fee that
reaches the accrued fees, and clawbacks.  From the step that funds it on, a trade that keeps its
identifier pays out what it was funded with, exactly once (`conservesTrade_of_noReissue`).
-/

namespace Amana.Escrow

open Lib

variable {s : State} {a : Action} {k : Nat} {t : Trade}

/-- Whether an action claws back. -/
def Action.isClawback : Action → Bool
  | .call _ c => c.isClawback
  | _ => false

/-- The transfers a step logs. -/
def logged (s : State) (a : Action) : List (Token.Transfer Address) :=
  (step s a).tokens.since s.tokens

/-- What a step pays out of trade `k` to its seller and buyer. -/
def paidToParties (k : Nat) (s : State) (a : Action) : Int :=
  match s.trades.get k with
  | some t =>
    if a.subject s = some k ∧ a.isClawback = false then
      total ((logged s a).filter fun m => t.PaidBy m)
    else 0
  | none => 0

/-- What a step claws back from trade `k`. -/
def clawedBack (k : Nat) (s : State) (a : Action) : Int :=
  if a.subject s = some k ∧ a.isClawback = true then
    total ((logged s a).filter fun m => m.source = currentContract)
  else 0

/-- What a step on trade `k` adds to the accrued fees, as a difference of `i128` values. -/
def feeAdded (k : Nat) (s : State) (a : Action) : Int :=
  if a.subject s = some k then I128.sub (getAccruedFees (step s a)) (getAccruedFees s) else 0

/-- Everything that leaves trade `k` in a step. -/
def outflow (k : Nat) (s : State) (a : Action) : Int :=
  paidToParties k s a + feeAdded k s a + clawedBack k s a

/-- What a step pays out of trade `k` to the parties and to the fees. -/
def released (k : Nat) (s : State) (a : Action) : Int := paidToParties k s a + feeAdded k s a

/-- The action is a successful clawback from trade `k`. -/
def Claws (k : Nat) (s : State) : Action → Prop
  | .call env c => c.isClawback = true ∧ c.subject s = some k ∧ (invoke env s c).isOk = true
  | _ => False

instance (k : Nat) (s : State) : (a : Action) → Decidable (Claws k s a)
  | .call _ _ => inferInstanceAs (Decidable (_ ∧ _ ∧ _))
  | .transfer _ | .mint .. | .burn .. => inferInstanceAs (Decidable False)

/-! ## What leaves a trade in a step -/

theorem sub_self (x : Int) : I128.sub x x = 0 := by simp [I128.sub, I128.wrap]

theorem outflow_eq : outflow k s a = released k s a + clawedBack k s a := rfl

theorem Trade.held_of_closed (h : t.status.closed = true) : t.held = 0 := by
  apply Trade.held_of_not_live
  cases hstatus : t.status <;> rw [hstatus] at h <;> first | rfl | cases h

/-- Nothing leaves trade `k`, and its clawback total stays. -/
structure Still (s : State) (a : Action) (k : Nat) : Prop where
  released : released k s a = 0
  clawed : clawedBack k s a = 0
  totals : (step s a).clawbackTotal.get k = s.clawbackTotal.get k

/-- A step on another trade takes nothing out of this one. -/
theorem flows_of_subject_ne (h : a.subject s ≠ some k) :
    released k s a = 0 ∧ clawedBack k s a = 0 := by
  refine ⟨?_, if_neg fun e => h e.1⟩
  unfold released paidToParties feeAdded
  rw [if_neg h]
  split
  · rw [if_neg fun e => h e.1]
    rfl
  · rfl

theorem Still.of_subject_ne (h : a.subject s ≠ some k)
    (totals : (step s a).clawbackTotal.get k = s.clawbackTotal.get k) : Still s a k :=
  ⟨(flows_of_subject_ne h).1, (flows_of_subject_ne h).2, totals⟩

/-- A step without payout takes nothing out of any trade. -/
theorem Still.of_noPayout (quiet : NoPayout s (step s a).toBooks) : Still s a k := by
  have hnone : ∀ P : Token.Transfer Address → Bool, (∀ m, P m = true → m.source = currentContract) →
      (logged s a).filter P = [] := fun P hP => by
    rw [List.filter_eq_nil_iff]
    exact fun m hm h => quiet.incoming m hm (hP m h)
  have hparties : paidToParties k s a = 0 := by
    unfold paidToParties
    split
    · rw [hnone _ fun m hm => (of_decide_eq_true hm).2.1]
      exact ite_self 0
    · rfl
  have hclawed : clawedBack k s a = 0 := by
    unfold clawedBack
    rw [hnone _ fun m hm => of_decide_eq_true hm]
    exact ite_self 0
  have hfee : feeAdded k s a = 0 := by
    unfold feeAdded getAccruedFees
    rw [quiet.fees, sub_self]
    exact ite_self 0
  exact ⟨by rw [Amana.Escrow.released, hparties, hfee]; rfl, hclawed, by rw [quiet.clawbacks]⟩

/-- A payout takes the whole escrow out of the trade. -/
theorem released_of_payout {env : Env} {c : Call} {fee : Int}
    (stored : s.trades.get k = some t) (subject : c.subject s = some k)
    (mode : c.isClawback = false) (paid : ∀ m ∈ logged s (.call env c), t.PaidBy m)
    (whole : total (logged s (.call env c)) + fee = t.amount)
    (bounds : 0 ≤ fee ∧ fee ≤ I128.maxValue)
    (fees : (step s (.call env c)).accruedFees = feesWith s.accruedFees fee) :
    released k s (.call env c) = t.amount ∧ clawedBack k s (.call env c) = 0 := by
  have hparties : paidToParties k s (.call env c) = total (logged s (.call env c)) := by
    unfold paidToParties
    rw [stored]
    dsimp only
    rw [if_pos ⟨subject, mode⟩, List.filter_eq_self.2 fun m hm => decide_eq_true (paid m hm)]
  have hclawed : clawedBack k s (.call env c) = 0 := if_neg fun e => by
    cases mode.symm.trans e.2
  have hfee : feeAdded k s (.call env c) = fee := by
    unfold feeAdded getAccruedFees
    rw [if_pos (show Action.subject s (.call env c) = some k from subject), fees]
    unfold feesWith
    split
    · have := I128.minValue_eq
      exact I128.sub_add_cancel_left (by omega) bounds.2
    · rw [sub_self]
      omega
  exact ⟨by rw [released, hparties, hfee, whole], hclawed⟩

/-- A clawback takes its amount out of the trade. -/
theorem clawedBack_of_clawback {env : Env} {c : Call} {token destination : Address} {amount : Int}
    (stored : s.trades.get k = some t) (subject : c.subject s = some k)
    (mode : c.isClawback = true)
    (paid : logged s (.call env c) = [⟨token, currentContract, destination, amount⟩])
    (fees : (step s (.call env c)).accruedFees = s.accruedFees) :
    released k s (.call env c) = 0 ∧ clawedBack k s (.call env c) = amount := by
  have hparties : paidToParties k s (.call env c) = 0 := by
    unfold paidToParties
    rw [stored]
    exact if_neg fun e => by cases mode.symm.trans e.2
  have hclawed : clawedBack k s (.call env c) = amount := by
    unfold clawedBack
    rw [if_pos ⟨subject, mode⟩, paid]
    simp [total]
  have hfee : feeAdded k s (.call env c) = 0 := by
    unfold feeAdded getAccruedFees
    rw [fees, sub_self]
    exact ite_self 0
  exact ⟨by rw [released, hparties, hfee]; rfl, hclawed⟩

/-! ## One step, one trade at a time -/

/-- What a step does to the record of trade `k` and with its money. -/
inductive TradeFlow (s : State) (a : Action) (k : Nat) : Prop
  /-- The record stays. -/
  | rest (quiet : ¬ Issues k s a) (record : (step s a).trades.get k = s.trades.get k)
      (still : Still s a k)
  /-- The trade is created. -/
  | create (t' : Trade) (issues : Issues k s a) (record : (step s a).trades.get k = some t')
      (status : t'.status = .created) (still : Still s a k)
  /-- An unfunded trade is funded, dropped or waits for a path payment. -/
  | early (t t' : Trade) (quiet : ¬ Issues k s a) (stored : s.trades.get k = some t)
      (record : (step s a).trades.get k = some t') (status : t.status = .created)
      (moved : t'.status = .created ∨ t'.status ∈ TradeStatus.created.next) (still : Still s a k)
  /-- The trade goes on holding its escrow. -/
  | hold (t t' : Trade) (quiet : ¬ Issues k s a) (stored : s.trades.get k = some t)
      (record : (step s a).trades.get k = some t') (live : t.status.live = true)
      (live' : t'.status.live = true) (amount : t'.amount = t.amount) (still : Still s a k)
  /-- The trade is closed and its escrow leaves it. -/
  | payout (t t' : Trade) (quiet : ¬ Issues k s a) (stored : s.trades.get k = some t)
      (record : (step s a).trades.get k = some t') (live : t.status.live = true)
      (closed : t'.status.closed = true) (amount : t'.amount = t.amount)
      (released : released k s a = t.amount) (clawed : clawedBack k s a = 0)
      (totals : (step s a).clawbackTotal.get k = s.clawbackTotal.get k)
  /-- Part of its escrow is clawed back. -/
  | clawback (t : Trade) (amount : Int) (now : Nat) (claws : Claws k s a)
      (quiet : ¬ Issues k s a) (stored : s.trades.get k = some t)
      (record : (step s a).trades.get k = some (t.clawed amount now))
      (status : t.status = .funded ∨ t.status = .disputed) (bounds : 0 < amount ∧ amount ≤ t.amount)
      (released : released k s a = 0) (clawed : clawedBack k s a = amount)
      (totals : (step s a).clawbackTotal.get k = some (I128.add (getClawbackTotal s k) amount))

/-- The record a call writes follows the table. -/
theorem Effect.moved {env : Env} {c : Call} {b' : Books} {t' : Trade} (h : Effect env s c b')
    (subject : c.subject s = some k) (stored : s.trades.get k = some t)
    (record : b'.trades.get k = some t') :
    t'.status = t.status ∨ t'.status ∈ t.status.next := by
  cases h.record with
  | same _ trades _ =>
    rw [trades, stored] at record
    rw [Option.some.inj record]
    exact .inl rfl
  | create _ creates _ _ _ _ _ => cases (creates_of_subject subject).symm.trans creates
  | move k' t₀ t₁ trades _ subject' stored' moved =>
    obtain rfl := Option.some.inj (subject.symm.trans subject')
    obtain rfl := Option.some.inj (stored.symm.trans stored')
    rw [trades, Store.get_set_self] at record
    rw [← Option.some.inj record]
    exact moved.status

/-- Every step is one of these for every trade. -/
theorem step_flow (wf : WellFormed s.toSettings s.toBooks) (a : Action) (k : Nat) :
    TradeFlow s a k := by
  have hchange := step_change wf a
  generalize hs' : step s a = s' at hchange
  cases hchange with
  | stay failed =>
    refine .rest (not_issues_of_creates (not_creates_of_failed failed)) (by rw [hs'])
      (.of_noPayout ?_)
    rw [hs']
    exact .of_same rfl rfl rfl
  | @configure env c _ ok configures conf =>
    refine .rest (fun h => ?_) (by rw [hs', conf.books]) (.of_noPayout ?_)
    · cases (creates_of_configures configures).symm.trans h.1
    · rw [hs', conf.books]
      exact .of_same rfl rfl rfl
  | outside call _ =>
    refine .rest (not_issues_of_creates (not_creates_of_outside call)) (by rw [hs'])
      (.of_subject_ne ?_ (by rw [hs']))
    cases a with
    | call env c => exact absurd rfl (call env c)
    | transfer | mint | burn => simp [Action.subject]
  | @effect env c _ ok effect _ =>
    subst hs'
    have hok : (invoke env s c).isOk = true := by rw [ok]; rfl
    have hquiet (h : c.creates = false) : ¬ Issues k s (.call env c) := fun issues => by
      cases h.symm.trans issues.1
    -- A call on another trade leaves the record and takes nothing from it.
    have hother {k' : Nat} {t' : Trade} (hk : k ≠ k') (subject : c.subject s = some k')
        (trades : (step s (.call env c)).trades = s.trades.set k' t')
        (totals : (step s (.call env c)).clawbackTotal.get k = s.clawbackTotal.get k) :
        TradeFlow s (.call env c) k := by
      refine .rest (hquiet (creates_of_subject subject)) ?_ (.of_subject_ne (fun h => ?_) totals)
      · rw [trades, Store.get_set_ne _ _ hk]
      · exact hk (Option.some.inj (h.symm.trans subject))
    cases effect.flow wf with
    | idle trades creates _ quiet =>
      exact .rest (hquiet creates) (by rw [trades]) (.of_noPayout quiet)
    | create trade trades call tradeId status quiet =>
      by_cases hk : k = trade.tradeId
      · subst hk
        exact .create trade ⟨by rw [call]; rfl, hok, tradeId.symm⟩
          (by rw [trades, Store.get_set_self]) status (.of_noPayout quiet)
      · refine .rest (fun issues => hk ?_) ?_ (.of_noPayout quiet)
        · rw [tradeId, issues.2.2]
        · rw [trades, Store.get_set_ne _ _ hk]
    | early k' t t' trades subject stored status _ _ quiet =>
      by_cases hk : k = k'
      · subst hk
        have record : (step s (.call env c)).trades.get k = some t' := by
          rw [trades, Store.get_set_self]
        have hmoved := effect.moved subject stored record
        rw [status] at hmoved
        exact .early t t' (hquiet (creates_of_subject subject)) stored record status hmoved
          (.of_noPayout quiet)
      · exact hother hk subject trades (by rw [quiet.clawbacks])
    | hold k' t t' trades subject stored live live' amount quiet =>
      by_cases hk : k = k'
      · subst hk
        exact .hold t t' (hquiet (creates_of_subject subject)) stored
          (by rw [trades, Store.get_set_self]) live live' amount (.of_noPayout quiet)
      · exact hother hk subject trades (by rw [quiet.clawbacks])
    | payout k' t t' fee trades subject mode stored live closed amount paid whole bounds _ fees
        clawbacks =>
      by_cases hk : k = k'
      · subst hk
        have hle := (wf.trade k t stored).le
        have hflow := released_of_payout stored subject mode paid whole ⟨bounds.1, by omega⟩ fees
        exact .payout t t' (hquiet (creates_of_subject subject)) stored
          (by rw [trades, Store.get_set_self]) live closed amount hflow.1 hflow.2
          (by rw [clawbacks])
      · exact hother hk subject trades (by rw [clawbacks])
    | clawback k' t amount destination trades subject mode stored status bounds paid fees
        clawbacks =>
      by_cases hk : k = k'
      · subst hk
        have hflow := clawedBack_of_clawback stored subject mode paid fees
        exact .clawback t amount env.timestamp ⟨mode, subject, hok⟩
          (hquiet (creates_of_subject subject)) stored (by rw [trades, Store.get_set_self]) status
          bounds hflow.1 hflow.2 (by rw [clawbacks, Store.get_set_self])
      · exact hother hk subject trades (by rw [clawbacks, Store.get_set_ne _ _ hk])
    | withdraw amount destination call trades _ _ clawbacks =>
      subst call
      exact .rest (hquiet rfl) (by rw [trades])
        (.of_subject_ne (by simp [Action.subject, Call.subject]) (by rw [clawbacks]))

theorem Still.total (h : Still s a k) : getClawbackTotal (step s a) k = getClawbackTotal s k :=
  congrArg (Option.getD · 0) h.totals

theorem Still.outflow (h : Still s a k) : outflow k s a = 0 :=
  congrArg₂ (· + ·) h.released h.clawed

/-- What a step leaves in a funded trade and in its clawback total. -/
structure StepConserves (s : State) (a : Action) (k : Nat) (t t' : Trade) : Prop where
  stored : (step s a).trades.get k = some t'
  funded : t'.status ≠ .created
  flow : outflow k s a + t'.held = t.held
  clawbacks : getClawbackTotal (step s a) k + t'.amount = getClawbackTotal s k + t.amount
  nonneg : 0 ≤ getClawbackTotal (step s a) k

/-- A funded trade that keeps its identifier loses in a step what leaves it. -/
theorem step_conserves (wf : WellFormed s.toSettings s.toBooks) (fresh : ¬ Reissues s a)
    (stored : s.trades.get k = some t) (hfunded : t.status ≠ .created)
    (hpos : 0 ≤ getClawbackTotal s k)
    (hmax : getClawbackTotal s k + t.amount ≤ I128.maxValue) :
    ∃ t', StepConserves s a k t t' := by
  cases step_flow wf a k with
  | rest _ record still =>
    have hflow := still.outflow
    have htotal := still.total
    exact ⟨t, record.trans stored, hfunded, by omega, by omega, by omega⟩
  | create _ issues _ _ _ => cases (NoReissue.not_stored fresh issues).symm.trans stored
  | early t₀ _ _ stored₀ _ status _ _ =>
    obtain rfl := Option.some.inj (stored.symm.trans stored₀)
    exact absurd status hfunded
  | hold t₀ t' _ stored₀ record live live' amount still =>
    obtain rfl := Option.some.inj (stored.symm.trans stored₀)
    have hflow := still.outflow
    have htotal := still.total
    refine ⟨t', record, fun e => ?_, ?_, by omega, by omega⟩
    · rw [e] at live'
      cases live'
    · rw [Trade.held_of_live live', Trade.held_of_live live]
      omega
  | payout t₀ t' _ stored₀ record live closed amount released clawed totals =>
    obtain rfl := Option.some.inj (stored.symm.trans stored₀)
    have htotal : getClawbackTotal (step s a) k = getClawbackTotal s k :=
      congrArg (Option.getD · 0) totals
    refine ⟨t', record, fun e => ?_, ?_, by omega, by omega⟩
    · rw [e] at closed
      cases closed
    · rw [Trade.held_of_live live, Trade.held_of_closed closed, outflow_eq, released, clawed]
      omega
  | clawback t₀ amount now _ _ stored₀ record status bounds released clawed totals =>
    obtain rfl := Option.some.inj (stored.symm.trans stored₀)
    have htotal : getClawbackTotal (step s a) k = getClawbackTotal s k + amount := by
      have hmin := I128.minValue_eq
      rw [← I128.add_of_mem (by omega) (by omega)]
      exact congrArg (Option.getD · 0) totals
    have hamount : (t.clawed amount now).amount = t.amount - amount := rfl
    refine ⟨_, record, Trade.clawed_not_created status, ?_, by omega, by omega⟩
    rw [Trade.held_clawed _ status, outflow_eq, released, clawed]
    omega

/-! ## Clawback totals -/

/-- No clawback total without funding, and none that an `i128` cannot hold with the amount left. -/
structure ClawbackBounds (b : Books) : Prop where
  unfunded : ∀ k, (∀ t, b.trades.get k = some t → t.status = .created) →
    b.clawbackTotal.get k = none
  bounded : ∀ k t, b.trades.get k = some t → 0 ≤ (b.clawbackTotal.get k).getD 0 ∧
    (b.clawbackTotal.get k).getD 0 + t.amount ≤ I128.maxValue

theorem clawbackBounds_step (wf : WellFormed s.toSettings s.toBooks) (fresh : ¬ Reissues s a)
    (h : ClawbackBounds s.toBooks) : ClawbackBounds (step s a).toBooks := by
  have wf' := wellFormed_step wf a
  -- The total of a trade that was never funded.
  have hnone {k : Nat} {t' : Trade} (hunfunded : ∀ t, s.trades.get k = some t → t.status = .created)
      (still : Still s a k) (record : (step s a).trades.get k = some t') :
      (step s a).clawbackTotal.get k = none ∧ 0 + t'.amount ≤ I128.maxValue := by
    have hle := (wf'.trade k t' record).le
    exact ⟨still.totals.trans (h.unfunded k hunfunded), by omega⟩
  constructor
  · intro k hunfunded
    cases step_flow wf a k with
    | rest _ record still =>
      exact still.totals.trans (h.unfunded k (record ▸ hunfunded))
    | create t' issues record _ still =>
      refine (hnone (fun t ht => ?_) still record).1
      cases (NoReissue.not_stored fresh issues).symm.trans ht
    | early t t' _ stored record status _ still =>
      refine (hnone (fun t₀ ht => ?_) still record).1
      obtain rfl := Option.some.inj (stored.symm.trans ht)
      exact status
    | hold _ t' _ _ record _ live' _ _ =>
      rw [hunfunded t' record] at live'
      cases live'
    | payout _ t' _ _ record _ closed _ _ _ _ =>
      rw [hunfunded t' record] at closed
      cases closed
    | clawback t amount now _ _ _ record status _ _ _ _ =>
      exact absurd (hunfunded _ record) (Trade.clawed_not_created status)
  · intro k t₁ stored₁
    cases step_flow wf a k with
    | rest _ record still =>
      rw [still.totals]
      exact h.bounded k t₁ (record.symm.trans stored₁)
    | create t' issues record _ still =>
      have hboth := hnone (fun t ht => (by cases (NoReissue.not_stored fresh issues).symm.trans ht))
        still stored₁
      rw [hboth.1]
      exact ⟨le_rfl, hboth.2⟩
    | early t t' _ stored record status _ still =>
      have hboth := hnone (fun t₀ ht => by
        obtain rfl := Option.some.inj (stored.symm.trans ht)
        exact status) still stored₁
      rw [hboth.1]
      exact ⟨le_rfl, hboth.2⟩
    | hold t t' _ stored record _ _ amount still =>
      obtain rfl := Option.some.inj (record.symm.trans stored₁)
      rw [still.totals, amount]
      exact h.bounded k t stored
    | payout t t' _ stored record _ _ amount _ _ totals =>
      obtain rfl := Option.some.inj (record.symm.trans stored₁)
      rw [totals, amount]
      exact h.bounded k t stored
    | clawback t amount now _ _ stored record _ bounds _ _ totals =>
      obtain rfl := Option.some.inj (record.symm.trans stored₁)
      obtain ⟨hpos, hmax⟩ := h.bounded k t stored
      have hmin := I128.minValue_eq
      have hamount : (t.clawed amount now).amount = t.amount - amount := rfl
      have hadd : I128.add (getClawbackTotal s k) amount = getClawbackTotal s k + amount := by
        unfold getClawbackTotal
        exact I128.add_of_mem (by omega) (by omega)
      rw [totals, hadd, Option.getD_some, hamount]
      unfold getClawbackTotal
      omega

theorem clawbackBounds_run {tokens : Token.Ledger Address} {actions : List Action}
    (fresh : NoReissue tokens actions) : ClawbackBounds (run tokens actions).toBooks := by
  have hboth := Machine.run_invariant step
    (P := fun s => WellFormed s.toSettings s.toBooks ∧ ClawbackBounds s.toBooks)
    ⟨wellFormed_deployed tokens, fun _ _ => rfl, fun _ _ ht => by cases ht⟩
    fun p hp hkeep =>
      ⟨wellFormed_step hkeep.1 p.2, clawbackBounds_step hkeep.1 (fresh p hp) hkeep.2⟩
  exact hboth.2

/-! ## Whole runs -/

variable {tokens : Token.Ledger Address} {before later : List Action} {fund : Action}
  {amount : Int}

/-- Trade `k` is unfunded: it does not exist or is only created. -/
def Unfunded (s : State) (k : Nat) : Prop := ∀ t, s.trades.get k = some t → t.status = .created

/-- A step takes nothing out of an unfunded trade and leaves its clawback total alone. -/
theorem step_unfunded (wf : WellFormed s.toSettings s.toBooks) (h : Unfunded s k) :
    Still s a k := by
  cases step_flow wf a k with
  | rest _ _ still | create _ _ _ _ still | early _ _ _ _ _ _ _ still
  | hold _ _ _ _ _ _ _ _ still => exact still
  | payout t _ _ stored _ live _ _ _ _ _ =>
    rw [h t stored] at live
    cases live
  | clawback t _ _ _ _ stored _ status _ _ _ _ =>
    rw [h t stored] at status
    rcases status with e | e <;> cases e

/-- A trade that is unfunded after a step was unfunded before it. -/
theorem unfunded_of_step (wf : WellFormed s.toSettings s.toBooks) (fresh : ¬ Reissues s a)
    (h : Unfunded (step s a) k) : Unfunded s k := by
  intro t stored
  obtain ⟨t', hget, hmove⟩ := step_record wf (fun issues => fresh (issues.reissues stored)) stored
  have hcreated := h t' hget
  rcases hmove with rfl | ⟨_, _, _, _, moved⟩
  · exact hcreated
  · rcases moved.status with e | hnext
    · exact e.symm.trans hcreated
    · rw [hcreated] at hnext
      cases hstatus : t.status <;> rw [hstatus] at hnext <;> simp [TradeStatus.next] at hnext

theorem tally_of_unfunded {actions : List Action} (fresh : NoReissue tokens actions)
    (h : Unfunded (run tokens actions) k) :
    Machine.tally step (outflow k) (.deployed tokens) actions = 0 := by
  induction actions using List.reverseRecOn with
  | nil => rfl
  | append_singleton actions a ih =>
    have wf := wellFormed_run tokens actions
    rw [run_snoc] at h
    have hbefore := unfunded_of_step wf fresh.last h
    rw [Machine.tally_snoc, ih fresh.of_append hbefore, ← run, (step_unfunded wf hbefore).outflow]
    rfl

/-- After the actions `before`, the action `fund` funds trade `k` with `amount`. -/
structure Funds (tokens : Token.Ledger Address) (before : List Action) (fund : Action) (k : Nat)
    (amount : Int) : Prop where
  created : ∃ t, (run tokens before).trades.get k = some t ∧ t.status = .created
  funded : ∃ t, (run tokens (before ++ [fund])).trades.get k = some t ∧ t.status = .funded ∧
    t.amount = amount

theorem Funds.unfunded (h : Funds tokens before fund k amount) :
    Unfunded (run tokens before) k := by
  intro t ht
  obtain ⟨t', stored, status⟩ := h.created
  obtain rfl := Option.some.inj (stored.symm.trans ht)
  exact status

/-- What a run keeps of a trade that was funded with `amount`. -/
structure ConservesTrade (tokens : Token.Ledger Address) (before : List Action) (fund : Action)
    (later : List Action) (k : Nat) (amount : Int) : Prop where
  /-- Payments to the parties, fees, clawbacks and the escrow still held add up to the amount. -/
  whole : ∃ t, (run tokens (before ++ fund :: later)).trades.get k = some t ∧
    Machine.tally step (paidToParties k) (.deployed tokens) (before ++ fund :: later) +
      Machine.tally step (feeAdded k) (.deployed tokens) (before ++ fund :: later) +
      Machine.tally step (clawedBack k) (.deployed tokens) (before ++ fund :: later) +
      t.held = amount
  /-- The clawback total and the amount on record add up to the amount funded. -/
  clawbacks : ∃ t, (run tokens (before ++ fund :: later)).trades.get k = some t ∧
    getClawbackTotal (run tokens (before ++ fund :: later)) k + t.amount = amount
  /-- A step on the trade after it is closed pays nothing out and accrues no fee. -/
  once : ∀ p ∈ trail tokens (before ++ fund :: later), ∀ t, p.1.trades.get k = some t →
    t.status.closed = true → p.2.subject p.1 = some k →
      (∀ m ∈ logged p.1 p.2, m.source ≠ currentContract) ∧
        (step p.1 p.2).accruedFees = p.1.accruedFees

/-- The run from the funding step on. -/
theorem run_conserves (h : Funds tokens before fund k amount)
    (fresh : NoReissue tokens (before ++ fund :: later)) :
    ∃ t, (run tokens (before ++ fund :: later)).trades.get k = some t ∧ t.status ≠ .created ∧
      Machine.tally step (outflow k) (.deployed tokens) (before ++ fund :: later) + t.held =
        amount ∧
      0 ≤ getClawbackTotal (run tokens (before ++ fund :: later)) k ∧
      getClawbackTotal (run tokens (before ++ fund :: later)) k + t.amount = amount := by
  induction later using List.reverseRecOn with
  | nil =>
    have wf := wellFormed_run tokens before
    obtain ⟨t, stored, status, hamount⟩ := h.funded
    have still := step_unfunded (a := fund) wf h.unfunded
    have hnone := (clawbackBounds_run fresh.of_append).unfunded k h.unfunded
    have htotal : getClawbackTotal (run tokens (before ++ [fund])) k = 0 := by
      rw [run_snoc, still.total, getClawbackTotal, hnone]
      rfl
    have htally : Machine.tally step (outflow k) (.deployed tokens) (before ++ [fund]) = 0 := by
      rw [Machine.tally_snoc, tally_of_unfunded fresh.of_append h.unfunded, ← run, still.outflow]
      rfl
    have hheld : t.held = t.amount := Trade.held_of_live (by rw [status]; rfl)
    refine ⟨t, stored, by simp [status], ?_, htotal.ge, ?_⟩
    · rw [htally]
      omega
    · rw [htotal]
      omega
  | append_singleton later a ih =>
    have happ : before ++ fund :: (later ++ [a]) = before ++ fund :: later ++ [a] := by simp
    rw [happ] at fresh ⊢
    obtain ⟨t, stored, hfunded, hwhole, hpos, hclaw⟩ := ih fresh.of_append
    have wf := wellFormed_run tokens (before ++ fund :: later)
    have hbounds := (clawbackBounds_run fresh.of_append).bounded k t stored
    obtain ⟨t', hstep⟩ := step_conserves wf fresh.last stored hfunded hpos hbounds.2
    have hflow := hstep.flow
    have hclaw' := hstep.clawbacks
    rw [run_snoc, Machine.tally_snoc, ← run]
    exact ⟨t', hstep.stored, hstep.funded, by omega, hstep.nonneg, by omega⟩

/-- A call on a closed trade moves none of the contract's money. -/
theorem step_closed (wf : WellFormed s.toSettings s.toBooks) (stored : s.trades.get k = some t)
    (hclosed : t.status.closed = true) (hsubject : a.subject s = some k) :
    (∀ m ∈ logged s a, m.source ≠ currentContract) ∧ (step s a).accruedFees = s.accruedFees := by
  have hchange := step_change wf a
  unfold logged
  generalize step s a = s' at hchange
  have hquiet (quiet : NoPayout s s'.toBooks) :
      (∀ m ∈ s'.tokens.since s.tokens, m.source ≠ currentContract) ∧
        s'.accruedFees = s.accruedFees := ⟨quiet.incoming, quiet.fees⟩
  cases hchange with
  | stay _ => exact hquiet (.of_same rfl rfl rfl)
  | configure _ _ conf => exact hquiet (by rw [conf.books]; exact .of_same rfl rfl rfl)
  | outside call _ =>
    cases a with
    | call env c => exact absurd rfl (call env c)
    | transfer | mint | burn => cases hsubject
  | @effect env c _ _ effect _ =>
    cases effect.flow wf with
    | idle _ _ _ quiet | create _ _ _ _ _ quiet | early _ _ _ _ _ _ _ _ _ quiet
    | hold _ _ _ _ _ _ _ _ _ quiet => exact hquiet quiet
    | payout k' t' _ _ _ subject _ stored' live _ _ _ _ _ _ _ _ =>
      obtain rfl := Option.some.inj (hsubject.symm.trans subject)
      obtain rfl := Option.some.inj (stored.symm.trans stored')
      cases hstatus : t.status <;> simp_all [TradeStatus.closed, TradeStatus.live]
    | clawback k' t' _ _ _ subject _ stored' status _ _ _ _ =>
      obtain rfl := Option.some.inj (hsubject.symm.trans subject)
      obtain rfl := Option.some.inj (stored.symm.trans stored')
      rcases status with e | e <;> rw [e] at hclosed <;> cases hclosed
    | withdraw _ _ call _ _ _ _ =>
      subst call
      cases hsubject

/-- Over a run that issues every identifier once, each funded trade pays out what it was funded
with, once. -/
theorem conservesTrade_of_noReissue (h : Funds tokens before fund k amount)
    (fresh : NoReissue tokens (before ++ fund :: later)) :
    ConservesTrade tokens before fund later k amount := by
  obtain ⟨t, stored, -, hwhole, -, hclaw⟩ := run_conserves h fresh
  refine ⟨⟨t, stored, ?_⟩, ⟨t, stored, hclaw⟩, ?_⟩
  · rw [← hwhole, ← Machine.tally_add, ← Machine.tally_add]
    rfl
  · rintro ⟨s, a⟩ hp t stored hclosed hsubject
    obtain ⟨_, _, _, rfl⟩ := Machine.exists_append_of_mem_trail step hp
    exact step_closed (wellFormed_run tokens _) stored hclosed hsubject

theorem Sample.funds :
    Funds Sample.tokens [Sample.setup, Sample.create none] Sample.fund Sample.first 100 := by
  refine ⟨Option.map_eq_some_iff.1 (by decide), ?_⟩
  obtain ⟨t, stored, hboth⟩ : ∃ t, (run Sample.tokens
      ([Sample.setup, Sample.create none] ++ [Sample.fund])).trades.get Sample.first = some t ∧
        (t.status, t.amount) = (.funded, 100) := Option.map_eq_some_iff.1 (by decide)
  exact ⟨t, stored, (Prod.mk.inj hboth).1, (Prod.mk.inj hboth).2⟩

theorem conservesTrade_of_clawback_and_release :
    ConservesTrade Sample.tokens [Sample.setup, Sample.create none] Sample.fund
      [Sample.call 4 Sample.admin (.adminClawback Sample.first 30 Sample.carol),
        Sample.call 5 Sample.alice (.confirmDelivery Sample.first),
        Sample.call 6 Sample.alice (.releaseFunds Sample.first Sample.alice)] Sample.first 100 :=
  conservesTrade_of_noReissue Sample.funds (noReissue_of_creations_le (by decide))

/-- A funded trade is overwritten when its identifier is issued again, and its escrow is left with
no trade to leave by. -/
theorem not_conservesTrade_at_wrap :
    Funds Sample.tokens [Sample.setup, Sample.create none] Sample.fund Sample.first 100 ∧
      ¬ ConservesTrade Sample.tokens [Sample.setup, Sample.create none] Sample.fund
        (List.replicate (2 ^ 32 - 1) (Sample.create none) ++ [Sample.create none]) Sample.first
        100 := by
  refine ⟨Sample.funds, fun h => ?_⟩
  obtain ⟨t, stored, hwhole⟩ := h.whole
  obtain ⟨s₁, s₂, trade, -, hrun, -, -, hcreated, -, hbooks, -⟩ :=
    reissue_at_wrap Sample.tokens Sample.funded none (by decide) (by decide) (by simp) (by decide)
  have hsplit : [Sample.setup, Sample.create none] ++ Sample.fund ::
      (List.replicate (2 ^ 32 - 1) (Sample.create none) ++ [Sample.create none]) =
        Sample.countUp Sample.funded none ++ [Sample.create none] := by
    rw [Sample.countUp, List.append_assoc]
    rfl
  rw [hsplit] at stored hwhole
  rw [hrun, hbooks, Store.get_set_self] at stored
  obtain rfl := Option.some.inj stored
  have hzero : Machine.tally step (outflow Sample.first) (.deployed Sample.tokens)
      (Sample.countUp Sample.funded none ++ [Sample.create none]) = 0 := by
    have hstart : Machine.tally step (outflow Sample.first) (.deployed Sample.tokens)
        Sample.funded = 0 := by decide
    rw [Sample.countUp, List.append_assoc, Machine.tally_append, hstart, zero_add]
    refine Machine.tally_eq_zero step (fun s a ha => ?_) _
    obtain rfl : a = Sample.create none :=
      (List.mem_append.1 ha).elim List.eq_of_mem_replicate List.mem_singleton.1
    have hflows : released Sample.first s (Sample.create none) = 0 ∧
        clawedBack Sample.first s (Sample.create none) = 0 :=
      flows_of_subject_ne (by simp [Action.subject, Sample.create, Sample.call, Call.subject])
    rw [outflow_eq, hflows.1, hflows.2]
    rfl
  rw [← Machine.tally_add, ← Machine.tally_add,
    show (fun s a => paidToParties Sample.first s a + feeAdded Sample.first s a +
      clawedBack Sample.first s a) = outflow Sample.first from rfl, hzero,
    Trade.held_of_not_live (by rw [hcreated]; rfl)] at hwhole
  cases hwhole

end Amana.Escrow
