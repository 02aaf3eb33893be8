import Amana.Escrow.MoneyFlow
import Amana.Escrow.Offers

/-!
# The agreed price

`agreedAmount` is the price of a trade: the amount given to the `create_trade` call that issued its
identifier.  A direct deposit funds a trade with that amount.  A path payment funds it with
whatever arrived, and checks that only against the buyer's `dest_min`, so the price is safe as long
as no path payment is finalized whose `dest_min` is below it (`fundsAgreed_of_namesPrice`).
-/

namespace Amana.Escrow

open Lib

variable {env : Env} {s s' : State} {a : Action} {c : Call} {k : Nat} {t t' : Trade}
  {tokens : Token.Ledger Address} {actions : List Action}

/-- The amount agreed for trade `k`: that of the last `create_trade` that issued the identifier. -/
def agreedAmount (tokens : Token.Ledger Address) (actions : List Action) (k : Nat) : Option Int :=
  (offer tokens actions k).map Offer.amount

/-- Every step that funds a trade records at least the agreed amount. -/
def FundsAgreed (tokens : Token.Ledger Address) (actions : List Action) : Prop :=
  ∀ before fund later, actions = before ++ fund :: later → ∀ k t t',
    (run tokens before).trades.get k = some t → t.status = .created →
    (run tokens (before ++ [fund])).trades.get k = some t' → t'.status = .funded →
      ∃ agreed, agreedAmount tokens before k = some agreed ∧ agreed ≤ t'.amount

/-- If the action finalizes a path payment, its `dest_min` is at least the trade's amount. -/
def NamesPrice (s : State) : Action → Prop
  | .call env (.finalizePathPayment k caller) =>
    (finalizePathPayment env k caller s).isOk = true → ∀ intent ∈ s.pathPaymentIntent.get k,
      ∀ trade ∈ s.trades.get k, trade.amount ≤ intent.destMin
  | _ => True

instance (s : State) (a : Action) : Decidable (NamesPrice s a) := by
  unfold NamesPrice
  split <;> infer_instance

/-- How a call left trade `k` with the record `t'`. -/
inductive Priced (env : Env) (s : State) (c : Call) (k : Nat) (t' : Trade) : Prop
  /-- The record was there before. -/
  | same (offer : offered k s (.call env c) = none) (stored : s.trades.get k = some t')
  /-- The trade was just created. -/
  | created (offer : offered k s (.call env c) = some ⟨t'.amount, t'.expiresAt⟩)
      (status : t'.status = .created)
  /-- The record of an unfunded trade was replaced, at its price or by a path payment. -/
  | early (t : Trade) (offer : offered k s (.call env c) = none)
      (stored : s.trades.get k = some t) (status : t.status = .created)
      (price : t'.amount = t.amount ∨ t'.status = .funded ∧
        ∃ caller intent, c = .finalizePathPayment k caller ∧
          s.pathPaymentIntent.get k = some intent ∧ intent.destMin ≤ t'.amount)
  /-- The record of a funded trade was replaced. -/
  | late (t : Trade) (stored : s.trades.get k = some t) (live : t.status.live = true)
      (status : t'.status ≠ .created)

theorem Flow.priced {b' : Books} (h : Flow env s c b') (ok : invoke env s c = .ok s')
    (stored' : b'.trades.get k = some t') : Priced env s c k t' := by
  cases h with
  | idle trades creates _ _ => exact .same (offered_of_not_creates creates) (trades ▸ stored')
  | withdraw _ _ call trades _ _ _ =>
    exact .same (offered_of_not_creates (by rw [call]; rfl)) (trades ▸ stored')
  | create trade trades call tradeId status _ =>
    subst call
    have hoffer := offered_of_create (k := k) ok
    rw [← tradeId] at hoffer
    rw [trades] at stored'
    obtain ⟨hk, rfl⟩ | ⟨hk, stored⟩ := Store.get_set_cases stored'
    · rw [if_pos hk] at hoffer
      exact .created hoffer status
    · rw [if_neg hk] at hoffer
      exact .same hoffer stored
  | early k' t₀ t₁ trades subject stored₀ status _ price _ =>
    have hquiet : offered k s (.call env c) = none :=
      offered_of_not_creates (creates_of_subject subject)
    rw [trades] at stored'
    obtain ⟨rfl, rfl⟩ | ⟨-, stored⟩ := Store.get_set_cases stored'
    · exact .early t₀ hquiet stored₀ status price
    · exact .same hquiet stored
  | hold k' t₀ t₁ trades subject stored₀ live live' _ _ =>
    rw [trades] at stored'
    obtain ⟨rfl, rfl⟩ | ⟨-, stored⟩ := Store.get_set_cases stored'
    · refine .late t₀ stored₀ live fun hcreated => ?_
      rw [hcreated] at live'
      cases live'
    · exact .same (offered_of_not_creates (creates_of_subject subject)) stored
  | payout k' t₀ t₁ _ trades subject _ stored₀ live closed _ _ _ _ _ _ _ =>
    rw [trades] at stored'
    obtain ⟨rfl, rfl⟩ | ⟨-, stored⟩ := Store.get_set_cases stored'
    · refine .late t₀ stored₀ live fun hcreated => ?_
      rw [hcreated] at closed
      cases closed
    · exact .same (offered_of_not_creates (creates_of_subject subject)) stored
  | clawback k' t₀ amount _ trades subject _ stored₀ status _ _ _ _ =>
    rw [trades] at stored'
    obtain ⟨rfl, rfl⟩ | ⟨-, stored⟩ := Store.get_set_cases stored'
    · refine .late t₀ stored₀ ?_ (Trade.clawed_not_created status)
      rcases status with e | e <;> rw [e] <;> rfl
    · exact .same (offered_of_not_creates (creates_of_subject subject)) stored

/-- A trade that is `Created` after a step was just created or was so before, at the same price. -/
theorem created_of_step (wf : WellFormed s.toSettings s.toBooks)
    (stored' : (step s a).trades.get k = some t') (hcreated : t'.status = .created) :
    offered k s a = some ⟨t'.amount, t'.expiresAt⟩ ∨
      offered k s a = none ∧
        ∃ t, s.trades.get k = some t ∧ t.status = .created ∧ t.amount = t'.amount := by
  have hchange := step_change wf a
  generalize step s a = s' at hchange stored'
  cases hchange with
  | stay failed => exact .inr ⟨offered_of_failed failed, t', stored', hcreated, rfl⟩
  | configure _ configures conf =>
    rw [conf.books] at stored'
    exact .inr ⟨offered_of_not_creates (creates_of_configures configures), t', stored', hcreated,
      rfl⟩
  | outside call _ => exact .inr ⟨offered_of_not_call call, t', stored', hcreated, rfl⟩
  | effect ok effect _ =>
    cases (effect.flow wf).priced ok stored' with
    | same offer stored => exact .inr ⟨offer, t', stored, hcreated, rfl⟩
    | created offer _ => exact .inl offer
    | early t offer stored status price =>
      rcases price with hprice | ⟨hfunded, -⟩
      · exact .inr ⟨offer, t, stored, status, hprice.symm⟩
      · cases hcreated.symm.trans hfunded
    | late _ _ _ status => exact absurd hcreated status

/-- The record of a `Created` trade carries the agreed amount. -/
theorem agreedAmount_of_created (stored : (run tokens actions).trades.get k = some t)
    (hcreated : t.status = .created) : agreedAmount tokens actions k = some t.amount := by
  induction actions using List.reverseRecOn generalizing t with
  | nil => cases stored
  | append_singleton actions a ih =>
    rw [run_snoc] at stored
    rw [agreedAmount, offer_snoc]
    rcases created_of_step (wellFormed_run tokens actions) stored hcreated with
      hnew | ⟨hnone, t₀, stored₀, hcreated₀, hprice⟩
    · rw [hnew]
      rfl
    · rw [hnone, Option.none_or, ← agreedAmount, ih stored₀ hcreated₀, hprice]

/-- A step that funds a trade records at least its price, if a finalized path payment names it. -/
theorem funding_step (wf : WellFormed s.toSettings s.toBooks) (hprice : NamesPrice s a)
    (stored : s.trades.get k = some t) (hcreated : t.status = .created)
    (stored' : (step s a).trades.get k = some t') (hfunded : t'.status = .funded) :
    t.amount ≤ t'.amount := by
  -- Where the record stays, it is not funded by the step.
  have hsame : s.trades.get k ≠ some t' := by
    intro h
    obtain rfl := Option.some.inj (stored.symm.trans h)
    cases hcreated.symm.trans hfunded
  have hchange := step_change wf a
  generalize step s a = s' at hchange stored'
  cases hchange with
  | stay _ => exact absurd stored' hsame
  | configure _ _ conf =>
    rw [conf.books] at stored'
    exact absurd stored' hsame
  | outside _ _ => exact absurd stored' hsame
  | @effect env c _ ok effect _ =>
    cases (effect.flow wf).priced ok stored' with
    | same _ stored₀ => exact absurd stored₀ hsame
    | created _ status => cases status.symm.trans hfunded
    | early t₀ _ stored₀ _ price =>
      obtain rfl := Option.some.inj (stored.symm.trans stored₀)
      rcases price with hequal | ⟨-, caller, intent, rfl, pending, henough⟩
      · exact hequal.ge
      · have hok : (finalizePathPayment env k caller s).isOk = true := by
          rw [show finalizePathPayment env k caller s = .ok s' from ok]
          rfl
        exact (hprice hok intent pending t stored).trans henough
    | late t₀ stored₀ live _ =>
      obtain rfl := Option.some.inj (stored.symm.trans stored₀)
      rw [hcreated] at live
      cases live

/-- A run in which every finalized path payment names at least the trade's amount never funds a
trade below the agreed amount. -/
theorem fundsAgreed_of_namesPrice (h : ∀ p ∈ trail tokens actions, NamesPrice p.1 p.2) :
    FundsAgreed tokens actions := by
  rintro before fund later rfl k t t' stored hcreated stored' hfunded
  have hprice := h _ (Machine.mem_trail_append step _ before later fund)
  rw [run_snoc] at stored'
  exact ⟨t.amount, agreedAmount_of_created stored hcreated,
    funding_step (wellFormed_run tokens before) hprice stored hcreated stored' hfunded⟩

/-- Alice opens a path payment that accepts `destMin`, and `output` arrives. -/
def Sample.converting (destMin output : Int) : List Action :=
  [Sample.setup, Sample.create none,
    Sample.call 3 Sample.alice (.depositWithPath Sample.first Sample.alice 50 destMin []),
    .transfer ⟨Sample.cngn, Sample.carol, currentContract, output⟩]

/-- Alice finalizes the path payment. -/
def Sample.finalize : Action :=
  Sample.call 4 Sample.alice (.finalizePathPayment Sample.first Sample.alice)

theorem fundsAgreed_of_min_100 :
    FundsAgreed Sample.tokens (Sample.converting 100 120 ++ [Sample.finalize]) :=
  fundsAgreed_of_namesPrice (by decide)

/-- A path payment that accepts a single token funds a trade of 100 with it. -/
theorem not_fundsAgreed_of_min_1 :
    ¬ FundsAgreed Sample.tokens (Sample.converting 1 1 ++ [Sample.finalize]) := by
  intro h
  obtain ⟨t, stored, hcreated⟩ : ∃ t, (run Sample.tokens (Sample.converting 1 1)).trades.get
      Sample.first = some t ∧ t.status = .created := Option.map_eq_some_iff.1 (by decide)
  obtain ⟨t', stored', hboth⟩ : ∃ t', (run Sample.tokens (Sample.converting 1 1 ++
      [Sample.finalize])).trades.get Sample.first = some t' ∧
        (t'.status, t'.amount) = (.funded, 1) := Option.map_eq_some_iff.1 (by decide)
  obtain ⟨hfunded, hamount⟩ := Prod.mk.inj hboth
  obtain ⟨agreed, hagreed, hle⟩ := h _ _ _ rfl _ _ _ stored hcreated stored' hfunded
  have hprice : agreedAmount Sample.tokens (Sample.converting 1 1) Sample.first = some 100 := by
    decide
  obtain rfl := Option.some.inj (hprice.symm.trans hagreed)
  omega

end Amana.Escrow
