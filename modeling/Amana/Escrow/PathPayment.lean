import Amana.Escrow.Records

/-!
# Path payments

A path payment is a two-step protocol: `deposit_with_path` takes the buyer's source tokens and
leaves a pending intent, `finalize_path_payment` consumes it.  A pending intent should belong to a
trade that can still be finalized.  Three calls leave the status `Created` without looking for an
intent, and a run keeps the promise exactly when none of them meets one
(`intentsPending_iff_not_strands`).
-/

namespace Amana.Escrow

open Lib

variable {env : Env} {s s' : State} {c : Call} {a : Action} {k : Nat}
  {tokens : Token.Ledger Address} {actions : List Action}

/-- A pending intent belongs to a trade that is still `Created`. -/
def IntentsPending (b : Books) : Prop :=
  ∀ k intent, b.pathPaymentIntent.get k = some intent →
    ∃ t, b.trades.get k = some t ∧ t.status = .created

/-- The trade a call funds or cancels without consuming an intent. -/
def Call.leaves : Call → Option Nat
  | .deposit t => some t
  | .cancelTrade t _ => some t
  | .cancelByBuyer t => some t
  | _ => none

/-- Whether an action funds or cancels a trade that has a pending intent. -/
def Strands (s : State) : Action → Prop
  | .call env c =>
    (invoke env s c).isOk = true ∧ ∃ t, c.leaves = some t ∧ (s.pathPaymentIntent.get t).isSome
  | _ => False

section

variable {b b' : Books} {t t' : Trade}

theorem IntentsPending.none_of_status (h : IntentsPending b) (stored : b.trades.get k = some t)
    (hstatus : t.status ≠ .created) : b.pathPaymentIntent.get k = none := by
  by_contra hne
  obtain ⟨intent, hintent⟩ := Option.ne_none_iff_exists'.1 hne
  obtain ⟨t', stored', hcreated⟩ := h k intent hintent
  obtain rfl := Option.some.inj (stored.symm.trans stored')
  exact hstatus hcreated

/-- Writing a record that is `Created`, or has no intent. -/
theorem IntentsPending.of_set (h : IntentsPending b)
    (hintents : b'.pathPaymentIntent = b.pathPaymentIntent)
    (htrades : b'.trades = b.trades.set k t')
    (hrecord : t'.status = .created ∨ b.pathPaymentIntent.get k = none) : IntentsPending b' := by
  intro k' intent hintent
  rw [hintents] at hintent
  rw [htrades]
  by_cases hk : k' = k
  · subst hk
    rcases hrecord with hcreated | hnone
    · exact ⟨t', Store.get_set_self .., hcreated⟩
    · cases hnone.symm.trans hintent
  · rw [Store.get_set_ne _ _ hk]
    exact h k' intent hintent

end

theorem leaves_of_drop (route : c.Drops k) : c.leaves = some k := by
  rcases route with ⟨_, rfl⟩ | rfl <;> rfl

/-- A call that strands no intent keeps the intents on trades that are still `Created`. -/
theorem Effect.intentsPending {b' : Books} (effect : Effect env s c b')
    (h : IntentsPending s.toBooks)
    (hleaves : ∀ t, c.leaves = some t → s.pathPaymentIntent.get t = none) :
    IntentsPending b' := by
  cases effect with
  | idle _ => exact h
  | withdraw _ _ _ => exact h
  | create _ _ status _ _ _ _ _ _ _ _ => exact h.of_set rfl rfl (.inl status)
  | deposit _ _ _ => exact h.of_set rfl rfl (.inr (hleaves _ rfl))
  | drop route _ _ => exact h.of_set rfl rfl (.inr (hleaves _ (leaves_of_drop route)))
  | @openPath t trade _ _ _ _ _ stored status _ _ _ =>
    intro k intent hintent
    by_cases hk : k = t
    · subst hk
      exact ⟨_, Store.get_set_self .., status⟩
    · dsimp only at hintent ⊢
      rw [Store.get_set_ne _ _ hk] at hintent ⊢
      exact h k intent hintent
  | @finalizePath t _ trade _ _ _ _ _ _ =>
    intro k intent hintent
    by_cases hk : k = t
    · subst hk
      cases (Store.get_erase_self ..).symm.trans hintent
    · dsimp only at hintent ⊢
      rw [Store.get_erase_ne _ hk] at hintent
      rw [Store.get_set_ne _ _ hk]
      exact h k intent hintent
  | request stored status | extend stored status _ _ _ _ _ | deliver stored status
  | dispute stored status | release stored status _ _ | settle _ stored status _ _ _ _ =>
    exact h.of_set rfl rfl (.inr (h.none_of_status stored (by simp [status])))
  | refund _ stored status _ | claw _ stored status _ _ =>
    refine h.of_set rfl rfl (.inr (h.none_of_status stored fun e => ?_))
    rw [e] at status
    rcases status with e | e <;> cases e

theorem intentsPending_step (wf : WellFormed s.toSettings s.toBooks)
    (h : IntentsPending s.toBooks) (hsafe : ¬ Strands s a) : IntentsPending (step s a).toBooks := by
  have hchange := step_change wf a
  generalize step s a = s' at hchange
  cases hchange with
  | stay _ => exact h
  | configure _ _ conf =>
    rw [conf.books]
    exact h
  | outside _ _ => exact h
  | effect ok effect _ =>
    refine effect.intentsPending h fun t hleaves => ?_
    by_contra hne
    exact hsafe ⟨by rw [ok]; rfl, t, hleaves, Option.isSome_iff_ne_none.2 hne⟩

theorem leaves_of_refund {t : Nat} (route : c.Refunds t) (h : c.leaves = some k) : k = t := by
  rcases route with ⟨_, rfl⟩ | rfl | ⟨_, rfl⟩
  · exact (Option.some.inj h).symm
  · cases h
  · cases h

theorem mayIdle_of_leaves (h : c.leaves = some k) : c.mayIdle = false := by
  cases c <;> first | rfl | cases h

/-- What a deposit or a cancellation of a created trade does to it and to the intents. -/
theorem Effect.of_leaves {b' : Books} {trade : Trade} (effect : Effect env s c b')
    (hleaves : c.leaves = some k) (hstored : s.trades.get k = some trade)
    (hcreated : trade.status = .created) :
    b'.pathPaymentIntent = s.pathPaymentIntent ∧
      ∃ t', b'.trades.get k = some t' ∧ t'.status ≠ .created := by
  cases effect with
  | idle quiet => cases (mayIdle_of_leaves hleaves).symm.trans quiet
  | deposit _ _ _ =>
    cases hleaves
    exact ⟨rfl, _, Store.get_set_self .., by simp⟩
  | drop route _ _ =>
    obtain rfl := Option.some.inj ((leaves_of_drop route).symm.trans hleaves)
    exact ⟨rfl, _, Store.get_set_self .., by simp⟩
  | request stored status =>
    cases hleaves
    obtain rfl := Option.some.inj (hstored.symm.trans stored)
    cases hcreated.symm.trans status
  | refund route stored status _ =>
    obtain rfl := leaves_of_refund route hleaves
    obtain rfl := Option.some.inj (hstored.symm.trans stored)
    rw [hcreated] at status
    rcases status with e | e <;> cases e
  | settle route => rcases route with ⟨_, _, rfl⟩ | ⟨_, _, _, rfl⟩ | ⟨_, rfl⟩ <;> cases hleaves
  | claw route => rcases route with rfl | ⟨_, _, rfl, -⟩ <;> cases hleaves
  | create | openPath | finalizePath | extend | deliver | dispute | release | withdraw =>
    cases hleaves

/-- A call that strands an intent breaks the promise. -/
theorem not_intentsPending_of_strands (wf : WellFormed s.toSettings s.toBooks)
    (h : IntentsPending s.toBooks) (hstrands : Strands s a) :
    ¬ IntentsPending (step s a).toBooks := by
  intro hafter
  cases a with
  | transfer | mint | burn => exact hstrands
  | call env c =>
    obtain ⟨hok, k, hleaves, hsome⟩ := hstrands
    obtain ⟨intent, hintent⟩ := Option.isSome_iff_exists.1 hsome
    obtain ⟨trade, hstored, hcreated⟩ := h k intent hintent
    cases hinvoke : invoke env s c with
    | error e =>
      rw [hinvoke] at hok
      cases hok
    | ok s' =>
      have hconfigures : c.configures = false := by
        cases c <;> first | rfl | cases hleaves
      obtain ⟨effect, -⟩ := invoke_effect wf hconfigures hinvoke
      obtain ⟨hintents, t', hget, hstatus⟩ := effect.of_leaves hleaves hstored hcreated
      rw [step_call_of_ok hinvoke] at hafter
      obtain ⟨t'', hget', hcreated'⟩ := hafter k intent (by rw [hintents, hintent])
      obtain rfl := Option.some.inj (hget.symm.trans hget')
      exact hstatus hcreated'

/-- In every state of a run the pending intents belong to trades that are still `Created`, exactly
when no step funds or cancels a trade with a pending intent. -/
theorem intentsPending_iff_not_strands (tokens : Token.Ledger Address) (actions : List Action) :
    (∀ before, before <+: actions → IntentsPending (run tokens before).toBooks) ↔
      ∀ p ∈ trail tokens actions, ¬ Strands p.1 p.2 :=
  Machine.always_iff step (P := fun s => IntentsPending s.toBooks)
    (W := fun s => WellFormed s.toSettings s.toBooks) (C := fun s a => ¬ Strands s a) actions
    (wellFormed_deployed tokens) (fun _ _ hintent => by cases hintent)
    (fun _ a wf => wellFormed_step wf a)
    (fun _ _ wf hpending hclean => intentsPending_step wf hpending hclean)
    (fun _ _ wf hpending hafter hstrands =>
      not_intentsPending_of_strands wf hpending hstrands hafter)

/-- Alice opens a path payment and cancels the trade. -/
def Sample.stranded : List Action :=
  [Sample.setup, Sample.create none,
    Sample.call 3 Sample.alice (.depositWithPath Sample.first Sample.alice 50 100 []),
    Sample.call 4 Sample.alice (.cancelByBuyer Sample.first)]

/-- Alice's source tokens stay with the contract against a trade that can no longer be
finalized. -/
theorem not_intentsPending_of_stranded :
    ¬ IntentsPending (run Sample.tokens Sample.stranded).toBooks := by
  intro h
  obtain ⟨intent, hintent⟩ := Option.isSome_iff_exists.1
    (show ((run Sample.tokens Sample.stranded).pathPaymentIntent.get Sample.first).isSome by decide)
  obtain ⟨t, hget, hcreated⟩ := h Sample.first intent hintent
  have hstatus : ((run Sample.tokens Sample.stranded).trades.get Sample.first).map Trade.status =
      some .cancelled := by decide
  rw [hget, Option.map_some, hcreated] at hstatus
  cases hstatus

end Amana.Escrow
