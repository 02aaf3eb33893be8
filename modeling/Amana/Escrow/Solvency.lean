import Amana.Escrow.Vault

/-!
# Solvency

The contract is solvent when its balance covers the escrow it holds and the fees it has accrued.
Every step keeps that but one: `finalize_path_payment` credits its trade with the growth of the
contract's whole balance since the path payment was opened, whoever's deposit that was.  A run is
solvent throughout exactly when, at each finalization, the balance noted at the opening still
covers what the contract owes by then (`solvent_iff_snapshotCovers`).
-/

namespace Amana.Escrow

open Lib

variable {env : Env} {s s' : State} {c : Call}

/-- The balance covers the obligations. -/
def Solvent (s : State) : Prop :=
  ∀ token, s.cngnContract = some token → s.obligations ≤ s.tokens.balance token currentContract

/-- If the action finalizes a path payment, the balance noted when that was opened covers the
obligations the contract has now. -/
def SnapshotCovers (s : State) : Action → Prop
  | .call env (.finalizePathPayment t caller) =>
    (finalizePathPayment env t caller s).isOk = true →
      ∀ intent, s.pathPaymentIntent.get t = some intent → s.obligations ≤ intent.cngnBalanceBefore
  | _ => True

/-- Finalizing a path payment leaves as surplus what the noted balance exceeds the obligations
by. -/
theorem Effect.finalize_surplus {token : Address} {t : Nat} {caller : Address} {b' : Books}
    (wf : WellFormed s.toSettings s.toBooks) (settles : s.toSettings.Settles token)
    (h : Effect env s (.finalizePathPayment t caller) b') :
    b'.accrued = s.accrued ∧ ∃ intent, s.pathPaymentIntent.get t = some intent ∧
      b'.surplus token = intent.cngnBalanceBefore - s.obligations := by
  obtain ⟨trade, intent, stored, status, pending, rfl⟩ := h.of_finalize
  refine ⟨rfl, intent, pending, ?_⟩
  rw [surplus_update token stored rfl, Trade.held_of_not_live (t := trade) (by rw [status]; rfl),
    Trade.held_of_live rfl, wf.token_eq settles stored]
  unfold Books.obligations Books.accrued
  dsimp only
  omega

theorem Backed.solvent (h : Backed s.toSettings s.toBooks) : Solvent s := by
  intro token htoken
  have hcovered := h.covered token fun t ht => Option.some.inj (ht.symm.trans htoken)
  unfold Books.surplus at hcovered
  omega

/-- The settlement token does not change under a call that leaves the settings alone, and a
configuring call can only install it. -/
theorem Configured.settles {token : Address} (conf : Configured s s')
    (sound : s.toSettings.Sound) (h : s'.toSettings.Settles token) :
    s.toSettings.Settles token := by
  intro t ht
  have hinit := sound.installed (by rw [ht]; rfl)
  exact h t ((conf.settlement hinit).trans ht)

/-- The settlement token of a state is the one of the state before, if there was one. -/
theorem settles_of_step {a : Action} {token : Address} (wf : WellFormed s.toSettings s.toBooks)
    (h : (step s a).toSettings.Settles token) : s.toSettings.Settles token := by
  have hchange := step_change wf a
  generalize step s a = s' at hchange h
  cases hchange with
  | stay _ => exact h
  | configure _ _ conf => exact conf.settles wf.settings h
  | outside _ _ => exact h
  | effect _ _ settings =>
    rw [settings] at h
    exact h

theorem backed_step {a : Action} (wf : WellFormed s.toSettings s.toBooks)
    (backed : Backed s.toSettings s.toBooks) (hcovers : SnapshotCovers s a) :
    Backed (step s a).toSettings (step s a).toBooks := by
  have hchange := step_change wf a
  generalize step s a = s' at hchange
  cases hchange with
  | stay _ => exact backed
  | configure _ _ conf =>
    rw [conf.books]
    exact ⟨backed.accrued, fun token h => backed.covered token (conf.settles wf.settings h)⟩
  | outside _ keeps =>
    refine ⟨backed.accrued, fun token h => ?_⟩
    have hcovered := backed.covered token h
    have hkeeps := keeps token
    unfold Books.surplus Books.obligations Books.held Books.accrued at *
    dsimp only
    omega
  | @effect env c _ ok effect settings =>
    rw [settings]
    obtain ⟨settlement, hsettles⟩ := exists_settles s.toSettings
    by_cases hfinal : ∃ t caller, c = .finalizePathPayment t caller
    · obtain ⟨t, caller, rfl⟩ := hfinal
      refine ⟨?_, fun token h => ?_⟩
      · rw [(effect.finalize_surplus wf hsettles).1]
        exact backed.accrued
      · obtain ⟨-, intent, hpending, hsurplus⟩ := effect.finalize_surplus wf h
        have hcovers := hcovers (by rw [show finalizePathPayment env t caller s = _ from ok]; rfl)
          intent hpending
        omega
    · have hfinal : ∀ t caller, c ≠ .finalizePathPayment t caller :=
        fun t caller e => hfinal ⟨t, caller, e⟩
      refine ⟨?_, fun token h => ?_⟩
      · obtain ⟨gain, hkeeps⟩ := effect.keeps wf backed hsettles hfinal
        exact hkeeps.accrued
      · obtain ⟨gain, hkeeps⟩ := effect.keeps wf backed h hfinal
        have hcovered := backed.covered token h
        have hnonneg := hkeeps.nonneg
        rw [hkeeps.surplus]
        omega

theorem backed_deployed (tokens : Token.Ledger Address) :
    Backed (State.deployed tokens).toSettings (State.deployed tokens).toBooks :=
  ⟨le_rfl, fun token _ => by
    have hpos := tokens.balance_nonneg token currentContract
    show 0 ≤ tokens.balance token currentContract - (0 + 0)
    omega⟩

theorem backed_run {tokens : Token.Ledger Address} {actions : List Action}
    (h : ∀ p ∈ trail tokens actions, SnapshotCovers p.1 p.2) :
    Backed (run tokens actions).toSettings (run tokens actions).toBooks := by
  have hboth := Machine.run_invariant step
    (P := fun s => WellFormed s.toSettings s.toBooks ∧ Backed s.toSettings s.toBooks)
    ⟨wellFormed_deployed tokens, backed_deployed tokens⟩
    fun p hp hkeep => ⟨wellFormed_step hkeep.1 p.2, backed_step hkeep.1 hkeep.2 (h p hp)⟩
  exact hboth.2

/-- If the state after a finalization is solvent, the noted balance covered the obligations. -/
theorem snapshotCovers_of_solvent {a : Action} (wf : WellFormed s.toSettings s.toBooks)
    (h : Solvent (step s a)) : SnapshotCovers s a := by
  unfold SnapshotCovers
  split
  · next env t caller =>
    intro hok intent hpending
    cases ok : finalizePathPayment env t caller s with
    | error e => simp [ok, Except.isOk, Except.toBool] at hok
    | ok s' =>
      obtain ⟨heffect, hsettings, -⟩ := invoke_effect (c := .finalizePathPayment t caller) wf rfl ok
      obtain ⟨trade, -, stored, -, -, -⟩ := heffect.of_finalize
      have htoken := wf.token t trade stored
      have hsettles : s.toSettings.Settles trade.token :=
        fun token h => Option.some.inj (h.symm.trans htoken)
      obtain ⟨-, intent', hpending', hsurplus⟩ := heffect.finalize_surplus wf hsettles
      obtain rfl := Option.some.inj (hpending.symm.trans hpending')
      rw [step_call_of_ok (c := .finalizePathPayment t caller) ok] at h
      have hsolvent := h trade.token (by rw [hsettings]; exact htoken)
      unfold Books.surplus at hsurplus
      omega
  · trivial

/-- Every state of a run is solvent exactly when every finalization of a path payment meets
obligations that the balance noted at its opening covers. -/
theorem solvent_iff_snapshotCovers (tokens : Token.Ledger Address) (actions : List Action) :
    (∀ before, before <+: actions → Solvent (run tokens before)) ↔
      ∀ p ∈ trail tokens actions, SnapshotCovers p.1 p.2 := by
  constructor
  · rintro h ⟨s, a⟩ hp
    obtain ⟨before, later, rfl, rfl⟩ := Machine.exists_append_of_mem_trail step hp
    have hafter := h (before ++ [a]) ⟨later, by simp⟩
    rw [run_snoc] at hafter
    exact snapshotCovers_of_solvent (wellFormed_run tokens before) hafter
  · intro h before hbefore
    have hcovers : ∀ p ∈ trail tokens before, SnapshotCovers p.1 p.2 :=
      fun p hp => h p (Machine.trail_of_isPrefix step hbefore hp)
    exact (backed_run hcovers).solvent

/-- Alice opens a path payment, Carol funds her own trade, and Alice finalizes: the 100 tokens of
Carol's deposit now back two trades of 100. -/
theorem not_solvent_of_shared_delta :
    ¬ Solvent (run Sample.tokens
      [Sample.setup, Sample.create none,
        Sample.call 2 Sample.carol (.createTrade Sample.carol Sample.bob 100 5000 5000 none),
        Sample.call 3 Sample.alice (.depositWithPath Sample.first Sample.alice 50 100 []),
        Sample.call 4 Sample.carol (.deposit Sample.second),
        Sample.call 5 Sample.alice (.finalizePathPayment Sample.first Sample.alice)]) := by
  intro h
  have hcovered := h Sample.cngn (by decide)
  revert hcovered
  decide

end Amana.Escrow
