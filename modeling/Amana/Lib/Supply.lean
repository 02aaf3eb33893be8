import Amana.Lib.Token
import Mathlib.Algebra.BigOperators.Group.Finset.Piecewise
import Mathlib.Algebra.Order.BigOperators.Group.Finset

/-!
# Tokens of limited supply

A balance is an `i128`, and a ledger by itself does not stop two balances from adding up to more
than one.  Where all balances of a token together are an `i128` amount (`Ledger.Fits`), no transfer
can overflow its recipient, so a transfer succeeds exactly when its source holds the amount
(`exists_transfer`).  Transfers keep a supply in bounds (`fits_transfer`).
-/

namespace Amana.Lib.Token

variable {A : Type} [DecidableEq A] {l l' : Ledger A} {m : Transfer A} {t : A}

/-- The balances of a token, of however many accounts, add up to an `i128` amount. -/
def Ledger.Fits (l : Ledger A) (t : A) : Prop :=
  ∀ accounts : Finset A, ∑ a ∈ accounts, l.balance t a ≤ I128.maxValue

/-- What a set of accounts holds after a transfer. -/
theorem sum_balance_of_transfer (h : transfer l m = some l') (accounts : Finset A) :
    ∑ a ∈ accounts, l'.balance m.token a =
      ∑ a ∈ accounts, l.balance m.token a - (if m.source ∈ accounts then m.amount else 0) +
        (if m.dest ∈ accounts then m.amount else 0) := by
  simp [balance_of_transfer h, moved, Finset.sum_add_distrib, Finset.sum_sub_distrib]

theorem balance_of_ne (h : transfer l m = some l') (hne : t ≠ m.token) :
    l'.balance t = l.balance t := by
  funext a
  simp [balance_of_transfer h, moved, hne]

theorem fits_transfer (h : transfer l m = some l') (fits : l.Fits t) : l'.Fits t := by
  intro accounts
  have hcovered := (transfer_eq_some_iff.1 h).1
  by_cases htoken : t = m.token
  · subst htoken
    have hsum := sum_balance_of_transfer h accounts
    have hbefore := fits accounts
    by_cases hsource : m.source ∈ accounts
    · have hpos := hcovered.1
      rw [if_pos hsource] at hsum
      split at hsum <;> omega
    · -- the recipients gain at most what the source held besides
      have hinsert := fits (insert m.source accounts)
      rw [Finset.sum_insert hsource] at hinsert
      have hle := hcovered.2.1
      have hpos := hcovered.1
      rw [if_neg hsource] at hsum
      split at hsum <;> omega
  · rw [balance_of_ne h htoken]
    exact fits accounts

theorem fits_pay (h : pay l m = some l') (fits : l.Fits t) : l'.Fits t := by
  unfold pay at h
  split at h
  · exact fits_transfer h fits
  · cases h
    exact fits

theorem fits_burn {token source : A} {amount : Int} (h : burn l token source amount = some l')
    (fits : l.Fits t) : l'.Fits t := by
  intro accounts
  refine le_trans (Finset.sum_le_sum fun a _ => ?_) (fits accounts)
  unfold burn at h
  split at h
  · next hburn =>
    cases h
    dsimp only
    split <;> omega
  · cases h

/-- What two accounts hold together is an `i128` amount. -/
theorem Ledger.Fits.add_le (fits : l.Fits t) {a b : A} (hne : a ≠ b) :
    l.balance t a + l.balance t b ≤ I128.maxValue := by
  simpa [Finset.sum_pair hne] using fits {a, b}

/-- Whoever holds the amount can pay it. -/
theorem exists_transfer (fits : l.Fits m.token) (hpos : 0 ≤ m.amount)
    (hle : m.amount ≤ l.balance m.token m.source) : ∃ l', transfer l m = some l' := by
  have hcovered : Covered l.balance m := by
    refine ⟨hpos, hle, ?_⟩
    by_cases hne : m.source = m.dest
    · exact .inl hne
    · have hadd := fits.add_le hne
      exact .inr (by omega)
  simp [transfer, hcovered]

theorem exists_pay (fits : l.Fits m.token) (hpos : 0 ≤ m.amount)
    (hle : m.amount ≤ l.balance m.token m.source) : ∃ l', pay l m = some l' := by
  unfold pay
  split
  · exact exists_transfer fits hpos hle
  · exact ⟨l, rfl⟩

end Amana.Lib.Token
