import Mathlib.Algebra.Order.Floor.Ring
import Mathlib.Data.Rat.Floor
import Mathlib.Tactic.FieldSimp
import Mathlib.Tactic.Linarith

/-!
# Rounded quotients

When an integer is the quotient of two others rounded down, rounded up or rounded to the nearest
integer, in terms of the products alone.
-/

namespace Amana.Lib.Rounding

variable {K : Type} [Field K] [LinearOrder K] [IsStrictOrderedRing K] {n d q : Int}

section Floor

variable [FloorRing K]

theorem floor_div_eq (positive : 0 < d) (lo : q * d ≤ n) (hi : n < (q + 1) * d) :
    ⌊(n : K) / d⌋ = q := by
  have hd : (0 : K) < d := by exact_mod_cast positive
  rw [Int.floor_eq_iff, le_div_iff₀ hd, div_lt_iff₀ hd]
  exact ⟨by exact_mod_cast lo, by exact_mod_cast hi⟩

theorem ceil_div_eq (positive : 0 < d) (lo : (q - 1) * d < n) (hi : n ≤ q * d) :
    ⌈(n : K) / d⌉ = q := by
  have hd : (0 : K) < d := by exact_mod_cast positive
  rw [Int.ceil_eq_iff, lt_div_iff₀ hd, div_le_iff₀ hd]
  exact ⟨by exact_mod_cast lo, by exact_mod_cast hi⟩

end Floor

/-- The distance of an integer to a quotient. -/
theorem abs_sub_div (positive : 0 < d) (k : Int) :
    |(k : K) - n / d| = (|n - k * d| : Int) / d := by
  have hd : (0 : K) < d := by exact_mod_cast positive
  have hsub : (k : K) - n / d = -((n - k * d : Int) : K) / d := by
    push_cast
    field_simp
    ring
  rw [hsub, abs_div, abs_neg, abs_of_pos hd]
  push_cast
  rfl

/-- An integer that is at most one half away is a nearest one. -/
theorem nearest_of_half (positive : 0 < d) (half : 2 * |n - q * d| ≤ d) (k : Int) :
    |(q : K) - n / d| ≤ |(k : K) - n / d| := by
  have hd : (0 : K) < d := by exact_mod_cast positive
  rw [abs_sub_div positive, abs_sub_div positive]
  have hle : |n - q * d| ≤ |n - k * d| := by
    by_cases hkq : k = q
    · rw [hkq]
    -- Another integer is a whole `d` away from this one.
    have hstep : d ≤ |k * d - q * d| := by
      rw [← Int.sub_mul, abs_mul, abs_of_pos positive]
      have hone : 1 ≤ |k - q| := Int.one_le_abs (by omega)
      exact le_mul_of_one_le_left positive.le hone
    have htriangle := abs_sub_le (k * d) n (q * d)
    rw [abs_sub_comm (k * d) n] at htriangle
    omega
  exact div_le_div_of_nonneg_right (by exact_mod_cast hle) hd.le

end Amana.Lib.Rounding
