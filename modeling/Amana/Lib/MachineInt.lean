import Mathlib.Data.Int.Basic
import Mathlib.Tactic.NormNum

/-!
# Fixed-width integers

Unsigned values are naturals and signed ones integers.  An unchecked operator of the compiled
program wraps (`U64.add`, `I128.add`, …), a checked one answers `none` outside the range
(`I128.checkedMul`, …), a saturating one stops at the end of the range.
-/

namespace Amana.Lib

namespace U32

def maxValue : Nat := 2 ^ 32 - 1

/-- The unchecked `+` of `u32`. -/
def add (a b : Nat) : Nat := (a + b) % 2 ^ 32

def saturatingAdd (a b : Nat) : Nat := min (a + b) maxValue

/-- A saturating total is the exact one, cut off at the end of the range. -/
theorem saturatingAdd_min (a b : Nat) :
    saturatingAdd (min a maxValue) b = min (a + b) maxValue := by
  unfold saturatingAdd
  omega

end U32

namespace U64

def maxValue : Nat := 2 ^ 64 - 1

/-- The unchecked `+` of `u64`. -/
def add (a b : Nat) : Nat := (a + b) % 2 ^ 64

/-- The `<<` of `u64`: bits pushed past the top are dropped. -/
def shiftLeft (a n : Nat) : Nat := (a <<< n) % 2 ^ 64

theorem add_of_lt {a b : Nat} (h : a + b < 2 ^ 64) : add a b = a + b := Nat.mod_eq_of_lt h

end U64

namespace I128

def minValue : Int := -2 ^ 127

def maxValue : Int := 2 ^ 127 - 1

/-- The value an unchecked `i128` operator stores for the exact result `x`. -/
def wrap (x : Int) : Int := Int.bmod x (2 ^ 128)

def add (a b : Int) : Int := wrap (a + b)

def sub (a b : Int) : Int := wrap (a - b)

/-- The result of a checked operator whose exact value is `x`. -/
def checked (x : Int) : Option Int := if minValue ≤ x ∧ x ≤ maxValue then some x else none

def checkedAdd (a b : Int) : Option Int := checked (a + b)

def checkedSub (a b : Int) : Option Int := checked (a - b)

def checkedMul (a b : Int) : Option Int := checked (a * b)

def saturatingSub (a b : Int) : Int := max minValue (min (a - b) maxValue)

theorem wrap_of_mem {x : Int} (lo : minValue ≤ x) (hi : x ≤ maxValue) : wrap x = x := by
  unfold wrap
  unfold minValue at lo
  unfold maxValue at hi
  exact Int.bmod_eq_of_le (by norm_num; omega) (by norm_num; omega)

theorem minValue_eq : minValue = -maxValue - 1 := by decide

theorem add_of_mem {a b : Int} (lo : minValue ≤ a + b) (hi : a + b ≤ maxValue) :
    add a b = a + b := wrap_of_mem lo hi

theorem sub_of_mem {a b : Int} (lo : minValue ≤ a - b) (hi : a - b ≤ maxValue) :
    sub a b = a - b := wrap_of_mem lo hi

/-- The difference of two non-negative values never wraps. -/
theorem sub_of_nonneg {a b : Int} (ha : 0 ≤ a) (ha' : a ≤ maxValue) (hb : 0 ≤ b)
    (hb' : b ≤ maxValue) : sub a b = a - b := by
  have := minValue_eq
  exact sub_of_mem (by omega) (by omega)

/-- Subtracting a difference gives back what was subtracted, through any wrap-around. -/
theorem sub_sub_cancel {a x : Int} (lo : minValue ≤ x) (hi : x ≤ maxValue) :
    sub a (sub a x) = x := by
  unfold minValue at lo
  unfold maxValue at hi
  simp only [sub, wrap, Int.bmod_def]
  omega

/-- Subtracting what something was added to gives back what was added, through any wrap-around. -/
theorem sub_add_cancel_left {a x : Int} (lo : minValue ≤ x) (hi : x ≤ maxValue) :
    sub (add a x) a = x := by
  unfold minValue at lo
  unfold maxValue at hi
  simp only [sub, add, wrap, Int.bmod_def]
  omega

theorem saturatingSub_zero {a : Int} (lo : minValue ≤ a) (hi : a ≤ maxValue) :
    saturatingSub a 0 = a := by
  unfold saturatingSub
  omega

theorem checked_eq_some_iff {x y : Int} :
    checked x = some y ↔ (minValue ≤ x ∧ x ≤ maxValue) ∧ x = y := by
  unfold checked
  split_ifs with h <;> simp [h]

/-- Dividing a value towards zero stays in the range. -/
theorem tdiv_mem {x d : Int} (lo : minValue ≤ x) (hi : x ≤ maxValue) (hd : 0 < d) :
    minValue ≤ x.tdiv d ∧ x.tdiv d ≤ maxValue := by
  unfold minValue maxValue at *
  rcases le_total 0 x with h | h
  · have := Int.tdiv_nonneg h hd.le
    have := Int.tdiv_le_self d h
    omega
  · have hn : 0 ≤ -x := by omega
    have := Int.tdiv_nonneg hn hd.le
    have := Int.tdiv_le_self d hn
    rw [Int.neg_tdiv] at *
    omega

end I128

end Amana.Lib
