import Mathlib.Data.Nat.Digits.Defs
import Mathlib.Tactic.Ring

/-!
# The first bits of a number

The first bits of a number of a given width.  To clear the other bits with a mask is to keep the
first ones (`and_mask`), and where a number is written in digits of so many bits, they can be
cleared digit by digit: what is left of the digits is the same exactly when the first bits are
(`keepDigits_eq_iff`).
-/

namespace Amana.Lib.TopBits

/-- The first `bits` bits of a number of `width` bits. -/
def topBits (width bits n : Nat) : Nat := n / 2 ^ (width - bits)

/-- The number with its first `bits` bits and zeros for the others. -/
def keep (width bits n : Nat) : Nat := topBits width bits n * 2 ^ (width - bits)

/-- The number of its digits, the first of them first. -/
def number (width : Nat) (digits : List Nat) : Nat := Nat.ofDigits (2 ^ width) digits.reverse

/-- What is kept of the digits of a number. -/
def keepDigits (width bits : Nat) (digits : List Nat) : List Nat :=
  digits.mapIdx fun i d => keep width (bits - width * i) d

variable {width bits m n : Nat}

theorem topBits_eq_iff (hm : m < 2 ^ width) (hn : n < 2 ^ width) (fits : bits ≤ width) :
    topBits width bits m = topBits width bits n ↔
      ∀ i < bits, m.testBit (width - 1 - i) = n.testBit (width - 1 - i) := by
  constructor
  · intro h i hi
    have hbit := congrArg (fun k => k.testBit (bits - 1 - i)) h
    simp only [topBits, Nat.testBit_div_two_pow] at hbit
    rwa [show bits - 1 - i + (width - bits) = width - 1 - i by omega] at hbit
  · intro h
    refine Nat.eq_of_testBit_eq fun j => ?_
    rw [topBits, topBits, Nat.testBit_div_two_pow, Nat.testBit_div_two_pow]
    by_cases hj : j < bits
    · have hbit := h (bits - 1 - j) (by omega)
      rwa [show width - 1 - (bits - 1 - j) = j + (width - bits) by omega] at hbit
    · have hhigh : 2 ^ width ≤ 2 ^ (j + (width - bits)) :=
        Nat.pow_le_pow_right (by decide) (by omega)
      rw [Nat.testBit_lt_two_pow (hm.trans_le hhigh), Nat.testBit_lt_two_pow (hn.trans_le hhigh)]

@[simp] theorem topBits_zero (hn : n < 2 ^ width) : topBits width 0 n = 0 :=
  Nat.div_eq_of_lt hn

theorem topBits_of_le (h : width ≤ bits) : topBits width bits n = n := by
  rw [topBits, Nat.sub_eq_zero_of_le h, pow_zero, Nat.div_one]

theorem keep_of_le (h : width ≤ bits) : keep width bits n = n := by
  rw [keep, topBits_of_le h, Nat.sub_eq_zero_of_le h, pow_zero, mul_one]

theorem keep_zero (hn : n < 2 ^ width) : keep width 0 n = 0 := by
  rw [keep, topBits_zero hn, Nat.zero_mul]

theorem keep_eq_iff : keep width bits m = keep width bits n ↔
    topBits width bits m = topBits width bits n :=
  Nat.mul_left_inj (Nat.two_pow_pos _).ne'

/-- A mask with ones for the first bits keeps them. -/
theorem and_mask (hn : n < 2 ^ width) :
    n &&& ((2 ^ width - 1) <<< (width - bits) % 2 ^ width) = keep width bits n := by
  refine Nat.eq_of_testBit_eq fun j => ?_
  rw [keep, topBits, Nat.testBit_and, Nat.testBit_mod_two_pow, Nat.testBit_shiftLeft,
    Nat.testBit_two_pow_sub_one, Nat.testBit_mul_two_pow, Nat.testBit_div_two_pow]
  by_cases hlow : width - bits ≤ j
  · by_cases hhigh : j < width
    · simp [hlow, hhigh, show j - (width - bits) < width by omega]
    · have hbit : n.testBit j = false :=
        Nat.testBit_lt_two_pow (hn.trans_le (Nat.pow_le_pow_right (by decide) (not_lt.1 hhigh)))
      simp [hbit, hlow]
  · simp [hlow]

/-! ## Digits -/

variable {d : Nat} {ds es : List Nat}

theorem number_cons (width d : Nat) (ds : List Nat) :
    number width (d :: ds) = d * 2 ^ (width * ds.length) + number width ds := by
  rw [number, List.reverse_cons, Nat.ofDigits_append, Nat.ofDigits_singleton, List.length_reverse,
    ← pow_mul, number]
  ring

theorem number_lt (hds : ∀ d ∈ ds, d < 2 ^ width) : number width ds < 2 ^ (width * ds.length) := by
  induction ds with
  | nil => simp [number]
  | cons d ds ih =>
    have hd := hds d (List.mem_cons_self ..)
    have hrest := ih fun e he => hds e (List.mem_cons_of_mem _ he)
    rw [number_cons, List.length_cons, Nat.mul_succ, Nat.add_comm, pow_add]
    nlinarith [Nat.mul_le_mul_right (2 ^ (width * ds.length)) (Nat.succ_le_of_lt hd)]

theorem keepDigits_cons (width bits d : Nat) (ds : List Nat) :
    keepDigits width bits (d :: ds) =
      keep width bits d :: keepDigits width (bits - width) ds := by
  simp only [keepDigits, List.mapIdx_cons, Nat.mul_zero, Nat.sub_zero, Nat.mul_succ,
    Nat.sub_add_eq, Nat.sub_right_comm]

/-- The first bits of a number, with a whole digit among them. -/
theorem topBits_number_of_le (whole : width ≤ bits) (fits : bits ≤ width * (ds.length + 1)) :
    topBits (width * (ds.length + 1)) bits (number width (d :: ds)) =
      d * 2 ^ (bits - width) +
        topBits (width * ds.length) (bits - width) (number width ds) := by
  have hsame : width * (ds.length + 1) - bits = width * ds.length - (bits - width) := by
    rw [Nat.mul_succ]
    omega
  have hsplit : width * ds.length =
      (bits - width) + (width * ds.length - (bits - width)) := by
    rw [Nat.mul_succ] at fits
    omega
  have hpow : 2 ^ (width * ds.length) =
      2 ^ (bits - width) * 2 ^ (width * ds.length - (bits - width)) := by
    rw [← pow_add, ← hsplit]
  rw [topBits, topBits, hsame, number_cons, hpow, ← mul_assoc, Nat.add_comm,
    Nat.add_mul_div_right _ _ (Nat.two_pow_pos _), Nat.add_comm]

/-- The first bits of a number, all of them in its first digit. -/
theorem topBits_number_of_lt (part : bits < width) (hds : ∀ e ∈ ds, e < 2 ^ width) :
    topBits (width * (ds.length + 1)) bits (number width (d :: ds)) = topBits width bits d := by
  have hsame : width * (ds.length + 1) - bits = width * ds.length + (width - bits) := by
    rw [Nat.mul_succ]
    omega
  rw [topBits, topBits, hsame, number_cons, pow_add, ← Nat.div_div_eq_div_mul, Nat.add_comm,
    Nat.add_mul_div_right _ _ (Nat.two_pow_pos _), Nat.div_eq_of_lt (number_lt hds), Nat.zero_add]

theorem topBits_lt (hn : n < 2 ^ width) (fits : bits ≤ width) :
    topBits width bits n < 2 ^ bits := by
  rw [topBits, Nat.div_lt_iff_lt_mul (Nat.two_pow_pos _), ← pow_add]
  rwa [Nat.add_sub_cancel' fits]

theorem mul_add_inj {base x y : Nat} (hx : x < base) (hy : y < base) :
    m * base + x = n * base + y ↔ m = n ∧ x = y := by
  constructor
  · intro h
    have hmod : x = y := by
      rw [← Nat.mod_eq_of_lt hx, ← Nat.mod_eq_of_lt hy, ← Nat.mul_add_mod_self_right m, h,
        Nat.mul_add_mod_self_right]
    refine ⟨?_, hmod⟩
    rw [hmod] at h
    exact Nat.eq_of_mul_eq_mul_right (by omega) (Nat.add_right_cancel h)
  · rintro ⟨rfl, rfl⟩
    rfl

/-- What is kept of the digits is the same exactly when the first bits are. -/
theorem keepDigits_eq_iff (length : ds.length = es.length) (hds : ∀ d ∈ ds, d < 2 ^ width)
    (hes : ∀ e ∈ es, e < 2 ^ width) (fits : bits ≤ width * ds.length) :
    keepDigits width bits ds = keepDigits width bits es ↔
      topBits (width * ds.length) bits (number width ds) =
        topBits (width * ds.length) bits (number width es) := by
  induction ds generalizing es bits with
  | nil =>
    obtain rfl := List.eq_nil_of_length_eq_zero length.symm
    simp
  | cons d ds ih =>
    obtain ⟨e, es, rfl⟩ := List.exists_cons_of_length_eq_add_one length.symm
    obtain ⟨hd, hds⟩ := List.forall_mem_cons.1 hds
    obtain ⟨he, hes⟩ := List.forall_mem_cons.1 hes
    rw [List.length_cons, List.length_cons, Nat.succ_inj] at length
    rw [List.length_cons] at fits
    have hrest : bits - width ≤ width * ds.length := by
      rw [Nat.mul_succ] at fits
      omega
    rw [keepDigits_cons, keepDigits_cons, List.cons.injEq, keep_eq_iff,
      ih length hds hes hrest, List.length_cons]
    by_cases hwhole : width ≤ bits
    · have hfits := fits
      rw [length] at hfits
      have hright := topBits_number_of_le (d := e) hwhole hfits
      rw [← length] at hright
      rw [topBits_number_of_le hwhole fits, hright, topBits_of_le hwhole, topBits_of_le hwhole]
      have hleft := topBits_lt (number_lt hds) hrest
      have hother := topBits_lt (number_lt hes) (length ▸ hrest)
      rw [← length] at hother
      exact (mul_add_inj hleft hother).symm
    · have hzero : bits - width = 0 := by omega
      have hright := topBits_number_of_lt (d := e) (not_le.1 hwhole) hes
      rw [← length] at hright
      have hother := number_lt hes
      rw [← length] at hother
      rw [topBits_number_of_lt (not_le.1 hwhole) hds, hright, hzero, topBits_zero (number_lt hds),
        topBits_zero hother, and_iff_left rfl]

end Amana.Lib.TopBits
