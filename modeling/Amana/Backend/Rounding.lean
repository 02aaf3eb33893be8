import Amana.Backend.Money
import Amana.Lib.Rounding

/-!
# The rounding policies

A quotient toward zero is corrected by a step of at most one in the direction of the remainder
(`roundingStep`).  Every policy is a choice of that step, so all it says about the rounded value is
read off the remainder (`divides_with_policy`).
-/

namespace Amana.Backend

open Lib

/-! ## One step from the truncated quotient -/

/-- What a policy adds to the quotient toward zero `t`, whose remainder is `r`. -/
def roundingStep (policy : RoundingPolicy) (t r d : Int) : Int :=
  if r = 0 then 0
  else
    let step := if 0 < r then 1 else -1
    match policy with
    | .trunc => 0
    | .floor => if r < 0 then -1 else 0
    | .ceil => if 0 < r then 1 else 0
    | .halfUp => if d ≤ 2 * |r| then step else 0
    | .halfEven =>
      if d < 2 * |r| then step else if 2 * |r| < d then 0 else if t.tmod 2 = 0 then 0 else step

variable {n d : Int} {policy : RoundingPolicy}

theorem divideWithPolicy_eq (n : Int) (positive : 0 < d) (policy : RoundingPolicy) :
    divideWithPolicy n d policy =
      .ok ⟨n.tdiv d + roundingStep policy (n.tdiv d) (n.tmod d) d,
        n.tmod d - roundingStep policy (n.tdiv d) (n.tmod d) d * d, d⟩ := by
  have hsum := Int.tdiv_mul_add_tmod n d
  have hrest : n - n.tdiv d * d = n.tmod d := by omega
  have htwice (r : Int) : (if r < 0 then -r * 2 else r * 2) = 2 * |r| := by
    split
    · next hneg => rw [abs_of_neg hneg, Int.mul_comm]
    · next hnonneg => rw [abs_of_nonneg (Int.not_lt.1 hnonneg), Int.mul_comm]
  rw [divideWithPolicy, if_neg (by omega)]
  dsimp only
  rw [hrest, htwice]
  generalize n.tdiv d = t at *
  generalize n.tmod d = r at *
  by_cases hexact : r = 0
  · simp [roundingStep, hexact]
  rw [if_neg hexact, roundingStep, if_neg hexact]
  have hresult {value step : Int} (h : value = t + step) :
      (⟨value, n - value * d, d⟩ : DivisionResult) = ⟨t + step, r - step * d, d⟩ := by
    rw [h, Int.add_mul]
    congr 1
    omega
  refine congrArg Except.ok (hresult ?_)
  cases policy with
  | trunc => exact (Int.add_zero t).symm
  | floor | ceil | halfUp | halfEven => dsimp only; split_ifs <;> omega

/-! ## What each policy leaves -/

/-- The quotient lies halfway between two integers. -/
def Halfway (n d : Int) : Prop := ∃ k : Int, 2 * n = (2 * k + 1) * d

/-- No integer is closer to the quotient, and the rest is at most half of the denominator. -/
structure Nearest (n d value residual : Int) : Prop where
  half : 2 * |residual| ≤ d
  closest : ∀ k : Int, |(value : ℚ) - n / d| ≤ |(k : ℚ) - n / d|

/-- What a policy says about the rounded quotient `value` and what is left of the numerator. -/
def RoundingPolicy.Rounds (policy : RoundingPolicy) (n d value residual : Int) : Prop :=
  match policy with
  | .trunc => value = if 0 ≤ n then ⌊(n : ℚ) / d⌋ else ⌈(n : ℚ) / d⌉
  | .floor => value = ⌊(n : ℚ) / d⌋
  | .ceil => value = ⌈(n : ℚ) / d⌉
  | .halfUp => Nearest n d value residual ∧ (Halfway n d → |(n : ℚ) / d| < |(value : ℚ)|)
  | .halfEven => Nearest n d value residual ∧ (Halfway n d → Even value)

/-- The policy that does to the negated numerator what this one does to the numerator. -/
def RoundingPolicy.mirror : RoundingPolicy → RoundingPolicy
  | .floor => .ceil
  | .ceil => .floor
  | policy => policy

section Leaves

variable {t r : Int}

/-- At most one unit, and in the direction of the remainder. -/
theorem roundingStep_cases (policy : RoundingPolicy) (t r d : Int) :
    roundingStep policy t r d = 0 ∨ (0 < r ∧ roundingStep policy t r d = 1) ∨
      (r < 0 ∧ roundingStep policy t r d = -1) := by
  cases policy <;> unfold roundingStep <;> dsimp only <;> split_ifs <;> omega

/-- No policy leaves a whole denominator. -/
theorem residual_lt (small : |r| < d) (policy : RoundingPolicy) :
    |r - roundingStep policy t r d * d| < d := by
  have hbounds := abs_lt.1 small
  rw [abs_lt]
  obtain hstep | ⟨hr, hstep⟩ | ⟨hr, hstep⟩ := roundingStep_cases policy t r d
  all_goals
    rw [hstep]
    omega

/-- Half of the denominator is left only of half of the denominator. -/
theorem half_remainder (small : |r| < d) (policy : RoundingPolicy)
    (half : 2 * |r - roundingStep policy t r d * d| = d) : 2 * |r| = d := by
  have hbounds := abs_lt.1 small
  have hsides := abs_cases r
  have hrest := abs_cases (r - roundingStep policy t r d * d)
  obtain hstep | ⟨hr, hstep⟩ | ⟨hr, hstep⟩ := roundingStep_cases policy t r d
  all_goals
    rw [hstep] at half hrest
    omega

theorem floor_residual (small : |r| < d) :
    0 ≤ r - roundingStep .floor t r d * d ∧ r - roundingStep .floor t r d * d < d := by
  have hbounds := abs_lt.1 small
  unfold roundingStep
  dsimp only
  split_ifs <;> omega

theorem ceil_residual (small : |r| < d) :
    -d < r - roundingStep .ceil t r d * d ∧ r - roundingStep .ceil t r d * d ≤ 0 := by
  have hbounds := abs_lt.1 small
  unfold roundingStep
  dsimp only
  split_ifs <;> omega

theorem half_residual (nearest : policy = .halfUp ∨ policy = .halfEven) (small : |r| < d) :
    2 * |r - roundingStep policy t r d * d| ≤ d := by
  have hbounds := abs_lt.1 small
  have hsides := abs_cases r
  have hrest := abs_cases (r - roundingStep policy t r d * d)
  revert hrest
  unfold roundingStep
  obtain rfl | rfl := nearest
  all_goals
    dsimp only
    split_ifs <;> omega

theorem ne_zero_of_half (positive : 0 < d) (half : 2 * |r| = d) : r ≠ 0 := by
  rintro rfl
  rw [abs_zero] at half
  omega

/-- Away from zero, when the rest is half of the denominator. -/
theorem halfUp_step (positive : 0 < d) (half : 2 * |r| = d) :
    roundingStep .halfUp t r d = if 0 < r then 1 else -1 := by
  rw [roundingStep, if_neg (ne_zero_of_half positive half)]
  exact if_pos half.ge

/-- To the even side, when the rest is half of the denominator. -/
theorem halfEven_even (positive : 0 < d) (half : 2 * |r| = d) :
    Even (t + roundingStep .halfEven t r d) := by
  have hparity : t.tmod 2 = 0 ↔ t % 2 = 0 := by
    rw [← Int.dvd_iff_tmod_eq_zero, ← Int.dvd_iff_emod_eq_zero]
  rw [roundingStep, if_neg (ne_zero_of_half positive half), Int.even_iff]
  dsimp only
  split_ifs <;> omega

theorem roundingStep_mirror (policy : RoundingPolicy) :
    roundingStep policy.mirror (-t) (-r) d = -roundingStep policy t r d := by
  cases policy <;> simp only [roundingStep, RoundingPolicy.mirror, abs_neg, Int.neg_tmod] <;>
    split_ifs <;> omega

end Leaves

/-! ## The rounding engine -/

/-- A rest of less than a denominator that is left of half a quotient is half of the denominator. -/
theorem residual_of_halfway {value residual : Int} (positive : 0 < d)
    (sum : value * d + residual = n) (small : 2 * |residual| ≤ d) (halfway : Halfway n d) :
    2 * |residual| = d := by
  obtain ⟨k, hk⟩ := halfway
  have hodd : 2 * residual = (2 * (k - value) + 1) * d := by
    rw [← sum] at hk
    linarith
  have hlow : d ≤ |2 * residual| := by
    rw [hodd, abs_mul, abs_of_pos positive]
    exact le_mul_of_one_le_left positive.le (Int.one_le_abs (by omega))
  rw [abs_mul, abs_two] at hlow
  omega

/-- The quotient toward zero and its remainder have the sign of the numerator. -/
theorem tdiv_sign (n : Int) (positive : 0 < d) :
    0 ≤ n ∧ 0 ≤ n.tdiv d ∧ 0 ≤ n.tmod d ∨ n < 0 ∧ n.tdiv d ≤ 0 ∧ n.tmod d ≤ 0 := by
  by_cases hn : 0 ≤ n
  · exact .inl ⟨hn, Int.tdiv_nonneg hn positive.le, Int.tmod_nonneg d hn⟩
  · obtain ⟨m, rfl⟩ : ∃ m, n = -m := ⟨-n, by omega⟩
    have hdiv := Int.tdiv_nonneg (show 0 ≤ m by omega) positive.le
    have hmod := Int.tmod_nonneg d (show 0 ≤ m by omega)
    rw [Int.neg_tdiv, Int.neg_tmod]
    exact .inr ⟨by omega, by omega, by omega⟩

theorem abs_tmod_lt (n : Int) (positive : 0 < d) : |n.tmod d| < d :=
  abs_lt.2 ⟨Int.lt_tmod_of_pos n positive, Int.tmod_lt_of_pos n positive⟩

/-- Half a quotient is rounded away from zero. -/
theorem halfUp_away (positive : 0 < d) (half : 2 * |n.tmod d| = d) :
    |(n : ℚ) / d| < |((n.tdiv d + roundingStep .halfUp (n.tdiv d) (n.tmod d) d : Int) : ℚ)| := by
  have hsum := Int.tdiv_mul_add_tmod n d
  have hd : (0 : ℚ) < d := by exact_mod_cast positive
  rw [halfUp_step positive half, abs_div, abs_of_pos hd, div_lt_iff₀ hd, ← abs_of_pos hd, ← abs_mul]
  suffices hlt : |n| < |(n.tdiv d + if 0 < n.tmod d then 1 else -1) * d| by exact_mod_cast hlt
  have hsides := abs_cases (n.tmod d)
  obtain ⟨hn, hdiv, hmod⟩ | ⟨hn, hdiv, hmod⟩ := tdiv_sign n positive
  · have hproduct := Int.mul_nonneg hdiv positive.le
    rw [if_pos (by omega), Int.add_mul, abs_of_nonneg hn, abs_of_nonneg (by omega)]
    omega
  · have hproduct := Int.mul_nonneg (show 0 ≤ -n.tdiv d by omega) positive.le
    rw [Int.neg_mul] at hproduct
    rw [if_neg (by omega), Int.add_mul, abs_of_neg hn, abs_of_neg (by omega)]
    omega

/-- Nothing of the numerator gets lost. -/
theorem step_sum (n d : Int) (policy : RoundingPolicy) :
    (n.tdiv d + roundingStep policy (n.tdiv d) (n.tmod d) d) * d +
      (n.tmod d - roundingStep policy (n.tdiv d) (n.tmod d) d * d) = n := by
  have hsum := Int.tdiv_mul_add_tmod n d
  rw [Int.add_mul]
  omega

theorem rounds_step (n : Int) (positive : 0 < d) (policy : RoundingPolicy) :
    policy.Rounds n d (n.tdiv d + roundingStep policy (n.tdiv d) (n.tmod d) d)
      (n.tmod d - roundingStep policy (n.tdiv d) (n.tmod d) d * d) := by
  have hsum := step_sum n d policy
  have hsmall := abs_tmod_lt n positive
  have hnearest {value residual : Int} (sum : value * d + residual = n)
      (half : 2 * |residual| ≤ d) : Nearest n d value residual := by
    refine ⟨half, Rounding.nearest_of_half positive ?_⟩
    rwa [show n - value * d = residual by omega]
  cases policy with
  | trunc =>
    have hstep : roundingStep .trunc (n.tdiv d) (n.tmod d) d = 0 := ite_self _
    rw [hstep, Int.add_zero] at hsum ⊢
    show n.tdiv d = if 0 ≤ n then _ else _
    have hbounds := abs_lt.1 hsmall
    obtain ⟨hn, -, hmod⟩ | ⟨hn, -, hmod⟩ := tdiv_sign n positive
    · rw [if_pos hn, Rounding.floor_div_eq positive]
      · omega
      · rw [Int.add_mul _ 1]
        omega
    · rw [if_neg (by omega), Rounding.ceil_div_eq positive]
      · rw [Int.sub_mul _ 1]
        omega
      · omega
  | floor =>
    have hrest := floor_residual (t := n.tdiv d) hsmall
    refine (Rounding.floor_div_eq positive ?_ ?_).symm
    · omega
    · rw [Int.add_mul _ 1]
      omega
  | ceil =>
    have hrest := ceil_residual (t := n.tdiv d) hsmall
    refine (Rounding.ceil_div_eq positive ?_ ?_).symm
    · rw [Int.sub_mul _ 1]
      omega
    · omega
  | halfUp =>
    have hhalf := half_residual (t := n.tdiv d) (.inl rfl) hsmall
    refine ⟨hnearest hsum hhalf, fun halfway => ?_⟩
    have hexact := residual_of_halfway positive hsum hhalf halfway
    exact halfUp_away positive (half_remainder hsmall .halfUp hexact)
  | halfEven =>
    have hhalf := half_residual (t := n.tdiv d) (.inr rfl) hsmall
    refine ⟨hnearest hsum hhalf, fun halfway => ?_⟩
    have hexact := residual_of_halfway positive hsum hhalf halfway
    exact halfEven_even positive (half_remainder hsmall .halfEven hexact)

/-- A division of `n` by `d` that was rounded as the policy says. -/
structure Divided (policy : RoundingPolicy) (n d : Int) (result : DivisionResult) : Prop where
  denominator : result.denominator = d
  sum : result.value * d + result.residual = n
  small : |result.residual| < d
  rounds : policy.Rounds n d result.value result.residual

theorem exists_divided (n : Int) (positive : 0 < d) (policy : RoundingPolicy) :
    ∃ result, divideWithPolicy n d policy = .ok result ∧ Divided policy n d result :=
  ⟨_, divideWithPolicy_eq n positive policy, rfl, step_sum n d policy,
    residual_lt (abs_tmod_lt n positive) policy, rounds_step n positive policy⟩

/-- Every policy keeps the numerator, leaves less than a denominator and rounds as it is named.  The
negated numerator is rounded to the negated value: by the policy itself, but for rounding down,
which is rounding up on the other side. -/
theorem divides_with_policy (n : Int) (positive : 0 < d) (policy : RoundingPolicy) :
    ∃ result, divideWithPolicy n d policy = .ok result ∧ Divided policy n d result ∧
      divideWithPolicy (-n) d policy.mirror = .ok ⟨-result.value, -result.residual, d⟩ := by
  obtain ⟨result, hresult, hdivided⟩ := exists_divided n positive policy
  refine ⟨result, hresult, hdivided, ?_⟩
  rw [divideWithPolicy_eq n positive] at hresult
  obtain rfl := Except.ok.inj hresult
  rw [divideWithPolicy_eq _ positive, Int.neg_tdiv, Int.neg_tmod, roundingStep_mirror]
  have hvalue (t step : Int) : -t + -step = -(t + step) := by omega
  have hrest (r step : Int) : -r - -step * d = -(r - step * d) := by
    rw [Int.neg_mul]
    omega
  rw [hvalue, hrest]

/-- Half a quotient below zero, to the even integer. -/
theorem divides_with_policy_half :
    ∃ result, divideWithPolicy (-25) 10 .halfEven = .ok result ∧ Divided .halfEven (-25) 10 result ∧
      divideWithPolicy (- -25) 10 .halfEven = .ok ⟨-result.value, -result.residual, 10⟩ :=
  divides_with_policy (-25) (by decide) .halfEven

end Amana.Backend
