import Amana.Backend.Rounding

/-!
# The dust ledger

What rounding leaves of one accrual window is folded into the next one.  A ledger is never built
over a denominator that is not positive, so its divisions never fail (`call_carries`), and over any
series of calls what was paid and what is still held are what was carried in and what accrued
(`carries_run`).
-/

namespace Amana.Backend

open Lib

/-- `denominator` is positive, or the constructor would have thrown. -/
structure DustLedger where
  residualNumerator : Int
  policy : RoundingPolicy
  denominator : Int
  positive : 0 < denominator

namespace DustLedger

/-- `new DustLedger(policy, carriedIn, denominator)`. -/
def new (policy : RoundingPolicy) (carriedIn denominator : Int) : Except String DustLedger :=
  if h : denominator ≤ 0 then
    .error s!"DustLedger: denominator must be positive, received {denominator}"
  else .ok ⟨carriedIn, policy, denominator, Int.not_le.1 h⟩

def residual (ledger : DustLedger) : Int := ledger.residualNumerator

def accrue (ledger : DustLedger) (numerator : Int) :
    Except String (DivisionResult × DustLedger) := do
  let result ←
    divideWithPolicy (numerator + ledger.residualNumerator) ledger.denominator ledger.policy
  return (result, { ledger with residualNumerator := result.residual })

def accrueBps (ledger : DustLedger) (amount bps : Int) :
    Except String (DivisionResult × DustLedger) :=
  ledger.accrue (amount * bps)

def settle (ledger : DustLedger) : Int × DustLedger :=
  let whole := ledger.residualNumerator.tdiv ledger.denominator
  (whole, { ledger with
    residualNumerator := ledger.residualNumerator - whole * ledger.denominator })

end DustLedger

/-! ## Series of calls -/

inductive LedgerCall where
  | accrue (numerator : Int)
  | accrueBps (amount bps : Int)
  | settle
  deriving DecidableEq, Repr

/-- What a call adds to the numerators. -/
def LedgerCall.numerator : LedgerCall → Int
  | .accrue numerator => numerator
  | .accrueBps amount bps => amount * bps
  | .settle => 0

namespace DustLedger

/-- A call and the whole units it pays. -/
def call (ledger : DustLedger) : LedgerCall → Except String (Int × DustLedger)
  | .accrue numerator => do
    let (result, ledger) ← ledger.accrue numerator
    return (result.value, ledger)
  | .accrueBps amount bps => do
    let (result, ledger) ← ledger.accrueBps amount bps
    return (result.value, ledger)
  | .settle => return ledger.settle

/-- The payments of a series of calls, and the ledger after it. -/
def run (ledger : DustLedger) : List LedgerCall → Except String (List Int × DustLedger)
  | [] => return ([], ledger)
  | c :: calls => do
    let (paid, ledger) ← ledger.call c
    let (payments, ledger) ← ledger.run calls
    return (paid :: payments, ledger)

end DustLedger

/-- What was held and what accrued is what was paid and what is left. -/
structure CarriesOver (before : DustLedger) (numerator paid : Int) (after : DustLedger) : Prop where
  policy : after.policy = before.policy
  denominator : after.denominator = before.denominator
  balance : before.denominator * paid + after.residual = before.residual + numerator

variable {ledger before middle after : DustLedger} {n m paid later : Int}

theorem CarriesOver.refl (ledger : DustLedger) : CarriesOver ledger 0 0 ledger where
  policy := rfl
  denominator := rfl
  balance := by omega

theorem CarriesOver.trans (first : CarriesOver before n paid middle)
    (second : CarriesOver middle m later after) :
    CarriesOver before (n + m) (paid + later) after where
  policy := second.policy.trans first.policy
  denominator := second.denominator.trans first.denominator
  balance := by
    have hfirst := first.balance
    have hsecond := second.balance
    rw [first.denominator] at hsecond
    rw [Int.mul_add]
    omega

/-! ## One call -/

theorem accrue_carries (ledger : DustLedger) (n : Int) :
    ∃ result after, ledger.accrue n = .ok (result, after) ∧
      CarriesOver ledger n result.value after ∧ |after.residual| < ledger.denominator := by
  obtain ⟨result, hresult, hdivided⟩ :=
    exists_divided (n + ledger.residualNumerator) ledger.positive ledger.policy
  refine ⟨result, { ledger with residualNumerator := result.residual }, ?_, ⟨rfl, rfl, ?_⟩,
    hdivided.small⟩
  · rw [DustLedger.accrue, hresult]
    rfl
  · have hsum := hdivided.sum
    rw [Int.mul_comm] at hsum
    show _ = ledger.residualNumerator + n
    rw [Int.add_comm _ n]
    exact hsum

theorem settle_carries (ledger : DustLedger) :
    CarriesOver ledger 0 ledger.settle.1 ledger.settle.2 ∧
      |ledger.settle.2.residual| < ledger.denominator := by
  have hsum := Int.tdiv_mul_add_tmod ledger.residualNumerator ledger.denominator
  have hrest : ledger.settle.2.residual = ledger.residualNumerator.tmod ledger.denominator := by
    show _ - _ = _
    omega
  rw [hrest]
  refine ⟨⟨rfl, rfl, ?_⟩, abs_tmod_lt _ ledger.positive⟩
  rw [hrest, Int.mul_comm]
  show _ = ledger.residualNumerator + 0
  rw [Int.add_zero]
  exact hsum

/-- No call fails, and every call leaves less than a unit. -/
theorem call_carries (ledger : DustLedger) (c : LedgerCall) :
    ∃ paid after, ledger.call c = .ok (paid, after) ∧
      CarriesOver ledger c.numerator paid after ∧ |after.residual| < ledger.denominator := by
  cases c with
  | accrue n =>
    obtain ⟨result, after, haccrue, hcarries⟩ := accrue_carries ledger n
    refine ⟨result.value, after, ?_, hcarries⟩
    rw [DustLedger.call, haccrue]
    rfl
  | accrueBps amount bps =>
    obtain ⟨result, after, haccrue, hcarries⟩ := accrue_carries ledger (amount * bps)
    refine ⟨result.value, after, ?_, hcarries⟩
    rw [DustLedger.call, DustLedger.accrueBps, haccrue]
    rfl
  | settle => exact ⟨_, _, rfl, settle_carries ledger⟩

/-! ## Series -/

/-- A series never fails, and it ends with less than a unit unless it is empty. -/
theorem carries_run (ledger : DustLedger) (calls : List LedgerCall) :
    ∃ payments after, ledger.run calls = .ok (payments, after) ∧
      CarriesOver ledger (calls.map LedgerCall.numerator).sum payments.sum after ∧
      (calls ≠ [] → |after.residual| < ledger.denominator) := by
  induction calls generalizing ledger with
  | nil => exact ⟨[], ledger, rfl, .refl ledger, (absurd rfl ·)⟩
  | cons c calls ih =>
    obtain ⟨paid, middle, hcall, hfirst, hsmall⟩ := call_carries ledger c
    obtain ⟨payments, after, hrun, hrest, hend⟩ := ih middle
    refine ⟨paid :: payments, after, ?_, hfirst.trans hrest, fun _ => ?_⟩
    · rw [DustLedger.run, hcall]
      show (middle.run calls >>= _) = _
      rw [hrun]
      rfl
    · by_cases hempty : calls = []
      · subst hempty
        cases hrun
        exact hsmall
      · rw [← hfirst.denominator]
        exact hend hempty

/-- What a ledger reports of a series of calls. -/
structure Settled (carriedIn denominator : Int) (calls : List LedgerCall) (payments : List Int)
    (residual : Int) : Prop where
  each : payments.length = calls.length
  balance : denominator * payments.sum + residual =
    carriedIn + (calls.map LedgerCall.numerator).sum
  small : calls ≠ [] → |residual| < denominator
  /-- One unit and what was carried in, against the exact total. -/
  drift : |(payments.sum : ℚ) - ((calls.map LedgerCall.numerator).sum : ℚ) / denominator| <
    1 + |(carriedIn : ℚ)| / denominator

/-- Every call pays once. -/
theorem length_run {ledger after : DustLedger} {calls : List LedgerCall} {payments : List Int}
    (h : ledger.run calls = .ok (payments, after)) : payments.length = calls.length := by
  induction calls generalizing ledger payments with
  | nil =>
    cases h
    rfl
  | cons c calls ih =>
    obtain ⟨paid, middle, hcall, -⟩ := call_carries ledger c
    obtain ⟨rest, last, hrun, -⟩ := carries_run middle calls
    rw [DustLedger.run, hcall] at h
    change (middle.run calls >>= _) = _ at h
    rw [hrun] at h
    cases h
    rw [List.length_cons, List.length_cons, ih hrun]

/-- For any policy, denominator and carried residual, a series of calls loses nothing, holds less
than a unit after every call and pays the exact total but for one unit and what was carried in. -/
theorem dust_carried {policy : RoundingPolicy} {carriedIn denominator : Int}
    (h : DustLedger.new policy carriedIn denominator = .ok ledger) (calls : List LedgerCall) :
    ∃ payments after, ledger.run calls = .ok (payments, after) ∧
      Settled carriedIn denominator calls payments after.residual := by
  obtain ⟨payments, after, hrun, hcarries, hsmall⟩ := carries_run ledger calls
  have hpositive := ledger.positive
  have hbalance := hcarries.balance
  have hnew : ledger.denominator = denominator ∧ ledger.residual = carriedIn := by
    rw [DustLedger.new] at h
    split at h
    · cases h
    · cases h
      exact ⟨rfl, rfl⟩
  rw [hnew.1] at hpositive hbalance hsmall
  rw [hnew.2] at hbalance
  refine ⟨payments, after, hrun, length_run hrun, hbalance, hsmall, ?_⟩
  have hd : (0 : ℚ) < denominator := by exact_mod_cast hpositive
  rw [Rounding.abs_sub_div hpositive, div_lt_iff₀ hd, add_mul, one_mul, div_mul_cancel₀ _ hd.ne']
  suffices hdrift : |(calls.map LedgerCall.numerator).sum - payments.sum * denominator| <
    denominator + |carriedIn| by exact_mod_cast hdrift
  rw [Int.mul_comm payments.sum]
  by_cases hempty : calls = []
  · subst hempty
    cases hrun
    have hcarried := abs_nonneg carriedIn
    simp only [List.map_nil, List.sum_nil, Int.mul_zero, Int.sub_zero, abs_zero]
    omega
  · have hheld := abs_sub after.residual carriedIn
    have hless := hsmall hempty
    rw [show (calls.map LedgerCall.numerator).sum - denominator * payments.sum =
      after.residual - carriedIn by omega]
    omega

/-- The first window is paid more than it holds, and the second one makes up for it. -/
theorem dust_carried_halves :
    ∃ payments after,
      DustLedger.run ⟨-3, .halfUp, 10, by decide⟩ [.accrue 9, .accrueBps 3 5, .settle] =
        .ok (payments, after) ∧
      Settled (-3) 10 [.accrue 9, .accrueBps 3 5, .settle] payments after.residual :=
  dust_carried (show DustLedger.new .halfUp (-3) 10 = _ from rfl) _

end Amana.Backend
