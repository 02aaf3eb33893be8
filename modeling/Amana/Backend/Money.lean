import Amana.Lib.MachineInt
import Amana.Lib.Text

/-!
# Money

`money.ts` takes an amount of money from a text to stroops: the digits of the text are put together
without its point, and filled up with zeros.  So a whole number of stroops that is read as a text is
read `10 ^ decimals` times too large (`parse_toString`).

A division of an amount is rounded as its caller says, and comes with what rounding left over; what
follows the contract is rounded toward zero (`divideWithPolicy_trunc`).
-/

namespace Amana.Backend

open Lib

/-! ## Numerals -/

/-- `\d+`. -/
def isNumeral (cs : List Char) : Bool := !cs.isEmpty && cs.all Char.isDigit

/-- `BigInt` of a numeral. -/
def numeralValue (cs : List Char) : Nat := Nat.ofDigitChars 10 cs 0

theorem point_not_mem_of_isNumeral {cs : List Char} (h : isNumeral cs = true) :
    ∀ c ∈ cs, (c == '.') = false := by
  intro c hc
  have hdigit : c.isDigit = true := List.all_eq_true.1 (Bool.and_eq_true_iff.1 h).2 c hc
  by_contra hpoint
  obtain rfl : c = '.' := by simpa using hpoint
  exact absurd hdigit (by decide)

/-- A numeral has no point to be split at. -/
theorem splitOn_of_isNumeral {cs : List Char} (h : isNumeral cs = true) :
    cs.splitOn '.' = [cs] := by
  rw [List.splitOn_eq_splitOnP]
  exact List.splitOnP_eq_singleton (point_not_mem_of_isNumeral h)

theorem digits_of_isNumeral {cs : List Char} (h : isNumeral cs = true) :
    cs.all Char.isDigit = true := (Bool.and_eq_true_iff.1 h).2

theorem numeralValue_append (cs ds : List Char) :
    numeralValue (cs ++ ds) = numeralValue cs * 10 ^ ds.length + numeralValue ds := by
  rw [numeralValue, Nat.ofDigitChars_append, Nat.ofDigitChars_eq_ofDigitChars_zero,
    mul_comm (10 ^ _)]
  rfl

/-- Zeros at the end multiply by ten. -/
theorem numeralValue_append_zeros (cs : List Char) (n : Nat) :
    numeralValue (cs ++ List.replicate n '0') = numeralValue cs * 10 ^ n := by
  have hzeros : numeralValue (List.replicate n '0') = 0 := by
    rw [numeralValue, Nat.ofDigitChars_replicate_zero, mul_zero]
  rw [numeralValue_append, List.length_replicate, hzeros, add_zero]

/-- Digits at the end do not make a number smaller. -/
theorem numeralValue_append_le (cs ds : List Char) :
    numeralValue cs ≤ numeralValue (cs ++ ds) := by
  have hscaled := Nat.le_mul_of_pos_right (numeralValue cs)
    (Nat.pow_pos (n := ds.length) (show 0 < 10 by omega))
  rw [numeralValue_append]
  omega

/-- A number with a digit other than zero is positive. -/
theorem numeralValue_pos {cs : List Char} {c : Char} (mem : c ∈ cs) (digit : c.isDigit = true)
    (nonzero : c ≠ '0') : 0 < numeralValue cs := by
  obtain ⟨before, after, rfl⟩ := List.append_of_mem mem
  have hvalue : '0'.toNat < c.toNat := by
    have hlow : '0'.toNat ≤ c.toNat := by
      simp only [Char.isDigit, Bool.and_eq_true, decide_eq_true_eq, UInt32.le_iff_toNat_le] at digit
      exact digit.1
    have hne : '0'.toNat ≠ c.toNat := fun heq => nonzero (Char.toNat_inj.1 heq.symm)
    omega
  have hlast : 0 < numeralValue (before ++ [c]) := by
    rw [numeralValue, Nat.ofDigitChars_append, Nat.ofDigitChars_cons, Nat.ofDigitChars_nil]
    omega
  have hsplit : before ++ c :: after = before ++ [c] ++ after := by simp
  rw [hsplit]
  exact hlast.trans_le (numeralValue_append_le _ _)

theorem isNumeral_toString (n : Nat) : isNumeral (toString n).toList = true := by
  have hdigits : (toString n).toList = Nat.toDigits 10 n := Nat.toList_repr
  rw [isNumeral, hdigits, Bool.and_eq_true_iff, List.all_eq_true]
  refine ⟨by simp [Nat.toDigits_ne_nil], fun c hc => ?_⟩
  exact Nat.isDigit_of_mem_toDigits (by decide) (by decide) hc

theorem numeralValue_toString (n : Nat) : numeralValue (toString n).toList = n := by
  have hdigits : (toString n).toList = Nat.toDigits 10 n := Nat.toList_repr
  rw [numeralValue, hdigits]
  exact Nat.ofDigitChars_ten_toDigits

/-! ## Decimal amounts -/

/-- `MONEY_DECIMALS`. -/
def moneyDecimals : Nat := 7

structure MoneyConversionError where
  message : String
  deriving DecidableEq, Repr

def assertI128Range (stroops : Int) : Except MoneyConversionError Int :=
  if I128.maxValue < stroops ∨ stroops < I128.minValue then
    .error ⟨s!"Amount {stroops} is outside the i128 range accepted by the contract"⟩
  else .ok stroops

/-- A text without its sign. -/
def withoutSign (text : List Char) : List Char :=
  if text.head? = some '-' then text.tail else text

/-- `DECIMAL_PATTERN`, `/^-?\d+(\.\d+)?$/`. -/
def decimalPattern (text : List Char) : Bool :=
  match (withoutSign text).splitOn '.' with
  | [whole] => isNumeral whole
  | [whole, fraction] => isNumeral whole && isNumeral fraction
  | _ => false

/-- `const [wholePart, fractionPart = ""] = unsigned.split(".")`. -/
def decimalParts (text : List Char) : List Char × List Char :=
  match text.splitOn '.' with
  | whole :: fraction :: _ => (whole, fraction)
  | parts => (parts.headD [], [])

/-- `parseDecimalToStroops` of a text. -/
def parseDecimalToStroops (value : String) (decimals : Nat) : Except MoneyConversionError Int :=
  let trimmed := (Text.trim value).toList
  if decimalPattern trimmed then
    let (wholePart, fractionPart) := decimalParts (withoutSign trimmed)
    if decimals < fractionPart.length then
      .error ⟨s!"Amount \"{value}\" has {fractionPart.length} decimal places; at most {decimals} " ++
        "are representable"⟩
    else
      let magnitude : Int := numeralValue (wholePart ++ fractionPart.rightpad decimals '0')
      assertI128Range (if trimmed.head? = some '-' then -magnitude else magnitude)
  else .error ⟨s!"Invalid decimal amount: \"{value}\""⟩

example : parseDecimalToStroops " 125.5" 7 = .ok 1255000000 := by decide +kernel

theorem assertI128Range_eq_ok {stroops x : Int} :
    assertI128Range stroops = .ok x ↔
      (I128.minValue ≤ stroops ∧ stroops ≤ I128.maxValue) ∧ stroops = x := by
  unfold assertI128Range
  by_cases h : I128.maxValue < stroops ∨ stroops < I128.minValue
  · rw [if_pos h]
    constructor
    · rintro ⟨⟩
    · rintro ⟨hrange, -⟩
      omega
  · rw [if_neg h, Except.ok.injEq]
    refine ⟨fun heq => ⟨by omega, heq⟩, And.right⟩

/-- A digit is no sign. -/
theorem head?_ne_sign {cs : List Char} (h : isNumeral cs = true) : cs.head? ≠ some '-' := by
  intro hsign
  have hdigit := List.all_eq_true.1 (Bool.and_eq_true_iff.1 h).2 '-' (List.mem_of_head? hsign)
  exact absurd hdigit (by decide)

theorem isBlank_of_isDigit {c : Char} (h : c.isDigit = true) : Text.isBlank c = false := by
  have hlisted : c ∉ Text.blanks := by
    have hnone : (Text.blanks.all fun c => !c.isDigit) = true := by decide
    intro hmem
    have hdigit := List.all_eq_true.1 hnone c hmem
    rw [h] at hdigit
    cases hdigit
  have hhigh : c.val.toNat ≤ 57 := by
    simp only [Char.isDigit, Bool.and_eq_true, decide_eq_true_eq, UInt32.le_iff_toNat_le] at h
    exact h.2
  have hspace : ¬ '\u2000' ≤ c := fun hle => by
    have hlow : 8192 ≤ c.val.toNat := UInt32.le_iff_toNat_le.1 hle
    omega
  simp [Text.isBlank, hlisted, hspace]

theorem withoutSign_of_head? {text : List Char} (h : text.head? ≠ some '-') :
    withoutSign text = text := if_neg h

/-- An amount without blanks and without a sign. -/
theorem parse_of_pattern {value : String} {decimals : Nat} (trimmed : Text.trim value = value)
    (nonneg : value.toList.head? ≠ some '-') (pattern : decimalPattern value.toList = true)
    (fits : (decimalParts value.toList).2.length ≤ decimals) :
    parseDecimalToStroops value decimals =
      assertI128Range (numeralValue ((decimalParts value.toList).1 ++
        (decimalParts value.toList).2.rightpad decimals '0')) := by
  simp only [parseDecimalToStroops, trimmed, pattern, if_true, withoutSign_of_head? nonneg,
    if_neg (Nat.not_lt.2 fits), if_neg nonneg]

/-- `BPS_DIVISOR`. -/
def bpsDivisor : Int := 10000

inductive RoundingPolicy where
  | trunc
  | floor
  | ceil
  | halfUp
  | halfEven
  deriving DecidableEq, Repr

/-- `CONTRACT_ROUNDING`. -/
def contractRounding : RoundingPolicy := .trunc

structure DivisionResult where
  value : Int
  residual : Int
  denominator : Int
  deriving DecidableEq, Repr

/-- An error is the message of an `Error`. -/
def divideWithPolicy (numerator denominator : Int) (policy : RoundingPolicy) :
    Except String DivisionResult :=
  if denominator ≤ 0 then
    .error s!"divideWithPolicy: denominator must be positive, received {denominator}"
  else
    let truncated := numerator.tdiv denominator
    let remainder := numerator - truncated * denominator
    if remainder = 0 then .ok ⟨truncated, 0, denominator⟩
    else
      let step := if 0 < remainder then 1 else -1
      let twiceRemainder := if remainder < 0 then -remainder * 2 else remainder * 2
      let value :=
        match policy with
        | .trunc => truncated
        | .floor => if remainder < 0 then truncated - 1 else truncated
        | .ceil => if 0 < remainder then truncated + 1 else truncated
        | .halfUp => if denominator ≤ twiceRemainder then truncated + step else truncated
        | .halfEven =>
          if denominator < twiceRemainder then truncated + step
          else if twiceRemainder < denominator then truncated
          else if truncated.tmod 2 = 0 then truncated
          else truncated + step
      .ok ⟨value, numerator - value * denominator, denominator⟩

def applyBps (amount bps : Int) (policy : RoundingPolicy) : Except String DivisionResult :=
  if bps < 0 then .error s!"applyBps: bps must not be negative, received {bps}"
  else divideWithPolicy (amount * bps) bpsDivisor policy

example : divideWithPolicy (-25) 10 .halfEven = .ok ⟨-2, -5, 10⟩ := by decide

theorem divideWithPolicy_trunc (numerator : Int) {denominator : Int} (positive : 0 < denominator) :
    divideWithPolicy numerator denominator .trunc =
      .ok ⟨numerator.tdiv denominator, numerator.tmod denominator, denominator⟩ := by
  have hrest : numerator - numerator.tdiv denominator * denominator =
      numerator.tmod denominator := by
    have hsum := Int.tdiv_mul_add_tmod numerator denominator
    omega
  rw [divideWithPolicy, if_neg (by omega)]
  dsimp only
  rw [hrest]
  split
  · next hexact => rw [hexact]
  · rfl

theorem applyBps_trunc (amount : Int) {bps : Int} (nonneg : 0 ≤ bps) :
    applyBps amount bps contractRounding =
      .ok ⟨(amount * bps).tdiv bpsDivisor, (amount * bps).tmod bpsDivisor, bpsDivisor⟩ := by
  rw [applyBps, if_neg (by omega)]
  exact divideWithPolicy_trunc _ (by decide)

end Amana.Backend
