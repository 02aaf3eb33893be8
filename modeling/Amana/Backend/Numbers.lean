import Amana.Backend.DecimalAmounts

/-!
# Numbers as texts

`BigInt` reads a text as a whole number, and throws at anything else (`none`).  A numeral is read as
the number it is (`bigInt_of_isNumeral`); a text with a character inside that is neither a letter
nor a digit is not read at all (`bigInt_eq_none`).  So a decimal text is read just when it has no
point (`bigInt_isSome_iff`).

`Number` of a whole number is the nearest double, which is the number itself below `2 ^ 53`.
-/

namespace Amana.Backend

open Lib

/-- The value of a digit, in radices up to 36. -/
def digitValue (c : Char) : Option Nat :=
  if c.isDigit then some (c.toNat - '0'.toNat)
  else if c.isLower then some (c.toNat - 'a'.toNat + 10)
  else if c.isUpper then some (c.toNat - 'A'.toNat + 10)
  else none

/-- The number these digits stand for; there is at least one. -/
def radixValue (radix : Nat) (digits : List Char) : Option Nat :=
  if digits = [] then none
  else
    digits.foldlM (fun value c => do
      let digit ← digitValue c
      if digit < radix then some (value * radix + digit) else none) 0

/-- `BigInt` of a text. -/
def bigInt (text : String) : Option Int :=
  match (Text.trim text).toList with
  | [] => some 0
  | '0' :: 'x' :: digits | '0' :: 'X' :: digits => (radixValue 16 digits).map Int.ofNat
  | '0' :: 'o' :: digits | '0' :: 'O' :: digits => (radixValue 8 digits).map Int.ofNat
  | '0' :: 'b' :: digits | '0' :: 'B' :: digits => (radixValue 2 digits).map Int.ofNat
  | '-' :: digits => (radixValue 10 digits).map fun n => -Int.ofNat n
  | '+' :: digits => (radixValue 10 digits).map Int.ofNat
  | digits => (radixValue 10 digits).map Int.ofNat

example : bigInt " -0120 " = some (-120) ∧ bigInt "0x1F" = some 31 ∧ bigInt "1.5" = none := by
  decide

theorem digitValue_of_isDigit {c : Char} (h : c.isDigit = true) :
    digitValue c = some (c.toNat - '0'.toNat) ∧ c.toNat - '0'.toNat < 10 := by
  have hhigh : c.val.toNat ≤ 57 := by
    simp only [Char.isDigit, Bool.and_eq_true, decide_eq_true_eq, UInt32.le_iff_toNat_le] at h
    exact h.2
  have hzero : '0'.toNat = 48 := rfl
  have hvalue : c.toNat = c.val.toNat := rfl
  exact ⟨if_pos h, by omega⟩

theorem radixValue_of_isNumeral {cs : List Char} (h : isNumeral cs = true) :
    radixValue 10 cs = some (numeralValue cs) := by
  obtain ⟨hne, hdigits⟩ := Bool.and_eq_true_iff.1 h
  have hfold : ∀ start, cs.foldlM (fun value c => do
      let digit ← digitValue c
      if digit < 10 then some (value * 10 + digit) else none) start =
      some (Nat.ofDigitChars 10 cs start) := by
    clear hne h
    induction cs with
    | nil => simp
    | cons c cs ih =>
      intro start
      rw [List.all_cons, Bool.and_eq_true] at hdigits
      obtain ⟨hvalue, hsmall⟩ := digitValue_of_isDigit hdigits.1
      rw [List.foldlM_cons, hvalue, Nat.ofDigitChars_cons, Nat.mul_comm 10]
      simp only [Option.bind_eq_bind, Option.bind_some, if_pos hsmall]
      exact ih hdigits.2 _
  rw [radixValue, if_neg (by simpa using hne)]
  exact hfold 0

/-- A numeral is read as the number it is. -/
theorem bigInt_of_isNumeral {text : String} (h : isNumeral text.toList = true) :
    bigInt text = some (numeralValue text.toList : Int) := by
  have hdigits := List.all_eq_true.1 (Bool.and_eq_true_iff.1 h).2
  have htrim : Text.trim text = text :=
    Text.trim_of_forall fun c hc => isBlank_of_isDigit (hdigits c hc)
  have hradix := radixValue_of_isNumeral h
  have hdigit : ∀ c, c.isDigit = false → c ∉ text.toList := by
    intro c hc hmem
    simp [hdigits c hmem] at hc
  rw [bigInt, htrim]
  split
  · next hnil => simp [hnil, isNumeral] at h
  -- No numeral has a radix letter or a sign.
  · next digits heq => exact absurd (by simp [heq]) (hdigit 'x' (by decide))
  · next digits heq => exact absurd (by simp [heq]) (hdigit 'X' (by decide))
  · next digits heq => exact absurd (by simp [heq]) (hdigit 'o' (by decide))
  · next digits heq => exact absurd (by simp [heq]) (hdigit 'O' (by decide))
  · next digits heq => exact absurd (by simp [heq]) (hdigit 'b' (by decide))
  · next digits heq => exact absurd (by simp [heq]) (hdigit 'B' (by decide))
  · next digits heq => exact absurd (by simp [heq]) (hdigit '-' (by decide))
  · next digits heq => exact absurd (by simp [heq]) (hdigit '+' (by decide))
  · rw [hradix]
    rfl

theorem radixValue_eq_none {radix : Nat} {digits : List Char} {c : Char} (mem : c ∈ digits)
    (other : digitValue c = none) : radixValue radix digits = none := by
  have hfold : ∀ start, digits.foldlM (fun value c => do
      let digit ← digitValue c
      if digit < radix then some (value * radix + digit) else none) start = none := by
    induction digits with
    | nil => simp at mem
    | cons d ds ih =>
      intro start
      rw [List.foldlM_cons]
      obtain rfl | hmem := List.mem_cons.1 mem
      · simp [other]
      · cases hd : digitValue d with
        | none => simp
        | some digit =>
          simp only [Option.bind_eq_bind, Option.bind_some]
          split
          · exact ih hmem _
          · rfl
  rw [radixValue, if_neg (List.ne_nil_of_mem mem)]
  exact hfold 0

/-- Nothing is read from a text with another character inside. -/
theorem bigInt_eq_none {text : String} {c : Char} (mem : c ∈ (Text.trim text).toList)
    (other : digitValue c = none) (minus : c ≠ '-') (plus : c ≠ '+') : bigInt text = none := by
  have hletters : c ≠ '0' ∧ c ≠ 'x' ∧ c ≠ 'X' ∧ c ≠ 'o' ∧ c ≠ 'O' ∧ c ≠ 'b' ∧ c ≠ 'B' := by
    refine ⟨?_, ?_, ?_, ?_, ?_, ?_, ?_⟩ <;>
    · rintro rfl
      simp [digitValue] at other
  rw [bigInt]
  split
  · next hnil => simp [hnil] at mem
  all_goals
    rw [radixValue_eq_none _ other]
    · rfl
    · simp_all

/-- A decimal text without a point is read as the number it stands for. -/
theorem bigInt_of_isDecimal {text : String} {decimals : Nat} (decimal : IsDecimal decimals text)
    (whole : '.' ∉ text.toList) : ∃ n : Int, bigInt text = some n ∧ (n : ℚ) = decimalValue text := by
  obtain ⟨t, ht⟩ := exists_of_decimalPattern decimal.1
  have hnone : t.fraction = none := by
    cases h : t.fraction with
    | none => rfl
    | some digits =>
      have hmem : '.' ∈ t.unsigned := by simp [DecimalText.unsigned, h]
      refine absurd ?_ whole
      rw [← ht, DecimalText.chars]
      split
      · exact List.mem_cons_of_mem _ hmem
      · exact hmem
  have hunsigned : t.unsigned = t.whole := by rw [DecimalText.unsigned, hnone]
  have hvalue : t.value = (if t.negative then -1 else 1) * (numeralValue t.whole : ℚ) := by
    rw [DecimalText.value, DecimalText.fractionDigits, hnone]
    simp [numeralValue]
  have htrim : Text.trim text = text := by
    apply Text.trim_of_forall
    intro c hc
    rw [← ht] at hc
    exact t.isBlank_of_mem hc
  rw [decimalValue_of_chars ht.symm, hvalue]
  by_cases hsign : t.negative = true
  · have htext : text.toList = '-' :: t.whole := by
      rw [← ht, DecimalText.chars, if_pos hsign, hunsigned]
    refine ⟨-(numeralValue t.whole : Int), ?_, by simp [hsign]⟩
    simp only [bigInt, htrim, htext]
    rw [radixValue_of_isNumeral t.whole_numeral]
    rfl
  · have htext : text.toList = t.whole := by
      rw [← ht, DecimalText.chars, if_neg hsign, hunsigned]
    refine ⟨numeralValue t.whole, ?_, by simp [hsign]⟩
    rw [bigInt_of_isNumeral (by rw [htext]; exact t.whole_numeral), htext]

/-- A decimal text is read just when it has no point. -/
theorem bigInt_isSome_iff {text : String} {decimals : Nat} (decimal : IsDecimal decimals text) :
    (bigInt text).isSome = true ↔ '.' ∉ text.toList := by
  constructor
  · intro hsome hmem
    obtain ⟨t, ht⟩ := exists_of_decimalPattern decimal.1
    have htrim : Text.trim text = text := by
      apply Text.trim_of_forall
      intro c hc
      rw [← ht] at hc
      exact t.isBlank_of_mem hc
    rw [bigInt_eq_none (by rwa [htrim]) (by decide) (by decide) (by decide)] at hsome
    cases hsome
  · intro hwhole
    obtain ⟨n, hn, -⟩ := bigInt_of_isDecimal decimal hwhole
    rw [hn]
    rfl

/-- `BigInt` of a number. -/
def bigIntOfNumber (value : ℚ) : Option Int := if value.isInt then some value.num else none

/-! ## Doubles -/

/-- What rounds to this is too large for a double. -/
def doubleBound : Nat := 2 ^ 1024

/-- `Number` of a whole number that is not negative: the nearest double, and of two the even one.
What is too large is `Infinity`. -/
def toNumber (n : Nat) : WithTop Nat :=
  let unit := 2 ^ (Nat.log2 n - 52)
  let quotient := n / unit
  let rest := n % unit
  let rounded :=
    if 2 * rest < unit ∨ 2 * rest = unit ∧ quotient % 2 = 0 then quotient else quotient + 1
  if rounded * unit < doubleBound then (rounded * unit : Nat) else ⊤

example : toNumber 9007199254740993 = (9007199254740992 : Nat) := by decide +kernel

/-- Compared with a safe integer, a number and its double are on the same side. -/
theorem lt_toNumber_iff {w : Nat} (safe : w < 2 ^ 53) (n : Nat) :
    (w : WithTop Nat) < toNumber n ↔ w < n := by
  by_cases hn : n < 2 ^ 53
  · have hunit : Nat.log2 n - 52 = 0 := by
      by_cases hzero : n = 0
      · subst hzero
        decide
      · have hlog := (Nat.log2_lt hzero).2 hn
        omega
    have hbound : 2 ^ 53 ≤ doubleBound := by
      rw [doubleBound, pow_le_pow_iff_right₀ (by decide)]
      decide
    have hsmall : n < doubleBound := by omega
    simp [toNumber, hunit, Nat.mod_one, hsmall]
  · have hzero : n ≠ 0 := by omega
    have hlog : 53 ≤ Nat.log2 n := (Nat.le_log2 hzero).2 (by omega)
    have hself : 2 ^ Nat.log2 n ≤ n := Nat.log2_self_le hzero
    have hquotient : 2 ^ 52 ≤ n / 2 ^ (Nat.log2 n - 52) := by
      rw [Nat.le_div_iff_mul_le (Nat.pow_pos (by decide)), ← pow_add]
      rwa [Nat.add_sub_cancel' (by omega)]
    have hunit : 2 ^ 1 ≤ 2 ^ (Nat.log2 n - 52) := Nat.pow_le_pow_right (by decide) (by omega)
    have hbound : ∀ m, 2 ^ 52 ≤ m →
        (w : WithTop Nat) < if m * 2 ^ (Nat.log2 n - 52) < doubleBound then
          ((m * 2 ^ (Nat.log2 n - 52) : Nat) : WithTop Nat) else ⊤ := by
      intro m hm
      have hproduct := Nat.mul_le_mul hm hunit
      have hlt : w < m * 2 ^ (Nat.log2 n - 52) := by omega
      split
      · exact_mod_cast hlt
      · exact WithTop.coe_lt_top w
    refine iff_of_true ?_ (by omega)
    unfold toNumber
    dsimp only
    split
    · exact hbound _ hquotient
    · exact hbound _ (by omega)

end Amana.Backend
