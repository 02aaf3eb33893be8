import Amana.Backend.Money
import Mathlib.Algebra.Order.Field.Rat
import Mathlib.Tactic.FieldSimp

/-!
# Decimal amounts as texts

An amount leaves the backend as a decimal text and comes back as one.  What `money.ts` accepts is
the text of a decimal number with few enough places (`parse_eq_ok_iff`), and it writes each amount
in one way only, which reads as that amount (`parse_format`).  So the way an amount is written is
the amount: two texts are normalized to the same one just when they are worth the same.
-/

namespace Amana.Backend

open Lib

/-- A decimal number as it is written: `-?\d+(\.\d+)?`. -/
structure DecimalText where
  negative : Bool
  whole : List Char
  fraction : Option (List Char)
  whole_numeral : isNumeral whole = true
  fraction_numeral : ∀ digits ∈ fraction, isNumeral digits = true

namespace DecimalText

variable (t : DecimalText)

def fractionDigits : List Char := t.fraction.getD []

def unsigned : List Char :=
  match t.fraction with
  | none => t.whole
  | some digits => t.whole ++ '.' :: digits

def chars : List Char := if t.negative then '-' :: t.unsigned else t.unsigned

/-- The number that is written. -/
def value : ℚ :=
  (if t.negative then -1 else 1) *
    (numeralValue t.whole + numeralValue t.fractionDigits / 10 ^ t.fractionDigits.length)

/-- The number in units of which there are `10 ^ decimals` to one. -/
def stroops (decimals : Nat) : Int :=
  let magnitude : Int := numeralValue (t.whole ++ t.fractionDigits.rightpad decimals '0')
  if t.negative then -magnitude else magnitude

theorem head?_unsigned : t.unsigned.head? ≠ some '-' := by
  have hwhole := head?_ne_sign t.whole_numeral
  have hsome : t.whole ≠ [] := by
    intro hnil
    simpa [hnil, isNumeral] using t.whole_numeral
  unfold unsigned
  split
  · exact hwhole
  · rwa [List.head?_append_of_ne_nil _ hsome]

@[simp] theorem head?_chars : t.chars.head? = some '-' ↔ t.negative = true := by
  unfold chars
  split
  · next h => simp [h]
  · next h => simp [h, t.head?_unsigned]

@[simp] theorem withoutSign_chars : withoutSign t.chars = t.unsigned := by
  unfold chars
  split
  · simp [withoutSign]
  · exact withoutSign_of_head? t.head?_unsigned

theorem splitOn_unsigned :
    t.unsigned.splitOn '.' = t.whole :: (t.fraction.map fun digits => [digits]).getD [] := by
  have hwhole : '.' ∉ t.whole := fun hmem => by
    simpa using point_not_mem_of_isNumeral t.whole_numeral '.' hmem
  unfold unsigned
  split
  · next h => simp [h, splitOn_of_isNumeral t.whole_numeral]
  · next digits h =>
    rw [List.splitOn_append_cons_self_of_not_mem hwhole,
      splitOn_of_isNumeral (t.fraction_numeral digits h), h]
    rfl

theorem decimalPattern_chars : decimalPattern t.chars = true := by
  rw [decimalPattern, withoutSign_chars, splitOn_unsigned]
  cases h : t.fraction with
  | none => exact t.whole_numeral
  | some digits => exact Bool.and_eq_true_iff.2 ⟨t.whole_numeral, t.fraction_numeral digits h⟩

theorem decimalParts_unsigned : decimalParts t.unsigned = (t.whole, t.fractionDigits) := by
  rw [decimalParts, splitOn_unsigned, fractionDigits]
  cases t.fraction <;> rfl

end DecimalText

/-- What has been split at the points has a text with its points put back. -/
theorem eq_of_splitOn {cs : List Char} {parts : List (List Char)} (h : cs.splitOn '.' = parts) :
    cs = ['.'].intercalate parts := by
  rw [← h, List.intercalate_splitOn]

/-- What matches the pattern is a decimal number. -/
theorem exists_of_decimalPattern {cs : List Char} (h : decimalPattern cs = true) :
    ∃ t : DecimalText, t.chars = cs := by
  have hsigned : ∀ t : DecimalText, t.negative = decide (cs.head? = some '-') →
      t.unsigned = withoutSign cs → t.chars = cs := by
    intro t hnegative hunsigned
    by_cases hsign : cs.head? = some '-'
    · rw [DecimalText.chars, if_pos (by simp [hnegative, hsign]), hunsigned, withoutSign,
        if_pos hsign]
      exact List.cons_head?_tail hsign
    · rw [DecimalText.chars, if_neg (by simp [hnegative, hsign]), hunsigned,
        withoutSign_of_head? hsign]
  unfold decimalPattern at h
  split at h
  · next whole hsplit =>
    refine ⟨⟨decide (cs.head? = some '-'), whole, none, h, by simp⟩, hsigned _ rfl ?_⟩
    simpa [DecimalText.unsigned] using (eq_of_splitOn hsplit).symm
  · next whole fraction hsplit =>
    obtain ⟨hwhole, hfraction⟩ := Bool.and_eq_true_iff.1 h
    refine ⟨⟨decide (cs.head? = some '-'), whole, some fraction, hwhole, ?_⟩, hsigned _ rfl ?_⟩
    · rintro digits ⟨⟩
      exact hfraction
    · simpa [DecimalText.unsigned] using (eq_of_splitOn hsplit).symm
  · simp at h

namespace DecimalText

variable (t : DecimalText)

/-- With few enough places, the units are those of the number. -/
theorem value_mul {decimals : Nat} (fits : t.fractionDigits.length ≤ decimals) :
    t.value * 10 ^ decimals = t.stroops decimals := by
  have hpad : numeralValue (t.whole ++ t.fractionDigits.rightpad decimals '0') =
      (numeralValue t.whole * 10 ^ t.fractionDigits.length + numeralValue t.fractionDigits) *
        10 ^ (decimals - t.fractionDigits.length) := by
    rw [List.rightpad, ← List.append_assoc, numeralValue_append_zeros, numeralValue_append]
  have hpow : (10 : ℚ) ^ decimals = 10 ^ t.fractionDigits.length *
      10 ^ (decimals - t.fractionDigits.length) := by
    rw [← pow_add, Nat.add_sub_cancel' fits]
  have hne : (10 : ℚ) ^ t.fractionDigits.length ≠ 0 := by positivity
  have hmagnitude : (numeralValue t.whole +
      numeralValue t.fractionDigits / (10 : ℚ) ^ t.fractionDigits.length) * 10 ^ decimals =
      numeralValue (t.whole ++ t.fractionDigits.rightpad decimals '0') := by
    rw [hpad, hpow]
    push_cast
    field_simp
  rw [value, mul_assoc, hmagnitude, stroops]
  split <;> simp

end DecimalText

/-- The amounts the contract can hold. -/
def InI128 (x : Int) : Prop := I128.minValue ≤ x ∧ x ≤ I128.maxValue

/-- The text of a number is read for its units, if it has few enough places and the units are in
the range. -/
theorem parse_of_chars {value : String} {t : DecimalText}
    (written : (Text.trim value).toList = t.chars) {decimals : Nat} {x : Int} :
    parseDecimalToStroops value decimals = .ok x ↔
      t.fractionDigits.length ≤ decimals ∧ InI128 x ∧ t.stroops decimals = x := by
  simp only [parseDecimalToStroops, written, t.decimalPattern_chars, if_true,
    DecimalText.withoutSign_chars, DecimalText.decimalParts_unsigned, DecimalText.head?_chars]
  by_cases hplaces : decimals < t.fractionDigits.length
  · simp [hplaces]
  · rw [if_neg hplaces, ← DecimalText.stroops, assertI128Range_eq_ok]
    constructor
    · rintro ⟨hrange, rfl⟩
      exact ⟨Nat.not_lt.1 hplaces, hrange, rfl⟩
    · rintro ⟨-, hrange, rfl⟩
      exact ⟨hrange, rfl⟩

/-- What is accepted is a decimal number with few enough places, and what is returned are its
units. -/
theorem parse_eq_ok_iff {value : String} {decimals : Nat} {x : Int} :
    parseDecimalToStroops value decimals = .ok x ↔
      ∃ t : DecimalText, (Text.trim value).toList = t.chars ∧
        t.fractionDigits.length ≤ decimals ∧ t.value * 10 ^ decimals = x ∧ InI128 x := by
  constructor
  · intro h
    have hpattern : decimalPattern (Text.trim value).toList = true := by
      by_contra hno
      simp [parseDecimalToStroops, hno] at h
    obtain ⟨t, ht⟩ := exists_of_decimalPattern hpattern
    obtain ⟨hplaces, hrange, hvalue⟩ := (parse_of_chars ht.symm).1 h
    exact ⟨t, ht.symm, hplaces, by rw [t.value_mul hplaces, hvalue], hrange⟩
  · rintro ⟨t, ht, hplaces, hvalue, hrange⟩
    rw [t.value_mul hplaces] at hvalue
    exact (parse_of_chars ht).2 ⟨hplaces, hrange, by exact_mod_cast hvalue⟩

/-- The number a decimal text stands for. -/
def decimalValue (text : String) : ℚ :=
  let parts := decimalParts (withoutSign text.toList)
  (if text.toList.head? = some '-' then -1 else 1) *
    (numeralValue parts.1 + numeralValue parts.2 / 10 ^ parts.2.length)

/-- A decimal text with at most `decimals` places. -/
def IsDecimal (decimals : Nat) (text : String) : Prop :=
  decimalPattern text.toList = true ∧
    (decimalParts (withoutSign text.toList)).2.length ≤ decimals

instance (decimals : Nat) (text : String) : Decidable (IsDecimal decimals text) :=
  inferInstanceAs (Decidable (_ ∧ _))

theorem decimalValue_of_chars {text : String} {t : DecimalText} (written : text.toList = t.chars) :
    decimalValue text = t.value := by
  simp only [decimalValue, written, DecimalText.withoutSign_chars, DecimalText.decimalParts_unsigned,
    DecimalText.head?_chars, DecimalText.value]

/-! ## Writing an amount -/

def formatStroopsToDecimal (stroops : Int) (decimals : Nat) : String :=
  let divisor := 10 ^ decimals
  let negative := decide (stroops < 0)
  let magnitude := stroops.natAbs
  let whole := magnitude / divisor
  let fraction := magnitude % divisor
  let fractionStr := String.ofList ((toString fraction).toList.leftpad decimals '0')
  let sign := if negative && magnitude != 0 then "-" else ""
  s!"{sign}{whole}.{fractionStr}"

/-- `values` are added up one after the other. -/
def sumDecimalStrings (values : List String) (decimals : Nat) :
    Except MoneyConversionError String := do
  let total ← values.foldlM (fun acc value => do
    let stroops ← parseDecimalToStroops value decimals
    pure (acc + stroops)) 0
  let total ← assertI128Range total
  pure (formatStroopsToDecimal total decimals)

/-- `normalizeDecimalString` of a text. -/
def normalizeDecimalString (value : String) (decimals : Nat) :
    Except MoneyConversionError String := do
  let stroops ← parseDecimalToStroops value decimals
  pure (formatStroopsToDecimal stroops decimals)

example : formatStroopsToDecimal (-5) 7 = "-0.0000005" ∧
    normalizeDecimalString " -00.0" 2 = .ok "0.00" := by decide +kernel

/-- Zeros in front of a numeral change nothing but its length. -/
theorem numeralValue_replicate_append (n : Nat) (cs : List Char) :
    numeralValue (List.replicate n '0' ++ cs) = numeralValue cs := by
  rw [numeralValue, Nat.ofDigitChars_append, Nat.ofDigitChars_replicate_zero, mul_zero]
  rfl

theorem isNumeral_leftpad {cs : List Char} (h : isNumeral cs = true) (n : Nat) :
    isNumeral (cs.leftpad n '0') = true := by
  obtain ⟨hne, hdigits⟩ := Bool.and_eq_true_iff.1 h
  rw [isNumeral, List.leftpad, List.all_append, hdigits, Bool.and_true]
  simp only [Bool.not_eq_true', List.isEmpty_eq_false_iff] at hne
  simp [hne]

/-- The places of a fraction fill up all the places there are. -/
theorem length_leftpad_toString {fraction decimals : Nat} (small : fraction < 10 ^ decimals)
    (some_decimals : 0 < decimals) :
    ((toString fraction).toList.leftpad decimals '0').length = decimals := by
  have hdigits : (toString fraction).toList = Nat.toDigits 10 fraction := Nat.toList_repr
  have hlength : (toString fraction).toList.length ≤ decimals := by
    rw [hdigits]
    exact (Nat.length_toDigits_le_iff (by decide) some_decimals).2 small
  rw [List.leftpad, List.length_append, List.length_replicate]
  omega

/-- The one way in which an amount is written. -/
def DecimalText.ofStroops (stroops : Int) (decimals : Nat) : DecimalText where
  negative := decide (stroops < 0)
  whole := (toString (stroops.natAbs / 10 ^ decimals)).toList
  fraction := some ((toString (stroops.natAbs % 10 ^ decimals)).toList.leftpad decimals '0')
  whole_numeral := isNumeral_toString _
  fraction_numeral := by
    rintro digits ⟨⟩
    exact isNumeral_leftpad (isNumeral_toString _) decimals

theorem toList_format (stroops : Int) (decimals : Nat) :
    (formatStroopsToDecimal stroops decimals).toList =
      (DecimalText.ofStroops stroops decimals).chars := by
  have hstring : ∀ s : String, toString s = s := fun _ => rfl
  by_cases h : stroops < 0
  · have hne : stroops.natAbs ≠ 0 := by omega
    simp [formatStroopsToDecimal, DecimalText.chars, DecimalText.unsigned, DecimalText.ofStroops, h,
      hne, hstring]
  · simp [formatStroopsToDecimal, DecimalText.chars, DecimalText.unsigned, DecimalText.ofStroops, h,
      hstring]

theorem DecimalText.stroops_ofStroops (stroops : Int) {decimals : Nat}
    (some_decimals : 0 < decimals) :
    (DecimalText.ofStroops stroops decimals).fractionDigits.length = decimals ∧
      (DecimalText.ofStroops stroops decimals).stroops decimals = stroops := by
  have hsmall : stroops.natAbs % 10 ^ decimals < 10 ^ decimals :=
    Nat.mod_lt _ (Nat.pow_pos (by decide))
  have hlength := length_leftpad_toString hsmall some_decimals
  have hplaces : (DecimalText.ofStroops stroops decimals).fractionDigits =
      (toString (stroops.natAbs % 10 ^ decimals)).toList.leftpad decimals '0' := rfl
  refine ⟨by rw [hplaces, hlength], ?_⟩
  have hmagnitude : numeralValue ((DecimalText.ofStroops stroops decimals).whole ++
      (DecimalText.ofStroops stroops decimals).fractionDigits.rightpad decimals '0') =
      stroops.natAbs := by
    have hfraction : numeralValue
        ((toString (stroops.natAbs % 10 ^ decimals)).toList.leftpad decimals '0') = _ :=
      (numeralValue_replicate_append _ _).trans (numeralValue_toString _)
    rw [hplaces, List.rightpad, hlength, Nat.sub_self, List.replicate_zero, List.append_nil,
      numeralValue_append, hlength, hfraction, DecimalText.ofStroops, numeralValue_toString]
    exact Nat.div_add_mod' _ _
  rw [DecimalText.stroops, hmagnitude]
  by_cases h : stroops < 0
  · simp only [DecimalText.ofStroops, h, decide_true, if_true]
    omega
  · simp only [DecimalText.ofStroops, h, decide_false, Bool.false_eq_true, if_false]
    omega

theorem DecimalText.isBlank_of_mem (t : DecimalText) {c : Char} (mem : c ∈ t.chars) :
    Text.isBlank c = false := by
  have hnumeral : ∀ cs, isNumeral cs = true → c ∈ cs → Text.isBlank c = false := fun cs h hmem =>
    isBlank_of_isDigit (List.all_eq_true.1 (Bool.and_eq_true_iff.1 h).2 c hmem)
  have hunsigned : c ∈ t.unsigned → Text.isBlank c = false := by
    unfold DecimalText.unsigned
    split
    · exact hnumeral _ t.whole_numeral
    · next digits h =>
      rw [List.mem_append, List.mem_cons]
      rintro (hc | rfl | hc)
      · exact hnumeral _ t.whole_numeral hc
      · decide
      · exact hnumeral _ (t.fraction_numeral digits h) hc
  unfold DecimalText.chars at mem
  split at mem
  · obtain rfl | hc := List.mem_cons.1 mem
    · decide
    · exact hunsigned hc
  · exact hunsigned mem

/-- An amount that has been written is read back. -/
theorem parse_format {x : Int} {decimals : Nat} (some_decimals : 0 < decimals) (range : InI128 x) :
    parseDecimalToStroops (formatStroopsToDecimal x decimals) decimals = .ok x := by
  have hchars := toList_format x decimals
  have htrim : Text.trim (formatStroopsToDecimal x decimals) = formatStroopsToDecimal x decimals := by
    apply Text.trim_of_forall
    intro c hc
    rw [hchars] at hc
    exact DecimalText.isBlank_of_mem _ hc
  obtain ⟨hplaces, hstroops⟩ := DecimalText.stroops_ofStroops x some_decimals
  rw [parse_of_chars (by rw [htrim, hchars])]
  exact ⟨hplaces.le, range, hstroops⟩

/-! ## Sums and normal forms -/

variable {decimals : Nat} {values : List String} {amounts : List Int}

theorem normalize_of_parse {value : String} {x : Int}
    (h : parseDecimalToStroops value decimals = .ok x) :
    normalizeDecimalString value decimals = .ok (formatStroopsToDecimal x decimals) := by
  rw [normalizeDecimalString, h]
  rfl

/-- What can be normalized is an amount. -/
theorem normalize_eq_ok {value text : String}
    (h : normalizeDecimalString value decimals = .ok text) :
    ∃ x, parseDecimalToStroops value decimals = .ok x ∧ formatStroopsToDecimal x decimals = text := by
  rw [normalizeDecimalString] at h
  cases hparse : parseDecimalToStroops value decimals with
  | error e => simp [hparse, bind, Except.bind] at h
  | ok x =>
    rw [hparse] at h
    exact ⟨x, rfl, Except.ok.inj h⟩

theorem range_of_parse {value : String} {x : Int}
    (h : parseDecimalToStroops value decimals = .ok x) : InI128 x := by
  obtain ⟨-, -, -, -, hrange⟩ := parse_eq_ok_iff.1 h
  exact hrange

/-- Amounts are written alike just when they are equal. -/
theorem format_inj {x y : Int} (some_decimals : 0 < decimals) (hx : InI128 x) (hy : InI128 y)
    (h : formatStroopsToDecimal x decimals = formatStroopsToDecimal y decimals) : x = y := by
  have hparse := parse_format some_decimals hx
  rw [h, parse_format some_decimals hy] at hparse
  exact (Except.ok.inj hparse).symm

/-- Accepted texts are added up as the amounts they are. -/
theorem foldlM_parse (h : List.Forall₂ (fun value x =>
      parseDecimalToStroops value decimals = .ok x) values amounts) (start : Int) :
    values.foldlM (fun acc value => do
      let stroops ← parseDecimalToStroops value decimals
      pure (acc + stroops)) start = Except.ok (ε := MoneyConversionError) (start + amounts.sum) := by
  induction h generalizing start with
  | nil => simp [pure, Except.pure]
  | @cons value x values amounts hvalue _ ih =>
    rw [List.foldlM_cons, hvalue, List.sum_cons, ← Int.add_assoc]
    exact ih (start + x)

/-- A sum within the range is the sum of the amounts. -/
theorem sumDecimalStrings_eq (h : List.Forall₂ (fun value x =>
      parseDecimalToStroops value decimals = .ok x) values amounts) (range : InI128 amounts.sum) :
    sumDecimalStrings values decimals = .ok (formatStroopsToDecimal amounts.sum decimals) := by
  rw [sumDecimalStrings, foldlM_parse h, Int.zero_add]
  have hrange : assertI128Range amounts.sum = .ok amounts.sum := assertI128Range_eq_ok.2 ⟨range, rfl⟩
  simp only [bind, Except.bind, hrange]
  rfl

/-- Amounts are read back as they were written; what is accepted is the text of a decimal number
with at most `decimals` places and within the range, and it is read for exactly that number; texts
are worth the same just when they are normalized alike, normalizing twice changes nothing, and a sum
within the range is exact. -/
theorem decimal_codec (some_decimals : 0 < decimals) :
    (∀ x, InI128 x →
      parseDecimalToStroops (formatStroopsToDecimal x decimals) decimals = .ok x) ∧
    (∀ value x, parseDecimalToStroops value decimals = .ok x ↔
      ∃ t : DecimalText, (Text.trim value).toList = t.chars ∧
        t.fractionDigits.length ≤ decimals ∧ t.value * 10 ^ decimals = x ∧ InI128 x) ∧
    (∀ value other x y, parseDecimalToStroops value decimals = .ok x →
      parseDecimalToStroops other decimals = .ok y →
      (x = y ↔ normalizeDecimalString value decimals = normalizeDecimalString other decimals)) ∧
    (∀ value text, normalizeDecimalString value decimals = .ok text →
      normalizeDecimalString text decimals = .ok text) ∧
    (∀ values amounts,
      List.Forall₂ (fun value x => parseDecimalToStroops value decimals = .ok x) values amounts →
      InI128 amounts.sum →
      sumDecimalStrings values decimals = .ok (formatStroopsToDecimal amounts.sum decimals)) := by
  refine ⟨fun x => parse_format some_decimals, fun value x => parse_eq_ok_iff, ?_, ?_, ?_⟩
  · intro value other x y hvalue hother
    rw [normalize_of_parse hvalue, normalize_of_parse hother, Except.ok.injEq]
    constructor
    · rintro rfl
      rfl
    · exact format_inj some_decimals (range_of_parse hvalue) (range_of_parse hother)
  · intro value text h
    obtain ⟨x, hx, rfl⟩ := normalize_eq_ok h
    exact normalize_of_parse (parse_format some_decimals (range_of_parse hx))
  · intro values amounts h range
    exact sumDecimalStrings_eq h range

theorem decimal_codec_cents :
    parseDecimalToStroops (formatStroopsToDecimal (-1234) 2) 2 = .ok (-1234) ∧
      normalizeDecimalString "-12.34" 2 = .ok (formatStroopsToDecimal (-1234) 2) := by
  have h := decimal_codec (show 0 < 2 by decide)
  refine ⟨h.1 (-1234) ⟨by decide, by decide⟩, by decide +kernel⟩

end Amana.Backend
