import Amana.Backend.DecimalAmounts
import Amana.Backend.Numbers

/-!
# Amounts in the browser

`assets.ts` reads what a user types and shows the amounts that come from the backend.  It drops the
commas and blanks of a text and reads what is left, and then it reads each text that the backend
accepts as the backend does (`amountToStroops_eq`).
-/

namespace Amana.Frontend

open Lib
open Backend (isNumeral numeralValue bigInt DecimalText parseDecimalToStroops numeralValue_append
  digits_of_isNumeral)

/-! ## Reading an amount -/

/-- `/[,\s]/`. -/
def isDropped (c : Char) : Bool := c == ',' || Text.isBlank c

/-- `amount.replace(/[,\s]/g, "")`. -/
def cleaned (amount : String) : List Char := amount.toList.filter fun c => !isDropped c

def getAssetDivisor (decimals : Nat) : Int := 10 ^ decimals

/-- `BigInt` throws at what it does not read. -/
def amountToStroops (amount : String) (decimals : Nat) : Option String := do
  let parts := (cleaned amount).splitOn '.'
  let whole := if parts.headD [] = [] then ['0'] else parts.headD []
  let frac := parts[1]?.getD []
  let paddedFrac := (frac.rightpad decimals '0').take decimals
  let wholeValue ← bigInt (String.ofList whole)
  let fracValue ← bigInt (String.ofList paddedFrac)
  some (toString (wholeValue * getAssetDivisor decimals + fracValue))

/-- `/^\d+(\.\d*)?$/`. -/
def numberRegex (text : List Char) : Bool :=
  match text.splitOn '.' with
  | [whole] => isNumeral whole
  | [whole, places] => isNumeral whole && places.all Char.isDigit
  | _ => false

/-- `parseFloat` rounds to the nearest double, and what is at most `2 ^ -1075` to zero. -/
def parsesPositive (parts : List (List Char)) : Bool :=
  let places := parts[1]?.getD []
  10 ^ places.length < numeralValue (parts.headD [] ++ places) * 2 ^ 1075

structure AmountFormat where
  valid : Bool
  error : Option String
  deriving DecidableEq, Repr

def validateAmountFormat (amount : String) (decimals : Nat) : AmountFormat :=
  let text := cleaned amount
  if text = [] then ⟨false, some "Amount is required"⟩
  else if numberRegex text = false then ⟨false, some "Invalid number format"⟩
  else
    let parts := text.splitOn '.'
    if parts[1]?.any fun places => !places.isEmpty && decimals < places.length then
      ⟨false, some s!"Maximum {decimals} decimal places allowed"⟩
    else if parsesPositive parts = false then
      ⟨false, some "Amount must be greater than zero"⟩
    else ⟨true, none⟩

example : amountToStroops " 1,000.5" 2 = some "100050" ∧
    (validateAmountFormat "1,000.5" 2).valid = true := by decide +kernel

theorem filter_dropWhile {α : Type} {p q : α → Bool} (h : ∀ c, p c = true → q c = false) :
    ∀ cs : List α, (cs.dropWhile p).filter q = cs.filter q
  | [] => rfl
  | c :: cs => by
    by_cases hc : p c = true
    · simp [hc, h c hc, filter_dropWhile h cs]
    · simp [hc]

/-- Trimming drops nothing that would not be dropped anyway. -/
theorem filter_trim (amount : String) :
    (Text.trim amount).toList.filter (fun c => !isDropped c) = cleaned amount := by
  have hblank : ∀ c, Text.isBlank c = true → (!isDropped c) = false := by
    intro c hc
    simp [isDropped, hc]
  rw [Text.toList_trim, List.rdropWhile, List.filter_reverse, filter_dropWhile hblank,
    List.filter_reverse, List.reverse_reverse, filter_dropWhile hblank, cleaned]

/-- Digits, none of them too, are read as the number they are. -/
theorem bigInt_of_digits {cs : List Char} (h : cs.all Char.isDigit = true) :
    bigInt (String.ofList cs) = some (numeralValue cs : Int) := by
  by_cases hnil : cs = []
  · subst hnil
    decide
  · have hnumeral : isNumeral (String.ofList cs).toList = true := by
      simp [isNumeral, h, hnil]
    simpa using Backend.bigInt_of_isNumeral hnumeral

theorem digits_rightpad {cs : List Char} (h : cs.all Char.isDigit = true) (n : Nat) :
    (cs.rightpad n '0').all Char.isDigit = true := by
  simp [List.rightpad, h]

theorem digits_fractionDigits (t : DecimalText) : t.fractionDigits.all Char.isDigit = true := by
  unfold DecimalText.fractionDigits
  cases h : t.fraction with
  | none => rfl
  | some digits => exact digits_of_isNumeral (t.fraction_numeral digits h)

/-- A decimal number without a sign is read digit for digit. -/
theorem amountToStroops_of_unsigned {amount : String} {t : DecimalText}
    (written : cleaned amount = t.unsigned) {decimals : Nat}
    (fits : t.fractionDigits.length ≤ decimals) :
    amountToStroops amount decimals =
      some (toString (numeralValue (t.whole ++ t.fractionDigits.rightpad decimals '0') : Int)) := by
  have hlength : (t.fractionDigits.rightpad decimals '0').length = decimals := by
    rw [List.rightpad, List.length_append, List.length_replicate]
    omega
  have hplaces : (t.unsigned.splitOn '.')[1]?.getD [] = t.fractionDigits := by
    rw [t.splitOn_unsigned, DecimalText.fractionDigits]
    cases t.fraction <;> rfl
  have hwhole : (t.unsigned.splitOn '.').headD [] = t.whole := by
    rw [t.splitOn_unsigned]
    rfl
  have hne : t.whole ≠ [] := by
    intro hnil
    simpa [hnil, isNumeral] using t.whole_numeral
  have hread := bigInt_of_digits (digits_of_isNumeral t.whole_numeral)
  have hfraction := bigInt_of_digits (digits_rightpad (digits_fractionDigits t) decimals)
  simp only [amountToStroops, written, hplaces, hwhole, if_neg hne,
    List.take_of_length_le hlength.le, hread, hfraction, Option.bind_eq_bind, Option.bind_some]
  rw [numeralValue_append, hlength, getAssetDivisor]
  push_cast
  rfl

theorem not_isDropped_of_isDigit {c : Char} (h : c.isDigit = true) : isDropped c = false := by
  have hcomma : c ≠ ',' := by
    rintro rfl
    cases h
  simp [isDropped, hcomma, Backend.isBlank_of_isDigit h]

/-- Nothing of a number without a sign is dropped. -/
theorem not_isDropped_of_mem (t : DecimalText) {c : Char} (mem : c ∈ t.unsigned) :
    isDropped c = false := by
  have hdigit : ∀ cs : List Char, cs.all Char.isDigit = true → c ∈ cs → isDropped c = false :=
    fun cs h hmem => not_isDropped_of_isDigit (List.all_eq_true.1 h c hmem)
  unfold DecimalText.unsigned at mem
  split at mem
  · exact hdigit _ (digits_of_isNumeral t.whole_numeral) mem
  · next digits h =>
    rw [List.mem_append, List.mem_cons] at mem
    obtain hc | rfl | hc := mem
    · exact hdigit _ (digits_of_isNumeral t.whole_numeral) hc
    · decide
    · exact hdigit _ (digits_of_isNumeral (t.fraction_numeral digits h)) hc

/-- A number has no sign in the form. -/
theorem isDigit_or_point_of_numberRegex {cs : List Char} (h : numberRegex cs = true) {c : Char}
    (mem : c ∈ cs) : c.isDigit = true ∨ c = '.' := by
  unfold numberRegex at h
  split at h
  · next whole hsplit =>
    rw [Backend.eq_of_splitOn hsplit, List.intercalate_singleton] at mem
    exact .inl (List.all_eq_true.1 (digits_of_isNumeral h) c mem)
  · next whole places hsplit =>
    obtain ⟨hwhole, hplaces⟩ := Bool.and_eq_true_iff.1 h
    have hjoined : cs = whole ++ '.' :: places := by
      simpa using Backend.eq_of_splitOn hsplit
    rw [hjoined, List.mem_append, List.mem_cons] at mem
    obtain hc | hc | hc := mem
    · exact .inl (List.all_eq_true.1 (digits_of_isNumeral hwhole) c hc)
    · exact .inr hc
    · exact .inl (List.all_eq_true.1 hplaces c hc)
  · cases h

/-- An amount that the form takes and the backend accepts is the same amount for both. -/
theorem amountToStroops_eq {amount : String} {decimals : Nat} {x : Int}
    (valid : (validateAmountFormat amount decimals).valid = true)
    (accepted : parseDecimalToStroops amount decimals = .ok x) :
    amountToStroops amount decimals = some (toString x) := by
  obtain ⟨t, hchars, hfits, hvalue, hrange⟩ := Backend.parse_eq_ok_iff.1 accepted
  have hstroops := ((Backend.parse_of_chars hchars).1 accepted).2.2
  have hregex : numberRegex (cleaned amount) = true := by
    by_contra hno
    have hfalse : numberRegex (cleaned amount) = false := by simpa using hno
    rw [validateAmountFormat] at valid
    simp only [hfalse, if_true] at valid
    split at valid <;> cases valid
  have hnegative : t.negative = false := by
    by_contra hno
    have hsign : t.negative = true := by simpa using hno
    have hmem : '-' ∈ cleaned amount := by
      rw [← filter_trim, hchars, DecimalText.chars, if_pos hsign]
      exact List.mem_filter.2 ⟨List.mem_cons_self, by decide⟩
    simpa using isDigit_or_point_of_numberRegex hregex hmem
  have hwritten : cleaned amount = t.unsigned := by
    rw [← filter_trim, hchars, DecimalText.chars, hnegative, if_neg Bool.false_ne_true]
    apply List.filter_eq_self.2
    intro c hc
    rw [not_isDropped_of_mem t hc]
    rfl
  rw [amountToStroops_of_unsigned hwritten hfits, ← hstroops, DecimalText.stroops, hnegative,
    if_neg Bool.false_ne_true]

theorem amountToStroops_eq_example :
    amountToStroops " 0012.50 " 7 = some (toString (125000000 : Int)) :=
  amountToStroops_eq (by decide +kernel) (by decide +kernel)

end Amana.Frontend
