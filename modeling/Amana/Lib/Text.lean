import Mathlib.Algebra.Ring.Nat
import Mathlib.Data.List.DropRight

/-!
# Texts

Trimming, cutting, and lower case for texts of ASCII characters.  A trimmed text is trimmed for good.
A text in lower case is its own lower case, and an upper-case letter anywhere in a text tells it from
its lower case.
-/

namespace Amana.Lib.Text

/-- A text in lower case; letters that are not ASCII are left as they are. -/
def toLowerCase (s : String) : String := String.ofList (s.toList.map Char.toLower)

/-- The white space and the line terminators of ECMAScript, but for the quads and spaces from
`U+2000` to `U+200A`. -/
def blanks : List Char :=
  ['\t', '\n', '\x0b', '\x0c', '\r', ' ', '\u00a0', '\u1680', '\u2028', '\u2029', '\u202f',
    '\u205f', '\u3000', '\ufeff']

def isBlank (c : Char) : Bool := blanks.contains c || ('\u2000' ≤ c && c ≤ '\u200a')

/-- A text without the blanks around it. -/
def trim (s : String) : String :=
  String.ofList ((s.toList.dropWhile isBlank).reverse.dropWhile isBlank).reverse

example : trim " Ab " = "Ab" := by decide

/-- How many code units of UTF-16 a character takes. -/
def utf16Units (c : Char) : Nat := if c.toNat < 0x10000 then 1 else 2

/-- The length of a text in JavaScript. -/
def utf16Length (text : String) : Nat := (text.toList.map utf16Units).sum

/-- The first `n` code units.  A pair that is cut in two leaves a replacement character. -/
def takeUnits : Nat → List Char → List Char
  | 0, _ | _, [] => []
  | n + 1, c :: cs =>
    if utf16Units c ≤ n + 1 then c :: takeUnits (n + 1 - utf16Units c) cs else ['\ufffd']

/-- `s.slice(0, n)`. -/
def slice (s : String) (n : Nat) : String := String.ofList (takeUnits n s.toList)

example : slice "a😀b" 3 = "a😀" ∧ slice "a😀b" 2 = "a\ufffd" := by decide

variable {s : String}

theorem utf16Units_pos (c : Char) : 0 < utf16Units c := by
  unfold utf16Units
  split <;> decide

theorem takeUnits_of_le {n : Nat} {cs : List Char} (h : (cs.map utf16Units).sum ≤ n) :
    takeUnits n cs = cs := by
  induction cs generalizing n with
  | nil => cases n <;> rfl
  | cons c cs ih =>
    rw [List.map_cons, List.sum_cons] at h
    have hunit := utf16Units_pos c
    cases n with
    | zero => omega
    | succ n => rw [takeUnits, if_pos (by omega), ih (by omega)]

/-- A short text is not cut. -/
theorem slice_of_le {n : Nat} (h : utf16Length s ≤ n) : slice s n = s := by
  rw [slice, takeUnits_of_le h, String.ofList_toList]

theorem toList_trim (s : String) :
    (trim s).toList = (s.toList.dropWhile isBlank).rdropWhile isBlank := by
  simp [trim, List.rdropWhile]

/-- A text without blanks is trimmed. -/
theorem trim_of_forall (solid : ∀ c ∈ s.toList, isBlank c = false) : trim s = s := by
  apply String.toList_injective
  have hdrop : s.toList.dropWhile isBlank = s.toList := by
    rw [List.dropWhile_eq_self_iff]
    intro hlt
    simp [solid _ (List.getElem_mem hlt)]
  rw [toList_trim, hdrop, List.rdropWhile_eq_self_iff]
  intro hne
  simp [solid _ (List.getLast_mem hne)]

@[simp] theorem trim_trim (s : String) : trim (trim s) = trim s := by
  apply String.toList_injective
  have hkept := List.rdropWhile_prefix isBlank (s.toList.dropWhile isBlank)
  -- What is left begins the way it did before the blanks at the end were dropped.
  have hdrop : ((s.toList.dropWhile isBlank).rdropWhile isBlank).dropWhile isBlank =
      (s.toList.dropWhile isBlank).rdropWhile isBlank := by
    rw [List.dropWhile_eq_self_iff]
    intro hlt
    have hlt' := hlt.trans_le hkept.length_le
    have hhead := List.dropWhile_eq_self_iff.1 (List.dropWhile_idempotent isBlank s.toList) hlt'
    rwa [hkept.getElem hlt]
  rw [toList_trim, toList_trim, hdrop, List.rdropWhile_idempotent]

@[simp] theorem toList_toLowerCase (s : String) :
    (toLowerCase s).toList = s.toList.map Char.toLower := by
  simp [toLowerCase]

theorem toLower_toLower (c : Char) : c.toLower.toLower = c.toLower := by
  by_cases h : 'A'.val ≤ c.val ∧ c.val ≤ 'Z'.val
  · have hval : c.toLower.val = c.val + ('a'.val - 'A'.val) := congrArg Char.val (dif_pos h)
    have hlower : ¬ c.toLower.val ≤ 'Z'.val := by
      grind [UInt32.toNat_add]
    exact dif_neg fun hupper => hlower hupper.2
  · have hsame : c.toLower = c := dif_neg h
    rw [hsame, hsame]

@[simp] theorem toLowerCase_toLowerCase (s : String) :
    toLowerCase (toLowerCase s) = toLowerCase s := by
  have hchars : (s.toList.map Char.toLower).map Char.toLower = s.toList.map Char.toLower :=
    List.map_map.trans (List.map_congr_left fun c _ => toLower_toLower c)
  rw [toLowerCase, toList_toLowerCase, hchars, toLowerCase]

/-- A text with an upper-case letter is not in lower case. -/
theorem toLowerCase_ne {c : Char} (mem : c ∈ s.toList) (upper : c.toLower ≠ c)
    (t : String) : toLowerCase t ≠ s := by
  rintro rfl
  rw [toList_toLowerCase] at mem
  obtain ⟨d, -, rfl⟩ := List.mem_map.1 mem
  exact upper (toLower_toLower d)

end Amana.Lib.Text
