import Amana.Lib.Documents
import Amana.Lib.Patterns
import Amana.Lib.Text
import Mathlib.Data.List.Basic

/-!
# Redaction of the logs

`logRedaction.ts` copies what is logged without the values of the fields whose names look like
personal data.  The copy goes eight levels deep; what lies deeper is passed on as it is, and that is
all that gets through (`redacted_iff`).
-/

namespace Amana.Backend

open Lib
open Lib.Patterns (Piece Needs replaceAll replaceAll_eq_self)

/-! ## Field names -/

/-- `toLowerCase` and `/[^a-z]/g`: next to the letters only the dotted capital I and the kelvin sign
have a lower case with a letter from `a` to `z` in it. -/
def lowerLetter (c : Char) : Option Char :=
  if c.isLower then some c
  else if c.isUpper then some c.toLower
  else if c = '\u0130' then some 'i'
  else if c = '\u212A' then some 'k'
  else none

def normalizeFieldName (key : String) : String := String.ofList (key.toList.filterMap lowerLetter)

def piiFieldDenylist : List String :=
  ["email", "emailaddress", "phone", "phonenumber", "mobile", "mobilenumber", "msisdn", "ssn",
    "socialsecuritynumber", "nationalid", "idnumber", "driveridnumber", "passportnumber",
    "dateofbirth", "dob", "homeaddress", "streetaddress", "postaladdress", "drivername",
    "buyername", "sellername", "customername", "contactname", "fullname", "firstname", "lastname",
    "password", "passwordhash", "pin", "otp", "cvv", "cardnumber", "creditcardnumber",
    "secretkey", "privatekey", "walletsecret", "seedphrase", "mnemonic", "sessiontoken",
    "authorization", "authtoken", "accesstoken", "refreshtoken", "apikey",
    "cookie"].map normalizeFieldName

def isDenylistedField (key : String) : Bool := piiFieldDenylist.contains (normalizeFieldName key)

theorem isLower_toLower {c : Char} (h : c.isUpper = true) : c.toLower.isLower = true := by
  have hrange : 'A'.val ≤ c.val ∧ c.val ≤ 'Z'.val := of_decide_eq_true h
  have hlower : c.toLower.val = c.val + ('a'.val - 'A'.val) := congrArg Char.val (dif_pos hrange)
  have hle : c.val.toNat ≤ 90 := UInt32.le_iff_toNat_le.1 hrange.2
  have hge : 65 ≤ c.val.toNat := UInt32.le_iff_toNat_le.1 hrange.1
  have hvalue : c.toLower.val.toNat = c.val.toNat + 32 := by
    have hdiff : ('a'.val - 'A'.val).toNat = 32 := rfl
    rw [hlower, UInt32.toNat_add, hdiff]
    omega
  have hlow : 'a'.val.toNat = 97 := rfl
  have hhigh : 'z'.val.toNat = 122 := rfl
  exact Bool.and_eq_true_iff.2 ⟨decide_eq_true (UInt32.le_iff_toNat_le.2 (by omega)),
    decide_eq_true (UInt32.le_iff_toNat_le.2 (by omega))⟩

theorem lowerLetter_lowerLetter {c d : Char} (h : lowerLetter c = some d) :
    lowerLetter d = some d := by
  have hlower : d.isLower = true := by
    unfold lowerLetter at h
    split at h
    · next hc => rwa [← Option.some.inj h]
    · split at h
      · next hc =>
        rw [← Option.some.inj h, isLower_toLower hc]
      · split at h
        · rw [← Option.some.inj h]
          decide
        · split at h
          · rw [← Option.some.inj h]
            decide
          · cases h
  rw [lowerLetter, if_pos hlower]

/-- A name in normal form is its own normal form. -/
theorem normalizeFieldName_normalizeFieldName (key : String) :
    normalizeFieldName (normalizeFieldName key) = normalizeFieldName key := by
  rw [normalizeFieldName, normalizeFieldName, String.toList_ofList, List.filterMap_filterMap]
  refine congrArg String.ofList (List.filterMap_congr fun c _ => ?_)
  cases h : lowerLetter c with
  | none => rfl
  | some d => exact lowerLetter_lowerLetter h

/-- A name is denylisted when its normal form is. -/
theorem isDenylistedField_normalizeFieldName (key : String) :
    isDenylistedField (normalizeFieldName key) = isDenylistedField key := by
  rw [isDenylistedField, normalizeFieldName_normalizeFieldName, isDenylistedField]

/-- The denylist has its names in normal form. -/
theorem isDenylistedField_of_mem {name : String} (h : name ∈ piiFieldDenylist) :
    isDenylistedField name = true := by
  obtain ⟨word, -, rfl⟩ := List.mem_map.1 h
  rw [isDenylistedField, normalizeFieldName_normalizeFieldName]
  exact List.contains_iff_mem.2 h

/-! ## Patterns in a text -/

/-- `\w`. -/
def isWordCharacter (c : Char) : Bool := c.isAlphanum || c == '_'

/-- `[-.\s]`. -/
def isSeparator (c : Char) : Bool := c == '-' || c == '.' || Text.isBlank c

def one (c : Char) : Piece Char := .run (fun d => d == c) 1 (some 1)

def digits (least most : Nat) : Piece Char := .run Char.isDigit least (some most)

/-- `/[a-zA-Z0-9._%+-]+@[a-zA-Z0-9.-]+\.[a-zA-Z]{2,}/g`. -/
def emailPattern : List (List (Piece Char)) :=
  [[.run (fun c => c.isAlphanum || ['.', '_', '%', '+', '-'].contains c) 1 none, one '@',
    .run (fun c => c.isAlphanum || c == '.' || c == '-') 1 none, one '.', .run Char.isAlpha 2 none]]

def phonePattern : List (List (Piece Char)) :=
  -- `\+\d{6,15}`
  [[one '+', digits 6 15],
    -- `\b\d{3}[-.\s]\d{3}[-.\s]\d{4}\b`
    [.boundary isWordCharacter, digits 3 3, .run isSeparator 1 (some 1), digits 3 3,
      .run isSeparator 1 (some 1), digits 4 4, .boundary isWordCharacter],
    -- `\b\(\d{2,4}\)[-.\s]?\d{3,4}[-.\s]?\d{3,4}\b`
    [.boundary isWordCharacter, one '(', digits 2 4, one ')', .run isSeparator 0 (some 1),
      digits 3 4, .run isSeparator 0 (some 1), digits 3 4, .boundary isWordCharacter]]

def scrubPatternsInString (value : String) : String :=
  String.ofList (replaceAll phonePattern "[REDACTED_PHONE]".toList
    (replaceAll emailPattern "[REDACTED_EMAIL]".toList value.toList))

/-- A text without an at sign and without digits is logged as it is. -/
theorem scrubPatternsInString_eq_self {value : String}
    (prose : ∀ c ∈ value.toList, (c == '@') = false ∧ c.isDigit = false) :
    scrubPatternsInString value = value := by
  have hemail : ∀ pieces ∈ emailPattern, Needs (fun c => c == '@') pieces := by
    intro pieces h
    obtain rfl := List.mem_singleton.1 h
    exact ⟨1, some 1, .tail _ (.head _), by decide⟩
  have hphone : ∀ pieces ∈ phonePattern, Needs Char.isDigit pieces := by
    intro pieces h
    simp only [phonePattern, List.mem_cons, List.not_mem_nil, or_false] at h
    rcases h with rfl | rfl | rfl
    · exact ⟨6, some 15, .tail _ (.head _), by decide⟩
    · exact ⟨3, some 3, .tail _ (.head _), by decide⟩
    · exact ⟨2, some 4, .tail _ (.tail _ (.head _)), by decide⟩
  rw [scrubPatternsInString, replaceAll_eq_self hemail _ fun c hc => (prose c hc).1,
    replaceAll_eq_self hphone _ fun c hc => (prose c hc).2, String.ofList_toList]

example : scrubPatternsInString "Ada <ada@mail.example.org>, +2348012345678 (home 080-555-0199)" =
    "Ada <[REDACTED_EMAIL]>, [REDACTED_PHONE] (home [REDACTED_PHONE])" := by decide +kernel

/-! ## What is logged -/

/-- What is no list and no object.  A boolean or a number is passed on as it is, and so is a date, a
regular expression or a buffer. -/
inductive LogScalar (δ : Type) where
  | null
  | undefined
  | plain (value : δ)
  | string (text : String)
  | error (name message : String) (stack : Option String)
  deriving DecidableEq

/-- A list or an object has the identity that a visited set knows it by. -/
abbrev LogValue (ρ δ : Type) := Document String ρ (LogScalar δ)

variable {ρ δ : Type}

def LogScalar.isNullish : LogScalar δ → Bool
  | .null | .undefined => true
  | .plain _ | .string _ | .error .. => false

def redactedMark : LogScalar δ := .string "[REDACTED]"

def maxDepth : Nat := 8

section Redact

variable [DecidableEq ρ]

def redactScalar (depth : Nat) : LogScalar δ → LogScalar δ
  | .string text => .string (scrubPatternsInString text)
  | .error name message stack =>
    if maxDepth ≤ depth then .error name message stack
    else .error name (scrubPatternsInString message)
      (stack.map fun text => if text = "" then text else scrubPatternsInString text)
  | .null => .null
  | .undefined => .undefined
  | .plain value => .plain value

/-- `result[key] = value`: for this one key it sets the prototype, and the object has no field. -/
def assign (key : String) (value : LogValue Unit δ) : Option (String × LogValue Unit δ) :=
  if key = "__proto__" then none else some (key, value)

/-- What is logged of a value under a name on the denylist. -/
def hidden (value : LogValue ρ δ) : LogValue Unit δ :=
  if value.isBlank LogScalar.isNullish then value.forget else .leaf redactedMark

mutual

/-- The copy, and the lists and objects seen so far. -/
def redactPii : LogValue ρ δ → List ρ → Nat → LogValue Unit δ × List ρ
  | .leaf value, seen, depth => (.leaf (redactScalar depth value), seen)
  | .array ref items, seen, depth =>
    if maxDepth ≤ depth then ((Document.array ref items).forget, seen)
    else if ref ∈ seen then (.leaf (.string "[CIRCULAR]"), seen)
    else
      let copy := redactItems items (ref :: seen) (depth + 1)
      (.array () copy.1, copy.2)
  | .object ref fields, seen, depth =>
    if maxDepth ≤ depth then ((Document.object ref fields).forget, seen)
    else if ref ∈ seen then (.leaf (.string "[CIRCULAR]"), seen)
    else
      let copy := redactFields fields (ref :: seen) (depth + 1)
      (.object () copy.1, copy.2)

def redactItems : List (LogValue ρ δ) → List ρ → Nat → List (LogValue Unit δ) × List ρ
  | [], seen, _ => ([], seen)
  | item :: rest, seen, depth =>
    let first := redactPii item seen depth
    let others := redactItems rest first.2 depth
    (first.1 :: others.1, others.2)

def redactFields : List (String × LogValue ρ δ) → List ρ → Nat →
    List (String × LogValue Unit δ) × List ρ
  | [], seen, _ => ([], seen)
  | (key, value) :: rest, seen, depth =>
    if isDenylistedField key then
      let others := redactFields rest seen depth
      ((assign key (hidden value)).toList ++ others.1, others.2)
    else
      let first := redactPii value seen depth
      let others := redactFields rest first.2 depth
      ((assign key first.1).toList ++ others.1, others.2)

end

/-- `redactPii` as it is called. -/
def redacted (value : LogValue ρ δ) : LogValue Unit δ := (redactPii value [] 0).1

example : redacted (.array 0 [.object 1 [], .object 1 []] : LogValue Nat Unit) =
    .array () [.object () [], .leaf (.string "[CIRCULAR]")] := rfl

end Redact

/-! ## Documents without a list or an object that occurs twice -/

section Tree

mutual

/-- The copy of a value in which nothing occurs twice. -/
def redactTree : LogValue ρ δ → Nat → LogValue Unit δ
  | .leaf value, depth => .leaf (redactScalar depth value)
  | .array ref items, depth =>
    if maxDepth ≤ depth then (Document.array ref items).forget
    else .array () (redactTreeItems items (depth + 1))
  | .object ref fields, depth =>
    if maxDepth ≤ depth then (Document.object ref fields).forget
    else .object () (redactTreeFields fields (depth + 1))

def redactTreeItems : List (LogValue ρ δ) → Nat → List (LogValue Unit δ)
  | [], _ => []
  | item :: rest, depth => redactTree item depth :: redactTreeItems rest depth

def redactTreeFields : List (String × LogValue ρ δ) → Nat → List (String × LogValue Unit δ)
  | [], _ => []
  | (key, value) :: rest, depth =>
    (assign key (if isDenylistedField key then hidden value else redactTree value depth)).toList ++
      redactTreeFields rest depth

end

@[simp] theorem redactTreeItems_eq (items : List (LogValue ρ δ)) (depth : Nat) :
    redactTreeItems items depth = items.map fun item => redactTree item depth := by
  induction items with
  | nil => rfl
  | cons item rest ih => rw [redactTreeItems, ih, List.map_cons]

@[simp] theorem redactTreeFields_eq (fields : List (String × LogValue ρ δ)) (depth : Nat) :
    redactTreeFields fields depth =
      fields.flatMap fun field => (assign field.1 (if isDenylistedField field.1
        then hidden field.2 else redactTree field.2 depth)).toList := by
  induction fields with
  | nil => rfl
  | cons field rest ih => rw [redactTreeFields, ih, List.flatMap_cons]

section Seen

variable {first rest seen seen' last : List ρ}

/-- What comes later has not been seen when the first part has been. -/
theorem not_seen_of_fresh (nodup : (first ++ rest).Nodup)
    (fresh : ∀ ref ∈ first ++ rest, ref ∉ seen)
    (only : ∀ ref ∈ seen', ref ∈ seen ∨ ref ∈ first) :
    ∀ ref ∈ rest, ref ∉ seen' := by
  intro ref h hold
  obtain hold | hold := only ref hold
  · exact fresh ref (List.mem_append_right _ h) hold
  · exact (List.nodup_append.1 nodup).2.2 ref hold ref h rfl

theorem seen_of_parts (only : ∀ ref ∈ seen', ref ∈ seen ∨ ref ∈ first)
    (later : ∀ ref ∈ last, ref ∈ seen' ∨ ref ∈ rest) :
    ∀ ref ∈ last, ref ∈ seen ∨ ref ∈ first ++ rest := by
  intro ref h
  rw [List.mem_append]
  obtain h | h := later ref h
  · obtain h | h := only ref h
    · exact .inl h
    · exact .inr (.inl h)
  · exact .inr (.inr h)

end Seen

variable [DecidableEq ρ]

/-- A call that sees no more than it should: the copy is that of a tree, and only what is in the
value is seen. -/
def CopiesTree (value : LogValue ρ δ) : Prop :=
  ∀ seen depth, value.refs.Nodup → (∀ ref ∈ value.refs, ref ∉ seen) →
    (redactPii value seen depth).1 = redactTree value depth ∧
      ∀ ref ∈ (redactPii value seen depth).2, ref ∈ seen ∨ ref ∈ value.refs

theorem redactItems_eq {items : List (LogValue ρ δ)}
    (copies : ∀ item ∈ items, CopiesTree item) {seen : List ρ} (depth : Nat)
    (nodup : (items.flatMap Document.refs).Nodup)
    (fresh : ∀ ref ∈ items.flatMap Document.refs, ref ∉ seen) :
    (redactItems items seen depth).1 = redactTreeItems items depth ∧
      ∀ ref ∈ (redactItems items seen depth).2,
        ref ∈ seen ∨ ref ∈ items.flatMap Document.refs := by
  induction items generalizing seen with
  | nil => exact ⟨rfl, fun ref h => .inl h⟩
  | cons item rest ih =>
    rw [List.flatMap_cons] at nodup fresh
    obtain ⟨hitem, hrest, -⟩ := List.nodup_append.1 nodup
    obtain ⟨hcopy, hseen⟩ := copies item (List.mem_cons_self ..) seen depth hitem
      fun ref h => fresh ref (List.mem_append_left _ h)
    obtain ⟨hcopies, hlast⟩ := ih (fun item h => copies item (List.mem_cons_of_mem _ h)) hrest
      (not_seen_of_fresh nodup fresh hseen)
    rw [List.flatMap_cons]
    exact ⟨by rw [redactItems, redactTreeItems, hcopy, hcopies], seen_of_parts hseen hlast⟩

theorem redactFields_eq {fields : List (String × LogValue ρ δ)}
    (copies : ∀ field ∈ fields, CopiesTree field.2) {seen : List ρ}
    (depth : Nat) (nodup : (fields.flatMap fun field => field.2.refs).Nodup)
    (fresh : ∀ ref ∈ fields.flatMap fun field => field.2.refs, ref ∉ seen) :
    (redactFields fields seen depth).1 = redactTreeFields fields depth ∧
      ∀ ref ∈ (redactFields fields seen depth).2,
        ref ∈ seen ∨ ref ∈ fields.flatMap fun field => field.2.refs := by
  induction fields generalizing seen with
  | nil => exact ⟨rfl, fun ref h => .inl h⟩
  | cons field rest ih =>
    obtain ⟨key, value⟩ := field
    rw [List.flatMap_cons] at nodup fresh
    obtain ⟨hvalue, hrest, -⟩ := List.nodup_append.1 nodup
    have hothers := fun field h => copies field (List.mem_cons_of_mem _ h)
    rw [redactFields, redactTreeFields, List.flatMap_cons]
    by_cases hkey : isDenylistedField key
    · -- the value is not looked at
      obtain ⟨hcopies, hlast⟩ := ih hothers hrest fun ref h => fresh ref (List.mem_append_right _ h)
      simp only [if_pos hkey, hcopies, true_and]
      exact seen_of_parts (fun ref h => .inl h) hlast
    · obtain ⟨hcopy, hseen⟩ := copies (key, value) (List.mem_cons_self ..) seen depth hvalue
        fun ref h => fresh ref (List.mem_append_left _ h)
      obtain ⟨hcopies, hlast⟩ := ih hothers hrest (not_seen_of_fresh nodup fresh hseen)
      simp only [if_neg hkey, hcopy, hcopies, true_and]
      exact seen_of_parts hseen hlast

theorem copiesTree (value : LogValue ρ δ) : CopiesTree value := by
  -- a list or an object is seen before what is in it
  have hinside : ∀ {ref : ρ} {inside seen : List ρ}, ref ∉ inside → (∀ r ∈ inside, r ∉ seen) →
      ∀ r ∈ inside, r ∉ ref :: seen := fun hnew hold r hr hmem => by
    obtain rfl | hmem := List.mem_cons.1 hmem
    · exact hnew hr
    · exact hold r hr hmem
  induction value using Document.induct with
  | leaf value => exact fun seen depth _ _ => ⟨rfl, fun ref h => .inl h⟩
  | array ref items ih =>
    intro seen depth nodup fresh
    rw [Document.refs, Document.refsItems_eq] at nodup fresh
    obtain ⟨hnew, hitems⟩ := List.nodup_cons.1 nodup
    obtain ⟨href, hold⟩ := List.forall_mem_cons.1 fresh
    rw [redactPii, redactTree, Document.refs, Document.refsItems_eq]
    by_cases hdeep : maxDepth ≤ depth
    · simp only [if_pos hdeep, true_and]
      exact fun r h => .inl h
    · obtain ⟨hcopy, hseen⟩ := redactItems_eq ih (depth + 1) hitems (hinside hnew hold)
      simp only [if_neg hdeep, if_neg href, hcopy, true_and]
      intro r h
      rw [List.mem_cons, or_left_comm, ← or_assoc, ← List.mem_cons]
      exact hseen r h
  | object ref fields ih =>
    intro seen depth nodup fresh
    rw [Document.refs, Document.refsFields_eq] at nodup fresh
    obtain ⟨hnew, hfields⟩ := List.nodup_cons.1 nodup
    obtain ⟨href, hold⟩ := List.forall_mem_cons.1 fresh
    rw [redactPii, redactTree, Document.refs, Document.refsFields_eq]
    by_cases hdeep : maxDepth ≤ depth
    · simp only [if_pos hdeep, true_and]
      exact fun r h => .inl h
    · obtain ⟨hcopy, hseen⟩ := redactFields_eq ih (depth + 1) hfields (hinside hnew hold)
      simp only [if_neg hdeep, if_neg href, hcopy, true_and]
      intro r h
      rw [List.mem_cons, or_left_comm, ← or_assoc, ← List.mem_cons]
      exact hseen r h

/-- Without a list or an object that occurs twice nothing is taken for circular. -/
theorem redacted_eq {value : LogValue ρ δ} (nodup : value.refs.Nodup) :
    redacted value = redactTree value 0 :=
  (copiesTree value [] 0 nodup fun _ _ => List.not_mem_nil).1

end Tree

/-! ## What gets through -/

/-- A field with a name on the denylist and a value that is neither null nor undefined. -/
def holdsPii : String → LogValue ρ δ → Bool :=
  Document.exposes isDenylistedField LogScalar.isNullish

mutual

/-- Some object that the copy does not reach holds personal data. -/
def leaks : LogValue ρ δ → Nat → Bool
  | .leaf _, _ => false
  | .array ref items, depth =>
    if maxDepth ≤ depth then (Document.array ref items).someField holdsPii
    else leaksItems items (depth + 1)
  | .object ref fields, depth =>
    if maxDepth ≤ depth then (Document.object ref fields).someField holdsPii
    else leaksFields fields (depth + 1)

def leaksItems : List (LogValue ρ δ) → Nat → Bool
  | [], _ => false
  | item :: rest, depth => leaks item depth || leaksItems rest depth

def leaksFields : List (String × LogValue ρ δ) → Nat → Bool
  | [], _ => false
  | (key, value) :: rest, depth =>
    !isDenylistedField key && key != "__proto__" && leaks value depth || leaksFields rest depth

end

@[simp] theorem leaksItems_eq (items : List (LogValue ρ δ)) (depth : Nat) :
    leaksItems items depth = items.any fun item => leaks item depth := by
  induction items with
  | nil => rfl
  | cons item rest ih => rw [leaksItems, ih, List.any_cons]

@[simp] theorem leaksFields_eq (fields : List (String × LogValue ρ δ)) (depth : Nat) :
    leaksFields fields depth = fields.any fun field =>
      !isDenylistedField field.1 && field.1 != "__proto__" && leaks field.2 depth := by
  induction fields with
  | nil => rfl
  | cons field rest ih => rw [leaksFields, ih, List.any_cons]

/-- The value with every value under a name on the denylist spelled `word`, unless it is null or
undefined. -/
def spelledPii {σ : Type} (f : ρ → σ) (word : LogScalar δ) (value : LogValue ρ δ) :
    LogValue σ δ :=
  value.spelled isDenylistedField LogScalar.isNullish f word

/-- Values that differ only in the non-null values under names on the denylist. -/
def DifferInPii (value other : LogValue ρ δ) : Prop :=
  spelledPii (fun _ => ()) redactedMark value = spelledPii (fun _ => ()) redactedMark other

/-- The values that may stand under a name on the denylist in a log. -/
def isMasked : LogScalar δ → Bool
  | .null | .undefined => true
  | .string text => text == "[REDACTED]"
  | .plain _ | .error .. => false

/-- A field of a log with a name on the denylist and another value. -/
def showsPii : String → LogValue ρ δ → Bool := Document.exposes isDenylistedField isMasked

theorem holdsPii_of_showsPii (key : String) (value : LogValue ρ δ)
    (h : showsPii key value = true) : holdsPii key value = true := by
  simp only [showsPii, Document.exposes, Bool.and_eq_true, Bool.not_eq_true'] at h
  simp only [holdsPii, Document.exposes, Bool.and_eq_true, Bool.not_eq_true']
  refine ⟨h.1, ?_⟩
  rcases value with (_ | _ | _ | _ | _) | _ | _ <;> first | rfl | cases h.2

theorem isMasked_of_isNullish {value : LogValue ρ δ}
    (h : value.isBlank LogScalar.isNullish = true) : value.isBlank isMasked = true := by
  rcases value with (_ | _ | _ | _ | _) | _ | _ <;> first | rfl | cases h

theorem not_showsPii_hidden (key : String) (value : LogValue ρ δ) :
    showsPii key (hidden value) = false := by
  rw [hidden]
  split
  · next hblank =>
    rw [showsPii, Document.forget, Document.exposes_rewrite, Document.exposes,
      isMasked_of_isNullish hblank]
    simp
  · simp [showsPii, Document.exposes, Document.isBlank, redactedMark, isMasked]

theorem not_someField_hidden (p : String → LogValue Unit δ → Bool) (value : LogValue ρ δ) :
    (hidden value).someField p = false := by
  rw [hidden]
  split
  · next hblank => rcases value with _ | _ | _ <;> first | rfl | cases hblank
  · rfl

/-- A field is assigned, unless it is the prototype that is. -/
theorem any_assign (key : String) (value : LogValue Unit δ)
    (p : String × LogValue Unit δ → Bool) :
    (assign key value).toList.any p = (key != "__proto__" && p (key, value)) := by
  by_cases h : key = "__proto__" <;> simp [assign, h]

section Leaks

/-- What is passed on as it is shows what it holds. -/
theorem forget_masked {value : LogValue ρ δ} (h : value.someField holdsPii = false) :
    value.forget.someField showsPii = false := by
  rw [Document.forget, showsPii, Document.someField_rewrite, Bool.eq_false_iff]
  intro hshows
  rw [Document.someField_mono holdsPii_of_showsPii hshows] at h
  cases h

/-- A copy shows nothing that is not passed on as it is. -/
theorem copy_masked {value : LogValue ρ δ} {depth : Nat} (h : leaks value depth = false) :
    (redactTree value depth).someField showsPii = false := by
  induction value using Document.induct generalizing depth with
  | leaf value => rfl
  | array ref items ih =>
    rw [leaks] at h
    rw [redactTree]
    split at h
    · next hdeep => rw [if_pos hdeep, forget_masked h]
    · next hdeep =>
      rw [leaksItems_eq, List.any_eq_false] at h
      rw [if_neg hdeep, Document.someField, Document.someItems_eq, redactTreeItems_eq,
        List.any_map, List.any_eq_false]
      intro item hitem
      simpa using ih item hitem (by simpa using h item hitem)
  | object ref fields ih =>
    rw [leaks] at h
    rw [redactTree]
    split at h
    · next hdeep => rw [if_pos hdeep, forget_masked h]
    · next hdeep =>
      rw [leaksFields_eq, List.any_eq_false] at h
      rw [if_neg hdeep, Document.someField, Document.someFields_eq, redactTreeFields_eq,
        List.any_flatMap, List.any_eq_false]
      intro field hfield
      have hleaks := h field hfield
      rw [any_assign]
      by_cases hkey : isDenylistedField field.1
      · simp [hkey, not_showsPii_hidden, not_someField_hidden]
      · by_cases hproto : field.1 = "__proto__"
        · simp [hproto]
        · have hinside : leaks field.2 (depth + 1) = false := by simpa [hkey, hproto] using hleaks
          have hcopy := ih field hfield hinside
          simpa [hkey, hproto, showsPii, Document.exposes] using hcopy

variable {σ : Type} {word : LogScalar δ}

theorem spelledPii_array (f : ρ → σ) (word : LogScalar δ) (ref : ρ) (items : List (LogValue ρ δ)) :
    spelledPii f word (.array ref items) = .array (f ref) (items.map (spelledPii f word)) := by
  simp [spelledPii, Document.spelled, Document.rewrite]

/-- The value of a field, spelled. -/
def spelledField (f : ρ → σ) (word : LogScalar δ) (field : String × LogValue ρ δ) :
    String × LogValue σ δ :=
  (field.1, Document.spell isDenylistedField LogScalar.isNullish word field.1
    (spelledPii f word field.2))

theorem spelledPii_object (f : ρ → σ) (word : LogScalar δ) (ref : ρ)
    (fields : List (String × LogValue ρ δ)) :
    spelledPii f word (.object ref fields) =
      .object (f ref) (fields.map (spelledField f word)) := by
  simp [spelledPii, Document.spelled, Document.rewrite, spelledField]

theorem spelledField_of_not_denylisted {field : String × LogValue ρ δ}
    (h : isDenylistedField field.1 = false) (f : ρ → σ) (word : LogScalar δ) :
    spelledField f word field = (field.1, spelledPii f word field.2) := by
  rw [spelledField, Document.spell_of_not_exposes]
  simp [Document.exposes, h]

@[simp] theorem isBlank_spelledPii (f : ρ → σ) (word : LogScalar δ) (blank : LogScalar δ → Bool)
    (value : LogValue ρ δ) :
    (spelledPii f word value).isBlank blank = value.isBlank blank :=
  Document.isBlank_rewrite f _ value

theorem someField_spelledPii (hword : word.isNullish = false) (f : ρ → σ) (value : LogValue ρ δ) :
    (spelledPii f word value).someField holdsPii = value.someField holdsPii :=
  Document.someField_spelled_eq hword f value

/-- What is hidden looks the same, however it is spelled. -/
theorem hidden_spelledField (hword : word.isNullish = false) {field : String × LogValue ρ δ}
    (h : isDenylistedField field.1 = true) (f : ρ → σ) :
    hidden (spelledField f word field).2 = hidden field.2 := by
  rw [spelledField]
  by_cases hblank : field.2.isBlank LogScalar.isNullish
  · rw [Document.spell_of_not_exposes (by simp [Document.exposes, hblank])]
    rcases field with ⟨key, _ | _ | _⟩ <;> rfl
  · rw [Document.spell_of_exposes (by simp [Document.exposes, h, hblank]), hidden, hidden,
      if_neg hblank, Document.isBlank, if_neg (by simp [hword])]

/-- What leaks does not depend on how it is spelled. -/
theorem leaks_spelledPii (hword : word.isNullish = false) (f : ρ → σ) (value : LogValue ρ δ)
    (depth : Nat) : leaks (spelledPii f word value) depth = leaks value depth := by
  induction value using Document.induct generalizing depth with
  | leaf value => rfl
  | array ref items ih =>
    have hdeep := someField_spelledPii hword f (.array ref items)
    rw [spelledPii_array] at hdeep ⊢
    rw [leaks, leaks, hdeep, leaksItems_eq, leaksItems_eq, List.any_map]
    split
    · rfl
    · exact any_congr_of_mem fun item hitem => ih item hitem (depth + 1)
  | object ref fields ih =>
    have hdeep := someField_spelledPii hword f (.object ref fields)
    rw [spelledPii_object] at hdeep ⊢
    rw [leaks, leaks, hdeep, leaksFields_eq, leaksFields_eq, List.any_map]
    split
    · rfl
    · refine any_congr_of_mem fun field hfield => ?_
      by_cases hkey : isDenylistedField field.1
      · simp [spelledField, hkey]
      · rw [Bool.not_eq_true] at hkey
        rw [Function.comp_apply, spelledField_of_not_denylisted hkey, ih field hfield]

/-- Where nothing leaks the copy does not depend on how the hidden values are spelled. -/
theorem copy_spelledPii (hword : word.isNullish = false) (f : ρ → σ) {value : LogValue ρ δ}
    {depth : Nat} (h : leaks value depth = false) :
    redactTree (spelledPii f word value) depth =
      redactTree value depth := by
  have hforget : ∀ {value : LogValue ρ δ}, value.someField holdsPii = false →
      (spelledPii f word value).forget = value.forget := fun {value} hsome => by
    rw [spelledPii, Document.spelled_eq hsome, Document.forget_rewrite]
  induction value using Document.induct generalizing depth with
  | leaf value => rfl
  | array ref items ih =>
    rw [leaks] at h
    split at h
    · next hdeep =>
      have hcopy := hforget h
      rw [spelledPii_array] at hcopy ⊢
      rw [redactTree, redactTree, if_pos hdeep, if_pos hdeep, hcopy]
    · next hdeep =>
      rw [leaksItems_eq, List.any_eq_false] at h
      rw [spelledPii_array, redactTree, redactTree, if_neg hdeep, if_neg hdeep, redactTreeItems_eq,
        redactTreeItems_eq, List.map_map]
      exact congrArg (Document.array ()) (List.map_congr_left fun item hitem =>
        ih item hitem (by simpa using h item hitem))
  | object ref fields ih =>
    rw [leaks] at h
    split at h
    · next hdeep =>
      have hcopy := hforget h
      rw [spelledPii_object] at hcopy ⊢
      rw [redactTree, redactTree, if_pos hdeep, if_pos hdeep, hcopy]
    · next hdeep =>
      rw [leaksFields_eq, List.any_eq_false] at h
      rw [spelledPii_object, redactTree, redactTree, if_neg hdeep, if_neg hdeep,
        redactTreeFields_eq, redactTreeFields_eq, List.flatMap_map]
      refine congrArg (Document.object ()) (List.flatMap_congr fun field hfield => ?_)
      have hleaks := h field hfield
      by_cases hkey : isDenylistedField field.1
      · have hhidden := hidden_spelledField hword hkey f
        simp only [spelledField, hkey, if_true] at hhidden ⊢
        rw [hhidden]
      · rw [Bool.not_eq_true] at hkey
        rw [spelledField_of_not_denylisted hkey, hkey]
        by_cases hproto : field.1 = "__proto__"
        · simp [assign, hproto]
        · rw [if_neg (by simp), if_neg (by simp),
            ih field hfield (by simpa [hkey, hproto] using hleaks)]

/-- What leaks shows. -/
theorem copy_shows (hword : isMasked word = false) (f : ρ → σ) {value : LogValue ρ δ} {depth : Nat}
    (h : leaks value depth = true) :
    (redactTree (spelledPii f word value) depth).someField showsPii =
      true := by
  have hforget : ∀ {value : LogValue ρ δ}, value.someField holdsPii = true →
      (spelledPii f word value).forget.someField showsPii = true := fun {value} hsome => by
    rw [Document.forget, showsPii, Document.someField_rewrite]
    exact Document.someField_spelled hword f hsome
  induction value using Document.induct generalizing depth with
  | leaf value => cases h
  | array ref items ih =>
    rw [leaks] at h
    split at h
    · next hdeep =>
      have hcopy := hforget h
      rw [spelledPii_array] at hcopy ⊢
      rw [redactTree, if_pos hdeep, hcopy]
    · next hdeep =>
      rw [leaksItems_eq, List.any_eq_true] at h
      obtain ⟨item, hitem, hleaks⟩ := h
      rw [spelledPii_array, redactTree, if_neg hdeep, redactTreeItems_eq, Document.someField,
        Document.someItems_eq, List.any_map, List.any_map, List.any_eq_true]
      exact ⟨item, hitem, ih item hitem hleaks⟩
  | object ref fields ih =>
    rw [leaks] at h
    split at h
    · next hdeep =>
      have hcopy := hforget h
      rw [spelledPii_object] at hcopy ⊢
      rw [redactTree, if_pos hdeep, hcopy]
    · next hdeep =>
      rw [leaksFields_eq, List.any_eq_true] at h
      obtain ⟨field, hfield, hleaks⟩ := h
      simp only [Bool.and_eq_true, Bool.not_eq_true', bne_iff_ne, ne_eq] at hleaks
      obtain ⟨⟨hkey, hproto⟩, hleaks⟩ := hleaks
      rw [spelledPii_object, redactTree, if_neg hdeep, redactTreeFields_eq, Document.someField,
        Document.someFields_eq, List.flatMap_map, List.any_flatMap, List.any_eq_true]
      refine ⟨field, hfield, ?_⟩
      rw [spelledField_of_not_denylisted hkey, any_assign]
      simp [hkey, hproto, ih field hfield hleaks]

end Leaks

/-- The copy has nothing but null, undefined or the mark under a name on the denylist, and it is the
same for every value that differs only in the non-null values there. -/
structure Complete [DecidableEq ρ] (value : LogValue ρ δ) : Prop where
  masked : (redacted value).someField showsPii = false
  blind : ∀ other : LogValue ρ δ, other.refs.Nodup → DifferInPii value other →
    redacted other = redacted value

/-- The redaction of a value in which no list or object occurs twice is complete if and only if the
objects it does not reach hold no personal data. -/
theorem redacted_iff [DecidableEq ρ] {value : LogValue ρ δ} (nodup : value.refs.Nodup) :
    Complete value ↔ leaks value 0 = false := by
  constructor
  · intro h
    rw [Bool.eq_false_iff]
    intro hleaks
    -- the same value with an empty text where there is personal data
    let other := spelledPii id (.string "") value
    have hnodup : other.refs.Nodup := nodup.sublist (Document.refs_spelled _ value)
    have hdiffer : DifferInPii value other :=
      (Document.spelled_spelled rfl id (fun _ => ()) redactedMark value).symm
    have hshows : (redactTree other 0).someField showsPii = true :=
      copy_shows (by simp [isMasked]) id hleaks
    have hmasked := h.masked
    rw [← h.blind other hnodup hdiffer, redacted_eq hnodup, hshows] at hmasked
    cases hmasked
  · intro hleaks
    have hmark : (redactedMark : LogScalar δ).isNullish = false := rfl
    constructor
    · rw [redacted_eq nodup, copy_masked hleaks]
    · intro other hnodup hdiffer
      have hother : leaks other 0 = false := by
        rw [← leaks_spelledPii hmark (fun _ => ()) other, ← hdiffer, leaks_spelledPii hmark, hleaks]
      rw [redacted_eq nodup, redacted_eq hnodup, ← copy_spelledPii hmark (fun _ => ()) hother,
        ← hdiffer, copy_spelledPii hmark _ hleaks]

/-- A card with its code inside so many objects. -/
def cardInside : Nat → LogValue Nat Unit
  | 0 => .object 0 [("CVV", .leaf (.string "314")), ("card_number", .leaf .null)]
  | n + 1 => .object (n + 1) [("context", cardInside n)]

theorem redacted_iff_seven : Complete (cardInside 7) :=
  (redacted_iff (by decide)).2 (by decide +kernel)

/-- Inside eight objects the code is logged. -/
theorem code_logged : ¬ Complete (cardInside 8) :=
  fun h => absurd h.masked (by decide +kernel)

end Amana.Backend
