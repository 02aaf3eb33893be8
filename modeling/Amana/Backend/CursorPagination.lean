import Mathlib.Data.Rat.Floor
import Mathlib.Tactic.NormNum

/-!
# Cursor pagination

`lib/cursorPagination.ts`.  A page ends with the row its cursor points at, and one row more than the
limit is asked for, so that it is known whether there is a next page.  `findMany` of Prisma is a
parameter.
-/

namespace Amana.Backend

/-! ## The tokens -/

/-- A value that `JSON.parse` gives; `number none` is a number too large for a double. -/
inductive JsonValue where
  | null
  | boolean (value : Bool)
  | number (value : Option ℚ)
  | string (value : String)
  | array (items : List JsonValue)
  | object (fields : List (String × JsonValue))

structure CursorKey where
  id : ℚ
  sortValue : Option JsonValue

structure InvalidCursorError where
  message : String := "Invalid pagination cursor"
  deriving DecidableEq, Repr

/-- The texts of cursors: `JSON`, and a `Buffer` of UTF-8 as base64url.  `parse` is `none` where
`JSON.parse` throws. -/
structure CursorText where
  stringify : CursorKey → String
  toBase64url : String → String
  fromBase64url : String → String
  parse : String → Option JsonValue
  fromBase64url_toBase64url : ∀ s, fromBase64url (toBase64url s) = s
  toBase64url_empty : toBase64url "" = ""
  parse_empty : parse "" = none
  parse_stringify : ∀ id : Int,
    parse (stringify ⟨id, none⟩) = some (.object [("id", .number (some id))])

def encodeCursor (text : CursorText) (key : CursorKey) : String :=
  text.toBase64url (text.stringify key)

def decodeCursor (text : CursorText) (cursor : Option String) :
    Except InvalidCursorError (Option CursorKey) :=
  match cursor with
  | none => .ok none
  | some token =>
    if token = "" then .ok none
    else
      match text.parse (text.fromBase64url token) with
      | some (.object fields) =>
        match fields.lookup "id" with
        | some (.number (some id)) => .ok (some ⟨id, fields.lookup "sortValue"⟩)
        | _ => .error {}
      | _ => .error {}

/-- A token is read as the key it was written for. -/
theorem decodeCursor_encodeCursor (text : CursorText) (id : Int) :
    decodeCursor text (some (encodeCursor text ⟨id, none⟩)) = .ok (some ⟨id, none⟩) := by
  have hparse := text.parse_stringify id
  have htoken : encodeCursor text ⟨id, none⟩ ≠ "" := by
    intro hempty
    have hread := text.fromBase64url_toBase64url (text.stringify ⟨id, none⟩)
    have hnone := text.fromBase64url_toBase64url ""
    rw [text.toBase64url_empty] at hnone
    rw [show text.toBase64url (text.stringify ⟨id, none⟩) = "" from hempty, hnone] at hread
    rw [← hread, text.parse_empty] at hparse
    cases hparse
  rw [decodeCursor, if_neg htoken, encodeCursor, text.fromBase64url_toBase64url, hparse]
  rfl

/-! ## One page -/

structure CursorPageInfo where
  nextCursor : Option String
  hasNextPage : Bool
  limit : Nat
  deriving DecidableEq, Repr

structure CursorPageResult (Row : Type) where
  items : List Row
  pageInfo : CursorPageInfo
  deriving DecidableEq, Repr

/-- `DEFAULT_CURSOR_LIMIT`. -/
def defaultCursorLimit : Nat := 20

/-- `MAX_CURSOR_LIMIT`. -/
def maxCursorLimit : Nat := 100

/-- Of `Number(rawLimit)`, which is `none` where that is not finite. -/
def normalizeCursorLimit (rawLimit : Option ℚ) : Nat :=
  match rawLimit with
  | none => defaultCursorLimit
  | some parsed => if parsed ≤ 0 then defaultCursorLimit else min parsed.floor.toNat maxCursorLimit

example : normalizeCursorLimit (some (59 / 10)) = 5 := by decide +kernel

/-- The arguments of `findMany`. -/
structure FindManyArgs (O : Type) where
  take : Nat
  skip : Option Int
  cursor : Option ℚ
  orderBy : O

variable {Row O : Type}

def paginateWithCursor (text : CursorText) (rowId : Row → Int)
    (findMany : FindManyArgs O → List Row) (orderBy : O) (cursor : Option String)
    (limit : Option ℚ) : Except InvalidCursorError (CursorPageResult Row) := do
  let decoded ← decodeCursor text cursor
  let limit := normalizeCursorLimit limit
  let take := limit + 1
  let items := findMany ⟨take, decoded.map fun _ => 1, decoded.map CursorKey.id, orderBy⟩
  let hasNextPage := decide (limit < items.length)
  let page := if hasNextPage then items.take limit else items
  let nextCursor := if hasNextPage then
    page.getLast?.map fun last => encodeCursor text ⟨rowId last, none⟩ else none
  return ⟨page, nextCursor, hasNextPage, limit⟩

/-- A limit is at most a hundred, and it is zero for a fraction of one only. -/
theorem normalizeCursorLimit_le (rawLimit : Option ℚ) :
    normalizeCursorLimit rawLimit ≤ maxCursorLimit := by
  unfold normalizeCursorLimit
  split
  · decide
  · split
    · decide
    · exact min_le_right _ _

theorem normalizeCursorLimit_pos_iff {rawLimit : Option ℚ} :
    0 < normalizeCursorLimit rawLimit ↔ ∀ q ∈ rawLimit, 0 < q → 1 ≤ q := by
  unfold normalizeCursorLimit
  split
  · exact iff_of_true (by decide) (by rintro q ⟨⟩)
  · next parsed =>
    have hfloor : 1 ≤ parsed.floor ↔ 1 ≤ parsed := by
      rw [Rat.le_floor_iff]
      norm_num
    split
    · next hneg =>
      refine iff_of_true (by decide) ?_
      rintro q ⟨⟩ hq
      exact absurd hq (not_lt.2 hneg)
    · next hpos =>
      rw [not_le] at hpos
      have hmin : 0 < min parsed.floor.toNat maxCursorLimit ↔ 1 ≤ parsed.floor := by
        rw [lt_min_iff]
        have hmax : 0 < maxCursorLimit := by decide
        omega
      rw [hmin, hfloor]
      exact ⟨fun h q hq _ => by cases hq; exact h, fun h => h parsed rfl hpos⟩

end Amana.Backend
