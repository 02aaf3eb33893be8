import Amana.Backend.AuditChain
import Amana.Backend.CursorWalk

/-!
# The pages of the audit log

`AdminAuditService.list` normalises its limit before `paginateWithCursor` does, so no limit makes an
empty page, and the log is only appended to.  Following the cursors shows every entry once
(`auditLog_visitsOnce`).
-/

namespace Amana.Backend

open Lib.Pages

/-! ## The order of the entries -/

inductive AuditSortField where
  | createdAt
  | id
  deriving DecidableEq, Repr

inductive SortOrder where
  | asc
  | desc
  deriving DecidableEq, Repr

def AuditSortField.value (row : AuditRow) : AuditSortField → Int
  | .createdAt => row.createdAt.1
  | .id => row.id

/-- The order an `orderBy` stands for: by its first field, and by the others among equals. -/
def orderedBy : List (AuditSortField × SortOrder) → AuditRow → AuditRow → Prop
  | [], _, _ => True
  | (field, .asc) :: fields, a, b =>
    field.value a < field.value b ∨ field.value a = field.value b ∧ orderedBy fields a b
  | (field, .desc) :: fields, a, b =>
    field.value b < field.value a ∨ field.value a = field.value b ∧ orderedBy fields a b

/-- The order of the list, the newest entry first. -/
def newestFirst : List (AuditSortField × SortOrder) := [(.createdAt, .desc), (.id, .desc)]

theorem endsIn_newestFirst :
    EndsIn (fun row : AuditRow => (row.id : Int)) (orderedBy newestFirst) := by
  have hle (a b : AuditRow) : orderedBy newestFirst a b ↔
      b.createdAt.1 < a.createdAt.1 ∨ a.createdAt.1 = b.createdAt.1 ∧ (b.id : Int) ≤ a.id := by
    simp only [newestFirst, orderedBy, AuditSortField.value, and_true]
    omega
  constructor
  · intro a b
    rw [hle, hle]
    omega
  · intro a b c hab hbc
    rw [hle] at hab hbc ⊢
    omega
  · intro a b hab hba
    rw [hle] at hab hba
    omega

/-! ## The list -/

/-- A parameter that is a number is `none` where it is not finite. -/
structure AdminAuditListParams where
  cursor : Option String
  limit : Option (Option ℚ)
  page : Option (Option ℚ)

/-- `totalPages` is `none` where it is not finite. -/
structure AuditPagination where
  page : Int
  limit : Nat
  total : Nat
  totalPages : Option Nat
  deriving DecidableEq, Repr

structure AdminAuditListResult where
  result : CursorPageResult AuditRow
  pagination : Option AuditPagination
  deriving DecidableEq, Repr

/-- What the service reads of the table. -/
structure AuditReads where
  findMany : FindManyArgs (List (AuditSortField × SortOrder)) → List AuditRow
  count : Nat

/-- The offset mode of `list`. -/
def AdminAuditService.listByPage (reads : AuditReads) (page : Option ℚ) (limit : Nat) :
    AdminAuditListResult :=
  let page : Int := match page with
    | some page => if 0 < page then page.floor else 1
    | none => 1
  let total := reads.count
  { result :=
      ⟨reads.findMany ⟨limit, some ((page - 1) * limit), none, [(.createdAt, .desc)]⟩,
        none, decide (page * limit < total), limit⟩
    pagination := some ⟨page, limit, total,
      if limit = 0 then none else some (max 1 ((total + limit - 1) / limit))⟩ }

def AdminAuditService.list (text : CursorText) (reads : AuditReads)
    (params : AdminAuditListParams) : Except InvalidCursorError AdminAuditListResult :=
  let limit := normalizeCursorLimit (params.limit.getD (some defaultCursorLimit))
  match params.page with
  | some page =>
    if params.cursor.getD "" = "" then .ok (listByPage reads page limit)
    else paged limit
  | none => paged limit
where
  paged (limit : Nat) : Except InvalidCursorError AdminAuditListResult := do
    let result ← paginateWithCursor text (fun row => row.id) reads.findMany newestFirst
      params.cursor (some limit)
    return ⟨result, none⟩

/-! ## Following the cursors -/

/-- The log at each request, and what the service reads of it then. -/
structure AuditLog where
  text : CursorText
  rows : Nat → List AuditRow
  unique : ∀ k, ((rows k).map fun row => (row.id : Int)).Nodup
  reads : Nat → AuditReads
  finds : ∀ k, FindsRows (fun row => row.id) (orderedBy newestFirst) newestFirst (rows k)
    (reads k).findMany

namespace AuditLog

/-- The log as it is listed with one limit. -/
def listing (log : AuditLog) (limit : Option (Option ℚ)) :
    Listing AuditRow (List (AuditSortField × SortOrder)) where
  text := log.text
  rowId row := row.id
  le := orderedBy newestFirst
  ends := endsIn_newestFirst
  table := log.rows
  unique := log.unique
  orderBy := newestFirst
  findMany k := (log.reads k).findMany
  finds := log.finds
  limit := some (normalizeCursorLimit (limit.getD (some defaultCursorLimit)))

end AuditLog

/-- Without a page, the list is a request of that listing. -/
theorem list_eq_request (log : AuditLog) (k : Nat) (cursor : Option String)
    (limit : Option (Option ℚ)) :
    AdminAuditService.list log.text (log.reads k) ⟨cursor, limit, none⟩ =
      ((log.listing limit).request k cursor).map fun page => ⟨page, none⟩ := by
  rw [AdminAuditService.list, AdminAuditService.list.paged]
  rfl

/-- Whatever limit is asked for, the entries of a log that is appended to are each shown once. -/
theorem auditLog_visitsOnce (log : AuditLog) (appended : ∀ k, log.rows k ⊆ log.rows (k + 1))
    (limit : Option (Option ℚ)) : VisitsOnce (log.listing limit) := by
  refine visitsOnce_of_kept (kept_of_inserts ?_ appended)
  rintro q ⟨⟩ hpositive
  exact_mod_cast hpositive

end Amana.Backend
