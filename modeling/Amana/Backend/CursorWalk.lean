import Amana.Backend.CursorPagination
import Amana.Backend.Money
import Amana.Lib.Pages
import Mathlib.Data.List.Perm.Subperm
import Mathlib.Data.List.TakeWhile

/-!
# Walks over a listed table

The cursors of `paginateWithCursor` are followed from the first page, over a table that changes
between the requests.  The pages show every row once that is there throughout, as long as the row of
the cursor is still there when the next page is asked for (`visits_once_iff`).  When that row is
deleted, all rows after it are lost (`not_visitsOnce`).
-/

namespace Amana.Backend

open Lib.Pages

variable {Row O : Type}

/-! ## A walk over a changing table -/

/-- What is assumed of Prisma: `findMany` goes through the table in the given order, or starts at
the row of the cursor and gives nothing when there is no such row. -/
structure Serves (rowId : Row → Int) (orderBy : O) (findMany : FindManyArgs O → List Row)
    (ordered : List Row) : Prop where
  first : ∀ take, findMany ⟨take, none, none, orderBy⟩ = ordered.take take
  after : ∀ take (skip : Nat) (id : ℚ), findMany ⟨take, some skip, some id, orderBy⟩ =
    ((ordered.dropWhile fun row => (rowId row : ℚ) ≠ id).drop skip).take take

def FindsRows (rowId : Row → Int) (le : Row → Row → Prop) (orderBy : O) (table : List Row)
    (findMany : FindManyArgs O → List Row) : Prop :=
  ∃ ordered, ordered.Perm table ∧ ordered.Pairwise le ∧ Serves rowId orderBy findMany ordered

/-- A table that is listed with one limit: `table k` and `findMany k` are those of request `k`, and
`orderBy` stands for the order `le`, which ends in the identifier. -/
structure Listing (Row O : Type) where
  text : CursorText
  rowId : Row → Int
  le : Row → Row → Prop
  ends : EndsIn rowId le
  table : Nat → List Row
  unique : ∀ k, ((table k).map rowId).Nodup
  orderBy : O
  findMany : Nat → FindManyArgs O → List Row
  finds : ∀ k, FindsRows rowId le orderBy (table k) (findMany k)
  limit : Option ℚ

/-- The pages so far, and the cursor of the next request, if there is one. -/
structure WalkState (Row : Type) where
  pages : List (List Row)
  next : Option (Option String)
  deriving DecidableEq, Repr

namespace Listing

def request (L : Listing Row O) (k : Nat) (cursor : Option String) :
    Except InvalidCursorError (CursorPageResult Row) :=
  paginateWithCursor L.text L.rowId (L.findMany k) L.orderBy cursor L.limit

/-- Following `nextCursor` from the first page, for at most so many requests. -/
def walk (L : Listing Row O) : Nat → Except InvalidCursorError (WalkState Row)
  | 0 => .ok ⟨[], some none⟩
  | k + 1 => do
    let w ← L.walk k
    match w.next with
    | none => return w
    | some cursor =>
      let result ← L.request k cursor
      return ⟨w.pages ++ [result.items], result.pageInfo.nextCursor.map some⟩

/-- The size of a page, and the token of a row. -/
def size (L : Listing Row O) : Nat := normalizeCursorLimit L.limit

def token (L : Listing Row O) (row : Row) : String := encodeCursor L.text ⟨L.rowId row, none⟩

end Listing

namespace WalkState

/-- All rows that were returned. -/
def rows (w : WalkState Row) : List Row := w.pages.flatten

def last (w : WalkState Row) : Option Row := w.rows.getLast?

end WalkState

/-! ### What one request gives -/

section Request

variable {L : Listing Row O} {k : Nat}

namespace Listing

/-- The rows of a table in order that a request after `last` can return. -/
def pending (L : Listing Row O) (last : Option Row) (ordered : List Row) : List Row :=
  match last with
  | none => ordered
  | some c => (ordered.dropWhile fun row => (L.rowId row : ℚ) ≠ L.rowId c).drop 1

/-- The page that begins these rows. -/
def page (L : Listing Row O) (rest : List Row) : CursorPageResult Row where
  items := rest.take L.size
  pageInfo.nextCursor :=
    if L.size < rest.length then (rest.take L.size).getLast?.map L.token else none
  pageInfo.hasNextPage := decide (L.size < rest.length)
  pageInfo.limit := L.size

end Listing

/-- With one row more than the limit it is known whether there are more rows. -/
theorem request_of_items {cursor : Option String} {key : Option CursorKey} {rest : List Row}
    (decoded : decodeCursor L.text cursor = .ok key)
    (items : L.findMany k ⟨L.size + 1, key.map fun _ => 1, key.map CursorKey.id, L.orderBy⟩ =
      rest.take (L.size + 1)) :
    L.request k cursor = .ok (L.page rest) := by
  have hmore :
      decide (L.size < (rest.take (L.size + 1)).length) = decide (L.size < rest.length) := by
    rw [List.length_take, decide_eq_decide]
    omega
  have hitems : (if L.size < rest.length then (rest.take (L.size + 1)).take L.size
      else rest.take (L.size + 1)) = rest.take L.size := by
    by_cases h : L.size < rest.length
    · rw [if_pos h, List.take_take, min_eq_left (by omega)]
    · rw [if_neg h, List.take_of_length_le (by omega), List.take_of_length_le (by omega)]
  have hsize : normalizeCursorLimit L.limit = L.size := rfl
  rw [Listing.request, paginateWithCursor, decoded]
  simp only [bind, Except.bind, pure, Except.pure, hsize, items, hmore, decide_eq_true_eq, hitems]
  rfl

theorem request_eq (L : Listing Row O) (k : Nat) (last : Option Row) :
    ∃ ordered : List Row, ordered.Perm (L.table k) ∧ ordered.Pairwise L.le ∧
      L.request k (last.map L.token) = .ok (L.page (L.pending last ordered)) := by
  obtain ⟨ordered, hperm, hsorted, hserves⟩ := L.finds k
  refine ⟨ordered, hperm, hsorted, ?_⟩
  cases last with
  | none => exact request_of_items rfl (hserves.first _)
  | some c =>
    refine request_of_items (decodeCursor_encodeCursor L.text (L.rowId c)) ?_
    exact hserves.after (L.size + 1) 1 (L.rowId c)

theorem mem_of_mem_pending {last : Option Row} {ordered : List Row} {row : Row}
    (h : row ∈ L.pending last ordered) : row ∈ ordered := by
  cases last with
  | none => exact h
  | some c => exact (List.dropWhile_sublist _).mem (List.mem_of_mem_drop h)

/-- Nothing is found after a row that is gone. -/
theorem pending_of_gone {c : Row} {ordered : List Row}
    (gone : ∀ row ∈ ordered, L.rowId row ≠ L.rowId c) : L.pending (some c) ordered = [] := by
  have hdrop : (ordered.dropWhile fun row => (L.rowId row : ℚ) ≠ L.rowId c) = [] := by
    rw [List.dropWhile_eq_nil_iff]
    intro row hrow
    simpa using gone row hrow
  rw [Listing.pending, hdrop, List.drop_nil]

/-- What comes after a row that is still there. -/
theorem pending_of_mem {c : Row} {ordered : List Row} (unique : (ordered.map L.rowId).Nodup)
    (mem : c ∈ ordered) :
    ∃ pre, ordered = pre ++ c :: L.pending (some c) ordered := by
  obtain ⟨pre, post, rfl⟩ := List.append_of_mem mem
  have hpre : ∀ row ∈ pre, L.rowId row ≠ L.rowId c := by
    intro row hrow
    rw [List.map_append, List.map_cons] at unique
    exact (List.nodup_append.1 unique).2.2 _ (List.mem_map_of_mem hrow) _ List.mem_cons_self
  have hdrop : ((pre ++ c :: post).dropWhile fun row => (L.rowId row : ℚ) ≠ L.rowId c) =
      c :: post := by
    rw [List.dropWhile_append_of_pos (by simpa using hpre), List.dropWhile_cons_of_neg (by simp)]
  refine ⟨pre, ?_⟩
  rw [Listing.pending, hdrop, List.drop_one, List.tail_cons]

/-- These are the rows after `last`, in order. -/
structure Rest (L : Listing Row O) (k : Nat) (last : Option Row) (rest : List Row) : Prop where
  sorted : rest.Pairwise (Before L.le)
  mem : ∀ row, row ∈ rest ↔ row ∈ L.table k ∧ Ahead L.le last row

/-- The row of the cursor is still there, or there is nothing after it. -/
def Listing.Anchored (L : Listing Row O) (k : Nat) (last : Option Row) : Prop :=
  ∀ c ∈ last, c ∈ L.table k ∨ ∀ row ∈ L.table k, L.rowId row ≠ L.rowId c ∧ L.le row c

theorem rest_of_anchored {last : Option Row} {ordered : List Row}
    (perm : ordered.Perm (L.table k)) (sorted : ordered.Pairwise L.le)
    (anchored : L.Anchored k last) : Rest L k last (L.pending last ordered) := by
  have hunique : (ordered.map L.rowId).Nodup := (perm.map L.rowId).nodup_iff.2 (L.unique k)
  have hbefore := before_of_pairwise L.ends sorted hunique
  cases last with
  | none => exact ⟨hbefore, fun row => by simp [Listing.pending, perm.mem_iff, Ahead]⟩
  | some c =>
    obtain hmem | hgone := anchored c rfl
    · obtain ⟨pre, hsplit⟩ := pending_of_mem hunique (perm.mem_iff.2 hmem)
      rw [hsplit] at hbefore
      refine ⟨(List.pairwise_cons.1 (List.pairwise_append.1 hbefore).2.1).2, fun row => ?_⟩
      rw [mem_after_iff L.ends hbefore, ← hsplit, perm.mem_iff]
      simp [Ahead]
    · rw [pending_of_gone fun row hrow => (hgone row (perm.mem_iff.1 hrow)).1]
      refine ⟨.nil, fun row => ?_⟩
      simp only [List.not_mem_nil, false_iff, not_and]
      exact fun hrow hahead => hahead c rfl (hgone row hrow).2

end Request

/-! ### Walks -/

section Walk

variable {L : Listing Row O} {n : Nat} {w : WalkState Row} {rest : List Row}

/-- The walk after one more page. -/
def WalkState.turn (w : WalkState Row) (page : CursorPageResult Row) : WalkState Row :=
  ⟨w.pages ++ [page.items], page.pageInfo.nextCursor.map some⟩

theorem walk_of_request (walk : L.walk n = .ok w) {cursor : Option String}
    (next : w.next = some cursor) {page : CursorPageResult Row}
    (request : L.request n cursor = .ok page) : L.walk (n + 1) = .ok (w.turn page) := by
  rw [Listing.walk, walk]
  simp only [bind, Except.bind, next, request]
  rfl

theorem walk_of_ended (walk : L.walk n = .ok w) (next : w.next = none) :
    L.walk (n + 1) = .ok w := by
  rw [Listing.walk, walk]
  simp only [bind, Except.bind, next]
  rfl

@[simp] theorem rows_turn (w : WalkState Row) (page : CursorPageResult Row) :
    (w.turn page).rows = w.rows ++ page.items := by
  simp [WalkState.rows, WalkState.turn]

/-- There is a next page exactly when rows are left over and the page has a last one. -/
theorem next_turn (w : WalkState Row) (rest : List Row) :
    (w.turn (L.page rest)).next =
      if L.size < rest.length ∧ 0 < L.size then
        some ((w.turn (L.page rest)).last.map L.token) else none := by
  have hlast : (w.turn (L.page rest)).last = (w.rows ++ rest.take L.size).getLast? := by
    rw [WalkState.last, rows_turn]
    rfl
  rw [hlast]
  show (if L.size < rest.length then (rest.take L.size).getLast?.map L.token else none).map some = _
  by_cases hmore : L.size < rest.length
  · rw [if_pos hmore]
    by_cases hpositive : 0 < L.size
    · have hne : rest.take L.size ≠ [] := by
        rw [Ne, List.take_eq_nil_iff]
        rintro (h | rfl)
        · omega
        · exact absurd hmore (by simp)
      rw [if_pos ⟨hmore, hpositive⟩, List.getLast?_append_of_ne_nil _ hne,
        List.getLast?_eq_some_getLast hne]
      rfl
    · rw [if_neg (fun h => hpositive h.2), show L.size = 0 by omega]
      rfl
  · rw [if_neg hmore, if_neg (fun h => hmore h.1)]
    rfl

/-- Of any walk: its next request is request `n`, with the token of its last row, and its rows are
of the tables. -/
structure WalkShape (L : Listing Row O) (n : Nat) (w : WalkState Row) : Prop where
  next : w.next ≠ none → w.pages.length = n ∧ w.next = some (w.last.map L.token)
  found : ∀ row ∈ w.rows, ∃ k < n, row ∈ L.table k

/-- A walk that has not ended goes on with the rows after its last one. -/
theorem exists_turn (walk : L.walk n = .ok w) (shape : WalkShape L n w) (going : w.next ≠ none) :
    ∃ ordered : List Row, ordered.Perm (L.table n) ∧ ordered.Pairwise L.le ∧
      L.walk (n + 1) = .ok (w.turn (L.page (L.pending w.last ordered))) := by
  obtain ⟨ordered, hperm, hsorted, hrequest⟩ := request_eq L n w.last
  exact ⟨ordered, hperm, hsorted, walk_of_request walk (shape.next going).2 hrequest⟩

/-- No request of a walk fails. -/
theorem exists_walk (L : Listing Row O) (n : Nat) : ∃ w, L.walk n = .ok w ∧ WalkShape L n w := by
  induction n with
  | zero => exact ⟨_, rfl, fun _ => ⟨rfl, rfl⟩, by simp [WalkState.rows]⟩
  | succ n ih =>
    obtain ⟨w, hwalk, hshape⟩ := ih
    by_cases hgoing : w.next = none
    · refine ⟨w, walk_of_ended hwalk hgoing, (absurd hgoing ·), fun row hrow => ?_⟩
      obtain ⟨k, hk, hmem⟩ := hshape.found row hrow
      exact ⟨k, by omega, hmem⟩
    obtain ⟨ordered, hperm, -, hturn⟩ := exists_turn hwalk hshape hgoing
    refine ⟨_, hturn, fun hnext => ⟨?_, ?_⟩, fun row hrow => ?_⟩
    · show (w.pages ++ [_]).length = n + 1
      rw [List.length_append, (hshape.next hgoing).1]
      rfl
    · rw [next_turn] at hnext ⊢
      split
      · rfl
      · next hnone => rw [if_neg hnone] at hnext; exact absurd rfl hnext
    · rw [rows_turn, List.mem_append] at hrow
      obtain hrow | hrow := hrow
      · obtain ⟨k, hk, hmem⟩ := hshape.found row hrow
        exact ⟨k, by omega, hmem⟩
      · have hmem := mem_of_mem_pending (List.mem_of_mem_take hrow)
        exact ⟨n, by omega, hperm.mem_iff.1 hmem⟩

/-- There is only one walk. -/
theorem of_exists_walk {P : WalkState Row → Prop} (walk : L.walk n = .ok w)
    (h : ∃ w, L.walk n = .ok w ∧ P w) : P w := by
  obtain ⟨w', hwalk, hw'⟩ := h
  rw [walk] at hwalk
  cases hwalk
  exact hw'

theorem shape_of_walk (walk : L.walk n = .ok w) : WalkShape L n w :=
  of_exists_walk walk (exists_walk L n)

end Walk

/-! ## Every row once -/

section Once

variable {L : Listing Row O} {n : Nat} {w : WalkState Row} {rest : List Row}

/-- A page has at most a hundred rows, and it is empty only if the table has no row after those of
the pages before it. -/
def Listing.Sized (L : Listing Row O) (pages : List (List Row)) : Prop :=
  ∀ k page, pages[k]? = some page → page.length ≤ maxCursorLimit ∧
    (page = [] → ∀ row ∈ L.table k, ¬ Ahead L.le (pages.take k).flatten.getLast? row)

/-- Of a walk whose pages all started where the page before ended. -/
structure Fair (L : Listing Row O) (n : Nat) (w : WalkState Row) : Prop where
  sized : L.Sized w.pages
  sorted : w.rows.Pairwise (Before L.le)
  going : w.next ≠ none → (∀ page ∈ w.pages, page.length = L.size) ∧ (n = 0 ∨ 0 < L.size) ∧
    Visited L.le (fun row => ∀ k < n, row ∈ L.table k) w.rows
  ended : w.next = none → ∀ row, (∀ k < w.pages.length, row ∈ L.table k) → row ∈ w.rows

theorem fair_start (L : Listing Row O) : Fair L 0 ⟨[], some none⟩ where
  sized := by
    intro k page h
    simp at h
  sorted := .nil
  going := fun _ => ⟨by simp, .inl rfl, visited_nil L.le _⟩
  ended := fun h => by cases h

theorem sized_turn (sized : L.Sized w.pages) (length : w.pages.length = n)
    (rest_spec : Rest L n w.last rest) (positive : 0 < L.size ∨ rest = []) :
    L.Sized (w.turn (L.page rest)).pages := by
  intro k page hpage
  have hpages : (w.turn (L.page rest)).pages = w.pages ++ [rest.take L.size] := rfl
  rw [hpages] at hpage ⊢
  by_cases hold : k < w.pages.length
  · rw [List.getElem?_append_left hold] at hpage
    rw [List.take_append_of_le_length hold.le]
    exact sized k page hpage
  -- The page that was turned to.
  obtain rfl : k = n := by
    have hlt := (List.getElem?_eq_some_iff.1 hpage).1
    rw [List.length_append, List.length_singleton] at hlt
    omega
  rw [List.getElem?_append_right (by omega), length, Nat.sub_self] at hpage
  obtain rfl : rest.take L.size = page := by simpa using hpage
  rw [← length, List.take_left]
  refine ⟨?_, fun hempty row hrow hahead => ?_⟩
  · have hmax : L.size ≤ maxCursorLimit := normalizeCursorLimit_le L.limit
    rw [List.length_take]
    omega
  · rw [length] at hrow
    have hmem := (rest_spec.mem row).2 ⟨hrow, hahead⟩
    obtain hpositive | rfl := positive
    · obtain hzero | rfl := List.take_eq_nil_iff.1 hempty
      · omega
      · cases hmem
    · cases hmem

theorem fair_turn (fair : Fair L n w) (shape : WalkShape L n w) (going : w.next ≠ none)
    (rest_spec : Rest L n w.last rest) (positive : 0 < L.size ∨ rest = []) :
    Fair L (n + 1) (w.turn (L.page rest)) := by
  obtain ⟨hfull, -, hvisited⟩ := fair.going going
  have hlength := (shape.next going).1
  have hpresent : Visited L.le (fun row => ∀ k < n + 1, row ∈ L.table k)
      (w.rows ++ rest.take L.size) :=
    (hvisited.mono fun row h k hk => h k (by omega)).append L.ends rest_spec.sorted
      (fun row hrow hahead => (rest_spec.mem row).2 ⟨hrow n (by omega), hahead⟩)
      (fun row hrow => ((rest_spec.mem row).1 hrow).2)
  refine ⟨sized_turn fair.sized hlength rest_spec positive, ?_, fun hnext => ?_, fun hnext => ?_⟩
  · rw [rows_turn]
    exact hpresent.sorted
  · rw [next_turn] at hnext
    have hmore : L.size < rest.length ∧ 0 < L.size := by
      by_contra hnone
      exact hnext (if_neg hnone)
    refine ⟨?_, .inr hmore.2, ?_⟩
    · intro page hpage
      change page ∈ w.pages ++ [rest.take L.size] at hpage
      rw [List.mem_append, List.mem_singleton] at hpage
      obtain hpage | rfl := hpage
      · exact hfull page hpage
      · rw [List.length_take]
        omega
    · rw [rows_turn]
      exact hpresent
  · rw [next_turn] at hnext
    have hlast : rest.take L.size = rest := by
      obtain hpositive | rfl := positive
      · refine List.take_of_length_le ?_
        by_contra hmore
        rw [if_pos ⟨by omega, hpositive⟩] at hnext
        cases hnext
      · exact List.take_nil
    intro row hrow
    have hpages : (w.turn (L.page rest)).pages.length = n + 1 := by
      show (w.pages ++ [_]).length = n + 1
      rw [List.length_append, hlength]
      rfl
    rw [hpages] at hrow
    rw [rows_turn, List.mem_append]
    by_cases hahead : Ahead L.le w.last row
    · right
      show row ∈ rest.take L.size
      rw [hlast]
      exact (rest_spec.mem row).2 ⟨hrow n (by omega), hahead⟩
    · exact .inl (hvisited.complete row (fun k hk => hrow k (by omega)) hahead)

/-- The limit is no fraction of one, unless there is nothing to show, and whenever a page is asked
for the row of the cursor is still there, unless there is nothing after it. -/
structure Kept (L : Listing Row O) : Prop where
  limit : (∀ q ∈ L.limit, 0 < q → 1 ≤ q) ∨ L.table 0 = []
  cursor : ∀ n w, L.walk n = .ok w → w.next ≠ none → L.Anchored n w.last

theorem fair_walk (kept : Kept L) (n : Nat) : ∃ w, L.walk n = .ok w ∧ Fair L n w := by
  induction n with
  | zero => exact ⟨_, rfl, fair_start L⟩
  | succ n ih =>
    obtain ⟨w, hwalk, hfair⟩ := ih
    by_cases hgoing : w.next = none
    · exact ⟨w, walk_of_ended hwalk hgoing, hfair.sized, hfair.sorted, (absurd hgoing ·),
        hfair.ended⟩
    have hshape := shape_of_walk hwalk
    obtain ⟨ordered, hperm, hsorted, hturn⟩ := exists_turn hwalk hshape hgoing
    have hrest := rest_of_anchored hperm hsorted (kept.cursor n w hwalk hgoing)
    refine ⟨_, hturn, fair_turn hfair hshape hgoing hrest ?_⟩
    obtain hpositive | hempty := kept.limit
    · exact .inl (normalizeCursorLimit_pos_iff.2 hpositive)
    -- After the first request the limit is positive, or the walk has ended.
    · obtain rfl | hpositive := (hfair.going hgoing).2.1
      · refine .inr (List.eq_nil_iff_forall_not_mem.2 fun row hrow => ?_)
        have hmem := ((hrest.mem row).1 hrow).1
        rw [hempty] at hmem
        cases hmem
      · exact .inl hpositive

/-- A walk that goes on has returned a different row for each of its requests. -/
theorem le_length_of_going (fair : Fair L n w) (shape : WalkShape L n w) (going : w.next ≠ none) :
    n ≤ w.rows.length := by
  obtain ⟨hfull, hpositive, -⟩ := fair.going going
  have hsum : w.rows.length = w.pages.length * L.size := by
    rw [WalkState.rows, List.length_flatten, List.map_congr_left hfull]
    simp
  rw [hsum, (shape.next going).1]
  obtain rfl | hpositive := hpositive
  · exact Nat.zero_le _
  · exact Nat.le_mul_of_pos_right n hpositive

/-- Following the cursors from the first page ends, if only finitely many rows are ever in the
table, with pages of a sound size and with every row once that was there throughout. -/
structure VisitsOnce [DecidableEq Row] (L : Listing Row O) : Prop where
  succeeds : ∀ n, ∃ w, L.walk n = .ok w
  sized : ∀ n w, L.walk n = .ok w → L.Sized w.pages
  once : ∀ n w, L.walk n = .ok w → w.next = none → ∀ row,
    (∀ k < w.pages.length, row ∈ L.table k) → w.rows.count row = 1
  ends : ∀ rows : List Row, (∀ k, ∀ row ∈ L.table k, row ∈ rows) →
    ∃ n w, L.walk n = .ok w ∧ w.next = none

theorem fair_of_walk (kept : Kept L) (walk : L.walk n = .ok w) : Fair L n w :=
  of_exists_walk walk (fair_walk kept n)

theorem visitsOnce_of_kept [DecidableEq Row] (kept : Kept L) : VisitsOnce L where
  succeeds := fun n => (exists_walk L n).imp fun _ => And.left
  sized := fun n w walk => (fair_of_walk kept walk).sized
  once := by
    intro n w walk next row present
    have hfair := fair_of_walk kept walk
    have hnodup := nodup_of_before L.ends hfair.sorted
    exact List.count_eq_one_of_mem hnodup (hfair.ended next row present)
  ends := by
    intro rows bounded
    obtain ⟨w, hwalk, hshape⟩ := exists_walk L (rows.length + 1)
    have hfair := fair_of_walk kept hwalk
    refine ⟨_, w, hwalk, ?_⟩
    by_contra hgoing
    have hlong := le_length_of_going hfair hshape hgoing
    have hsubset : w.rows ⊆ rows := fun row hrow => by
      obtain ⟨k, -, hk⟩ := hshape.found row hrow
      exact bounded k row hk
    have hshort := ((nodup_of_before L.ends hfair.sorted).subperm hsubset).length_le
    omega

/-- No identifier is given to another row. -/
def Listing.NeverReused (L : Listing Row O) : Prop :=
  ∀ j k a b, a ∈ L.table j → b ∈ L.table k → L.rowId a = L.rowId b → a = b

theorem kept_of_visitsOnce [DecidableEq Row] (neverReused : L.NeverReused) (visits : VisitsOnce L) :
    Kept L where
  limit := by
    by_contra hnot
    rw [not_or, ← normalizeCursorLimit_pos_iff] at hnot
    obtain ⟨ordered, -, -, hturn⟩ := exists_turn (L := L) (n := 0) (w := ⟨[], some none⟩) rfl
      ⟨fun _ => ⟨rfl, rfl⟩, by simp [WalkState.rows]⟩ (by simp)
    obtain ⟨row, hrow⟩ := List.exists_mem_of_ne_nil _ hnot.2
    have hsize : L.size = 0 := Nat.eq_zero_of_not_pos hnot.1
    have hempty : (L.page (L.pending none ordered)).items = [] := by
      rw [Listing.page, hsize]
      rfl
    have hfirst : (WalkState.turn ⟨[], some none⟩ (L.page (L.pending none ordered))).pages[0]? =
        some [] := congrArg some hempty
    have hsized := visits.sized 1 _ hturn 0 [] hfirst
    exact hsized.2 rfl row hrow (by rintro c ⟨⟩)
  cursor := by
    intro n w walk going c hc
    by_cases hthere : c ∈ L.table n
    · exact .inl hthere
    have hshape := shape_of_walk walk
    obtain ⟨ordered, hperm, -, hturn⟩ := exists_turn walk hshape going
    obtain ⟨j, -, hj⟩ := hshape.found c (List.mem_of_mem_getLast? hc)
    have hgone : ∀ row ∈ L.table n, L.rowId row ≠ L.rowId c := by
      intro row hrow hid
      obtain rfl := neverReused n j row c hrow hj hid
      exact hthere hrow
    -- The next page is empty, so no row is after the one that is gone.
    have hnothing := pending_of_gone fun row hrow => hgone row (hperm.mem_iff.1 hrow)
    rw [show w.last = some c from hc, hnothing] at hturn
    have hlength := (hshape.next going).1
    have hempty : (w.turn (L.page [])).pages[n]? = some [] := by
      simp [WalkState.turn, Listing.page, ← hlength]
    have hsized := visits.sized (n + 1) _ hturn n [] hempty
    refine .inr fun row hrow => ⟨hgone row hrow, ?_⟩
    by_contra hafter
    refine hsized.2 rfl row hrow ?_
    have hpages : (w.turn (L.page [])).pages.take n = w.pages := by
      rw [← hlength]
      exact List.take_left
    rw [hpages]
    intro c' hc'
    obtain rfl : c = c' := Option.some.inj (hc.symm.trans hc')
    exact hafter

/-- Inserts alone do not disturb a walk. -/
theorem kept_of_inserts (limit : ∀ q ∈ L.limit, 0 < q → 1 ≤ q)
    (inserts : ∀ k, L.table k ⊆ L.table (k + 1)) : Kept L where
  limit := .inl limit
  cursor := by
    intro n w walk going c hc
    obtain ⟨k, hk, hmem⟩ := (shape_of_walk walk).found c (List.mem_of_mem_getLast? hc)
    have hsubset (j : Nat) : L.table k ⊆ L.table (k + j) := by
      induction j with
      | zero => exact List.Subset.refl _
      | succ j ih => exact fun row hrow => inserts (k + j) (ih hrow)
    rw [← Nat.add_sub_of_le hk.le]
    exact .inl (hsubset _ hmem)

/-- A walk in which every cursor is kept visits every row once, and where no identifier is used
again no other walk does. -/
theorem visits_once_iff [DecidableEq Row] (L : Listing Row O) :
    (Kept L → VisitsOnce L) ∧ (L.NeverReused → VisitsOnce L → Kept L) :=
  ⟨visitsOnce_of_kept, kept_of_visitsOnce⟩

end Once

/-! ### A cursor whose row is deleted -/

/-- The integer a text stands for. -/
def integerValue (cs : List Char) : Int :=
  if cs.head? = some '-' then -numeralValue cs.tail else numeralValue cs

theorem integerValue_toString (id : Int) : integerValue (toString id).toList = id := by
  cases id with
  | ofNat n =>
    have htext : toString (Int.ofNat n) = toString n := rfl
    rw [htext, integerValue, if_neg (head?_ne_sign (isNumeral_toString n)), numeralValue_toString]
    rfl
  | negSucc n =>
    have htext : (toString (Int.negSucc n)).toList = '-' :: (toString (n + 1)).toList :=
      String.toList_append (s := "-")
    rw [htext, integerValue, List.head?_cons, if_pos rfl, List.tail_cons, numeralValue_toString]
    rfl

/-- The texts of cursors as they are for the row with the identifier 1; the tokens of other rows are
written out. -/
def plainText : CursorText where
  stringify key := "\x7b\"id\":" ++ toString key.id.num ++ "\x7d"
  toBase64url s :=
    if s = "" then "" else if s = "\x7b\"id\":1\x7d" then "eyJpZCI6MX0" else "-" ++ s
  fromBase64url s :=
    if s = "eyJpZCI6MX0" then "\x7b\"id\":1\x7d" else String.ofList s.toList.tail
  parse s :=
    let id := integerValue (s.toList.drop 6).dropLast
    if s = "\x7b\"id\":" ++ toString id ++ "\x7d" then
      some (.object [("id", .number (some id))]) else none
  fromBase64url_toBase64url := by
    intro s
    by_cases hempty : s = ""
    · rw [hempty]
      decide
    by_cases hone : s = "\x7b\"id\":1\x7d"
    · rw [hone]
      decide
    rw [if_neg hempty, if_neg hone, if_neg]
    · simp
    · intro h
      have hhead := congrArg (fun t => t.toList.head?) h
      simp at hhead
  toBase64url_empty := by decide
  parse_empty := by
    refine if_neg fun h => ?_
    simpa using congrArg String.toList h
  parse_stringify := by
    intro id
    have hdigits : (("\x7b\"id\":" ++ toString id ++ "\x7d").toList.drop 6).dropLast =
        (toString id).toList := by
      simp
    rw [Rat.num_intCast, hdigits, integerValue_toString]
    exact if_pos rfl

/-- `findMany` of a list in order. -/
def findInOrder (ordered : List Nat) (args : FindManyArgs Unit) : List Nat :=
  let found := match args.cursor with
    | none => ordered
    | some id => ordered.dropWhile fun row => ((row : Int) : ℚ) ≠ id
  (found.drop (args.skip.getD 0).toNat).take args.take

/-- Rows that are their identifiers, listed one by one while the table changes. -/
def listingOf (table : Nat → List Nat) (sorted : ∀ k, (table k).Pairwise (· < ·)) :
    Listing Nat Unit where
  text := plainText
  rowId row := row
  le := (· ≤ ·)
  ends := ⟨Nat.le_total, Nat.le_trans, fun hab hba => congrArg Nat.cast (Nat.le_antisymm hab hba)⟩
  table := table
  unique k := List.pairwise_map.2 ((sorted k).imp fun {a b} h => by omega)
  orderBy := ()
  findMany k := findInOrder (table k)
  finds k := ⟨table k, .refl _, (sorted k).imp Nat.le_of_lt, fun _ => rfl, fun _ _ _ => rfl⟩
  limit := some 1

/-- A row is inserted before the cursor after the first page. -/
def insertedListing : Listing Nat Unit :=
  listingOf (fun k => if k = 0 then [1, 2] else [0, 1, 2]) fun k => by split <;> decide

theorem visits_once_inserted : VisitsOnce insertedListing := by
  refine (visits_once_iff insertedListing).1 (kept_of_inserts ?_ fun k => ?_)
  · rintro q ⟨⟩ -
    exact le_rfl
  · show (if k = 0 then [1, 2] else [0, 1, 2]) ⊆ if k + 1 = 0 then [1, 2] else [0, 1, 2]
    rw [if_neg (Nat.succ_ne_zero k)]
    split <;> decide

/-- The first row is deleted after it was returned. -/
def deletedListing : Listing Nat Unit :=
  listingOf (fun k => if k = 0 then [1, 2] else [2]) fun k => by split <;> decide

theorem not_visitsOnce : ¬ VisitsOnce deletedListing := by
  intro visits
  have hwalk : deletedListing.walk 2 = .ok ⟨[[1], []], none⟩ := by decide +kernel
  have hcount := visits.once 2 _ hwalk rfl 2 fun k _ => by
    show 2 ∈ if k = 0 then [1, 2] else [2]
    split <;> decide
  exact absurd hcount (by decide)

end Amana.Backend
