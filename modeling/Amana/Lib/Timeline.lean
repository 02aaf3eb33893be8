import Amana.Lib.Database
import Mathlib.Data.List.Sort

/-!
# Times in a database

A database that keeps for each row when it was created and when it was last written, and lists that
are sorted by time.  Sorting is stable, so that it goes along with leaving entries out
(`filter_chronological`).
-/

namespace Amana.Lib.Timeline

open Database

/-! ## Sorting -/

section Sorting

variable {α β : Type}

theorem filter_orderedInsert {r : α → α → Prop} [DecidableRel r] [IsTrans α r] (p : α → Bool) (a : α)
    {l : List α} (sorted : l.Pairwise r) :
    (l.orderedInsert r a).filter p =
      if p a then (l.filter p).orderedInsert r a else l.filter p := by
  induction l with
  | nil => by_cases ha : p a = true <;> simp [ha]
  | cons b l ih =>
    obtain ⟨hb, hl⟩ := List.pairwise_cons.1 sorted
    by_cases hab : r a b
    · rw [List.orderedInsert_cons_of_le r _ hab]
      by_cases ha : p a = true
      · -- All that is left comes after the new entry.
        have hfirst : ∀ c ∈ (b :: l).filter p, r a c := by
          intro c hc
          obtain rfl | hmem := List.mem_cons.1 (List.mem_filter.1 hc).1
          · exact hab
          · exact IsTrans.trans a b c hab (hb c hmem)
        rw [List.filter_cons_of_pos ha, if_pos ha]
        cases hrest : (b :: l).filter p with
        | nil => rfl
        | cons c rest =>
          have hc : c ∈ (b :: l).filter p := by simp [hrest]
          rw [List.orderedInsert_cons_of_le r _ (hfirst c hc)]
      · rw [List.filter_cons_of_neg ha, if_neg ha]
    · rw [List.orderedInsert_of_not_le r _ hab]
      by_cases hp : p b = true
      · rw [List.filter_cons_of_pos hp, List.filter_cons_of_pos hp, ih hl,
          List.orderedInsert_of_not_le r _ hab]
        split <;> rfl
      · rw [List.filter_cons_of_neg hp, List.filter_cons_of_neg hp, ih hl]

/-- `a` is not later than `b`. -/
abbrev Earlier (time : α → Nat) (a b : α) : Prop := time a ≤ time b

instance (time : α → Nat) : IsTrans α (Earlier time) := ⟨fun _ _ _ => Nat.le_trans⟩

instance (time : α → Nat) : Std.Total (Earlier time) := ⟨fun _ _ => Nat.le_total _ _⟩

/-- The entries by their time; those of the same time stay in their order. -/
def chronological (time : α → Nat) (l : List α) : List α := l.insertionSort (Earlier time)

/-- Entries can be left out before or after sorting. -/
theorem filter_chronological (time : α → Nat) (p : α → Bool) (l : List α) :
    (chronological time l).filter p = chronological time (l.filter p) := by
  induction l with
  | nil => rfl
  | cons a l ih =>
    have hinsert := filter_orderedInsert p a (List.pairwise_insertionSort (Earlier time) l)
    by_cases ha : p a = true
    · rw [List.filter_cons_of_pos ha]
      refine (hinsert.trans (if_pos ha)).trans ?_
      exact congrArg (List.orderedInsert (Earlier time) a) ih
    · rw [List.filter_cons_of_neg ha]
      exact (hinsert.trans (if_neg ha)).trans ih

/-- A map that keeps the order of the times. -/
theorem map_chronological {time : α → Nat} {time' : β → Nat} (f : α → β) {l : List α}
    (mono : ∀ a ∈ l, ∀ b ∈ l, time a ≤ time b ↔ time' (f a) ≤ time' (f b)) :
    (chronological time l).map f = chronological time' (l.map f) :=
  List.map_insertionSort _ _ _ _ mono

/-- Other times in the same order. -/
theorem fst_chronological {f : Nat → Nat} {l : List (α × Nat)}
    (mono : ∀ a ∈ l, ∀ b ∈ l, a.2 ≤ b.2 ↔ f a.2 ≤ f b.2) :
    (chronological Prod.snd (l.map (Prod.map id f))).map Prod.fst =
      (chronological Prod.snd l).map Prod.fst := by
  have hsort : (chronological Prod.snd l).map (Prod.map id f) =
      chronological Prod.snd (l.map (Prod.map id f)) := map_chronological _ mono
  rw [← hsort, List.map_map]
  rfl

end Sorting

/-! ## Rows with their times -/

variable {K : Type} {V : K → Type}

/-- Rows, and when they were created and last written. -/
structure Stamped (V : K → Type) where
  rows : Db V
  createdAt : K → Nat
  updatedAt : K → Nat

/-- What a transaction at `now` leaves behind.  A row that is written is not the row it was. -/
def Stamped.commit [∀ k, DecidableEq (V k)] (t : Stamped V) (now : Nat) (rows : Db V) :
    Stamped V where
  rows := rows
  createdAt k := if t.rows k = none then now else t.createdAt k
  updatedAt k := if rows k = t.rows k then t.updatedAt k else now

end Amana.Lib.Timeline
