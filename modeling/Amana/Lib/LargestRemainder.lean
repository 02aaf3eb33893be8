import Mathlib.Algebra.BigOperators.Group.List.Basic
import Mathlib.Algebra.Order.BigOperators.Group.List
import Mathlib.Algebra.Order.Group.Int
import Mathlib.Data.List.Nodup
import Mathlib.Data.List.Pairwise
import Mathlib.Tactic.Ring

/-!
# Largest remainders

Quantities that add up to a multiple of `d` are rounded down to multiples of `d`, and the units that
are left over go to those with the largest remainders.  There are fewer such units than quantities
(`leftover_lt`), and none of them goes to a quantity without a remainder (`pos_of_mem_take`).  Who
comes first among equal remainders is up to a stable sort (`pairwise_mergeSort`).
-/

namespace Amana.Lib.LargestRemainder

variable {α : Type}

/-! ## Sorting -/

/-- Two elements of a list without duplicates come in one order only. -/
theorem not_sublist_swap {l : List α} {a b : α} (nodup : l.Nodup) (h : [a, b].Sublist l) :
    ¬ [b, a].Sublist l := by
  induction l with
  | nil => cases h
  | cons x l ih =>
    obtain ⟨hnew, hrest⟩ := List.nodup_cons.1 nodup
    intro h'
    cases h with
    | cons _ hab =>
      cases h' with
      | cons _ hba => exact ih hrest hab hba
      | cons_cons _ ha => exact hnew (hab.subset (by simp))
    | cons_cons _ hb =>
      cases h' with
      | cons _ hba => exact hnew (hba.subset (by simp))
      | cons_cons _ ha => exact hnew (ha.subset (by simp))

/-- Two different elements of a list come in one of the two orders. -/
theorem sublist_or_swap {l : List α} {a b : α} (ha : a ∈ l) (hb : b ∈ l) (hne : a ≠ b) :
    [a, b].Sublist l ∨ [b, a].Sublist l := by
  have hpairs : l.Pairwise fun x y => [x, y].Sublist l ∨ [y, x].Sublist l :=
    List.pairwise_iff_forall_sublist.2 fun h => .inl h
  have : Std.Symm fun x y => [x, y].Sublist l ∨ [y, x].Sublist l := ⟨fun _ _ => Or.symm⟩
  exact hpairs.forall ha hb hne

/-- A stable sort keeps the order `before` of the list it sorts among equal elements. -/
theorem pairwise_mergeSort {le : α → α → Bool} {before : α → α → Prop} {l : List α}
    (trans : ∀ a b c, le a b → le b c → le a c) (total : ∀ a b, le a b || le b a)
    (nodup : l.Nodup) (h : l.Pairwise before) :
    (l.mergeSort le).Pairwise fun a b => le a b = true ∧ (le b a = true → before a b) := by
  have hperm := List.mergeSort_perm l le
  rw [List.pairwise_iff_forall_sublist]
  intro a b hab
  refine ⟨List.pairwise_iff_forall_sublist.1 (List.pairwise_mergeSort trans total l) hab,
    fun hle => ?_⟩
  have hsorted := hperm.nodup_iff.2 nodup
  have hne : a ≠ b := (List.pairwise_iff_forall_sublist.1 hsorted) hab
  obtain hfirst | hfirst := sublist_or_swap (hperm.mem_iff.1 (hab.subset (by simp)))
    (hperm.mem_iff.1 (hab.subset (by simp))) hne
  · exact List.pairwise_iff_forall_sublist.1 h hfirst
  · have hba := List.pair_sublist_mergeSort trans total hle hfirst
    exact absurd hba (not_sublist_swap hsorted hab)

/-- What does not come after one of the first `m` elements is one of them itself. -/
theorem mem_take_of_not_rel {r : α → α → Prop} {l : List α} {m : Nat} {x y : α}
    (sorted : l.Pairwise r) (hy : y ∈ l.take m) (hx : x ∈ l) (h : ¬ r y x) : x ∈ l.take m := by
  rw [← List.take_append_drop m l, List.mem_append] at hx
  rw [← List.take_append_drop m l, List.pairwise_append] at sorted
  exact hx.resolve_right fun hdrop => h (sorted.2.2 y hy x hdrop)

/-! ## What is left over -/

variable {d m : Int}

theorem sum_ediv_add_emod (ps : List Int) (d : Int) :
    (ps.map (· / d)).sum * d + (ps.map (· % d)).sum = ps.sum := by
  induction ps with
  | nil => simp
  | cons p ps ih =>
    simp only [List.map_cons, List.sum_cons, Int.add_mul]
    have hp := Int.mul_ediv_add_emod p d
    rw [Int.mul_comm d] at hp
    omega

theorem sum_map_le {l : List α} {f : α → Int} {b : Int} (h : ∀ a ∈ l, f a ≤ b) :
    (l.map f).sum ≤ l.length * b := by
  have hsum := List.sum_le_card_nsmul (l.map f) b (List.forall_mem_map.2 h)
  rwa [Int.nsmul_eq_mul, List.length_map] at hsum

/-- The units left over are as many as the remainders make up. -/
theorem leftover_mul {ps : List Int} {total : Int} (whole : ps.sum = total * d) :
    (total - (ps.map (· / d)).sum) * d = (ps.map (· % d)).sum := by
  have hsum := sum_ediv_add_emod ps d
  rw [Int.sub_mul]
  omega

/-- There are fewer units left over than quantities. -/
theorem leftover_lt {rem : α → Int} {l : List α} (range : ∀ a ∈ l, rem a < d) (some : l ≠ [])
    (positive : 0 < d) (whole : m * d = (l.map rem).sum) : m < l.length := by
  have hle : (l.map rem).sum ≤ l.length * (d - 1) := sum_map_le fun a ha => by
    have := range a ha
    omega
  have hpos : 0 < (l.length : Int) := by
    have := List.length_pos_iff.2 some
    omega
  by_contra hmany
  have hmul := Int.mul_le_mul_of_nonneg_right (Int.not_lt.1 hmany) positive.le
  rw [Int.mul_sub] at hle
  omega

theorem leftover_nonneg {rem : α → Int} {l : List α} (range : ∀ a ∈ l, 0 ≤ rem a)
    (positive : 0 < d) (whole : m * d = (l.map rem).sum) : 0 ≤ m := by
  have hsum := List.sum_nonneg (List.forall_mem_map.2 range)
  rw [← whole] at hsum
  exact Int.nonneg_of_mul_nonneg_left hsum positive

/-- From the largest remainder on, a unit never goes to a quantity without one. -/
theorem pos_of_mem_take {rem : α → Int} {l : List α} {n : Nat} {y : α}
    (sorted : l.Pairwise fun a b => rem b ≤ rem a) (range : ∀ a ∈ l, 0 ≤ rem a ∧ rem a < d)
    (whole : (n : Int) * d = (l.map rem).sum) (h : y ∈ l.take n) : 0 < rem y := by
  by_contra hzero
  have hy : rem y = 0 := by
    have := (range y (List.mem_of_mem_take h)).1
    omega
  have hpositive : 0 < d := by
    have := range y (List.mem_of_mem_take h)
    omega
  obtain ⟨before, after, htake⟩ := List.append_of_mem h
  have hlist : before ++ y :: after ++ l.drop n = l := by rw [← htake, List.take_append_drop]
  have hlength : before.length + after.length + 1 ≤ n := by
    have hle := List.length_take_le n l
    rw [htake] at hle
    simp only [List.length_append, List.length_cons] at hle
    omega
  -- The list is sorted, so what comes later has no remainder either.
  have hrest : ((l.drop n).map rem).sum ≤ (l.drop n).length * 0 := by
    rw [← hlist, List.pairwise_append] at sorted
    refine sum_map_le fun a ha => ?_
    rw [← hy]
    exact sorted.2.2 y (by simp) a ha
  have hgiven : ((before ++ after).map rem).sum ≤ (before ++ after).length * (d - 1) := by
    refine sum_map_le fun a ha => ?_
    have hmem : a ∈ l := by
      rw [← hlist]
      simp only [List.mem_append, List.mem_cons] at ha ⊢
      tauto
    have := range a hmem
    omega
  have hsum : (l.map rem).sum = ((before ++ after).map rem).sum + ((l.drop n).map rem).sum := by
    conv_lhs => rw [← hlist]
    simp only [List.map_append, List.map_cons, List.sum_append, List.sum_cons, hy]
    omega
  have hcount : ((before ++ after).length : Int) * (d - 1) ≤ (n - 1) * (d - 1) := by
    apply Int.mul_le_mul_of_nonneg_right _ (by omega)
    rw [List.length_append]
    omega
  have hexpand : ((n : Int) - 1) * (d - 1) = n * d - n - (d - 1) := by ring
  omega

end Amana.Lib.LargestRemainder
