import Amana.Lib.Pages
import Mathlib.Data.List.Perm.Basic

/-!
# Pages by offset

An order may be put together from several (`thenBy`); if the last one tells everything apart, a set
can be listed in one way only (`eq_of_ends`).  A page is a slice of that list.  Pages of one size
make up the list (`flatMap_slice`), and a slice of two lists is one of the first and what is left of
it of the second (`slice_append`).
-/

namespace Amana.Lib.Pages

variable {α κ : Type} {key : α → κ}

/-! ## Orders -/

/-- The first order, and the second among what is equal in the first. -/
def thenBy (first second : α → α → Prop) (a b : α) : Prop := first a b ∧ (first b a → second a b)

/-- Everything can be compared. -/
structure Ranks (le : α → α → Prop) : Prop where
  total : ∀ a b, le a b ∨ le b a
  trans : ∀ {a b c}, le a b → le b c → le a c

theorem Ranks.flip {le : α → α → Prop} (h : Ranks le) : Ranks fun a b => le b a where
  total := fun a b => h.total b a
  trans := fun hab hbc => h.trans hbc hab

theorem Ranks.thenBy {first second : α → α → Prop} (hfirst : Ranks first) (hsecond : Ranks second) :
    Ranks (thenBy first second) where
  total := by
    intro a b
    by_cases hab : first a b
    · by_cases hba : first b a
      · obtain h | h := hsecond.total a b
        · exact .inl ⟨hab, fun _ => h⟩
        · exact .inr ⟨hba, fun _ => h⟩
      · exact .inl ⟨hab, fun h => absurd h hba⟩
    · exact .inr ⟨(hfirst.total a b).resolve_left hab, fun h => absurd h hab⟩
  trans := by
    rintro a b c ⟨hab, hab'⟩ ⟨hbc, hbc'⟩
    refine ⟨hfirst.trans hab hbc, fun hca => ?_⟩
    exact hsecond.trans (hab' (hfirst.trans hbc hca)) (hbc' (hfirst.trans hca hab))

/-- What ends in the last of two orders ends in it after any first one. -/
theorem EndsIn.thenBy {first second : α → α → Prop} (ranks : Ranks first)
    (ends : EndsIn key second) : EndsIn key (thenBy first second) where
  total := (ranks.thenBy ⟨ends.total, ends.trans⟩).total
  trans := (ranks.thenBy ⟨ends.total, ends.trans⟩).trans
  antisymm := by
    rintro a b ⟨hab, hab'⟩ ⟨hba, hba'⟩
    exact ends.antisymm (hab' hba) (hba' hab)

/-- What is told apart by its keys can be put in order in one way only. -/
theorem eq_of_ends {le : α → α → Prop} (ends : EndsIn key le) {l m : List α} (perm : l.Perm m)
    (unique : (l.map key).Nodup) (hl : l.Pairwise le) (hm : m.Pairwise le) : l = m := by
  apply perm.eq_of_pairwise _ hl hm
  intro a b ha hb hab hba
  exact List.inj_on_of_nodup_map unique ha (perm.mem_iff.2 hb) (ends.antisymm hab hba)

/-! ## Slices -/

/-- `take` elements from `skip` on. -/
def slice (l : List α) (skip take : Nat) : List α := (l.drop skip).take take

theorem slice_append (l m : List α) (skip take : Nat) :
    slice (l ++ m) skip take =
      slice l skip take ++ slice m (skip - l.length) (take - (slice l skip take).length) := by
  have hlength : take - (slice l skip take).length = take - (l.drop skip).length := by
    rw [slice, List.length_take]
    omega
  rw [hlength, slice, List.drop_append, List.take_append]
  rfl

theorem length_slice_of_le {l : List α} {skip take : Nat} (h : skip + take ≤ l.length) :
    (slice l skip take).length = take := by
  rw [slice, List.length_take, List.length_drop]
  omega

/-- The first `n` pages are the beginning of the list. -/
theorem flatMap_slice (l : List α) (size : Nat) : ∀ n : Nat,
    (List.range n).flatMap (fun i => slice l (i * size) size) = l.take (n * size)
  | 0 => by simp
  | n + 1 => by
    rw [List.range_succ, List.flatMap_append, flatMap_slice l size n, List.flatMap_singleton, slice,
      Nat.succ_mul, List.take_add]

/-- So many pages make up a list of this length. -/
def pagesOf (total size : Nat) : Nat := max 1 ((total + size - 1) / size)

theorem le_pagesOf_mul {total size : Nat} (positive : 0 < size) :
    total ≤ pagesOf total size * size := by
  have hceil : total ≤ (total + size - 1) / size * size := by
    have hlt := Nat.lt_div_mul_add positive (a := total + size - 1)
    omega
  exact Nat.le_trans hceil (Nat.mul_le_mul_right _ (Nat.le_max_right _ _))

theorem mul_le_of_lt_pagesOf {total size n : Nat} (positive : 0 < size)
    (h : n + 1 < pagesOf total size) : (n + 1) * size ≤ total := by
  have hlt : n + 1 < (total + size - 1) / size := by
    unfold pagesOf at h
    omega
  have hmul := (Nat.le_div_iff_mul_le positive).1 hlt
  rw [Nat.succ_mul] at hmul
  omega

end Amana.Lib.Pages
