import Mathlib.Data.List.Nodup

/-!
# Walking a changing set in pages

A walk takes what comes next in some order, a page at a time, from a set that changes between the
pages.  As long as every page starts after the last element of the pages before it, the walk visits
everything that is there throughout and is not after that element (`Visited.append`), no element
twice (`nodup_of_before`).
-/

namespace Amana.Lib.Pages

variable {α : Type}

/-- `key` tells apart what the order does not. -/
structure EndsIn {κ : Type} (key : α → κ) (le : α → α → Prop) : Prop where
  total : ∀ a b, le a b ∨ le b a
  trans : ∀ {a b c}, le a b → le b c → le a c
  antisymm : ∀ {a b}, le a b → le b a → key a = key b

/-- Strictly before. -/
def Before (le : α → α → Prop) (a b : α) : Prop := ¬ le b a

/-- After the last element of a walk, if there is one. -/
def Ahead (le : α → α → Prop) (last : Option α) (a : α) : Prop := ∀ c ∈ last, Before le c a

section Order

variable {κ : Type} {key : α → κ} {le : α → α → Prop} {a b c : α} {l : List α}

theorem Before.weaken (ends : EndsIn key le) (h : Before le a b) : le a b :=
  (ends.total a b).resolve_right h

theorem Before.trans (ends : EndsIn key le) (hab : Before le a b) (hbc : Before le b c) :
    Before le a c := fun hca => hab (ends.trans (hbc.weaken ends) hca)

theorem Before.irrefl (ends : EndsIn key le) (a : α) : ¬ Before le a a := fun h =>
  h ((ends.total a a).elim id id)

/-- In order, and no two with one key. -/
theorem before_of_pairwise (ends : EndsIn key le) (sorted : l.Pairwise le)
    (unique : (l.map key).Nodup) : l.Pairwise (Before le) := by
  have hkeys : l.Pairwise fun a b => key a ≠ key b := List.pairwise_map.1 unique
  exact (sorted.and hkeys).imp fun {a b} h hba => h.2 (ends.antisymm h.1 hba)

theorem nodup_of_before (ends : EndsIn key le) (sorted : l.Pairwise (Before le)) : l.Nodup := by
  rw [List.nodup_iff_pairwise_ne]
  refine sorted.imp fun {a b} h heq => ?_
  rw [heq] at h
  exact Before.irrefl ends b h

/-- What a list in order has after the element it is opened at. -/
theorem mem_after_iff (ends : EndsIn key le) {pre post : List α}
    (sorted : (pre ++ c :: post).Pairwise (Before le)) :
    a ∈ post ↔ a ∈ pre ++ c :: post ∧ Before le c a := by
  obtain ⟨-, hpost, hpre⟩ := List.pairwise_append.1 sorted
  rw [List.pairwise_cons] at hpost
  constructor
  · intro ha
    exact ⟨by simp [ha], hpost.1 a ha⟩
  · rintro ⟨ha, hca⟩
    rw [List.mem_append, List.mem_cons] at ha
    obtain ha | rfl | ha := ha
    · exact absurd (hca.trans ends (hpre a ha c List.mem_cons_self)) (Before.irrefl ends c)
    · exact absurd hca (Before.irrefl ends a)
    · exact ha

end Order

/-! ## Walks -/

/-- The walk has been through `visited`, in order, and everything of `present` that is not ahead of
it is there. -/
structure Visited (le : α → α → Prop) (present : α → Prop) (visited : List α) : Prop where
  sorted : visited.Pairwise (Before le)
  complete : ∀ a, present a → ¬ Ahead le visited.getLast? a → a ∈ visited

section Walk

variable {κ : Type} {key : α → κ} {le : α → α → Prop} {present : α → Prop}
  {visited rest : List α} {a : α} {n : Nat}

theorem visited_nil (le : α → α → Prop) (present : α → Prop) : Visited le present [] where
  sorted := .nil
  complete := fun a _ h => absurd (by rintro c ⟨⟩) h

theorem Visited.mono (h : Visited le present visited) {fewer : α → Prop}
    (imp : ∀ a, fewer a → present a) : Visited le fewer visited where
  sorted := h.sorted
  complete := fun a ha => h.complete a (imp a ha)

/-- What is ahead of a walk comes after everything it has been through. -/
theorem before_of_ahead (ends : EndsIn key le) (sorted : visited.Pairwise (Before le))
    (ahead : Ahead le visited.getLast? a) {b : α} (hb : b ∈ visited) : Before le b a := by
  obtain ⟨init, last, rfl⟩ : ∃ init last, visited = init ++ [last] :=
    ⟨_, _, (List.dropLast_concat_getLast (List.ne_nil_of_mem hb)).symm⟩
  have hlast : Before le last a := ahead last (by simp)
  rw [List.mem_append, List.mem_singleton] at hb
  obtain hb | rfl := hb
  · exact ((List.pairwise_append.1 sorted).2.2 b hb last List.mem_cons_self).trans ends hlast
  · exact hlast

/-- One more page: the first `n` of what lies ahead, which is given in order as `rest`. -/
theorem Visited.append (ends : EndsIn key le) (h : Visited le present visited)
    (sorted : rest.Pairwise (Before le))
    (mem : ∀ a, present a → Ahead le visited.getLast? a → a ∈ rest)
    (ahead : ∀ a ∈ rest, Ahead le visited.getLast? a) :
    Visited le present (visited ++ rest.take n) where
  sorted := by
    refine List.pairwise_append.2 ⟨h.sorted, sorted.sublist (List.take_sublist n rest), ?_⟩
    intro b hb a ha
    exact before_of_ahead ends h.sorted (ahead a (List.mem_of_mem_take ha)) hb
  complete := by
    intro a ha hnot
    rw [List.mem_append]
    by_cases hnew : Ahead le visited.getLast? a
    · right
      have hrest := mem a ha hnew
      -- What the page leaves is ahead of its last element.
      rw [← List.take_append_drop n rest, List.mem_append] at hrest
      refine hrest.resolve_right fun hdrop => hnot fun c hc => ?_
      rw [← List.take_append_drop n rest] at sorted
      have hafter := (List.pairwise_append.1 sorted).2.2
      by_cases hpage : rest.take n = []
      · rw [hpage, List.append_nil] at hc
        exact hnew c hc
      · rw [List.getLast?_append_of_ne_nil _ hpage] at hc
        exact hafter c (List.mem_of_mem_getLast? hc) a hdrop
    · exact .inl (h.complete a ha hnew)

end Walk

end Amana.Lib.Pages
