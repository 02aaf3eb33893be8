import Mathlib.Data.List.Basic

/-!
# Joined texts

Parts without a separator can be read back from what they are joined to (`intercalate_inj`).  The
double separator stands between two such texts: where no part is empty it is the only one
(`splitOnPair_of_parts`, `splitOnPair_pair`).
-/

namespace Amana.Lib.Joined

variable {α : Type} [DecidableEq α]

/-- A text is split at every pair of separators, from the left to the right. -/
def splitOnPair (c : α) : List α → List (List α)
  | [] => [[]]
  | [d] => [[d]]
  | d :: e :: rest =>
    if d = c ∧ e = c then [] :: splitOnPair c rest
    else (splitOnPair c (e :: rest)).modifyHead (d :: ·)

variable {c : α}

theorem splitOnPair_cons {d : α} {rest : List α} (h : d = c → rest.head? ≠ some c) :
    splitOnPair c (d :: rest) = (splitOnPair c rest).modifyHead (d :: ·) := by
  cases rest with
  | nil => rfl
  | cons e rest =>
    rw [splitOnPair, if_neg]
    rintro ⟨rfl, rfl⟩
    exact h rfl rfl

theorem splitOnPair_append {part : List α} (h : c ∉ part) (rest : List α) :
    splitOnPair c (part ++ rest) = (splitOnPair c rest).modifyHead (part ++ ·) := by
  induction part with
  | nil => exact (congrFun List.modifyHead_id _).symm
  | cons d part ih =>
    rw [List.mem_cons, not_or] at h
    rw [List.cons_append, splitOnPair_cons fun hd => absurd hd.symm h.1, ih h.2,
      List.modifyHead_modifyHead]
    rfl

omit [DecidableEq α] in
theorem intercalate_cons (c : α) (part : List α) {parts : List (List α)} (h : parts ≠ []) :
    [c].intercalate (part :: parts) = part ++ c :: [c].intercalate parts := by
  cases parts with
  | nil => contradiction
  | cons next parts => simp [List.intercalate, List.intersperse]

omit [DecidableEq α] in
theorem mem_intercalate {parts : List (List α)} {d : α} (h : d ∈ [c].intercalate parts) :
    d = c ∨ ∃ part ∈ parts, d ∈ part := by
  induction parts with
  | nil => simp [List.intercalate] at h
  | cons part parts ih =>
    by_cases hlast : parts = []
    · subst hlast
      exact .inr ⟨part, by simp, by simpa [List.intercalate] using h⟩
    · rw [intercalate_cons _ _ hlast, List.mem_append, List.mem_cons] at h
      obtain h | h | h := h
      · exact .inr ⟨part, List.mem_cons_self .., h⟩
      · exact .inl h
      · obtain h | ⟨other, hother, h⟩ := ih h
        · exact .inl h
        · exact .inr ⟨other, List.mem_cons_of_mem _ hother, h⟩

omit [DecidableEq α] in
/-- Joined parts that are not empty do not begin with a separator. -/
theorem head?_intercalate {parts : List (List α)} (h : ∀ part ∈ parts, part ≠ [] ∧ c ∉ part)
    (rest : List α) (start : parts ≠ []) : ([c].intercalate parts ++ rest).head? ≠ some c := by
  obtain ⟨part, parts, rfl⟩ := List.exists_cons_of_ne_nil start
  obtain ⟨hne, hc⟩ := h part (List.mem_cons_self ..)
  obtain ⟨d, part, rfl⟩ := List.exists_cons_of_ne_nil hne
  have hhead : ([c].intercalate ((d :: part) :: parts) ++ rest).head? = some d := by
    cases parts with
    | nil => simp [List.intercalate]
    | cons next parts => simp
  rw [hhead]
  rintro ⟨⟩
  simp at hc

theorem splitOnPair_intercalate {parts : List (List α)}
    (h : ∀ part ∈ parts, part ≠ [] ∧ c ∉ part) (rest : List α) :
    splitOnPair c ([c].intercalate parts ++ rest) =
      (splitOnPair c rest).modifyHead ([c].intercalate parts ++ ·) := by
  induction parts with
  | nil => exact (congrFun List.modifyHead_id _).symm
  | cons part parts ih =>
    obtain ⟨hpart, hparts⟩ := List.forall_mem_cons.1 h
    by_cases hlast : parts = []
    · subst hlast
      simpa [List.intercalate] using splitOnPair_append hpart.2 rest
    · rw [intercalate_cons _ _ hlast, List.append_assoc, splitOnPair_append hpart.2,
        List.cons_append, splitOnPair_cons fun _ => head?_intercalate hparts rest hlast,
        ih hparts, List.modifyHead_modifyHead, List.modifyHead_modifyHead]
      simp [Function.comp_def]

/-- Parts that are not empty are joined without a double separator. -/
theorem splitOnPair_of_parts {parts : List (List α)}
    (h : ∀ part ∈ parts, part ≠ [] ∧ c ∉ part) :
    splitOnPair c ([c].intercalate parts) = [[c].intercalate parts] := by
  simpa [splitOnPair] using splitOnPair_intercalate h []

theorem splitOnPair_pair {before after : List (List α)}
    (hbefore : ∀ part ∈ before, part ≠ [] ∧ c ∉ part)
    (hafter : ∀ part ∈ after, part ≠ [] ∧ c ∉ part) :
    splitOnPair c ([c].intercalate before ++ c :: c :: [c].intercalate after) =
      [[c].intercalate before, [c].intercalate after] := by
  rw [splitOnPair_intercalate hbefore, splitOnPair, if_pos ⟨rfl, rfl⟩, splitOnPair_of_parts hafter]
  simp

/-- Joined texts can be split again. -/
theorem intercalate_inj {separator : String} {c : Char} (single : separator.toList = [c])
    {xs ys : List String} (hxs : ∀ x ∈ xs, c ∉ x.toList) (hys : ∀ y ∈ ys, c ∉ y.toList)
    (xs_ne : xs ≠ []) (ys_ne : ys ≠ []) (h : separator.intercalate xs = separator.intercalate ys) :
    xs = ys := by
  have hsplit : ∀ {zs : List String}, (∀ z ∈ zs, c ∉ z.toList) → zs ≠ [] →
      (separator.intercalate zs).toList.splitOn c = zs.map String.toList := by
    intro zs hzs hne
    have hjoined : (separator.intercalate zs).toList = [c].intercalate (zs.map String.toList) := by
      rw [← single]
      exact String.toList_intercalate
    rw [hjoined]
    apply List.splitOn_intercalate
    · intro cs hcs
      obtain ⟨z, hz, rfl⟩ := List.mem_map.1 hcs
      exact hzs z hz
    · simpa using hne
  have hlists := hsplit hxs xs_ne
  rw [h, hsplit hys ys_ne] at hlists
  exact (List.map_injective_iff.2 (fun _ _ => String.toList_injective) hlists).symm

end Amana.Lib.Joined
