import Mathlib.Data.List.TakeWhile

/-!
# Bytes of texts

A byte below `0x80` in the bytes of a text is one of its characters.  So two parts of a message are
told apart by a byte that only the second one opens with, however the first one is spelled
(`append_inj_of_opens`).
-/

namespace Amana.Lib.Bytes

/-! ## UTF-8 -/

/-- The bytes of a text. -/
def utf8 (s : String) : List UInt8 := s.toList.flatMap String.utf8EncodeChar

@[simp] theorem utf8_append (s t : String) : utf8 (s ++ t) = utf8 s ++ utf8 t := by
  simp [utf8, List.flatMap_append]

theorem utf8_injective : Function.Injective utf8 := by
  intro s t h
  have hencode : s.toList.utf8Encode = t.toList.utf8Encode := congrArg List.toByteArray h
  rw [← String.toByteArray_inj]
  simpa using hencode

/-- The bytes of a character outside ASCII are all high. -/
theorem eq_of_mem_utf8EncodeChar {c : Char} {b : UInt8} (low : b.toNat < 128)
    (h : b ∈ String.utf8EncodeChar c) : c.toNat = b.toNat := by
  have hvalue : c.val.toNat = c.toNat := rfl
  have hhigh (n : Nat) (lo : 128 ≤ n) (hi : n < 256) : b ≠ UInt8.ofNat n := by
    rintro rfl
    rw [UInt8.toNat_ofNat_of_lt' hi] at low
    omega
  unfold String.utf8EncodeChar at h
  simp only [hvalue] at h
  split at h
  · next hascii =>
    rw [List.mem_singleton] at h
    rw [h, UInt8.toNat_ofNat_of_lt' (show c.toNat < 256 by omega)]
  split at h
  · simp only [List.mem_cons, List.not_mem_nil, or_false] at h
    obtain h | h := h
    all_goals exact absurd h (hhigh _ (by omega) (by omega))
  split at h
  · simp only [List.mem_cons, List.not_mem_nil, or_false] at h
    obtain h | h | h := h
    all_goals exact absurd h (hhigh _ (by omega) (by omega))
  · simp only [List.mem_cons, List.not_mem_nil, or_false] at h
    obtain h | h | h | h := h
    all_goals exact absurd h (hhigh _ (by omega) (by omega))

/-- A low byte of a text is one of its characters. -/
theorem exists_char_of_mem_utf8 {s : String} {b : UInt8} (low : b.toNat < 128) (h : b ∈ utf8 s) :
    ∃ c ∈ s.toList, c.toNat = b.toNat := by
  obtain ⟨c, hc, hb⟩ := List.mem_flatMap.1 h
  exact ⟨c, hc, eq_of_mem_utf8EncodeChar low hb⟩

/-! ## Two parts of one message -/

section Opens

variable {α : Type} {blank : α → Bool} {opener : α → Prop} {xs ys bs cs : List α}

/-- The first element that is not blank is an opener. -/
def Opens (blank : α → Bool) (opener : α → Prop) (bs : List α) : Prop :=
  ∃ c ∈ (bs.dropWhile blank).head?, opener c

/-- An opener stands before every part that ends with something else than a blank. -/
theorem exists_opener (h : Opens blank opener (xs ++ bs)) (last : ∃ z ∈ xs, blank z = false) :
    ∃ c ∈ xs, opener c := by
  obtain ⟨z, hz, hblank⟩ := last
  obtain ⟨c, hc, hopener⟩ := h
  have hdrop : xs.dropWhile blank ≠ [] := fun hnil => by
    have hall := List.dropWhile_eq_nil_iff.1 hnil z hz
    rw [hblank] at hall
    cases hall
  rw [List.dropWhile_append, if_neg (by simpa using hdrop)] at hc
  obtain ⟨first, rest, hfirst⟩ := List.exists_cons_of_ne_nil hdrop
  rw [hfirst] at hc
  obtain rfl : first = c := by simpa using hc
  refine ⟨first, (List.dropWhile_sublist blank).mem ?_, hopener⟩
  rw [hfirst]
  exact List.mem_cons_self

/-- A first part that ends with the separator `z` and has no opener is known from the whole message,
when the second part opens with one. -/
theorem append_inj_of_opens {z : α} (solid : blank z = false) (closed : ∀ c ∈ xs, ¬ opener c)
    (closed' : ∀ c ∈ ys, ¬ opener c) (separator : ¬ opener z) (opens : Opens blank opener bs)
    (opens' : Opens blank opener cs) (h : xs ++ [z] ++ bs = ys ++ [z] ++ cs) :
    xs = ys ∧ bs = cs := by
  -- What one first part has more than the other stands before the other's second part.
  have hnone {us vs rest more : List α} (hclosed : ∀ c ∈ us, ¬ opener c)
      (hopens : Opens blank opener (more ++ rest)) (hmore : us ++ [z] = vs ++ [z] ++ more) :
      more = [] := by
    by_contra hne
    obtain ⟨init, last, rfl⟩ : ∃ init last, more = init ++ [last] :=
      ⟨_, _, (List.dropLast_concat_getLast hne).symm⟩
    rw [← List.append_assoc] at hmore
    obtain ⟨hinit, hlast⟩ := List.append_inj' hmore rfl
    obtain rfl : z = last := by simpa using hlast
    obtain ⟨c, hc, hopener⟩ := exists_opener hopens ⟨z, by simp, solid⟩
    rw [List.mem_append, List.mem_singleton] at hc
    obtain hc | rfl := hc
    · refine hclosed c ?_ hopener
      rw [hinit]
      exact List.mem_append_right _ hc
    · exact separator hopener
  obtain ⟨more, hys, hbs⟩ | ⟨more, hxs, hcs⟩ := List.append_eq_append_iff.1 h
  · obtain rfl := hnone closed' (hbs ▸ opens) hys
    rw [List.append_nil] at hys
    exact ⟨(List.append_inj' hys rfl).1.symm, hbs⟩
  · obtain rfl := hnone closed (hcs ▸ opens') hxs
    rw [List.append_nil] at hxs
    exact ⟨(List.append_inj' hxs rfl).1, hcs.symm⟩

end Opens

end Amana.Lib.Bytes
