import Mathlib.Data.List.Infix
import Mathlib.Data.List.Induction

/-!
# Hash chains

A chain is a list of links.  A link carries the hash of the link before it, and the hash of this
one together with its content.  If no two pairs of a hash and a content have the same hash, and no
link has the hash the chain begins with, then the hash at the end determines the chain
(`eq_of_head_eq`), and all that can be left of a chain without a break is its beginning
(`prefix_of_linked`).
-/

namespace Amana.Lib.HashChain

variable {H E : Type}

structure Link (H E : Type) where
  prev : H
  content : E
  hash : H
  deriving DecidableEq, Repr

/-- Every link carries the hash before it, `prev` for the first one, and its own. -/
def Linked (hash : H → E → H) : H → List (Link H E) → Prop
  | _, [] => True
  | prev, l :: ls => l.prev = prev ∧ l.hash = hash prev l.content ∧ Linked hash l.hash ls

/-- The hash at the end of a chain that begins with `prev`. -/
def head : H → List (Link H E) → H
  | prev, [] => prev
  | _, l :: ls => head l.hash ls

variable {hash : H → E → H} {prev : H} {as bs : List (Link H E)}

@[simp] theorem head_nil : head prev ([] : List (Link H E)) = prev := rfl

theorem head_append : head prev (as ++ bs) = head (head prev as) bs := by
  induction as generalizing prev with
  | nil => rfl
  | cons l as ih => exact ih

@[simp] theorem head_concat (l : Link H E) : head prev (as ++ [l]) = l.hash := head_append

theorem head_eq_getLast? : head prev as = (as.getLast?.map Link.hash).getD prev := by
  obtain rfl | ⟨as, l, rfl⟩ := List.eq_nil_or_concat as
  · rfl
  · simp

theorem linked_append :
    Linked hash prev (as ++ bs) ↔ Linked hash prev as ∧ Linked hash (head prev as) bs := by
  induction as generalizing prev with
  | nil => simp [Linked]
  | cons l as ih => simp only [List.cons_append, Linked, head, ih, and_assoc]

theorem linked_concat {l : Link H E} :
    Linked hash prev (as ++ [l]) ↔
      Linked hash prev as ∧ l.prev = head prev as ∧ l.hash = hash l.prev l.content := by
  rw [linked_append]
  apply and_congr_right
  intro _
  constructor
  · rintro ⟨hprev, hhash, -⟩
    exact ⟨hprev, by rw [hprev, hhash]⟩
  · rintro ⟨hprev, hhash⟩
    exact ⟨hprev, by rw [← hprev, hhash], trivial⟩

/-- No two pairs have the same hash. -/
def Binding (hash : H → E → H) : Prop :=
  ∀ p e p' e', hash p e = hash p' e' → p = p' ∧ e = e'

/-- The hash at the end determines the chain. -/
theorem eq_of_head_eq (binding : Binding hash) (ha : Linked hash prev as)
    (hb : Linked hash prev bs) (later : ∀ l ∈ as, l.hash ≠ prev) (later' : ∀ l ∈ bs, l.hash ≠ prev)
    (same : head prev as = head prev bs) : as = bs := by
  induction as using List.reverseRecOn generalizing bs with
  | nil =>
    obtain rfl | ⟨bs, b, rfl⟩ := List.eq_nil_or_concat bs
    · rfl
    · rw [List.concat_eq_append, head_nil, head_concat] at same
      exact absurd same.symm (later' b (by simp))
  | append_singleton as a ih =>
    obtain rfl | ⟨bs, b, rfl⟩ := List.eq_nil_or_concat bs
    · rw [head_nil, head_concat] at same
      exact absurd same (later a (by simp))
    · rw [List.concat_eq_append] at hb later' same ⊢
      rw [head_concat, head_concat] at same
      obtain ⟨ha, haprev, hahash⟩ := linked_concat.1 ha
      obtain ⟨hb, hbprev, hbhash⟩ := linked_concat.1 hb
      obtain ⟨hprev, hcontent⟩ := binding _ _ _ _ ((hahash.symm.trans same).trans hbhash)
      have hrest : as = bs := by
        apply ih ha hb (fun l hl => later l (List.mem_append_left _ hl))
          fun l hl => later' l (List.mem_append_left _ hl)
        rw [← haprev, ← hbprev, hprev]
      have hlast : a = b := by
        cases a
        cases b
        simp only at same hprev hcontent
        rw [same, hprev, hcontent]
      rw [hrest, hlast]

/-- What is left of a chain without a break is its beginning. -/
theorem prefix_of_linked (binding : Binding hash) (ha : Linked hash prev as)
    (hb : Linked hash prev bs) (later : ∀ l ∈ as, l.hash ≠ prev) (left : ∀ l ∈ bs, l ∈ as) :
    bs <+: as := by
  obtain rfl | ⟨bs, b, rfl⟩ := List.eq_nil_or_concat bs
  · exact List.nil_prefix
  rw [List.concat_eq_append] at hb left ⊢
  obtain ⟨xs, ys, rfl⟩ := List.append_of_mem (left b (by simp))
  have hsplit : xs ++ b :: ys = (xs ++ [b]) ++ ys := by simp
  rw [hsplit] at ha later
  have heq : bs ++ [b] = xs ++ [b] := by
    apply eq_of_head_eq binding hb (linked_append.1 ha).1
    · exact fun l hl => later l (hsplit ▸ left l hl)
    · exact fun l hl => later l (List.mem_append_left _ hl)
    · rw [head_concat, head_concat]
  rw [heq, hsplit]
  exact List.prefix_append _ _

/-- The beginning of a chain is a chain. -/
theorem Linked.of_isPrefix (h : Linked hash prev as) (beginning : bs <+: as) :
    Linked hash prev bs := by
  obtain ⟨cs, rfl⟩ := beginning
  exact (linked_append.1 h).1

/-- Every link of a chain has its own hash. -/
theorem own_of_linked (h : Linked hash prev as) {l : Link H E} (mem : l ∈ as) :
    l.hash = hash l.prev l.content := by
  obtain ⟨xs, ys, rfl⟩ := List.append_of_mem mem
  rw [List.append_cons] at h
  exact (linked_concat.1 (linked_append.1 h).1).2.2

/-- No two links of a chain have the same hash. -/
theorem nodup_hashes (binding : Binding hash) (h : Linked hash prev as)
    (later : ∀ l ∈ as, l.hash ≠ prev) : (as.map Link.hash).Nodup := by
  induction as using List.reverseRecOn with
  | nil => exact List.nodup_nil
  | append_singleton as a ih =>
    have hbefore : (as.map Link.hash).Nodup :=
      ih (linked_append.1 h).1 fun l hl => later l (List.mem_append_left _ hl)
    rw [List.map_append, List.map_singleton, List.nodup_append]
    refine ⟨hbefore, List.pairwise_singleton .., ?_⟩
    rintro _ hmem _ hlast rfl
    obtain ⟨l, hl, hsame⟩ := List.mem_map.1 hmem
    rw [List.mem_singleton] at hlast
    obtain ⟨xs, ys, rfl⟩ := List.append_of_mem hl
    have hbeginning : xs ++ [l] <+: xs ++ l :: ys ++ [a] := ⟨ys ++ [a], by simp⟩
    have heq : xs ++ [l] = xs ++ l :: ys ++ [a] := by
      apply eq_of_head_eq binding (h.of_isPrefix hbeginning) h
      · exact fun x hx => later x (hbeginning.subset hx)
      · exact later
      · rw [head_concat, head_concat, hsame, hlast]
    have hlength := congrArg List.length heq
    simp at hlength

end Amana.Lib.HashChain
