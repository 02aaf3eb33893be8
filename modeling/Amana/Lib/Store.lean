import Mathlib.Algebra.Order.BigOperators.Group.Finset
import Mathlib.Data.Finset.Basic
import Mathlib.Tactic.Abel

/-!
# Finite key-value stores

A `Store K V` is a lookup function with the finite set of keys it answers.  Writing and erasing a
key act on both parts, so a sum over the stored values (`Store.sum`) is always finite and changes
by exactly the written value minus the one it replaces (`sum_set_add`).  The same goes for the
number of keys with a property (`Store.count`, `count_update`).
-/

namespace Amana.Lib

/-- A lookup function and the finite set of keys it answers. -/
structure Store (K V : Type) where
  get : K → Option V
  keys : Finset K
  mem_keys : ∀ k, k ∈ keys ↔ (get k).isSome

namespace Store

variable {K V M : Type}

/-- The store that answers nothing. -/
def empty : Store K V := ⟨fun _ => none, ∅, fun k => by simp⟩

/-- Whether a key is present. -/
def has (m : Store K V) (k : K) : Bool := (m.get k).isSome

/-- The total of `f` over the stored values. -/
def sum [AddCommMonoid M] (m : Store K V) (f : V → M) : M := ∑ k ∈ m.keys, (m.get k).elim 0 f

/-- The number of stored keys with property `p`. -/
def count (m : Store K V) (p : K → Bool) : Nat := (m.keys.filter fun k => p k).card

@[simp] theorem get_empty (k : K) : (empty : Store K V).get k = none := rfl

@[simp] theorem sum_empty [AddCommMonoid M] (f : V → M) : (empty : Store K V).sum f = 0 := rfl

theorem sum_nonneg [AddCommMonoid M] [PartialOrder M] [IsOrderedAddMonoid M] (m : Store K V)
    {f : V → M} (h : ∀ k v, m.get k = some v → 0 ≤ f v) : 0 ≤ m.sum f := by
  refine Finset.sum_nonneg fun k _ => ?_
  cases hk : m.get k with
  | none => exact le_rfl
  | some v => exact h k v hk

theorem le_sum [AddCommMonoid M] [PartialOrder M] [IsOrderedAddMonoid M] (m : Store K V)
    {f : V → M} (h : ∀ k v, m.get k = some v → 0 ≤ f v) {k : K} {v : V} (hk : m.get k = some v) :
    f v ≤ m.sum f := by
  have hmem : k ∈ m.keys := (m.mem_keys k).2 (by simp [hk])
  have hterm : ∀ k' ∈ m.keys, 0 ≤ (m.get k').elim 0 f := fun k' _ => by
    cases hk' : m.get k' with
    | none => exact le_rfl
    | some v' => exact h k' v' hk'
  calc f v = (m.get k).elim 0 f := by rw [hk, Option.elim_some]
    _ ≤ m.sum f := Finset.single_le_sum hterm hmem

theorem has_eq_false_iff (m : Store K V) (k : K) : m.has k = false ↔ m.get k = none := by
  simp [has]

theorem count_le_count (m : Store K V) {p q : K → Bool}
    (h : ∀ k v, m.get k = some v → p k = true → q k = true) : m.count p ≤ m.count q := by
  refine Finset.card_le_card fun k hk => ?_
  rw [Finset.mem_filter] at hk ⊢
  obtain ⟨v, hv⟩ := Option.isSome_iff_exists.1 ((m.mem_keys k).1 hk.1)
  exact ⟨hk.1, h k v hv hk.2⟩

variable [DecidableEq K]

/-- Write one key. -/
def set (m : Store K V) (k : K) (v : V) : Store K V where
  get := fun k' => if k' = k then some v else m.get k'
  keys := insert k m.keys
  mem_keys := fun k' => by
    by_cases h : k' = k
    · simp [h]
    · simp [h, m.mem_keys]

/-- Remove one key. -/
def erase (m : Store K V) (k : K) : Store K V where
  get := fun k' => if k' = k then none else m.get k'
  keys := m.keys.erase k
  mem_keys := fun k' => by
    by_cases h : k' = k
    · simp [h]
    · simp [h, m.mem_keys]

theorem get_set (m : Store K V) (k k' : K) (v : V) :
    (m.set k v).get k' = if k' = k then some v else m.get k' := rfl

@[simp] theorem get_set_self (m : Store K V) (k : K) (v : V) : (m.set k v).get k = some v :=
  if_pos rfl

theorem get_set_ne (m : Store K V) {k k' : K} (v : V) (h : k' ≠ k) :
    (m.set k v).get k' = m.get k' := if_neg h

/-- What is found after a write is the written value or was there before. -/
theorem get_set_cases {m : Store K V} {k k' : K} {v v' : V} (h : (m.set k v).get k' = some v') :
    k' = k ∧ v' = v ∨ k' ≠ k ∧ m.get k' = some v' := by
  rw [get_set] at h
  split at h
  · next e => exact .inl ⟨e, (Option.some.inj h).symm⟩
  · next e => exact .inr ⟨e, h⟩

theorem get_erase (m : Store K V) (k k' : K) :
    (m.erase k).get k' = if k' = k then none else m.get k' := rfl

@[simp] theorem get_erase_self (m : Store K V) (k : K) : (m.erase k).get k = none := if_pos rfl

theorem get_erase_ne (m : Store K V) {k k' : K} (h : k' ≠ k) : (m.erase k).get k' = m.get k' :=
  if_neg h

/-- A term outside the key set contributes nothing, so one key can always be split off. -/
theorem sum_eq_add_erase [AddCommMonoid M] (m : Store K V) (k : K) (f : V → M) :
    m.sum f = (m.get k).elim 0 f + ∑ k' ∈ m.keys.erase k, (m.get k').elim 0 f := by
  unfold sum
  by_cases h : k ∈ m.keys
  · exact (Finset.add_sum_erase _ (fun k' => (m.get k').elim 0 f) h).symm
  · have hn : m.get k = none := by simpa using mt (m.mem_keys k).2 h
    rw [Finset.erase_eq_of_notMem h, hn, Option.elim_none, zero_add]

/-- Writing a key exchanges its old contribution for the new one. -/
theorem sum_set_add [AddCommMonoid M] (m : Store K V) (k : K) (v : V) (f : V → M) :
    (m.set k v).sum f + (m.get k).elim 0 f = m.sum f + f v := by
  have hrest : ∑ k' ∈ (m.set k v).keys.erase k, ((m.set k v).get k').elim 0 f =
      ∑ k' ∈ m.keys.erase k, (m.get k').elim 0 f := by
    refine Finset.sum_congr (by simp [set]) fun k' hk' => ?_
    rw [get_set_ne m v (Finset.ne_of_mem_erase hk')]
  rw [sum_eq_add_erase (m.set k v) k f, sum_eq_add_erase m k f, hrest, get_set_self,
    Option.elim_some]
  abel

/-- Replacing a stored value changes the total by the difference. -/
theorem sum_set [AddCommGroup M] (m : Store K V) {k : K} {v : V} (v' : V) (f : V → M)
    (h : m.get k = some v) : (m.set k v').sum f = m.sum f - f v + f v' := by
  have hset := m.sum_set_add k v' f
  rw [h, Option.elim_some] at hset
  rw [eq_sub_of_add_eq hset]
  abel

/-- Where one key is written, the number of keys with a property changes by that key. -/
theorem count_update {m m' : Store K V} {p q : K → Bool} {k : K} {v : V}
    (hk : m'.get k = some v) (hget : ∀ k', k' ≠ k → m'.get k' = m.get k')
    (hp : ∀ k', k' ≠ k → q k' = p k') :
    m'.count q + (m.has k && p k).toNat = m.count p + (q k).toNat := by
  have hkeys : m'.keys = insert k (m.keys.erase k) := by
    ext k'
    by_cases e : k' = k
    · simp [e, m'.mem_keys, hk]
    · simp [e, m'.mem_keys, m.mem_keys, hget k' e]
  have hrest : (m.keys.erase k).filter (fun k' => q k') =
      (m.keys.erase k).filter fun k' => p k' :=
    Finset.filter_congr fun k' hk' => by rw [hp k' (Finset.ne_of_mem_erase hk')]
  have hout {r : K → Bool} : k ∉ (m.keys.erase k).filter fun k' => r k' := by simp
  have hafter : m'.count q =
      ((m.keys.erase k).filter fun k' => p k').card + (q k).toNat := by
    rw [count, hkeys, Finset.filter_insert, ← hrest]
    cases q k with
    | true => exact Finset.card_insert_of_notMem hout
    | false => rfl
  have hbefore : m.count p =
      ((m.keys.erase k).filter fun k' => p k').card + (m.has k && p k).toNat := by
    by_cases hmem : k ∈ m.keys
    · have hhas : m.has k = true := (m.mem_keys k).1 hmem
      rw [count, ← Finset.insert_erase hmem, Finset.filter_insert, Finset.erase_insert (by simp),
        hhas, Bool.true_and]
      cases p k with
      | true => exact Finset.card_insert_of_notMem hout
      | false => rfl
    · have hhas : m.has k = false := by simpa [has] using mt (m.mem_keys k).2 hmem
      rw [count, Finset.erase_eq_of_notMem hmem, hhas, Bool.false_and]
      rfl
  rw [hafter, hbefore]
  omega

end Store

end Amana.Lib
