import Mathlib.Algebra.Order.BigOperators.Group.List
import Mathlib.Algebra.Order.Ring.Nat
import Mathlib.Data.List.Nodup
import Mathlib.Data.List.Perm.Basic

/-!
# Maps with an order

A map whose entries stand in a list.  A value that is set takes the place of the old one, or comes
last.  `total` adds up an observation of the entries.
-/

namespace Amana.Lib

structure OrderedMap (κ α : Type) where
  items : List (κ × α)
  distinct : (items.map Prod.fst).Nodup

namespace OrderedMap

variable {κ α : Type} [DecidableEq κ]

/-- The value of the first entry with the key. -/
def get (m : OrderedMap κ α) (k : κ) : Option α := (m.items.find? fun p => p.1 = k).map Prod.snd

def setItems (k : κ) (v : α) : List (κ × α) → List (κ × α)
  | [] => [(k, v)]
  | (k', v') :: rest => if k' = k then (k, v) :: rest else (k', v') :: setItems k v rest

omit [DecidableEq κ] in
theorem nodup_filter {items : List (κ × α)} (h : (items.map Prod.fst).Nodup) (p : κ × α → Bool) :
    ((items.filter p).map Prod.fst).Nodup :=
  h.sublist (List.filter_sublist.map Prod.fst)

/-- The entries with a value set are those of the other keys, and the new one. -/
theorem setItems_perm {items : List (κ × α)} (h : (items.map Prod.fst).Nodup) (k : κ) (v : α) :
    (setItems k v items).Perm ((k, v) :: items.filter fun p => p.1 ≠ k) := by
  induction items with
  | nil => exact .refl _
  | cons p rest ih =>
    obtain ⟨k', v'⟩ := p
    obtain ⟨hfresh, hrest⟩ := List.nodup_cons.1 h
    rw [setItems]
    split
    · next heq =>
      have hkept : (rest.filter fun p => p.1 ≠ k) = rest := by
        rw [List.filter_eq_self]
        rintro ⟨k'', v''⟩ hmem
        rw [decide_eq_true_eq]
        intro hkey
        have hmapped := List.mem_map_of_mem (f := Prod.fst) hmem
        rw [show k'' = k from hkey, ← heq] at hmapped
        exact hfresh hmapped
      rw [List.filter_cons_of_neg (by simp [heq]), hkept]
    · next hne =>
      rw [List.filter_cons_of_pos (by simp [hne])]
      exact ((ih hrest).cons _).trans (.swap ..)

def set (m : OrderedMap κ α) (k : κ) (v : α) : OrderedMap κ α where
  items := setItems k v m.items
  distinct := by
    rw [((setItems_perm m.distinct k v).map Prod.fst).nodup_iff, List.map_cons, List.nodup_cons]
    refine ⟨fun hmem => ?_, nodup_filter m.distinct _⟩
    obtain ⟨p, hp, hkey⟩ := List.mem_map.1 hmem
    simpa [hkey] using (List.mem_filter.1 hp).2

/-- The entries whose keys are kept. -/
def restrict (m : OrderedMap κ α) (p : κ → Bool) : OrderedMap κ α where
  items := m.items.filter fun item => p item.1
  distinct := nodup_filter m.distinct _

def erase (m : OrderedMap κ α) (k : κ) : OrderedMap κ α := m.restrict fun k' => k' ≠ k

/-- What the entries come to together. -/
def total (m : OrderedMap κ α) (f : κ × α → Nat) : Nat := (m.items.map f).sum

variable {m : OrderedMap κ α} {k : κ} {v : α} {f : κ × α → Nat}

omit [DecidableEq κ] in
@[simp] theorem mem_restrict {p : κ → Bool} {item : κ × α} :
    item ∈ (m.restrict p).items ↔ item ∈ m.items ∧ p item.1 = true := List.mem_filter

theorem mem_set {item : κ × α} :
    item ∈ (m.set k v).items ↔ item = (k, v) ∨ (item ∈ m.items ∧ item.1 ≠ k) := by
  rw [set, (setItems_perm m.distinct k v).mem_iff]
  simp

/-- A key has the value it has an entry with. -/
theorem get_eq_some_iff : m.get k = some v ↔ (k, v) ∈ m.items := by
  rw [get, Option.map_eq_some_iff]
  constructor
  · rintro ⟨⟨k', v'⟩, hfind, rfl⟩
    obtain rfl : k' = k := by simpa using List.find?_some hfind
    exact List.mem_of_find?_eq_some hfind
  · intro h
    obtain ⟨⟨k', v'⟩, hfind⟩ := Option.isSome_iff_exists.1
      (List.find?_isSome.2 ⟨(k, v), h, decide_eq_true rfl⟩ :
        (m.items.find? fun p => p.1 = k).isSome)
    obtain rfl : k' = k := by simpa using List.find?_some hfind
    have hmem := List.mem_of_find?_eq_some hfind
    have hsame := List.inj_on_of_nodup_map m.distinct hmem h rfl
    exact ⟨(k', v'), hfind, congrArg Prod.snd hsame⟩

theorem get_set (m : OrderedMap κ α) (k k' : κ) (v : α) :
    (m.set k v).get k' = if k' = k then some v else m.get k' := by
  refine Option.ext fun w => ?_
  rw [get_eq_some_iff, mem_set]
  split
  · next h => simp [h, eq_comm]
  · next h => simp [h, get_eq_some_iff]

theorem get_erase (m : OrderedMap κ α) (k k' : κ) :
    (m.erase k).get k' = if k' = k then none else m.get k' := by
  refine Option.ext fun w => ?_
  rw [get_eq_some_iff, erase, mem_restrict]
  split
  · next h => simp [h]
  · next h => simp [h, get_eq_some_iff]

theorem erase_comm (m : OrderedMap κ α) (k k' : κ) :
    (m.erase k).erase k' = (m.erase k').erase k := by
  simp only [erase, restrict, List.filter_filter, Bool.and_comm]

omit [DecidableEq κ] in
theorem total_restrict_le (m : OrderedMap κ α) (p : κ → Bool) (f : κ × α → Nat) :
    (m.restrict p).total f ≤ m.total f :=
  (List.filter_sublist.map f).sum_le_sum fun _ _ => Nat.zero_le _

theorem total_set (m : OrderedMap κ α) (k : κ) (v : α) (f : κ × α → Nat) :
    (m.set k v).total f = (m.erase k).total f + f (k, v) := by
  rw [total, set, ((setItems_perm m.distinct k v).map f).sum_eq, List.map_cons, List.sum_cons,
    Nat.add_comm]
  rfl

omit [DecidableEq κ] in
theorem le_total {item : κ × α} (h : item ∈ m.items) : f item ≤ m.total f :=
  List.le_sum_of_mem (List.mem_map_of_mem h)

omit [DecidableEq κ] in
theorem total_eq_zero (h : ∀ item ∈ m.items, f item = 0) : m.total f = 0 :=
  List.sum_eq_zero fun x hx => by
    obtain ⟨item, hitem, rfl⟩ := List.mem_map.1 hx
    exact h item hitem

end OrderedMap

end Amana.Lib
