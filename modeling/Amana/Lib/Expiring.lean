import Mathlib.Logic.Function.Basic

/-!
# Keys that expire

A store of keys, each with a value and perhaps a deadline: once it has passed, the key counts as
absent.  Times are in one unit of the user's choice.
-/

namespace Amana.Lib.Expiring

variable {K V : Type} {now t : Nat} {k k' : K}

structure Entry (V : Type) where
  value : V
  /-- The last moment at which the key is there; `none` stands for a key that stays. -/
  deadline : Option Nat
  deriving DecidableEq, Repr

def Entry.alive (e : Entry V) (now : Nat) : Bool := e.deadline.all fun deadline => now ≤ deadline

abbrev Keys (K V : Type) := K → Option (Entry V)

namespace Keys

variable {keys keys' : Keys K V}

/-- What is there at a time. -/
def live (keys : Keys K V) (now : Nat) (k : K) : Option (Entry V) :=
  (keys k).filter fun e => e.alive now

variable [DecidableEq K]

def put (keys : Keys K V) (k : K) (value : V) (deadline : Option Nat) : Keys K V :=
  Function.update keys k (some ⟨value, deadline⟩)

def remove (keys : Keys K V) (k : K) : Keys K V := Function.update keys k none

@[simp] theorem put_same (keys : Keys K V) (k : K) (value : V) (deadline : Option Nat) :
    keys.put k value deadline k = some ⟨value, deadline⟩ := Function.update_self ..

theorem put_of_ne (keys : Keys K V) (value : V) (deadline : Option Nat) (h : k' ≠ k) :
    keys.put k value deadline k' = keys k' := Function.update_of_ne h ..

theorem remove_of_ne (keys : Keys K V) (h : k' ≠ k) : keys.remove k k' = keys k' :=
  Function.update_of_ne h ..

omit [DecidableEq K] in
theorem live_congr (h : keys' k = keys k) : keys'.live now k = keys.live now k := by
  rw [live, live, h]

omit [DecidableEq K] in
/-- What will be there later is there now. -/
theorem live_of_le (h : (keys.live t k).isSome = true) (le : now ≤ t) :
    (keys.live now k).isSome = true := by
  obtain ⟨e, he⟩ := Option.isSome_iff_exists.1 h
  obtain ⟨hk, halive⟩ := Option.filter_eq_some_iff.1 he
  rw [live, hk]
  cases hd : e.deadline with
  | none => simp [Entry.alive, hd]
  | some deadline =>
    have : t ≤ deadline := by simpa [Entry.alive, hd] using halive
    have : now ≤ deadline := by omega
    simpa [Entry.alive, hd] using this

/-- What was put with a deadline is there until then. -/
theorem live_put_iff (value : V) (deadline : Nat) :
    ((keys.put k value (some deadline)).live t k).isSome = true ↔ t ≤ deadline := by
  simp [live, Entry.alive]

end Keys

end Amana.Lib.Expiring
