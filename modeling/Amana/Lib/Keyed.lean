import Amana.Lib.Machine

/-!
# Families of machines

A family has a machine at every key, and a step moves the machine at one key.  At each key, a run of
the family is the run over the actions at that key (`run_moved`), so that one key tells nothing of
the others.
-/

namespace Amana.Lib.Keyed

open Machine

variable {κ σ α : Type} [DecidableEq κ] (step : κ → σ → α → σ)

/-- One machine of the family makes a step. -/
def moved (s : κ → σ) (a : κ × α) : κ → σ := Function.update s a.1 (step a.1 (s a.1) a.2)

/-- The actions at a key. -/
def actionsAt (k : κ) (as : List (κ × α)) : List α := (as.filter fun a => a.1 = k).map Prod.snd

variable {k : κ} {a : κ × α} {as bs : List (κ × α)}

@[simp] theorem actionsAt_nil : actionsAt k ([] : List (κ × α)) = [] := rfl

@[simp] theorem actionsAt_append :
    actionsAt k (as ++ bs) = actionsAt k as ++ actionsAt k bs := by
  simp [actionsAt]

@[simp] theorem actionsAt_singleton :
    actionsAt k [a] = if a.1 = k then [a.2] else [] := by
  by_cases h : a.1 = k <;> simp [actionsAt, h]

@[simp] theorem actionsAt_cons :
    actionsAt k (a :: as) = if a.1 = k then a.2 :: actionsAt k as else actionsAt k as := by
  by_cases h : a.1 = k <;> simp [actionsAt, h]

theorem mem_actionsAt {x : α} : x ∈ actionsAt k as ↔ (k, x) ∈ as := by
  simp [actionsAt]

theorem actionsAt_sublist (k : κ) (as : List (κ × α)) :
    (actionsAt k as).Sublist (as.map Prod.snd) :=
  List.filter_sublist.map _

/-- A split of the actions at a key is one of all actions. -/
theorem exists_of_actionsAt_eq_append {l m : List α} (h : actionsAt k as = l ++ m) :
    ∃ bs cs, as = bs ++ cs ∧ actionsAt k bs = l ∧ actionsAt k cs = m := by
  obtain ⟨l', m', hfilter, rfl, rfl⟩ := List.map_eq_append_iff.1 h
  obtain ⟨bs, cs, rfl, rfl, rfl⟩ := List.filter_eq_append_iff.1 hfilter
  exact ⟨bs, cs, rfl, rfl, rfl⟩

theorem exists_of_actionsAt_eq_cons {x : α} {l : List α} (h : actionsAt k as = x :: l) :
    ∃ bs cs, as = bs ++ (k, x) :: cs ∧ actionsAt k bs = [] ∧ actionsAt k cs = l := by
  obtain ⟨a, l', hfilter, rfl, rfl⟩ := List.map_eq_cons_iff.1 h
  obtain ⟨bs, cs, rfl, hnone, hkey, rfl⟩ := List.filter_eq_cons_iff.1 hfilter
  obtain rfl : a.1 = k := by simpa using hkey
  exact ⟨bs, cs, rfl, by rw [actionsAt, List.filter_eq_nil_iff.2 hnone]; rfl, rfl⟩

/-- At each key, a run of the family is the run over the actions at that key. -/
theorem run_moved (s : κ → σ) (as : List (κ × α)) (k : κ) :
    run (moved step) s as k = run (step k) (s k) (actionsAt k as) := by
  induction as generalizing s with
  | nil => rfl
  | cons a as ih =>
    rw [run_cons, ih, actionsAt_cons, moved]
    split
    · next h => rw [← h, Function.update_self, run_cons]
    · next h => rw [Function.update_of_ne (Ne.symm h)]

end Amana.Lib.Keyed
