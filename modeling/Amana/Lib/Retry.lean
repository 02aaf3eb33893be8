import Mathlib.Tactic.Common

/-!
# Repeated rounds

A round of a loop either ends it with a result or asks for another round.  `loop` makes at most so
many rounds and says nothing when it runs out of them.  What it returns is what the last round
ended with, after so many rounds that asked for another (`loop_eq_some_iff`).  A loop ends whenever
the rounds use something up (`loop_isSome`).
-/

namespace Amana.Lib.Retry

variable {σ ρ : Type} {round : σ → ρ ⊕ σ}

/-- Make up to `fuel` rounds. -/
def loop (round : σ → ρ ⊕ σ) : Nat → σ → Option ρ
  | 0, _ => none
  | fuel + 1, s =>
    match round s with
    | .inl r => some r
    | .inr s' => loop round fuel s'

/-- So many rounds that asked for another lead from one state to the other. -/
def Again (round : σ → ρ ⊕ σ) : Nat → σ → σ → Prop
  | 0, s, u => s = u
  | n + 1, s, u => ∃ t, round s = .inr t ∧ Again round n t u

theorem loop_of_again {n fuel : Nat} {s t : σ} (h : Again round n s t) :
    loop round (n + fuel) s = loop round fuel t := by
  induction n generalizing s with
  | zero =>
    cases h
    rw [Nat.zero_add]
  | succ n ih =>
    obtain ⟨u, hfirst, hrest⟩ := h
    rw [Nat.succ_add, loop, hfirst]
    exact ih hrest

/-- What a loop returns its last round ended with. -/
theorem loop_eq_some_iff {fuel : Nat} {s : σ} {r : ρ} : loop round fuel s = some r ↔
    ∃ n t, n < fuel ∧ Again round n s t ∧ round t = .inl r := by
  constructor
  · intro h
    induction fuel generalizing s with
    | zero => cases h
    | succ fuel ih =>
      rw [loop] at h
      split at h
      · next r' hended =>
        cases h
        exact ⟨0, s, Nat.succ_pos _, rfl, hended⟩
      · next t hasked =>
        obtain ⟨n, u, hlt, hagain, hended⟩ := ih h
        exact ⟨n + 1, u, by omega, ⟨t, hasked, hagain⟩, hended⟩
  · rintro ⟨n, t, hlt, hagain, hended⟩
    obtain ⟨rest, rfl⟩ : ∃ rest, fuel = n + (rest + 1) := ⟨fuel - n - 1, by omega⟩
    rw [loop_of_again hagain, loop, hended]

/-- What holds at first and is kept by every round that asks for another. -/
theorem Again.invariant {P : σ → Prop} {n : Nat} {s t : σ} (h : Again round n s t) (start : P s)
    (keep : ∀ s t, P s → round s = .inr t → P t) : P t := by
  induction n generalizing s with
  | zero => exact h ▸ start
  | succ n ih =>
    obtain ⟨u, hfirst, hrest⟩ := h
    exact ih hrest (keep s u start hfirst)

/-- A loop ends when every round that asks for another uses up some of what there is. -/
theorem loop_isSome (measure : σ → Nat)
    (decreases : ∀ s t, round s = .inr t → measure t < measure s) (fuel : Nat) (s : σ)
    (h : measure s < fuel) : (loop round fuel s).isSome = true := by
  induction fuel generalizing s with
  | zero => omega
  | succ fuel ih =>
    rw [loop]
    cases hround : round s with
    | inl r => rfl
    | inr t =>
      have hless := decreases s t hround
      exact ih t (by omega)

end Amana.Lib.Retry
