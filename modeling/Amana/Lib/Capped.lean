import Mathlib.Logic.Function.Iterate

/-!
# Capped loops

A loop takes steps until it is done, and at most so many of them.  `rounds` are the states it takes
a step in.  Its test may ask for more than what is needed: then what is needed holds in the end if
it holds after all the steps of the cap (`enough_loop_iff`), and no step was taken in vain exactly
when the test asks for no more than that in the states it meets (`rounds_needed_iff`).
-/

namespace Amana.Lib.Capped

variable {σ : Type} (step : σ → σ) (done : σ → Bool)

/-- The state that the loop comes to. -/
def loop : Nat → σ → σ
  | 0, s => s
  | cap + 1, s => if done s then s else loop cap (step s)

/-- The states that the loop takes a step in. -/
def rounds : Nat → σ → List σ
  | 0, _ => []
  | cap + 1, s => if done s then [] else s :: rounds cap (step s)

variable {step done}

/-- What a step keeps holds where the loop takes its steps and where it comes to. -/
theorem loop_invariant {P : σ → Prop} (keep : ∀ s, P s → P (step s)) (cap : Nat) {s : σ} (h : P s) :
    P (loop step done cap s) ∧ ∀ t ∈ rounds step done cap s, P t := by
  induction cap generalizing s with
  | zero => exact ⟨h, by simp [rounds]⟩
  | succ cap ih =>
    rw [loop, rounds]
    split
    · exact ⟨h, by simp⟩
    · exact ⟨(ih (keep s h)).1, List.forall_mem_cons.2 ⟨h, (ih (keep s h)).2⟩⟩

theorem not_done_of_mem_rounds {cap : Nat} {s t : σ} (h : t ∈ rounds step done cap s) :
    done t = false := by
  induction cap generalizing s with
  | zero => simp [rounds] at h
  | succ cap ih =>
    rw [rounds] at h
    split at h
    · simp at h
    · next hs =>
      obtain rfl | h := List.mem_cons.1 h
      · exact Bool.eq_false_iff.2 hs
      · exact ih h

variable {enough : σ → Prop} (keep : ∀ s, enough s → enough (step s))
  (sound : ∀ s, done s = true → enough s)

include keep in
theorem enough_iterate {s : σ} (h : enough s) (n : Nat) : enough (step^[n] s) :=
  Function.Iterate.rec enough h keep n

include keep sound in
/-- What is needed holds in the end if all the steps of the cap bring it about. -/
theorem enough_loop_iff (cap : Nat) (s : σ) :
    enough (loop step done cap s) ↔ enough (step^[cap] s) := by
  induction cap generalizing s with
  | zero => rfl
  | succ cap ih =>
    rw [loop]
    split
    · next hdone => exact iff_of_true (sound s hdone) (enough_iterate keep (sound s hdone) _)
    · exact ih (step s)

/-- No step is taken in vain exactly when the loop is done wherever there is enough. -/
theorem rounds_needed_iff (enough : σ → Prop)
    (stable : ∀ s, done s = true → done (step s) = true) (cap : Nat) (s : σ) :
    (∀ t ∈ rounds step done cap s, ¬ enough t) ↔
      ∀ j < cap, enough (step^[j] s) → done (step^[j] s) = true := by
  induction cap generalizing s with
  | zero => simp [rounds]
  | succ cap ih =>
    rw [rounds]
    split
    · next hdone =>
      refine iff_of_true (by simp) fun j _ _ => ?_
      exact Function.Iterate.rec (fun t => done t = true) hdone stable j
    · next hdone =>
      rw [List.forall_mem_cons, ih (step s)]
      constructor
      · rintro ⟨hfirst, hrest⟩ j hj henough
        cases j with
        | zero => exact absurd henough hfirst
        | succ j => exact hrest j (Nat.lt_of_succ_lt_succ hj) henough
      · intro h
        exact ⟨fun henough => hdone (h 0 (Nat.succ_pos cap) henough),
          fun j hj henough => h (j + 1) (Nat.succ_lt_succ hj) henough⟩

end Amana.Lib.Capped
