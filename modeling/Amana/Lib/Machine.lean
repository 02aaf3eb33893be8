import Mathlib.Algebra.BigOperators.Group.List.Basic
import Mathlib.Algebra.BigOperators.Ring.List
import Mathlib.Algebra.Order.BigOperators.Group.List
import Mathlib.Data.List.Induction

/-!
# Runs of a deterministic machine

A machine is a total step function.  `run` folds it over a list of actions, `trail` pairs every
action with the state it meets, and `tally` adds up an observation of the steps.  An invariant of
a run only has to be kept by the steps on its trail (`run_invariant`), and a run of a machine that
simulates another is one of its runs (`run_map`).  `Since` is a step in the past, with what has held
ever since; `shadow` is the machine with a record of its past beside the state.
-/

namespace Amana.Lib.Machine

variable {σ α τ M : Type} (step : σ → α → σ)

/-- The state after a list of actions. -/
def run (s : σ) (as : List α) : σ := as.foldl step s

/-- The actions of a run, each with the state it meets. -/
def trail : σ → List α → List (σ × α)
  | _, [] => []
  | s, a :: as => (s, a) :: trail (step s a) as

/-- The total of an observation over the steps of a run. -/
def tally [AddMonoid M] (f : σ → α → M) (s : σ) (as : List α) : M :=
  ((trail step s as).map fun p => f p.1 p.2).sum

/-- Some step of a run had `P`, and every step after it had `Q`. -/
def Since (P Q : σ → α → Prop) (s : σ) (as : List α) : Prop :=
  ∃ bs a cs, as = bs ++ a :: cs ∧ P (run step s bs) a ∧
    ∀ p ∈ trail step (step (run step s bs) a) cs, Q p.1 p.2

/-- The machine that carries a value along beside the state. -/
def shadow (f : σ → α → τ → τ) (p : σ × τ) (a : α) : σ × τ := (step p.1 a, f p.1 a p.2)

@[simp] theorem run_nil (s : σ) : run step s [] = s := rfl

@[simp] theorem run_cons (s : σ) (a : α) (as : List α) :
    run step s (a :: as) = run step (step s a) as := rfl

theorem run_append (s : σ) (as bs : List α) :
    run step s (as ++ bs) = run step (run step s as) bs := List.foldl_append

@[simp] theorem run_snoc (s : σ) (as : List α) (a : α) :
    run step s (as ++ [a]) = step (run step s as) a := run_append step s as [a]

@[simp] theorem trail_nil (s : σ) : trail step s [] = [] := rfl

theorem trail_append (s : σ) (as bs : List α) :
    trail step s (as ++ bs) = trail step s as ++ trail step (run step s as) bs := by
  induction as generalizing s with
  | nil => rfl
  | cons a as ih => simp [trail, ih]

@[simp] theorem trail_snoc (s : σ) (as : List α) (a : α) :
    trail step s (as ++ [a]) = trail step s as ++ [(run step s as, a)] :=
  trail_append step s as [a]

@[simp] theorem tally_nil [AddMonoid M] (f : σ → α → M) (s : σ) : tally step f s [] = 0 := rfl

theorem tally_append [AddMonoid M] (f : σ → α → M) (s : σ) (as bs : List α) :
    tally step f s (as ++ bs) = tally step f s as + tally step f (run step s as) bs := by
  simp [tally, trail_append]

@[simp] theorem tally_snoc [AddMonoid M] (f : σ → α → M) (s : σ) (as : List α) (a : α) :
    tally step f s (as ++ [a]) = tally step f s as + f (run step s as) a := by
  simp [tally]

theorem tally_eq_zero [AddMonoid M] {f : σ → α → M} {as : List α}
    (h : ∀ s, ∀ a ∈ as, f s a = 0) (s : σ) : tally step f s as = 0 := by
  induction as generalizing s with
  | nil => rfl
  | cons a as ih =>
    have hrest := ih (fun s b hb => h s b (List.mem_cons_of_mem _ hb)) (step s a)
    have hsplit : tally step f s (a :: as) = f s a + tally step f (step s a) as := by
      simp [tally, trail]
    rw [hsplit, hrest, h s a (List.mem_cons_self ..), add_zero]

theorem tally_add [AddCommMonoid M] (f g : σ → α → M) (s : σ) (as : List α) :
    tally step (fun s a => f s a + g s a) s as = tally step f s as + tally step g s as := by
  simp [tally, List.sum_map_add]

/-- What bounds an observation in every step bounds its total. -/
theorem tally_le_tally [AddMonoid M] [Preorder M] [AddLeftMono M] [AddRightMono M]
    {f g : σ → α → M} {s : σ} {as : List α} (h : ∀ p ∈ trail step s as, f p.1 p.2 ≤ g p.1 p.2) :
    tally step f s as ≤ tally step g s as := List.sum_le_sum h

theorem tally_mul_left [NonUnitalNonAssocSemiring M] (c : M) (f : σ → α → M) (s : σ)
    (as : List α) : tally step (fun s a => c * f s a) s as = c * tally step f s as := by
  simp [tally, List.sum_map_mul_left]

/-- A step of a run splits the run at the state the step meets. -/
theorem exists_append_of_mem_trail {s t : σ} {a : α} {as : List α}
    (h : (t, a) ∈ trail step s as) :
    ∃ bs cs, as = bs ++ a :: cs ∧ t = run step s bs := by
  induction as generalizing s with
  | nil => simp at h
  | cons b as ih =>
    rcases List.mem_cons.1 h with h | h
    · cases h
      exact ⟨[], as, rfl, rfl⟩
    · obtain ⟨bs, cs, rfl, rfl⟩ := ih h
      exact ⟨b :: bs, cs, rfl, rfl⟩

theorem mem_of_mem_trail {s : σ} {as : List α} {p : σ × α} (h : p ∈ trail step s as) :
    p.2 ∈ as := by
  obtain ⟨bs, cs, rfl, -⟩ := exists_append_of_mem_trail step h
  exact List.mem_append_right _ (List.mem_cons_self ..)

theorem mem_trail_append (s : σ) (bs cs : List α) (a : α) :
    (run step s bs, a) ∈ trail step s (bs ++ a :: cs) := by
  rw [trail_append]
  exact List.mem_append_right _ (List.mem_cons_self ..)

/-- The last step had `P`, or it had `Q` and `P` was before it. -/
theorem since_snoc_iff {P Q : σ → α → Prop} {s : σ} {as : List α} {a : α} :
    Since step P Q s (as ++ [a]) ↔
      P (run step s as) a ∨ (Q (run step s as) a ∧ Since step P Q s as) := by
  constructor
  · rintro ⟨bs, b, cs, hsplit, hP, hQ⟩
    obtain rfl | ⟨cs, d, rfl⟩ := List.eq_nil_or_concat cs
    · obtain ⟨rfl, hlast⟩ := List.append_inj' hsplit rfl
      obtain rfl := List.singleton_inj.1 hlast
      exact .inl hP
    · rw [List.concat_eq_append] at hsplit hQ
      rw [← List.cons_append, ← List.append_assoc] at hsplit
      obtain ⟨rfl, hlast⟩ := List.append_inj' hsplit rfl
      obtain rfl := List.singleton_inj.1 hlast
      rw [trail_snoc] at hQ
      refine .inr ⟨?_, bs, b, cs, rfl, hP, fun p hp => hQ p (List.mem_append_left _ hp)⟩
      rw [run_append, run_cons]
      exact hQ _ (List.mem_append_right _ (List.mem_singleton_self _))
  · rintro (hP | ⟨hlast, bs, b, cs, rfl, hP, hQ⟩)
    · exact ⟨as, a, [], rfl, hP, by simp⟩
    · refine ⟨bs, b, cs ++ [a], by simp, hP, fun p hp => ?_⟩
      rw [trail_snoc] at hp
      rw [run_append, run_cons] at hlast
      rcases List.mem_append.1 hp with hp | hp
      · exact hQ p hp
      · obtain rfl := List.mem_singleton.1 hp
        exact hlast

section Decide

variable {P Q : σ → α → Prop} {s : σ}

theorem not_since_nil : ¬ Since step P Q s [] := by
  rintro ⟨bs, a, cs, hsplit, -⟩
  simp at hsplit

/-- The first step had `P` and every later one `Q`, or `P` was later. -/
theorem since_cons_iff {a : α} {as : List α} : Since step P Q s (a :: as) ↔
    (P s a ∧ ∀ p ∈ trail step (step s a) as, Q p.1 p.2) ∨ Since step P Q (step s a) as := by
  constructor
  · rintro ⟨bs, b, cs, hsplit, hP, hQ⟩
    cases bs with
    | nil =>
      obtain ⟨rfl, rfl⟩ := List.cons.inj hsplit
      exact .inl ⟨hP, hQ⟩
    | cons c bs =>
      obtain ⟨rfl, rfl⟩ := List.cons.inj hsplit
      exact .inr ⟨bs, b, cs, rfl, hP, hQ⟩
  · rintro (⟨hP, hQ⟩ | ⟨bs, b, cs, rfl, hP, hQ⟩)
    · exact ⟨[], a, as, rfl, hP, hQ⟩
    · exact ⟨a :: bs, b, cs, rfl, hP, hQ⟩

instance decidableSince [∀ s a, Decidable (P s a)] [∀ s a, Decidable (Q s a)] (s : σ) :
    ∀ as, Decidable (Since step P Q s as)
  | [] => isFalse (not_since_nil step)
  | a :: as =>
    have := decidableSince (step s a) as
    decidable_of_iff _ (since_cons_iff step).symm

end Decide

/-- What every step of the trail keeps holds at the end of the run. -/
theorem run_invariant {P : σ → Prop} {s : σ} {as : List α} (start : P s)
    (keep : ∀ p ∈ trail step s as, P p.1 → P (step p.1 p.2)) : P (run step s as) := by
  induction as generalizing s with
  | nil => exact start
  | cons a as ih =>
    exact ih (keep (s, a) (List.mem_cons_self ..) start)
      fun p hp => keep p (List.mem_cons_of_mem _ hp)

/-- What every step keeps holds at the end of every run. -/
theorem run_invariant_of_step {P : σ → Prop} {s : σ} (as : List α) (start : P s)
    (keep : ∀ s a, P s → P (step s a)) : P (run step s as) :=
  run_invariant step start fun p _ => keep p.1 p.2

section Simulation

variable {β : Type} {step' : τ → β → τ} {f : σ → τ} {g : α → β}

/-- Where a step is a step of another machine, a run is one of its runs. -/
theorem run_map (simulates : ∀ s a, f (step s a) = step' (f s) (g a)) (s : σ) (as : List α) :
    run step' (f s) (as.map g) = f (run step s as) := by
  induction as generalizing s with
  | nil => rfl
  | cons a as ih => rw [List.map_cons, run_cons, run_cons, ← simulates, ih]

theorem trail_map (simulates : ∀ s a, f (step s a) = step' (f s) (g a)) (s : σ) (as : List α) :
    trail step' (f s) (as.map g) = (trail step s as).map fun p => (f p.1, g p.2) := by
  induction as generalizing s with
  | nil => rfl
  | cons a as ih => rw [List.map_cons, trail, trail, List.map_cons, ← simulates, ih]

end Simulation

theorem trail_of_isPrefix {s : σ} {bs as : List α} (h : bs <+: as) {p : σ × α}
    (hp : p ∈ trail step s bs) : p ∈ trail step s as := by
  obtain ⟨cs, rfl⟩ := h
  rw [trail_append]
  exact List.mem_append_left _ hp

/-- Where a step keeps `P` and has `D` exactly when it has `C`, `P` holds all along a run and `D` of
every step of it exactly when every step has `C`.  `W` is an invariant of all steps. -/
theorem always_step_iff {P W : σ → Prop} {C D : σ → α → Prop} {s : σ} (as : List α) (hW : W s)
    (hP : P s) (stepW : ∀ s a, W s → W (step s a))
    (exact_step : ∀ s a, W s → P s → (P (step s a) ∧ D s a ↔ C s a)) :
    ((∀ bs, bs <+: as → P (run step s bs)) ∧ ∀ p ∈ trail step s as, D p.1 p.2) ↔
      ∀ p ∈ trail step s as, C p.1 p.2 := by
  have hinvariant := fun bs => run_invariant_of_step step bs hW stepW
  constructor
  · rintro ⟨h, hD⟩ ⟨t, a⟩ hp
    obtain ⟨bs, cs, rfl, rfl⟩ := exists_append_of_mem_trail step hp
    have hafter := h (bs ++ [a]) ⟨cs, by simp⟩
    rw [run_snoc] at hafter
    exact (exact_step _ a (hinvariant bs) (h bs ⟨_, rfl⟩)).1 ⟨hafter, hD _ hp⟩
  · intro h
    have hall : ∀ bs, bs <+: as → P (run step s bs) := by
      intro bs hbs
      have hboth := run_invariant step (P := fun s => W s ∧ P s) ⟨hW, hP⟩ fun p hp hkeep =>
        ⟨stepW p.1 p.2 hkeep.1, ((exact_step p.1 p.2 hkeep.1 hkeep.2).2
          (h p (trail_of_isPrefix step hbs hp))).1⟩
      exact hboth.2
    refine ⟨hall, ?_⟩
    rintro ⟨t, a⟩ hp
    obtain ⟨bs, cs, rfl, rfl⟩ := exists_append_of_mem_trail step hp
    exact ((exact_step _ a (hinvariant bs) (hall bs ⟨_, rfl⟩)).2 (h _ hp)).2

/-- Where a step with `C` keeps `P` and a step that keeps `P` has `C`, `P` holds all along a run
exactly when every step of the run has `C`.  `W` is an invariant of all steps. -/
theorem always_iff {P W : σ → Prop} {C : σ → α → Prop} {s : σ} (as : List α) (hW : W s)
    (hP : P s) (stepW : ∀ s a, W s → W (step s a))
    (keep : ∀ s a, W s → P s → C s a → P (step s a))
    (clean : ∀ s a, W s → P s → P (step s a) → C s a) :
    (∀ bs, bs <+: as → P (run step s bs)) ↔ ∀ p ∈ trail step s as, C p.1 p.2 := by
  have h := always_step_iff step (D := fun _ _ => True) as hW hP stepW fun s a hs hp =>
    ⟨fun hstep => clean s a hs hp hstep.1, fun hc => ⟨keep s a hs hp hc, trivial⟩⟩
  simpa using h

/-- The state does not depend on what is carried beside it. -/
theorem run_shadow (f : σ → α → τ → τ) (p : σ × τ) (as : List α) :
    (run (shadow step f) p as).1 = run step p.1 as := by
  induction as generalizing p with
  | nil => rfl
  | cons a as ih => exact ih (shadow step f p a)

theorem trail_shadow (f : σ → α → τ → τ) (p : σ × τ) (as : List α) :
    (trail (shadow step f) p as).map (fun q => (q.1.1, q.2)) = trail step p.1 as := by
  induction as generalizing p with
  | nil => rfl
  | cons a as ih => exact congrArg ((p.1, a) :: ·) (ih (shadow step f p a))

/-- `always_iff` for a property that also looks at what is carried beside the state. -/
theorem always_shadow_iff {f : σ → α → τ → τ} {P W : σ → τ → Prop} {C : σ → α → Prop} {s : σ}
    {x : τ} (as : List α) (hW : W s x) (hP : P s x)
    (stepW : ∀ s a x, W s x → W (step s a) (f s a x))
    (keep : ∀ s a x, W s x → P s x → C s a → P (step s a) (f s a x))
    (clean : ∀ s a x, W s x → P s x → P (step s a) (f s a x) → C s a) :
    (∀ bs, bs <+: as → P (run step s bs) (run (shadow step f) (s, x) bs).2) ↔
      ∀ p ∈ trail step s as, C p.1 p.2 := by
  have h := always_iff (shadow step f) (P := fun p => P p.1 p.2) (W := fun p => W p.1 p.2)
    (C := fun p => C p.1) (s := (s, x)) as hW hP (fun p a => stepW p.1 a p.2)
    (fun p a => keep p.1 a p.2) fun p a => clean p.1 a p.2
  simp only [run_shadow] at h
  rw [h, ← trail_shadow step f (s, x) as]
  simp only [List.forall_mem_map]

end Amana.Lib.Machine
