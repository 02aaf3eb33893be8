import Amana.Lib.Jobs

/-!
# Notes beside the data

What the workers of a world ask is noted beside the data they share.  Other than a record that is
part of the data (`Service.watch`), a note also knows the call a worker is working on.
-/

namespace Amana.Lib.Jobs

variable {Op : Type} {Ans : Op → Type} {C S In Ext α τ : Type}

/-- The call worker `i` is working on, and what it waits for. -/
def World.waiting (w : World C Ans S α) (i : Nat) : Option (C × Op) :=
  match w.workers[i]? with
  | some (c, some (.ask op _)) => some (c, op)
  | _ => none

variable (svc : Service C Ans S In Ext α) (note : C → Nat → (op : Op) → In → S → τ → τ)

/-- What is noted of a step. -/
def World.noted (w : World C Ans S α) : Activity C In Ext → τ → τ
  | .advance i input, t =>
    match w.waiting i with
    | some (c, op) => note c i op input w.shared t
    | none => t
  | _, t => t

/-- A step of a world with its notes. -/
abbrev stepNoted : World C Ans S α × τ → Activity C In Ext → World C Ans S α × τ :=
  Machine.shadow (step svc) (World.noted note)

/-- How worker `i` is answered, and what is noted. -/
def Service.answer (c : C) (i : Nat) (op : Op) (input : In) (s : S × τ) : Ans op × S × τ :=
  ((svc.serve i op input s.1).1, (svc.serve i op input s.1).2, note c i op input s.1 s.2)

/-- What every worker asks is `G`, provided that the others keep what it relies on. -/
def DoesNoted (R : Nat → S × τ → S × τ → Prop) (G : Nat → Op → In → S × τ → Prop)
    (p : World C Ans S α × τ) : Prop :=
  ∀ (i : Nat) c (job : Job Ans α), p.1.workers[i]? = some (c, some job) →
    Does (svc.answer note c i) (R i) (fun _ _ _ => True) (G i) (fun _ _ => True) job
      (p.1.shared, p.2)

variable {svc note} {w : World C Ans S α} {p : World C Ans S α × τ} {a : Activity C In Ext}
  {i : Nat} {c : C} {op : Op} {input : In} {next : Ans op → Job Ans α}

theorem World.waiting_eq (found : w.workers[i]? = some (c, some (.ask op next))) :
    w.waiting i = some (c, op) := by
  rw [World.waiting, found]

theorem World.exists_of_waiting (h : w.waiting i = some (c, op)) :
    ∃ next, w.workers[i]? = some (c, some (.ask op next)) := by
  unfold World.waiting at h
  split at h
  · cases h
    exact ⟨_, ‹_›⟩
  · cases h

theorem step_of_idle (h : w.waiting i = none) : step svc w (.advance i input) = w := by
  unfold World.waiting at h
  rw [step]
  split
  · rename_i found
    rw [found] at h
    cases h
  · rfl

/-- The notes make no difference to a run. -/
theorem run_noted (p : World C Ans S α × τ) (as : List (Activity C In Ext)) :
    (Machine.run (stepNoted svc note) p as).1 = run svc p.1 as :=
  Machine.run_shadow (step svc) (World.noted note) p as

variable (svc note) in
/-- What a step does to a world and its notes. -/
theorem stepNoted_cases (p : World C Ans S α × τ) (a : Activity C In Ext) :
    stepNoted svc note p a = p ∨
      ((∀ i input, a ≠ .advance i input) ∧ (stepNoted svc note p a).2 = p.2 ∧
          Moves svc p.1 (stepNoted svc note p a).1 a) ∨
        ∃ i input c op next, a = .advance i input ∧
          p.1.workers[i]? = some (c, some (.ask op next)) ∧
          (stepNoted svc note p a).1.workers =
            p.1.workers.set i (c, some (next (svc.serve i op input p.1.shared).1)) ∧
          ((stepNoted svc note p a).1.shared, (stepNoted svc note p a).2) =
            (svc.answer note c i op input (p.1.shared, p.2)).2 := by
  cases a with
  | call c => exact .inr (.inl ⟨nofun, rfl, .call c rfl rfl⟩)
  | outside e => exact .inr (.inl ⟨nofun, rfl, .outside e rfl rfl⟩)
  | crash i =>
    obtain hsame | hmoves := step_moves svc p.1 (.crash i)
    · exact .inl (Prod.ext hsame rfl)
    · exact .inr (.inl ⟨nofun, rfl, hmoves⟩)
  | advance i input =>
    cases hwaits : p.1.waiting i with
    | none =>
      refine .inl (Prod.ext (step_of_idle hwaits) ?_)
      simp [Machine.shadow, World.noted, hwaits]
    | some waits =>
      obtain ⟨c, op⟩ := waits
      obtain ⟨next, found⟩ := World.exists_of_waiting hwaits
      refine .inr (.inr ⟨i, input, c, op, next, rfl, found, ?_, ?_⟩)
      · simp [Machine.shadow, step, found]
      · simp [Machine.shadow, step, found, World.noted, hwaits, Service.answer]

variable {R : Nat → S × τ → S × τ → Prop} {G : Nat → Op → In → S × τ → Prop}

theorem doesNoted_fresh (s : S) (t : τ) : DoesNoted svc note R G (.fresh s, t) := by
  intro i c job found
  simp [World.fresh] at found

theorem DoesNoted.asked (onward : ∀ i, Onward (R i)) (does : DoesNoted svc note R G p)
    (found : p.1.workers[i]? = some (c, some (.ask op next))) (input : In) :
    G i op input (p.1.shared, p.2) :=
  (does i c _ found _ ((onward i).refl _) input trivial).1

/-- Where what is `G` keeps what the others rely on, every worker goes on to ask what is `G`. -/
theorem DoesNoted.step (onward : ∀ i, Onward (R i)) (does : DoesNoted svc note R G p)
    (apart : ∀ c i op input s, G i op input s → ∀ j, j ≠ i → R j s (svc.answer note c i op input s).2)
    (drifts : ∀ e j, a = .outside e → R j (p.1.shared, p.2) (svc.drift e p.1.shared, p.2))
    (begins : ∀ c i s, a = .call c →
      Does (svc.answer note c i) (R i) (fun _ _ _ => True) (G i) (fun _ _ => True) (svc.program c) s) :
    DoesNoted svc note R G (stepNoted svc note p a) := by
  obtain hsame | ⟨hother, hnotes, hmoves⟩ | ⟨i, input, c, op, next, -, found, workers, shared⟩ :=
    stepNoted_cases svc note p a
  · rwa [hsame]
  · generalize stepNoted svc note p a = q at hnotes hmoves
    intro j c' job found'
    rw [hnotes]
    cases hmoves with
    | call c workers same =>
      rw [workers] at found'
      rw [same]
      obtain ⟨-, hnew⟩ | hold := getElem?_append_cases found'
      · cases hnew
        exact begins _ j _ rfl
      · exact does j c' job hold
    | advance i input => exact absurd rfl (hother i input)
    | crash i c op next found workers same =>
      rw [workers] at found'
      rw [same]
      obtain ⟨-, hgone⟩ | ⟨-, hother⟩ := getElem?_set_cases found'
      · cases hgone
      · exact does j c' job hother
    | outside e workers shared =>
      rw [workers] at found'
      rw [shared]
      exact (does j c' job found').later (onward j) (fun _ _ => trivial) (drifts e j rfl)
  · obtain ⟨hasks, hnext⟩ := does i c _ found _ ((onward i).refl _) input trivial
    intro j c' job found'
    rw [shared]
    rw [workers] at found'
    obtain ⟨rfl, hmoved⟩ | ⟨hne, hother⟩ := getElem?_set_cases found'
    · cases hmoved
      exact hnext
    · exact (does j c' job hother).later (onward j) (fun _ _ => trivial)
        (apart c i op input _ hasks j (Ne.symm hne))

end Amana.Lib.Jobs
