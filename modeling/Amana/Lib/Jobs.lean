import Amana.Lib.Machine

/-!
# Calls on shared data

Workers answer calls side by side.  A call is worked on by a `Job`, which asks one thing after the
other of the data the workers share; what is asked is answered at once, and between two answers
anything else can happen: other workers go on, workers are gone, and the outside changes the data.

`Wp` is a rule of proof for one job at a time: what the job returns is as required, and everything
it asks keeps a relation `R` between the data before and after, provided that all the others keep
`R`.  `run_keeps` puts the jobs together.
-/

namespace Amana.Lib.Jobs

variable {Op : Type} {Ans : Op → Type} {C S In Ext α β : Type}

/-- What remains to be done for a call. -/
inductive Job {Op : Type} (Ans : Op → Type) (α : Type) : Type
  | done (a : α)
  | ask (op : Op) (next : Ans op → Job Ans α)

namespace Job

def bind : Job Ans α → (α → Job Ans β) → Job Ans β
  | .done a, f => f a
  | .ask op next, f => .ask op fun r => (next r).bind f

instance : Monad (Job Ans) where
  pure := .done
  bind := bind

@[simp] theorem pure_def (a : α) : (pure a : Job Ans α) = .done a := rfl

@[simp] theorem done_bind (a : α) (f : α → Job Ans β) : (Job.done a >>= f) = f a := rfl

@[simp] theorem ask_bind (op : Op) (next : Ans op → Job Ans α) (f : α → Job Ans β) :
    (Job.ask op next >>= f) = .ask op fun r => next r >>= f := rfl

/-- The result of a job that is done. -/
def result : Job Ans α → Option α
  | .done a => some a
  | .ask _ _ => none

end Job

/-- How calls are worked on, how the shared data answers a worker, and how the outside changes it.
`In` is what else an answer depends on. -/
structure Service (C : Type) (Ans : Op → Type) (S In Ext α : Type) where
  program : C → Job Ans α
  serve : Nat → (op : Op) → In → S → Ans op × S
  drift : Ext → S → S

/-- The shared data, and the workers: each with its call and what remains to be done for it.
`none` stands for a worker that is gone. -/
structure World (C : Type) (Ans : Op → Type) (S α : Type) where
  shared : S
  workers : List (C × Option (Job Ans α))

inductive Activity (C In Ext : Type) : Type
  /-- A call comes in. -/
  | call (c : C)
  /-- Worker `i` gets its answer and goes on. -/
  | advance (i : Nat) (input : In)
  /-- Worker `i` is gone. -/
  | crash (i : Nat)
  | outside (e : Ext)

variable (svc : Service C Ans S In Ext α)

def step (w : World C Ans S α) : Activity C In Ext → World C Ans S α
  | .call c => { w with workers := w.workers ++ [(c, some (svc.program c))] }
  | .advance i input =>
    match w.workers[i]? with
    | some (c, some (.ask op next)) =>
      let r := svc.serve i op input w.shared
      ⟨r.2, w.workers.set i (c, some (next r.1))⟩
    | _ => w
  | .crash i =>
    match w.workers[i]? with
    | some (c, some (.ask _ _)) => { w with workers := w.workers.set i (c, none) }
    | _ => w
  | .outside e => { w with shared := svc.drift e w.shared }

abbrev run (w : World C Ans S α) (as : List (Activity C In Ext)) : World C Ans S α :=
  Machine.run (step svc) w as

abbrev trail (w : World C Ans S α) (as : List (Activity C In Ext)) :
    List (World C Ans S α × Activity C In Ext) :=
  Machine.trail (step svc) w as

/-- What worker `i` has returned. -/
def World.result (w : World C Ans S α) (i : Nat) : Option α :=
  w.workers[i]?.bind fun p => p.2.bind Job.result

/-- The call of worker `i`. -/
def World.call (w : World C Ans S α) (i : Nat) : Option C := w.workers[i]?.map Prod.fst

/-- Nothing has happened yet. -/
def World.fresh (s : S) : World C Ans S α := ⟨s, []⟩

/-! ## Workers -/

section Workers

variable {svc} {w : World C Ans S α} {a : Activity C In Ext} {i : Nat} {c : C}

/-- A worker that has returned is done. -/
theorem World.exists_done_of_result {r : α} (returned : w.result i = some r) :
    ∃ c, w.workers[i]? = some (c, some (.done r)) := by
  unfold World.result at returned
  obtain ⟨⟨c, job⟩, hworker, hjob⟩ := Option.bind_eq_some_iff.1 returned
  match job with
  | none => cases hjob
  | some (.ask _ _) => cases hjob
  | some (.done r') =>
    obtain rfl : r' = r := Option.some.inj hjob
    exact ⟨c, hworker⟩

theorem World.done_of_result {r : α} (called : w.call i = some c) (returned : w.result i = some r) :
    w.workers[i]? = some (c, some (.done r)) := by
  obtain ⟨c', hdone⟩ := World.exists_done_of_result returned
  rw [World.call, hdone] at called
  cases called
  exact hdone

/-- What a step does to the worker it is about. -/
inductive Moves (svc : Service C Ans S In Ext α) (w w' : World C Ans S α) :
    Activity C In Ext → Prop
  | call (c : C) (workers : w'.workers = w.workers ++ [(c, some (svc.program c))])
      (same : w'.shared = w.shared) : Moves svc w w' (.call c)
  | advance (i : Nat) (input : In) (c : C) (op : Op) (next : Ans op → Job Ans α)
      (found : w.workers[i]? = some (c, some (.ask op next)))
      (workers : w'.workers = w.workers.set i (c, some (next (svc.serve i op input w.shared).1)))
      (shared : w'.shared = (svc.serve i op input w.shared).2) : Moves svc w w' (.advance i input)
  | crash (i : Nat) (c : C) (op : Op) (next : Ans op → Job Ans α)
      (found : w.workers[i]? = some (c, some (.ask op next)))
      (workers : w'.workers = w.workers.set i (c, none)) (same : w'.shared = w.shared) :
      Moves svc w w' (.crash i)
  | outside (e : Ext) (workers : w'.workers = w.workers) (shared : w'.shared = svc.drift e w.shared) :
      Moves svc w w' (.outside e)

/-- A step moves the worker it is about, or nothing happens. -/
theorem step_moves (svc : Service C Ans S In Ext α) (w : World C Ans S α)
    (a : Activity C In Ext) : step svc w a = w ∨ Moves svc w (step svc w a) a := by
  cases a with
  | call c => exact .inr (.call c rfl rfl)
  | advance i input =>
    cases found : w.workers[i]? with
    | none => exact .inl (by simp [step, found])
    | some p =>
      obtain ⟨c, _ | _ | ⟨op, next⟩⟩ := p
      · exact .inl (by simp [step, found])
      · exact .inl (by simp [step, found])
      · exact .inr (.advance i input c op next found (by simp [step, found])
          (by simp [step, found]))
  | crash i =>
    cases found : w.workers[i]? with
    | none => exact .inl (by simp [step, found])
    | some p =>
      obtain ⟨c, _ | _ | ⟨op, next⟩⟩ := p
      · exact .inl (by simp [step, found])
      · exact .inl (by simp [step, found])
      · exact .inr (.crash i c op next found (by simp [step, found]) (by simp [step, found]))
  | outside e => exact .inr (.outside e rfl rfl)

/-- What holds of a worker after `set`: it is the one that moved, or it is as it was. -/
theorem getElem?_set_cases {i j : Nat} {p q : C × Option (Job Ans α)}
    (h : (w.workers.set i p)[j]? = some q) :
    i = j ∧ q = p ∨ i ≠ j ∧ w.workers[j]? = some q := by
  by_cases hij : i = j
  · subst hij
    rw [List.getElem?_set] at h
    split at h
    · split at h
      · exact .inl ⟨rfl, (Option.some.inj h).symm⟩
      · cases h
    · exact absurd rfl ‹_›
  · rw [List.getElem?_set_ne hij] at h
    exact .inr ⟨hij, h⟩

theorem getElem?_append_cases {j : Nat} {p q : C × Option (Job Ans α)}
    (h : (w.workers ++ [p])[j]? = some q) :
    j = w.workers.length ∧ q = p ∨ w.workers[j]? = some q := by
  rcases Nat.lt_trichotomy j w.workers.length with hlt | heq | hgt
  · rw [List.getElem?_append_left hlt] at h
    exact .inr h
  · subst heq
    rw [List.getElem?_append_right (Nat.le_refl _), Nat.sub_self] at h
    exact .inl ⟨rfl, (Option.some.inj h).symm⟩
  · rw [List.getElem?_append_right (by omega), List.getElem?_eq_none (by simp; omega)] at h
    cases h

/-- What the answers and the outside keep of the shared data holds after a step. -/
theorem shared_step {P : S → Prop} (h : P w.shared)
    (answers : ∀ i input c op next, a = .advance i input →
      w.workers[i]? = some (c, some (.ask op next)) → P (svc.serve i op input w.shared).2)
    (drifts : ∀ e, a = .outside e → P (svc.drift e w.shared)) : P (step svc w a).shared := by
  obtain hsame | hmoves := step_moves svc w a
  · rwa [hsame]
  generalize step svc w a = w' at hmoves
  cases hmoves with
  | call c workers same | crash i c op next found workers same => rwa [same]
  | advance i input c op next found workers shared =>
    rw [shared]
    exact answers i input c op next rfl found
  | outside e workers shared =>
    rw [shared]
    exact drifts e rfl

/-- What a step does to the data beside worker `j`. -/
inductive Beside (svc : Service C Ans S In Ext α) (w w' : World C Ans S α) (j : Nat) :
    Activity C In Ext → Prop
  | nothing (a : Activity C In Ext) (same : w'.shared = w.shared) : Beside svc w w' j a
  | answered (i : Nat) (input : In) (c : C) (op : Op) (next : Ans op → Job Ans α) (other : j ≠ i)
      (found : w.workers[i]? = some (c, some (.ask op next)))
      (shared : w'.shared = (svc.serve i op input w.shared).2) : Beside svc w w' j (.advance i input)
  | outside (e : Ext) (shared : w'.shared = svc.drift e w.shared) : Beside svc w w' j (.outside e)

/-- What holds of the jobs after a step: it has to hold of a new one, of the one that goes on, and of
those beside it. -/
theorem jobs_step {P : Nat → C → Job Ans α → Prop}
    (begins : ∀ c, a = .call c → (step svc w a).shared = w.shared →
      P w.workers.length c (svc.program c))
    (goes : ∀ i input c op next, a = .advance i input →
      w.workers[i]? = some (c, some (.ask op next)) →
      (step svc w a).shared = (svc.serve i op input w.shared).2 →
      P i c (next (svc.serve i op input w.shared).1))
    (stays : ∀ j c job, w.workers[j]? = some (c, some job) → Beside svc w (step svc w a) j a →
      P j c job) :
    ∀ (j : Nat) (c : C) (job : Job Ans α), (step svc w a).workers[j]? = some (c, some job) →
      P j c job := by
  obtain hsame | hmoves := step_moves svc w a
  · intro j c job found'
    rw [hsame] at found'
    exact stays j c job found' (.nothing a (by rw [hsame]))
  generalize step svc w a = w' at begins goes stays hmoves
  intro j c' job found'
  cases hmoves with
  | call c workers same =>
    rw [workers] at found'
    obtain ⟨rfl, hnew⟩ | hold := getElem?_append_cases found'
    · cases hnew
      exact begins _ rfl same
    · exact stays j c' job hold (.nothing _ same)
  | advance i input c op next found workers shared =>
    rw [workers] at found'
    obtain ⟨rfl, hmoved⟩ | ⟨hij, hother⟩ := getElem?_set_cases found'
    · cases hmoved
      exact goes i input _ op next rfl found shared
    · exact stays j c' job hother (.answered i input c op next (Ne.symm hij) found shared)
  | crash i c op next found workers same =>
    rw [workers] at found'
    obtain ⟨-, hgone⟩ | ⟨-, hother⟩ := getElem?_set_cases found'
    · cases hgone
    · exact stays j c' job hother (.nothing _ same)
  | outside e workers shared =>
    rw [workers] at found'
    exact stays j c' job found' (.outside e shared)

/-- A worker is there before a step, or the step is its call. -/
theorem call_step (h : (step svc w a).call i = some c) : w.call i = some c ∨ a = .call c := by
  obtain hsame | hmoves := step_moves svc w a
  · rw [hsame] at h
    exact .inl h
  generalize step svc w a = w' at h hmoves
  obtain ⟨p, hp, rfl⟩ := Option.map_eq_some_iff.1 h
  cases hmoves with
  | call c workers same =>
    rw [workers] at hp
    obtain ⟨-, rfl⟩ | hold := getElem?_append_cases hp
    · exact .inr rfl
    · exact .inl (by rw [World.call, hold]; rfl)
  | advance j input c op next found workers shared =>
    rw [workers] at hp
    obtain ⟨rfl, rfl⟩ | ⟨-, hold⟩ := getElem?_set_cases hp
    · exact .inl (by rw [World.call, found]; rfl)
    · exact .inl (by rw [World.call, hold]; rfl)
  | crash j c op next found workers same =>
    rw [workers] at hp
    obtain ⟨rfl, rfl⟩ | ⟨-, hold⟩ := getElem?_set_cases hp
    · exact .inl (by rw [World.call, found]; rfl)
    · exact .inl (by rw [World.call, hold]; rfl)
  | outside e workers shared =>
    rw [workers] at hp
    exact .inl (by rw [World.call, hp]; rfl)

/-- A worker that is done, or gone, stays so. -/
theorem settled_step {p : C × Option (Job Ans α)} (h : w.workers[i]? = some p)
    (settled : ∀ op next, p.2 ≠ some (.ask op next)) : (step svc w a).workers[i]? = some p := by
  obtain hsame | hmoves := step_moves svc w a
  · rw [hsame]
    exact h
  have hother {j : Nat} {c : C} {op : Op} {next : Ans op → Job Ans α}
      (found : w.workers[j]? = some (c, some (.ask op next))) : j ≠ i := by
    rintro rfl
    cases h.symm.trans found
    exact settled op next rfl
  generalize step svc w a = w' at hmoves
  cases hmoves with
  | call c' workers same =>
    rw [workers, List.getElem?_append_left (List.getElem?_eq_some_iff.1 h).1]
    exact h
  | advance j input c' op next found workers shared =>
    rw [workers, List.getElem?_set_ne (hother found)]
    exact h
  | crash j c' op next found workers same =>
    rw [workers, List.getElem?_set_ne (hother found)]
    exact h
  | outside e workers shared =>
    rw [workers]
    exact h

/-- What a worker has returned stays. -/
theorem done_step {r : α} (h : w.workers[i]? = some (c, some (.done r))) :
    (step svc w a).workers[i]? = some (c, some (.done r)) := by
  apply settled_step h
  intro op next
  nofun

/-- What a worker has returned stays. -/
theorem done_run {r : α} (as : List (Activity C In Ext))
    (h : w.workers[i]? = some (c, some (.done r))) :
    (run svc w as).workers[i]? = some (c, some (.done r)) := by
  induction as generalizing w with
  | nil => exact h
  | cons a as ih => exact ih (done_step h)

/-- A worker that is gone. -/
def World.gone (w : World C Ans S α) (i : Nat) : Bool := w.workers[i]?.any fun p => p.2.isNone

theorem World.gone_iff : w.gone i = true ↔ ∃ c, w.workers[i]? = some (c, none) := by
  unfold World.gone
  constructor
  · intro h
    match hworker : w.workers[i]? with
    | none => simp [hworker] at h
    | some (c, none) => exact ⟨c, rfl⟩
    | some (c, some job) => simp [hworker] at h
  · rintro ⟨c, hworker⟩
    rw [hworker]
    rfl

theorem World.gone_eq_false {job : Job Ans α} (h : w.workers[i]? = some (c, some job)) :
    w.gone i = false := by
  rw [gone, h]
  rfl

/-- A worker that is gone does not come back. -/
theorem World.here_of_step (h : (step svc w a).gone i = false) : w.gone i = false := by
  rw [← Bool.not_eq_true, World.gone_iff] at h ⊢
  rintro ⟨c, hworker⟩
  refine h ⟨c, settled_step hworker ?_⟩
  intro op next
  nofun

end Workers

/-! ## A record of what is asked -/

section Watch

variable {τ : Type} (record : Nat → (op : Op) → In → S → τ → τ)

/-- The service with a record of what the workers ask.  Nothing looks at it. -/
def Service.watch : Service C Ans (S × τ) In Ext α where
  program := svc.program
  serve i op input s :=
    ((svc.serve i op input s.1).1, (svc.serve i op input s.1).2, record i op input s.1 s.2)
  drift e s := (svc.drift e s.1, s.2)

/-- The world without the record. -/
def World.unwatched (w : World C Ans (S × τ) α) : World C Ans S α := ⟨w.shared.1, w.workers⟩

theorem step_watch (w : World C Ans (S × τ) α) (a : Activity C In Ext) :
    (step (svc.watch record) w a).unwatched = step svc w.unwatched a := by
  cases a with
  | call c => rfl
  | advance i input =>
    simp only [step, World.unwatched]
    split <;> rfl
  | crash i =>
    simp only [step, World.unwatched]
    split <;> rfl
  | outside e => rfl

/-- The record makes no difference to a run. -/
theorem run_watch (w : World C Ans (S × τ) α) (as : List (Activity C In Ext)) :
    (run (svc.watch record) w as).unwatched = run svc w.unwatched as := by
  induction as generalizing w with
  | nil => rfl
  | cons a as ih =>
    show (run (svc.watch record) (step (svc.watch record) w a) as).unwatched = _
    rw [ih, step_watch]
    rfl

end Watch

/-! ## Jobs whose answers do not matter -/

section Yields

variable {ε : Type} {job : Job Ans α} {Φ Φ' : α → Prop}

/-- Whatever is answered, what the job returns has `Φ`. -/
def Job.Yields (Φ : α → Prop) : Job Ans α → Prop
  | .done a => Φ a
  | .ask _ next => ∀ r, (next r).Yields Φ

theorem yields_of_forall (h : ∀ a, Φ a) (job : Job Ans α) : job.Yields Φ := by
  induction job with
  | done a => exact h a
  | ask op next ih => exact ih

theorem Job.Yields.mono (h : job.Yields Φ) (weaker : ∀ a, Φ a → Φ' a) : job.Yields Φ' := by
  induction job with
  | done a => exact weaker a h
  | ask op next ih => exact fun r => ih r (h r)

theorem yields_bind {f : α → Job Ans β} {Ψ : β → Prop} :
    (job >>= f).Yields Ψ ↔ job.Yields fun a => (f a).Yields Ψ := by
  induction job with
  | done a => rfl
  | ask op next ih => exact forall_congr' fun r => ih r

theorem yields_map {f : α → β} {Ψ : β → Prop} : (f <$> job).Yields Ψ ↔ job.Yields fun a => Ψ (f a) :=
  yields_bind (f := fun a => .done (f a))

/-- What is required of a job that raises no error. -/
def IfOk (P : α → Prop) : Except ε α → Prop
  | .ok a => P a
  | .error _ => True

/-- Only what comes after a job decides what is returned. -/
theorem yields_then {x : ExceptT ε (Job Ans) α} {f : α → ExceptT ε (Job Ans) β} {P : β → Prop}
    (h : ∀ a, (f a).run.Yields (IfOk P)) : (x >>= f).run.Yields (IfOk P) := by
  show (x.run >>= ExceptT.bindCont f).Yields (IfOk P)
  apply yields_bind.2
  apply yields_of_forall
  rintro (e | a)
  · trivial
  · exact h a

theorem Job.Yields.except_bind {x : ExceptT ε (Job Ans) α} {f : α → ExceptT ε (Job Ans) β}
    {P : α → Prop} {Q : β → Prop} (h : x.run.Yields (IfOk P))
    (hf : ∀ a, P a → (f a).run.Yields (IfOk Q)) : (x >>= f).run.Yields (IfOk Q) := by
  show (x.run >>= ExceptT.bindCont f).Yields (IfOk Q)
  apply yields_bind.2
  apply h.mono
  rintro (e | a) ha
  · trivial
  · exact hf a ha

theorem Job.Yields.tryCatch {x : ExceptT ε (Job Ans) α} {f : ε → ExceptT ε (Job Ans) α}
    {P : α → Prop} (h : x.run.Yields (IfOk P)) (hf : ∀ e, (f e).run.Yields (IfOk P)) :
    (tryCatch x f).run.Yields (IfOk P) := by
  apply yields_bind.2
  apply h.mono
  rintro (e | a) ha
  · exact hf e
  · exact ha

/-- What the workers of a world will return. -/
def World.Yields (Φ : C → α → Prop) (w : World C Ans S α) : Prop :=
  ∀ (i : Nat) c (job : Job Ans α), w.workers[i]? = some (c, some job) → job.Yields (Φ c)

/-- The workers go on to return what the programs do. -/
theorem World.Yields.step {Φ : C → α → Prop} {w : World C Ans S α}
    (programs : ∀ c, (svc.program c).Yields (Φ c)) (h : w.Yields Φ) (a : Activity C In Ext) :
    (step svc w a).Yields Φ :=
  jobs_step (fun c _ _ => programs c) (fun i _ c _ _ _ found _ => h i c _ found _)
    fun j c job found _ => h j c job found

end Yields

/-! ## A job alone -/

section Alone

variable (serve : (op : Op) → In → S → Ans op × S)

/-- A job that is worked on alone.  There is an input for every answer; where there are no more, the
job is cut off. -/
def Job.alone : Job Ans α → List In → S → Option α × S
  | .done a, _, s => (some a, s)
  | .ask _ _, [], s => (none, s)
  | .ask op next, input :: inputs, s =>
    Job.alone (next (serve op input s).1) inputs (serve op input s).2

end Alone

/-! ## What a job asks -/

section Does

/-- The rules below are about relations that a run can go along. -/
structure Onward (R : S → S → Prop) : Prop where
  refl : ∀ s, R s s
  trans : ∀ {s s' s''}, R s s' → R s' s'' → R s s''

/-- Whatever the others do along `R`, what the job asks is `G`, and what it returns is `Φ`.  Only what
is `allowed` is answered. -/
def Does (serve : (op : Op) → In → S → Ans op × S) (R : S → S → Prop)
    (allowed G : Op → In → S → Prop) (Φ : α → S → Prop) : Job Ans α → S → Prop
  | .done a, s => Φ a s
  | .ask op next, s => ∀ s', R s s' → ∀ input, allowed op input s' →
      G op input s' ∧ Does serve R allowed G Φ (next (serve op input s').1) (serve op input s').2

variable {serve : (op : Op) → In → S → Ans op × S} {R : S → S → Prop}
  {allowed G : Op → In → S → Prop} {Φ Φ' : α → S → Prop} {s s' : S} {job : Job Ans α}

theorem does_bind {f : α → Job Ans β} {Ψ : β → S → Prop} :
    Does serve R allowed G Ψ (job >>= f) s ↔
      Does serve R allowed G (fun a s => Does serve R allowed G Ψ (f a) s) job s := by
  induction job generalizing s with
  | done a => rfl
  | ask op next ih =>
    refine forall_congr' fun s' => forall_congr' fun _ => forall_congr' fun input =>
      forall_congr' fun _ => ?_
    exact and_congr_right fun _ => ih (serve op input s').1

theorem Does.mono (h : Does serve R allowed G Φ job s) (weaker : ∀ a s, Φ a s → Φ' a s) :
    Does serve R allowed G Φ' job s := by
  induction job generalizing s with
  | done a => exact weaker a s h
  | ask op next ih =>
    intro s' hR input hallowed
    obtain ⟨hasks, hnext⟩ := h s' hR input hallowed
    exact ⟨hasks, ih _ hnext⟩

/-- A job that has been waiting while the others went along `R`. -/
theorem Does.later (onward : Onward R) (stable : ∀ a, Φ a s → Φ a s')
    (h : Does serve R allowed G Φ job s) (later : R s s') : Does serve R allowed G Φ job s' := by
  cases job with
  | done a => exact stable a h
  | ask op next => exact fun s'' later' => h s'' (onward.trans later later')

theorem does_map {f : α → β} {Ψ : β → S → Prop} :
    Does serve R allowed G Ψ (f <$> job) s ↔ Does serve R allowed G (fun a s => Ψ (f a) s) job s :=
  does_bind (f := fun a => .done (f a))

/-! Jobs that raise errors. -/

variable {ε : Type}

/-- What is required of a job that goes on with `f` where nothing is raised. -/
def Continues (Ψ : Except ε β → S → Prop) (f : α → S → Prop) : Except ε α → S → Prop
  | .ok a, s => f a s
  | .error e, s => Ψ (.error e) s

theorem does_except_bind {x : ExceptT ε (Job Ans) α} {f : α → ExceptT ε (Job Ans) β}
    {Ψ : Except ε β → S → Prop} :
    Does serve R allowed G Ψ (x >>= f).run s ↔
      Does serve R allowed G (Continues Ψ fun a s => Does serve R allowed G Ψ (f a).run s)
        x.run s := by
  show Does serve R allowed G Ψ (x.run >>= ExceptT.bindCont f) s ↔ _
  rw [does_bind]
  constructor
  · intro h
    apply h.mono
    rintro (e | a) s hs
    · exact hs
    · exact hs
  · intro h
    apply h.mono
    rintro (e | a) s hs
    · exact hs
    · exact hs

/-- What is required of a job whose errors are handled by `f`. -/
def Recovers (Ψ : Except ε α → S → Prop) (f : ε → S → Prop) : Except ε α → S → Prop
  | .ok a, s => Ψ (.ok a) s
  | .error e, s => f e s

theorem does_tryCatch {x : ExceptT ε (Job Ans) α} {f : ε → ExceptT ε (Job Ans) α}
    {Ψ : Except ε α → S → Prop} :
    Does serve R allowed G Ψ (tryCatch x f).run s ↔
      Does serve R allowed G (Recovers Ψ fun e s => Does serve R allowed G Ψ (f e).run s)
        x.run s := by
  refine does_bind.trans ?_
  constructor
  · intro h
    apply h.mono
    rintro (e | a) s hs
    · exact hs
    · exact hs
  · intro h
    apply h.mono
    rintro (e | a) s hs
    · exact hs
    · exact hs

/-- What is required of a job that raises no error. -/
def Returns (P : α → S → Prop) : Except ε α → S → Prop
  | .ok a, s => P a s
  | .error _, _ => True

theorem does_returns_bind {x : ExceptT ε (Job Ans) α} {f : α → ExceptT ε (Job Ans) β}
    {P : β → S → Prop} :
    Does serve R allowed G (Returns P) (x >>= f).run s ↔
      Does serve R allowed G (Returns fun a s => Does serve R allowed G (Returns P) (f a).run s)
        x.run s := by
  refine does_except_bind.trans ?_
  constructor
  · intro h
    apply h.mono
    rintro (e | a) s hs
    · trivial
    · exact hs
  · intro h
    apply h.mono
    rintro (e | a) s hs
    · trivial
    · exact hs

/-- Errors that are replaced by errors. -/
theorem Does.returns_tryCatch {x : ExceptT ε (Job Ans) α} {f : ε → ExceptT ε (Job Ans) α}
    {P : α → S → Prop} (h : Does serve R allowed G (Returns P) x.run s)
    (raises : ∀ e, ∃ e', f e = throw e') :
    Does serve R allowed G (Returns P) (tryCatch x f).run s := by
  apply does_tryCatch.2
  apply h.mono
  rintro (e | a) s' hs
  · obtain ⟨e', he'⟩ := raises e
    show Does serve R allowed G _ (f e).run s'
    rw [he']
    trivial
  · exact hs

/-- What every worker asks is `G`, provided that the others keep what it relies on. -/
def World.Does (svc : Service C Ans S In Ext α) (R : Nat → S → S → Prop)
    (allowed : C → Op → In → S → Prop) (G : Nat → C → Op → In → S → Prop)
    (Φ : Nat → C → α → S → Prop) (w : World C Ans S α) : Prop :=
  ∀ (i : Nat) c (job : Job Ans α), w.workers[i]? = some (c, some job) →
    Jobs.Does (svc.serve i) (R i) (allowed c) (G i c) (Φ i c) job w.shared

end Does

/-! ## What a job waits for -/

section Poses

/-- Whatever happens in between, what the job asks is `Q` when it begins to wait for the answer, and
what it returns is `Φ`.  Only what is `allowed` is answered. -/
def Poses (serve : (op : Op) → In → S → Ans op × S) (allowed : Op → In → S → Prop)
    (Q : Op → S → Prop) (Φ : α → S → Prop) : Job Ans α → S → Prop
  | .done a, s => Φ a s
  | .ask op next, s => Q op s ∧ ∀ s' input, allowed op input s' →
      Poses serve allowed Q Φ (next (serve op input s').1) (serve op input s').2

variable {serve : (op : Op) → In → S → Ans op × S} {allowed : Op → In → S → Prop}
  {Q : Op → S → Prop} {Φ Φ' : α → S → Prop} {s s' : S} {job : Job Ans α}

theorem poses_bind {f : α → Job Ans β} {Ψ : β → S → Prop} :
    Poses serve allowed Q Ψ (job >>= f) s ↔
      Poses serve allowed Q (fun a s => Poses serve allowed Q Ψ (f a) s) job s := by
  induction job generalizing s with
  | done a => rfl
  | ask op next ih =>
    refine and_congr_right fun _ => forall_congr' fun s' => forall_congr' fun input =>
      forall_congr' fun _ => ?_
    exact ih (serve op input s').1

theorem Poses.mono (h : Poses serve allowed Q Φ job s) (weaker : ∀ a s, Φ a s → Φ' a s) :
    Poses serve allowed Q Φ' job s := by
  induction job generalizing s with
  | done a => exact weaker a s h
  | ask op next ih => exact ⟨h.1, fun s' input hallowed => ih _ (h.2 s' input hallowed)⟩

theorem poses_map {f : α → β} {Ψ : β → S → Prop} :
    Poses serve allowed Q Ψ (f <$> job) s ↔ Poses serve allowed Q (fun a s => Ψ (f a) s) job s :=
  poses_bind (f := fun a => .done (f a))

variable {ε : Type}

theorem poses_except_bind {x : ExceptT ε (Job Ans) α} {f : α → ExceptT ε (Job Ans) β}
    {Ψ : Except ε β → S → Prop} :
    Poses serve allowed Q Ψ (x >>= f).run s ↔
      Poses serve allowed Q (Continues Ψ fun a s => Poses serve allowed Q Ψ (f a).run s) x.run s := by
  show Poses serve allowed Q Ψ (x.run >>= ExceptT.bindCont f) s ↔ _
  rw [poses_bind]
  constructor
  · intro h
    apply h.mono
    rintro (e | a) s hs
    · exact hs
    · exact hs
  · intro h
    apply h.mono
    rintro (e | a) s hs
    · exact hs
    · exact hs

theorem poses_tryCatch {x : ExceptT ε (Job Ans) α} {f : ε → ExceptT ε (Job Ans) α}
    {Ψ : Except ε α → S → Prop} :
    Poses serve allowed Q Ψ (tryCatch x f).run s ↔
      Poses serve allowed Q (Recovers Ψ fun e s => Poses serve allowed Q Ψ (f e).run s) x.run s := by
  refine poses_bind.trans ?_
  constructor
  · intro h
    apply h.mono
    rintro (e | a) s hs
    · exact hs
    · exact hs
  · intro h
    apply h.mono
    rintro (e | a) s hs
    · exact hs
    · exact hs

/-- What the workers wait for. -/
def World.Poses (svc : Service C Ans S In Ext α) (allowed : Op → In → S → Prop) (Q : Op → S → Prop)
    (w : World C Ans S α) : Prop :=
  ∀ (i : Nat) c (job : Job Ans α), w.workers[i]? = some (c, some job) →
    Jobs.Poses (svc.serve i) allowed Q (fun _ _ => True) job w.shared

variable {svc : Service C Ans S In Ext α} {w : World C Ans S α} {a : Activity C In Ext}

theorem World.Poses.waits {i : Nat} {c : C} {op : Op} {next : Ans op → Job Ans α}
    (poses : w.Poses svc allowed Q) (found : w.workers[i]? = some (c, some (.ask op next))) :
    Q op w.shared := (poses i c _ found).1

/-- Where a step keeps what is waited for, the workers go on to wait for what is `Q`. -/
theorem World.Poses.step (poses : w.Poses svc allowed Q)
    (permits : ∀ i input c op (next : Ans op → Job Ans α), a = .advance i input →
      w.workers[i]? = some (c, some (.ask op next)) → allowed op input w.shared)
    (keeps : ∀ (i : Nat) c op (next : Ans op → Job Ans α),
      w.workers[i]? = some (c, some (.ask op next)) → Q op w.shared → Q op (step svc w a).shared)
    (begins : ∀ i c s, Jobs.Poses (svc.serve i) allowed Q (fun _ _ => True) (svc.program c) s) :
    (step svc w a).Poses svc allowed Q := by
  apply jobs_step
  · intro c _ _
    exact begins _ c _
  · intro i input c op next ha found shared
    rw [shared]
    exact (poses i c _ found).2 _ _ (permits i input c op next ha found)
  · -- A worker that is left alone waits for what it has waited for.
    intro j c job found _
    cases job with
    | done r => trivial
    | ask op next => exact ⟨keeps j c op next found (poses.waits found), (poses j c _ found).2⟩

end Poses

/-! ## What a job returns -/

section Rules

/-- Whatever the others do along `R`, what the job asks keeps `R` and what it returns is `Φ`.  Only
what is `allowed` is answered. -/
def Wp (serve : (op : Op) → In → S → Ans op × S) (R : S → S → Prop) (allowed : Op → In → S → Prop)
    (Φ : α → S → Prop) : Job Ans α → S → Prop
  | .done a, s => Φ a s
  | .ask op next, s => ∀ s', R s s' → ∀ input, allowed op input s' →
      R s' (serve op input s').2 ∧
        Wp serve R allowed Φ (next (serve op input s').1) (serve op input s').2

variable {serve : (op : Op) → In → S → Ans op × S} {R : S → S → Prop}
  {allowed : Op → In → S → Prop} {Φ Φ' : α → S → Prop} {s s' : S} {job : Job Ans α}

/-- What keeps `R` is what a job may ask. -/
theorem wp_eq_does : Wp serve R allowed Φ =
    Does serve R allowed (fun op input s => R s (serve op input s).2) Φ := by
  funext job s
  induction job generalizing s with
  | done a => rfl
  | ask op next ih => simp only [Wp, Does, ih]

theorem wp_bind {f : α → Job Ans β} {Ψ : β → S → Prop} :
    Wp serve R allowed Ψ (job >>= f) s ↔
      Wp serve R allowed (fun a s => Wp serve R allowed Ψ (f a) s) job s := by
  simp only [wp_eq_does]
  exact does_bind

theorem Wp.mono (h : Wp serve R allowed Φ job s) (weaker : ∀ a s, Φ a s → Φ' a s) :
    Wp serve R allowed Φ' job s := by
  rw [wp_eq_does] at h ⊢
  exact h.mono weaker

theorem wp_map {f : α → β} {Ψ : β → S → Prop} :
    Wp serve R allowed Ψ (f <$> job) s ↔ Wp serve R allowed (fun a s => Ψ (f a) s) job s :=
  wp_bind (f := fun a => .done (f a))

variable {ε : Type}

theorem wp_except_bind {x : ExceptT ε (Job Ans) α} {f : α → ExceptT ε (Job Ans) β}
    {Ψ : Except ε β → S → Prop} :
    Wp serve R allowed Ψ (x >>= f).run s ↔
      Wp serve R allowed (Continues Ψ fun a s => Wp serve R allowed Ψ (f a).run s) x.run s := by
  simp only [wp_eq_does]
  exact does_except_bind

theorem wp_tryCatch {x : ExceptT ε (Job Ans) α} {f : ε → ExceptT ε (Job Ans) α}
    {Ψ : Except ε α → S → Prop} :
    Wp serve R allowed Ψ (tryCatch x f).run s ↔
      Wp serve R allowed (Recovers Ψ fun e s => Wp serve R allowed Ψ (f e).run s) x.run s := by
  simp only [wp_eq_does]
  exact does_tryCatch

/-- A job that has been waiting while the others went along `R`. -/
theorem Wp.later (onward : Onward R) (stable : ∀ a, Φ a s → Φ a s')
    (h : Wp serve R allowed Φ job s) (later : R s s') : Wp serve R allowed Φ job s' := by
  rw [wp_eq_does] at h ⊢
  exact h.later onward stable later

/-- A job ends in a state that is further along `R`. -/
theorem Wp.reaches (onward : Onward R) {s₀ : S} (before : R s₀ s)
    (h : Wp serve R allowed Φ job s) :
    Wp serve R allowed (fun a s' => R s₀ s' ∧ Φ a s') job s := by
  induction job generalizing s with
  | done a => exact ⟨before, h⟩
  | ask op next ih =>
    intro s' hR input hallowed
    obtain ⟨hkeeps, hnext⟩ := h s' hR input hallowed
    exact ⟨hkeeps, ih _ (onward.trans (onward.trans before hR) hkeeps) hnext⟩

/-- Where everything that is allowed keeps `R`, so does every job. -/
theorem wp_of_keeps (keeps : ∀ op input s, allowed op input s → R s (serve op input s).2)
    (returns : ∀ a s, Φ a s) (job : Job Ans α) (s : S) : Wp serve R allowed Φ job s := by
  induction job generalizing s with
  | done a => exact returns a s
  | ask op next ih =>
    intro s' _ input hallowed
    exact ⟨keeps op input s' hallowed, ih _ _⟩

theorem wp_returns_bind {x : ExceptT ε (Job Ans) α} {f : α → ExceptT ε (Job Ans) β}
    {P : β → S → Prop} :
    Wp serve R allowed (Returns P) (x >>= f).run s ↔
      Wp serve R allowed (Returns fun a s => Wp serve R allowed (Returns P) (f a).run s)
        x.run s := by
  simp only [wp_eq_does]
  exact does_returns_bind

/-- Errors that are replaced by errors. -/
theorem Wp.returns_tryCatch {x : ExceptT ε (Job Ans) α} {f : ε → ExceptT ε (Job Ans) α}
    {P : α → S → Prop} (h : Wp serve R allowed (Returns P) x.run s)
    (raises : ∀ e, ∃ e', f e = throw e') :
    Wp serve R allowed (Returns P) (tryCatch x f).run s := by
  rw [wp_eq_does] at h ⊢
  exact h.returns_tryCatch raises

theorem Wp.and (h : Wp serve R allowed Φ job s) (h' : Wp serve R allowed Φ' job s) :
    Wp serve R allowed (fun a s => Φ a s ∧ Φ' a s) job s := by
  induction job generalizing s with
  | done a => exact ⟨h, h'⟩
  | ask op next ih =>
    intro s' hR input hallowed
    obtain ⟨hkeeps, hnext⟩ := h s' hR input hallowed
    exact ⟨hkeeps, ih _ hnext (h' s' hR input hallowed).2⟩

/-! ## Jobs whose results do not matter -/

/-- Whatever it returns, everything the job asks keeps `R`. -/
def Keeps (serve : (op : Op) → In → S → Ans op × S) (R : S → S → Prop)
    (allowed : Op → In → S → Prop) (job : Job Ans α) : Prop :=
  ∀ s, Wp serve R allowed (fun _ _ => True) job s

theorem keeps_done (a : α) : Keeps serve R allowed (.done a : Job Ans α) := fun _ => trivial

theorem Keeps.bind {f : α → Job Ans β} (h : Keeps serve R allowed job)
    (hf : ∀ a, Keeps serve R allowed (f a)) : Keeps serve R allowed (job >>= f) :=
  fun s => wp_bind.2 ((h s).mono fun a s' _ => hf a s')

/-- A job that keeps `R` ends further along it. -/
theorem Keeps.reaches (onward : Onward R) (h : Keeps serve R allowed job) (s : S) :
    Wp serve R allowed (fun _ s' => R s s') job s :=
  ((h s).reaches onward (onward.refl s)).mono fun _ _ hs => hs.1

/-- A job whose result does not matter goes before another one. -/
theorem Keeps.before {x : ExceptT ε (Job Ans) α} {f : α → ExceptT ε (Job Ans) β} {P : β → S → Prop}
    (onward : Onward R) (h : Keeps serve R allowed x.run)
    (hf : ∀ a s', R s s' → Wp serve R allowed (Returns P) (f a).run s') :
    Wp serve R allowed (Returns P) (x >>= f).run s := by
  apply wp_returns_bind.2
  apply (h.reaches onward s).mono
  rintro (e | a) s' hR
  · trivial
  · exact hf a s' hR

theorem Keeps.map {f : α → β} (h : Keeps serve R allowed job) :
    Keeps serve R allowed (f <$> job) := h.bind fun a => keeps_done (f a)

theorem Keeps.except_bind {x : ExceptT ε (Job Ans) α} {f : α → ExceptT ε (Job Ans) β}
    (h : Keeps serve R allowed x.run) (hf : ∀ a, Keeps serve R allowed (f a).run) :
    Keeps serve R allowed (x >>= f).run := by
  intro s
  apply wp_except_bind.2
  apply (h s).mono
  rintro (e | a) s' _
  · trivial
  · exact hf a s'

theorem Keeps.tryCatch {x : ExceptT ε (Job Ans) α} {f : ε → ExceptT ε (Job Ans) α}
    (h : Keeps serve R allowed x.run) (hf : ∀ e, Keeps serve R allowed (f e).run) :
    Keeps serve R allowed (tryCatch x f).run := by
  intro s
  apply wp_tryCatch.2
  apply (h s).mono
  rintro (e | a) s' _
  · exact hf e s'
  · trivial

end Rules

/-! ## What a job can ask -/

section Asks

variable {ε : Type} {job : Job Ans α} {Q : Op → Prop}

/-- No answers make the job ask anything but `Q`. -/
def Job.Asks (Q : Op → Prop) : Job Ans α → Prop
  | .done _ => True
  | .ask op next => Q op ∧ ∀ r, (next r).Asks Q

theorem Job.Asks.bind {f : α → Job Ans β} (h : job.Asks Q) (hf : ∀ a, (f a).Asks Q) :
    (job >>= f).Asks Q := by
  induction job with
  | done a => exact hf a
  | ask op next ih => exact ⟨h.1, fun r => ih r (h.2 r)⟩

theorem Job.Asks.map {f : α → β} (h : job.Asks Q) : (f <$> job).Asks Q :=
  h.bind (f := fun a => .done (f a)) fun _ => trivial

theorem Job.Asks.except_bind {x : ExceptT ε (Job Ans) α} {f : α → ExceptT ε (Job Ans) β}
    (h : x.run.Asks Q) (hf : ∀ a, (f a).run.Asks Q) : (x >>= f).run.Asks Q := by
  apply Job.Asks.bind h
  rintro (e | a)
  · trivial
  · exact hf a

theorem Job.Asks.tryCatch {x : ExceptT ε (Job Ans) α} {f : ε → ExceptT ε (Job Ans) α}
    (h : x.run.Asks Q) (hf : ∀ e, (f e).run.Asks Q) : (tryCatch x f).run.Asks Q := by
  apply Job.Asks.bind h
  rintro (e | a)
  · exact hf e
  · trivial

variable {serve : (op : Op) → In → S → Ans op × S} {R : S → S → Prop}
  {allowed G : Op → In → S → Prop}

theorem Job.Asks.does (h : job.Asks Q)
    (asked : ∀ op, Q op → ∀ input s, allowed op input s → G op input s) (s : S) :
    Does serve R allowed G (fun _ _ => True) job s := by
  induction job generalizing s with
  | done a => trivial
  | ask op next ih =>
    intro s' _ input hallowed
    exact ⟨asked op h.1 input s' hallowed, ih _ (h.2 _) _⟩

theorem Job.Asks.keeps (h : job.Asks Q)
    (asked : ∀ op, Q op → ∀ input s, allowed op input s → R s (serve op input s).2) :
    Keeps serve R allowed job := by
  intro s
  rw [wp_eq_does]
  exact h.does asked s

end Asks

/-! ## Runs -/

section Runs

/-- What worker `i` does keeps `R`, and what it returns is `Φ i`. -/
def World.Ok (svc : Service C Ans S In Ext α) (R : S → S → Prop)
    (allowed : C → Op → In → S → Prop) (Φ : Nat → C → α → S → Prop) (w : World C Ans S α) : Prop :=
  ∀ i c job, w.workers[i]? = some (c, some job) →
    Wp (svc.serve i) R (allowed c) (Φ i c) job w.shared

/-- What is answered next is allowed, and so is what comes in and what the outside does. -/
def Permits (allowed : C → Op → In → S → Prop) (calls : C → S → Prop) (outside : Ext → S → Prop)
    (w : World C Ans S α) : Activity C In Ext → Prop
  | .call c => calls c w.shared
  | .advance i input => ∀ c op next, w.workers[i]? = some (c, some (.ask op next)) →
      allowed c op input w.shared
  | .crash _ => True
  | .outside e => outside e w.shared

variable {svc} {R : S → S → Prop} {allowed : C → Op → In → S → Prop} {calls : C → S → Prop}
  {outside : Ext → S → Prop} {Φ : Nat → C → α → S → Prop} {w : World C Ans S α} {a : Activity C In Ext}

instance [∀ c op input s, Decidable (allowed c op input s)] [∀ c s, Decidable (calls c s)]
    [∀ e s, Decidable (outside e s)] :
    (a : Activity C In Ext) → Decidable (Permits allowed calls outside w a)
  | .call c => inferInstanceAs (Decidable (calls c w.shared))
  | .advance i input =>
    match found : w.workers[i]? with
    | some (c, some (.ask op next)) =>
      decidable_of_iff (allowed c op input w.shared)
        ⟨fun h _ _ _ e => by cases found.symm.trans e; exact h, fun h => h c op next found⟩
    | none | some (_, none) | some (_, some (.done _)) =>
      isTrue fun _ _ _ e => by cases found.symm.trans e
  | .crash _ => isTrue trivial
  | .outside e => inferInstanceAs (Decidable (outside e w.shared))

theorem permits_any : Permits (fun _ _ _ _ => True) (fun _ _ => True) (fun _ _ => True) w a := by
  cases a <;> simp [Permits]

variable (onward : Onward R) (stable : ∀ i c a s s', R s s' → Φ i c a s → Φ i c a s')

include onward stable

theorem step_keeps (ok : w.Ok svc R allowed Φ) (permits : Permits allowed calls outside w a)
    (drifts : ∀ e, outside e w.shared → R w.shared (svc.drift e w.shared))
    (begins : ∀ i c, calls c w.shared →
      Wp (svc.serve i) R (allowed c) (Φ i c) (svc.program c) w.shared) :
    (step svc w a).Ok svc R allowed Φ ∧ R w.shared (step svc w a).shared := by
  have hkeeps : R w.shared (Jobs.step svc w a).shared := by
    refine shared_step (onward.refl _) ?_ fun e he => drifts e (by subst he; exact permits)
    rintro i input c op next rfl found
    exact (ok i c _ found _ (onward.refl _) input (permits c op next found)).1
  refine ⟨jobs_step ?_ ?_ fun j c job found _ => ?_, hkeeps⟩
  · rintro c rfl shared
    rw [shared]
    exact begins _ c permits
  · rintro i input c op next rfl found shared
    rw [shared]
    exact (ok i c _ found _ (onward.refl _) input (permits c op next found)).2
  · exact (ok j c job found).later onward (fun a => stable j c a _ _ hkeeps) hkeeps

/-- Where only what is allowed happens, every worker keeps `R` and returns what it should. -/
theorem run_keeps {as : List (Activity C In Ext)} (ok : w.Ok svc R allowed Φ)
    (permits : ∀ p ∈ trail svc w as, Permits allowed calls outside p.1 p.2)
    (drifts : ∀ s, R w.shared s → ∀ e, outside e s → R s (svc.drift e s))
    (begins : ∀ s, R w.shared s → ∀ i c, calls c s →
      Wp (svc.serve i) R (allowed c) (Φ i c) (svc.program c) s) :
    (run svc w as).Ok svc R allowed Φ ∧ R w.shared (run svc w as).shared := by
  refine Machine.run_invariant (step svc)
    (P := fun w' => w'.Ok svc R allowed Φ ∧ R w.shared w'.shared) ⟨ok, onward.refl _⟩ ?_
  rintro ⟨w', a⟩ hp ⟨hok, hR⟩
  have hstep := step_keeps onward stable hok (permits _ hp) (drifts w'.shared hR)
    (begins w'.shared hR)
  exact ⟨hstep.1, onward.trans hR hstep.2⟩

omit onward stable in
theorem ok_of_keeps (keeps : ∀ i c op input s, allowed c op input s → R s (svc.serve i op input s).2)
    (w : World C Ans S α) : w.Ok svc R allowed fun _ _ _ _ => True :=
  fun i c job _ => wp_of_keeps (keeps i c) (fun _ _ => trivial) job w.shared

omit stable in
/-- What the calls return that come in later. -/
theorem run_returns_later {as : List (Activity C In Ext)} {Φ : C → α → Prop}
    (ok : w.Ok svc R allowed fun _ _ _ _ => True)
    (permits : ∀ p ∈ trail svc w as, Permits allowed calls outside p.1 p.2)
    (drifts : ∀ s, R w.shared s → ∀ e, outside e s → R s (svc.drift e s))
    (begins : ∀ s, R w.shared s → ∀ i c, calls c s →
      Wp (svc.serve i) R (allowed c) (fun r _ => Φ c r) (svc.program c) s)
    {i : Nat} {c : C} {job : Job Ans α} {r : α} (later : w.workers.length ≤ i)
    (found : (run svc w as).workers[i]? = some (c, some job)) (result : job.result = some r) :
    Φ c r := by
  have hok : w.Ok svc R allowed fun i c r _ => w.workers.length ≤ i → Φ c r := by
    intro j c job found
    apply (ok j c job found).mono
    intro r s _ hlater
    exact absurd (List.getElem?_eq_some_iff.1 found).1 (by omega)
  have hkept := run_keeps onward (fun _ _ _ _ _ _ h => h) hok permits drifts
    (fun s hR j c hcalls => (begins s hR j c hcalls).mono fun r s hr _ => hr)
  have hwp := hkept.1 i c job found
  cases job with
  | done r' =>
    obtain rfl := Option.some.inj result
    exact hwp later
  | ask op next => cases result

end Runs

section Asking

variable {svc} {R : Nat → S → S → Prop} {allowed : C → Op → In → S → Prop}
  {calls : C → S → Prop} {outside : Ext → S → Prop} {G : Nat → C → Op → In → S → Prop}
  {Φ : Nat → C → α → S → Prop} {w : World C Ans S α} {a : Activity C In Ext}

theorem World.Does.asked (onward : ∀ i, Onward (R i)) (does : w.Does svc R allowed G Φ) {i : Nat}
    {c : C} {op : Op} {next : Ans op → Job Ans α} (input : In)
    (found : w.workers[i]? = some (c, some (.ask op next))) (allow : allowed c op input w.shared) :
    G i c op input w.shared :=
  (does i c _ found w.shared ((onward i).refl _) input allow).1

/-- Where what is `G` keeps what the others rely on, every worker goes on to ask what is `G`. -/
theorem World.Does.step (onward : ∀ i, Onward (R i))
    (stable : ∀ i c a s s', R i s s' → Φ i c a s → Φ i c a s') (does : w.Does svc R allowed G Φ)
    (permits : Permits allowed calls outside w a)
    (apart : ∀ i c op input s, G i c op input s → ∀ j, j ≠ i → R j s (svc.serve i op input s).2)
    (drifts : ∀ e, outside e w.shared → ∀ j, R j w.shared (svc.drift e w.shared))
    (begins : ∀ c, calls c w.shared → Jobs.Does (svc.serve w.workers.length)
      (R w.workers.length) (allowed c) (G w.workers.length c) (Φ w.workers.length c)
      (svc.program c) w.shared) : (step svc w a).Does svc R allowed G Φ := by
  apply jobs_step
  · rintro c rfl shared
    rw [shared]
    exact begins c permits
  · rintro i input c op next rfl found shared
    rw [shared]
    exact (does i c _ found _ ((onward i).refl _) input (permits c op next found)).2
  · intro j c job found beside
    have hR : R j w.shared (Jobs.step svc w a).shared := by
      cases beside with
      | nothing a same =>
        rw [same]
        exact (onward j).refl _
      | answered i input c op next other found shared =>
        rw [shared]
        exact apart i c op input _ (does.asked onward input found (permits c op next found)) j other
      | outside e shared =>
        rw [shared]
        exact drifts e permits j
    exact (does j c job found).later (onward j) (fun a => stable j c a _ _ hR) hR

end Asking

end Amana.Lib.Jobs
