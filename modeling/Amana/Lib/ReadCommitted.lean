import Amana.Lib.Database
import Amana.Lib.Machine

/-!
# Workers on a read-committed database

Workers run tasks side by side.  A task is made of single statements and of transactions.  A
statement sees the rows that are committed when it runs, and inside a transaction the rows this
transaction has written; a statement that would write a row another open transaction has written
waits.  Connections get lost and workers crash.

`Task.Safe` is a rule of proof for one task at a time: the task keeps a relation `R` between the
configurations before and after each of its effects, provided the other workers keep it too.  If
all tasks are safe, `R` holds from any moment of a run to any later one (`run_keeps`).
-/

namespace Amana.Lib.ReadCommitted

open Database

variable {K : Type} {V : K → Type} {α β : Type}

/-- What a worker does: statements on their own, and transactions.  It looks at the answers and at
the faults. -/
inductive Task (V : K → Type) (α : Type) : Type
  | done
  | statement (k : K) (stmt : Statement (V k)) (next : Except Fault stmt.Result → Task V α)
  | transaction (body : Program V α) (next : Except Fault α → Task V α)

/-- A program whose statements run on their own. -/
def Task.ofProgram : Program V β → Task V α
  | .done _ => .done
  | .raise _ => .done
  | .query k stmt next => .statement k stmt fun
    | .ok r => Task.ofProgram (next r)
    | .error _ => .done

/-- A worker, outside of a transaction or inside one with the rows it has written. -/
inductive Worker (V : K → Type) (α : Type) : Type
  | outside (task : Task V α)
  | inside (body : Program V α) (writes : Db V) (next : Except Fault α → Task V α)

/-- What is committed: the rows, and the results of the transactions. -/
structure Config (V : K → Type) (α : Type) where
  db : Db V
  log : List α

structure World (V : K → Type) (α : Type) where
  config : Config V α
  workers : List (Worker V α)

inductive Activity (V : K → Type) (α : Type) : Type
  /-- A worker comes up. -/
  | spawn (task : Task V α)
  /-- A worker goes on.  `valid` is what the rest of the database says about foreign keys; if the
  answer is not heard the worker takes the connection for lost. -/
  | advance (i : Nat) (valid : ∀ k, V k → Bool) (heard : Bool)
  /-- A worker loses its connection. -/
  | disrupt (i : Nat)
  /-- A worker is gone. -/
  | crash (i : Nat)

/-- The rows a transaction sees. -/
def view (writes db : Db V) : Db V := fun k => (writes k).or (db k)

/-- The worker has a transaction open that has written this row. -/
def Worker.holds (k : K) : Worker V α → Bool
  | .outside _ => false
  | .inside _ writes _ => (writes k).isSome

/-- Another worker than `i` holds the row. -/
def locked (workers : List (Worker V α)) (i : Nat) (k : K) : Bool :=
  workers.zipIdx.any fun p => p.2 ≠ i && p.1.holds k

theorem locked_of_holds {workers : List (Worker V α)} {i j : Nat} {worker : Worker V α} {k : K}
    (found : workers[j]? = some worker) (other : j ≠ i) (holds : worker.holds k = true) :
    locked workers i k = true := by
  rw [locked, List.any_eq_true]
  exact ⟨(worker, j), List.mem_zipIdx_iff_getElem?.2 found, by simp [other, holds]⟩

theorem exists_of_locked {workers : List (Worker V α)} {i : Nat} {k : K}
    (h : locked workers i k = true) :
    ∃ j worker, workers[j]? = some worker ∧ j ≠ i ∧ worker.holds k = true := by
  rw [locked, List.any_eq_true] at h
  obtain ⟨⟨worker, j⟩, hmem, hheld⟩ := h
  have hboth : j ≠ i ∧ worker.holds k = true := by simpa using hheld
  exact ⟨j, worker, List.mem_zipIdx_iff_getElem?.1 hmem, hboth⟩

/-! ## Steps -/

variable [DecidableEq K]

def Config.write (c : Config V α) (k : K) (row : Option (V k)) : Config V α :=
  { c with db := c.db.write k row }

@[simp] theorem Config.write_db (c : Config V α) (k : K) (row : Option (V k)) :
    (c.write k row).db = c.db.write k row := rfl

def Config.commit (c : Config V α) (writes : Db V) (a : α) : Config V α :=
  ⟨view writes c.db, c.log ++ [a]⟩

/-- What the worker hears of an answer. -/
def hear (heard : Bool) (r : β) : Except Fault β :=
  if heard then .ok r else .error .lost

/-- A worker goes on, while the rows in `busy` are held by others. -/
def Worker.advance (valid : ∀ k, V k → Bool) (heard : Bool) (busy : K → Bool) (c : Config V α) :
    Worker V α → Worker V α × Config V α
  | .outside .done => (.outside .done, c)
  | .outside (.statement k stmt next) =>
    match stmt.run (valid k) (c.db k) with
    | .ok (row, r) =>
      if row.isSome && busy k then (.outside (.statement k stmt next), c)
      else (.outside (next (hear heard r)), c.write k row)
    | .error fault => (.outside (next (.error fault)), c)
  | .outside (.transaction body next) => (.inside body (fun _ => none) next, c)
  | .inside (.done a) writes next => (.outside (next (hear heard a)), c.commit writes a)
  | .inside (.raise fault) _ next => (.outside (next (.error fault)), c)
  | .inside (.query k stmt cont) writes next =>
    match stmt.run (valid k) (view writes c.db k) with
    | .ok (row, r) =>
      if row.isSome && busy k then (.inside (.query k stmt cont) writes next, c)
      else (.inside (cont r) (writes.write k row) next, c)
    | .error fault => (.outside (next (.error fault)), c)

/-- A worker loses its connection; an open transaction is undone. -/
def Worker.disrupt : Worker V α → Worker V α
  | .outside .done => .outside .done
  | .outside (.statement _ _ next) => .outside (next (.error .lost))
  | .outside (.transaction _ next) => .outside (next (.error .lost))
  | .inside _ _ next => .outside (next (.error .lost))

/-- Worker `i` changes, and with it what is committed. -/
def World.update (w : World V α) (i : Nat) (f : Worker V α → Worker V α × Config V α) :
    World V α :=
  match w.workers[i]? with
  | none => w
  | some worker => ⟨(f worker).2, w.workers.set i (f worker).1⟩

def step (w : World V α) : Activity V α → World V α
  | .spawn task => { w with workers := w.workers ++ [.outside task] }
  | .advance i valid heard => w.update i (·.advance valid heard (locked w.workers i) w.config)
  | .disrupt i => w.update i fun worker => (worker.disrupt, w.config)
  | .crash i => w.update i fun _ => (.outside .done, w.config)

/-- A statement does not write rows others hold. -/
theorem write_of_free {busy : K → Bool} {k k' : K} {row : Option (V k)} (db : Db V)
    (free : ¬ (row.isSome && busy k) = true) (held : busy k' = true) :
    db.write k row k' = db k' := by
  by_cases hk : k' = k
  · subst hk
    cases row with
    | none => rfl
    | some row => simp [held] at free
  · exact Db.write_of_ne db row hk

/-- What a task makes of the rows while nobody else works on them. -/
def Task.alone (valid : ∀ k, V k → Bool) : Task V α → Db V → Db V
  | .done, db => db
  | .statement k stmt next, db =>
    match stmt.run (valid k) (db k) with
    | .ok (row, r) => (next (.ok r)).alone valid (db.write k row)
    | .error fault => (next (.error fault)).alone valid db
  | .transaction body next, db =>
    match body.exec valid db with
    | .ok (a, db') => (next (.ok a)).alone valid db'
    | .error fault => (next (.error fault)).alone valid db

/-! ## Safe tasks -/

section Safety

variable (R : Config V α → Config V α → Prop)
  (permitted : ∀ k, Statement (V k) → Option (V k) → Prop) {γ : Type}

/-- The other workers have gone on, but not on the rows in `writes`. -/
def Later (writes : Db V) (c c' : Config V α) : Prop :=
  R c c' ∧ ∀ k, writes k ≠ none → c'.db k = c.db k

/-- Whatever the other workers do, a program whose statements are permitted comes to an end with
`Φ`, or fails with `Ψ`. -/
def Wp (Ψ : Fault → Config V α → Prop) (Φ : β → Db V → Config V α → Prop) :
    Program V β → Db V → Config V α → Prop
  | .done b, writes, c => Φ b writes c
  | .raise fault, _, c => Ψ fault c
  | .query k stmt next, writes, c =>
    ∀ c', Later R writes c c' → permitted k stmt (view writes c'.db k) → ∀ valid,
      match stmt.run valid (view writes c'.db k) with
      | .ok (row, r) => Wp Ψ Φ (next r) (writes.write k row) c'
      | .error fault => Ψ fault c'

/-- Whatever the other workers do, every effect of the task keeps `R`. -/
def Task.Safe : Task V α → Config V α → Prop
  | .done, _ => True
  | .statement k stmt next, c =>
    ∀ c', R c c' → (next (.error .lost)).Safe c' ∧ ∀ valid,
      match stmt.run valid (c'.db k) with
      | .ok (row, r) => R c' (c'.write k row) ∧ (next (.ok r)).Safe (c'.write k row)
      | .error fault => (next (.error fault)).Safe c'
  | .transaction body next, c =>
    ∀ c', R c c' → (next (.error .lost)).Safe c' ∧
      Wp R permitted (fun fault c => (next (.error fault)).Safe c)
        (fun a writes c => ∀ c', Later R writes c c' →
          R c' (c'.commit writes a) ∧ (next (.ok a)).Safe (c'.commit writes a))
        body (fun _ => none) c'

/-- Whatever the other workers do, the rest of a transaction keeps `R` when it is committed, and
what comes next is safe. -/
def Concludes (next : Except Fault α → Task V α) (body : Program V α) (writes : Db V)
    (c : Config V α) : Prop :=
  Wp R permitted (fun fault c => (next (.error fault)).Safe R permitted c)
    (fun a writes c => ∀ c', Later R writes c c' →
      R c' (c'.commit writes a) ∧ (next (.ok a)).Safe R permitted (c'.commit writes a))
    body writes c

def Worker.Safe : Worker V α → Config V α → Prop
  | .outside task, c => task.Safe R permitted c
  | .inside body writes next, c =>
    (next (.error .lost)).Safe R permitted c ∧ Concludes R permitted next body writes c

variable {R permitted} {Ψ Ψ' : Fault → Config V α → Prop}
  {Φ Φ' : β → Db V → Config V α → Prop} {c c' : Config V α} {writes : Db V}

theorem Task.safe_transaction {body : Program V α} {next : Except Fault α → Task V α}
    (lost : ∀ c', R c c' → (next (.error .lost)).Safe R permitted c')
    (concludes : ∀ c', R c c' → Concludes R permitted next body (fun _ => none) c') :
    (Task.transaction body next).Safe R permitted c :=
  fun c' later => ⟨lost c' later, concludes c' later⟩

theorem wp_bind {p : Program V γ} {f : γ → Program V β} :
    Wp R permitted Ψ Φ (p >>= f) writes c ↔
      Wp R permitted Ψ (fun a writes c => Wp R permitted Ψ Φ (f a) writes c) p writes c := by
  induction p generalizing writes c with
  | done a => rfl
  | raise fault => rfl
  | query k stmt next ih =>
    refine forall_congr' fun c' => forall_congr' fun _ => forall_congr' fun _ =>
      forall_congr' fun valid => ?_
    cases stmt.run valid (view writes c'.db k) with
    | ok answer => exact ih answer.2
    | error fault => rfl

/-- What comes out when a worker goes on while the rows in `busy` are held by others. -/
structure Progress (R : Config V α → Config V α → Prop)
    (permitted : ∀ k, Statement (V k) → Option (V k) → Prop) (busy : K → Bool) (c : Config V α)
    (r : Worker V α × Config V α) : Prop where
  keeps : R c r.2
  safe : r.1.Safe R permitted r.2
  frame : ∀ k, busy k = true → r.2.db k = c.db k
  holds : ∀ k, busy k = true → r.1.holds k = false

/-- The statement the worker runs next is permitted. -/
def Worker.Permitted (permitted : ∀ k, Statement (V k) → Option (V k) → Prop) (c : Config V α) :
    Worker V α → Prop
  | .inside (.query k stmt _) writes _ => permitted k stmt (view writes c.db k)
  | _ => True

theorem safe_hear {next : Except Fault β → Task V α} {r : β} (heard : Bool)
    (ok : (next (.ok r)).Safe R permitted c) (lost : (next (.error .lost)).Safe R permitted c) :
    (next (hear heard r)).Safe R permitted c := by
  cases heard
  · exact lost
  · exact ok

/-- All workers are safe, and no two of them hold the same row. -/
structure World.Ok (R : Config V α → Config V α → Prop)
    (permitted : ∀ k, Statement (V k) → Option (V k) → Prop) (w : World V α) : Prop where
  safe : ∀ (i : Nat) (worker : Worker V α), w.workers[i]? = some worker →
    worker.Safe R permitted w.config
  apart : ∀ (i j : Nat) (worker other : Worker V α), w.workers[i]? = some worker →
    w.workers[j]? = some other → i ≠ j → ∀ k, worker.holds k = true → other.holds k = false

/-- A world without workers. -/
theorem World.Ok.start (c : Config V α) : World.Ok R permitted ⟨c, []⟩ where
  safe := fun i worker found => by simp at found
  apart := fun i j worker other found => by simp at found

/-- The statement that runs next is permitted. -/
def Permits (permitted : ∀ k, Statement (V k) → Option (V k) → Prop) (w : World V α) :
    Activity V α → Prop
  | .advance i _ _ => ∀ worker ∈ w.workers[i]?, worker.Permitted permitted w.config
  | _ => True

instance [∀ k stmt row, Decidable (permitted k stmt row)] (c : Config V α) :
    (worker : Worker V α) → Decidable (worker.Permitted permitted c)
  | .inside (.query k stmt _) writes _ =>
    inferInstanceAs (Decidable (permitted k stmt (view writes c.db k)))
  | .inside (.done _) _ _ | .inside (.raise _) _ _ | .outside _ => isTrue trivial

instance [∀ k stmt row, Decidable (permitted k stmt row)] (w : World V α) :
    (a : Activity V α) → Decidable (Permits permitted w a)
  | .advance i _ _ =>
    inferInstanceAs (Decidable (∀ worker ∈ w.workers[i]?, worker.Permitted permitted w.config))
  | .spawn _ | .disrupt _ | .crash _ => isTrue trivial

/-- A new worker is safe. -/
def Spawns (R : Config V α → Config V α → Prop)
    (permitted : ∀ k, Statement (V k) → Option (V k) → Prop) : Activity V α → Prop
  | .spawn task => ∀ c, task.Safe R permitted c
  | _ => True

/-- The rules below are about relations that a run can go along. -/
structure Onward (R : Config V α → Config V α → Prop) : Prop where
  refl : ∀ c, R c c
  trans : ∀ {c c' c''}, R c c' → R c' c'' → R c c''

variable (onward : Onward R)

include onward

theorem Wp.later {p : Program V β} (h : Wp R permitted Ψ Φ p writes c)
    (later : Later R writes c c') (failing : ∀ fault, Ψ fault c → Ψ fault c')
    (ending : ∀ b, Φ b writes c → Φ b writes c') : Wp R permitted Ψ Φ p writes c' := by
  cases p with
  | done b => exact ending b h
  | raise fault => exact failing fault h
  | query k stmt next =>
    intro c'' later'
    exact h c'' ⟨onward.trans later.1 later'.1, fun k hk => (later'.2 k hk).trans (later.2 k hk)⟩

theorem Task.Safe.later {task : Task V α} (h : task.Safe R permitted c) (later : R c c') :
    task.Safe R permitted c' := by
  cases task with
  | done => trivial
  | statement k stmt next => exact fun c'' later' => h c'' (onward.trans later later')
  | transaction body next => exact fun c'' later' => h c'' (onward.trans later later')

theorem Worker.Safe.later {worker : Worker V α} (h : worker.Safe R permitted c) (later : R c c')
    (kept : ∀ k, worker.holds k = true → c'.db k = c.db k) : worker.Safe R permitted c' := by
  cases worker with
  | outside task => exact Task.Safe.later onward h later
  | inside body writes next =>
    have hlater : Later R writes c c' :=
      ⟨later, fun k hk => kept k (Option.isSome_iff_ne_none.2 hk)⟩
    refine ⟨Task.Safe.later onward h.1 later, Wp.later onward h.2 hlater ?_ ?_⟩
    · exact fun fault hsafe => Task.Safe.later onward hsafe later
    · intro a hend c'' later'
      exact hend c'' ⟨onward.trans later later'.1,
        fun k hk => (later'.2 k hk).trans (hlater.2 k hk)⟩

theorem Worker.advance_progress {worker : Worker V α} {busy : K → Bool}
    (h : worker.Safe R permitted c) (hp : worker.Permitted permitted c)
    (apart : ∀ k, busy k = true → worker.holds k = false) (valid : ∀ k, V k → Bool)
    (heard : Bool) : Progress R permitted busy c (worker.advance valid heard busy c) := by
  have hstays : Progress R permitted busy c (worker, c) := ⟨onward.refl c, h, fun _ _ => rfl, apart⟩
  cases worker with
  | outside task =>
    cases task with
    | done => exact hstays
    | statement k stmt next =>
      obtain ⟨hlost, hrun⟩ := h c (onward.refl c)
      replace hrun := hrun (valid k)
      rw [Worker.advance]
      cases hanswer : stmt.run (valid k) (c.db k) with
      | error fault =>
        rw [hanswer] at hrun
        exact ⟨onward.refl c, hrun, fun _ _ => rfl, fun _ _ => rfl⟩
      | ok answer =>
        obtain ⟨row, r⟩ := answer
        rw [hanswer] at hrun
        by_cases hwaits : (row.isSome && busy k) = true
        · simp only [hwaits, if_true]
          exact hstays
        · simp only [hwaits]
          refine ⟨hrun.1, safe_hear heard hrun.2 (Task.Safe.later onward hlost hrun.1), ?_,
            fun _ _ => rfl⟩
          exact fun k' hbusy => write_of_free c.db hwaits hbusy
    | transaction body next =>
      obtain ⟨hlost, hbody⟩ := h c (onward.refl c)
      exact ⟨onward.refl c, ⟨hlost, hbody⟩, fun _ _ => rfl, fun _ _ => rfl⟩
  | inside body writes next =>
    obtain ⟨hlost, hbody⟩ := h
    have hnow : Later R writes c c := ⟨onward.refl c, fun _ _ => rfl⟩
    have hfree : ∀ k, busy k = true → writes k = none := fun k hbusy =>
      Option.isSome_eq_false_iff.1 (apart k hbusy) |> Option.isNone_iff_eq_none.1
    cases body with
    | done a =>
      obtain ⟨hkeeps, hnext⟩ := hbody c hnow
      refine ⟨hkeeps, safe_hear heard hnext (Task.Safe.later onward hlost hkeeps), ?_,
        fun _ _ => rfl⟩
      intro k hbusy
      change (writes k).or (c.db k) = c.db k
      rw [hfree k hbusy, Option.none_or]
    | raise fault => exact ⟨onward.refl c, hbody, fun _ _ => rfl, fun _ _ => rfl⟩
    | query k stmt cont =>
      have hrun := hbody c hnow hp (valid k)
      rw [Worker.advance]
      cases hanswer : stmt.run (valid k) (view writes c.db k) with
      | error fault =>
        rw [hanswer] at hrun
        exact ⟨onward.refl c, hrun, fun _ _ => rfl, fun _ _ => rfl⟩
      | ok answer =>
        obtain ⟨row, r⟩ := answer
        rw [hanswer] at hrun
        by_cases hwaits : (row.isSome && busy k) = true
        · simp only [hwaits, if_true]
          exact hstays
        · simp only [hwaits]
          refine ⟨onward.refl c, ⟨hlost, hrun⟩, fun _ _ => rfl, ?_⟩
          intro k' hbusy
          have hsame := write_of_free writes hwaits hbusy
          change (writes.write k row k').isSome = false
          rw [hsame, hfree k' hbusy]
          rfl

theorem Worker.disrupt_safe {worker : Worker V α} (h : worker.Safe R permitted c) :
    worker.disrupt.Safe R permitted c := by
  cases worker with
  | outside task =>
    cases task with
    | done => exact h
    | statement k stmt next => exact (h c (onward.refl c)).1
    | transaction body next => exact (h c (onward.refl c)).1
  | inside body writes next => exact h.1

/-! ## Runs -/

theorem World.Ok.update {w : World V α} (ok : w.Ok R permitted) {i : Nat}
    {f : Worker V α → Worker V α × Config V α}
    (progress : ∀ worker, w.workers[i]? = some worker →
      Progress R permitted (locked w.workers i) w.config (f worker)) :
    (w.update i f).Ok R permitted ∧ R w.config (w.update i f).config := by
  unfold World.update
  cases hworker : w.workers[i]? with
  | none => exact ⟨ok, onward.refl _⟩
  | some worker =>
    replace progress := progress worker hworker
    have hlt : i < w.workers.length := (List.getElem?_eq_some_iff.1 hworker).1
    have hself : (w.workers.set i (f worker).1)[i]? = some (f worker).1 :=
      List.getElem?_set_self hlt
    -- What the other workers hold is locked for this one.
    have hlocked : ∀ j other, w.workers[j]? = some other → i ≠ j → ∀ k, other.holds k = true →
        locked w.workers i k = true := fun j other found hj k =>
      locked_of_holds found (Ne.symm hj)
    refine ⟨⟨?_, ?_⟩, progress.keeps⟩
    · intro j other found
      by_cases hj : i = j
      · subst hj
        obtain rfl := Option.some.inj (hself.symm.trans found)
        exact progress.safe
      · rw [List.getElem?_set_ne hj] at found
        apply Worker.Safe.later onward (ok.safe j other found) progress.keeps
        exact fun k hholds => progress.frame k (hlocked j other found hj k hholds)
    · intro j₁ j₂ w₁ w₂ found₁ found₂ hne k hholds
      by_cases h₁ : i = j₁
      · subst h₁
        obtain rfl := Option.some.inj (hself.symm.trans found₁)
        rw [List.getElem?_set_ne hne] at found₂
        by_contra hheld
        have hbusy := hlocked j₂ w₂ found₂ hne k (by simpa using hheld)
        exact absurd hholds (by rw [progress.holds k hbusy]; decide)
      · rw [List.getElem?_set_ne h₁] at found₁
        by_cases h₂ : i = j₂
        · subst h₂
          obtain rfl := Option.some.inj (hself.symm.trans found₂)
          exact progress.holds k (hlocked j₁ w₁ found₁ h₁ k hholds)
        · rw [List.getElem?_set_ne h₂] at found₂
          exact ok.apart j₁ j₂ w₁ w₂ found₁ found₂ hne k hholds

theorem step_keeps {w : World V α} {a : Activity V α} (ok : w.Ok R permitted)
    (permits : Permits permitted w a) (spawns : Spawns R permitted a) :
    (step w a).Ok R permitted ∧ R w.config (step w a).config := by
  cases a with
  | spawn task =>
    have hold : ∀ {i : Nat} {worker : Worker V α},
        (w.workers ++ [.outside task])[i]? = some worker →
          w.workers[i]? = some worker ∨ worker = .outside task := by
      intro i worker found
      by_cases hi : i < w.workers.length
      · exact .inl (by rwa [List.getElem?_append_left hi] at found)
      · rw [List.getElem?_append_right (by omega)] at found
        exact .inr (List.mem_singleton.1 (List.mem_of_getElem? found))
    refine ⟨⟨?_, ?_⟩, onward.refl _⟩
    · intro i worker found
      obtain hin | rfl := hold found
      · exact ok.safe i worker hin
      · exact spawns w.config
    · intro i j worker other found found' hne k hholds
      obtain hin | rfl := hold found
      · obtain hin' | rfl := hold found'
        · exact ok.apart i j worker other hin hin' hne k hholds
        · rfl
      · cases hholds
  | advance i valid heard =>
    apply World.Ok.update onward ok
    intro worker found
    apply Worker.advance_progress onward (ok.safe i worker found) (permits worker found)
    intro k hlocked
    obtain ⟨j, other, hother, hj, hholds⟩ := exists_of_locked hlocked
    exact ok.apart j i other worker hother found hj k hholds
  | disrupt i =>
    apply World.Ok.update onward ok
    intro worker found
    refine ⟨onward.refl _, Worker.disrupt_safe onward (ok.safe i worker found), fun _ _ => rfl,
      fun k _ => ?_⟩
    cases worker with
    | outside task => cases task <;> rfl
    | inside body writes next => rfl
  | crash i =>
    apply World.Ok.update onward ok
    exact fun worker _ => ⟨onward.refl _, trivial, fun _ _ => rfl, fun _ _ => rfl⟩

/-- Where all statements are permitted and all new workers safe, `R` holds from the beginning of a
run to its end. -/
theorem run_keeps {w : World V α} {as : List (Activity V α)} (ok : w.Ok R permitted)
    (permits : ∀ p ∈ Machine.trail step w as, Permits permitted p.1 p.2)
    (spawns : ∀ a ∈ as, Spawns R permitted a) :
    (Machine.run step w as).Ok R permitted ∧ R w.config (Machine.run step w as).config := by
  refine Machine.run_invariant step (P := fun w' => w'.Ok R permitted ∧ R w.config w'.config)
    ⟨ok, onward.refl _⟩ ?_
  rintro ⟨w', a⟩ hp ⟨hok, hR⟩
  obtain ⟨bs, cs, rfl, -⟩ := Machine.exists_append_of_mem_trail step hp
  have hstep := step_keeps onward hok (permits _ hp) (spawns a (by simp))
  exact ⟨hstep.1, onward.trans hR hstep.2⟩

end Safety

end Amana.Lib.ReadCommitted
