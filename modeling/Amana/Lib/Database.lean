import Mathlib.Logic.Function.Basic

/-!
# Programs over a keyed database

A database holds at most one row for every key, of the type of that key.  A `Statement` works on
the row of one key, the way a database client does: it reads the row, creates it, or updates it.  A
`Program` is what runs inside a transaction: statements whose results it looks at, and errors it
raises.  `exec` runs a program alone; an error undoes all of it (`commit`).
-/

namespace Amana.Lib.Database

/-- Why a statement or a program fails. -/
inductive Fault where
  /-- A row with this key is there. -/
  | unique
  /-- A row that is referred to is not there. -/
  | reference
  /-- The row to update is not there. -/
  | missing
  /-- The connection is lost. -/
  | lost
  /-- The program raises an error of its own. -/
  | raised (message : String)
  deriving DecidableEq, Repr

/-- Whether what is asked is reached, and whether its answer is heard. -/
inductive Connection where
  | heard
  | unheard
  | down
  deriving DecidableEq, Repr

/-- What is heard of an answer, and what is left of its effects. -/
def deliver {β S : Type} (connection : Connection) (s : S) :
    Except Fault (β × S) → Except Fault β × S
  | .ok (r, s') =>
    match connection with
    | .heard => (.ok r, s')
    | .unheard => (.error .lost, s')
    | .down => (.error .lost, s)
  | .error fault => (.error (if connection = .heard then fault else .lost), s)

theorem deliver_read {β S : Type} (connection : Connection) (r : β) (s : S) :
    (deliver connection s (.ok (r, s))).2 = s := by
  cases connection <;> rfl

/-- What can be asked about the row of one key. -/
inductive Statement (V : Type) : Type
  | find
  | create (row : V)
  /-- Create the row, or update the one that is there. -/
  | upsert (row : V) (data : V → V)
  | update (data : V → V)
  /-- Update the row if it is as required, and count how many there were. -/
  | updateMany (required : V → Bool) (data : V → V)

/-- What a statement answers. -/
def Statement.Result {V : Type} : Statement V → Type
  | .find => Option V
  | .create _ => Unit
  | .upsert _ _ => V
  | .update _ => V
  | .updateMany _ _ => Nat

/-- What a statement does to a row: the row it writes, if it writes one, and its answer.  A new row
has to be `valid`. -/
def Statement.run {V : Type} (valid : V → Bool) :
    (stmt : Statement V) → Option V → Except Fault (Option V × stmt.Result)
  | .find, row => .ok (none, row)
  | .create new, none => if valid new then .ok (some new, ()) else .error .reference
  | .create _, some _ => .error .unique
  | .upsert new _, none => if valid new then .ok (some new, new) else .error .reference
  | .upsert _ data, some row => .ok (some (data row), data row)
  | .update _, none => .error .missing
  | .update data, some row => .ok (some (data row), data row)
  | .updateMany _ _, none => .ok (none, (0 : Nat))
  | .updateMany required data, some row =>
    if required row then .ok (some (data row), (1 : Nat)) else .ok (none, (0 : Nat))

/-- Only creating a row that is there violates a unique constraint. -/
theorem Statement.create_of_unique {V : Type} {valid : V → Bool} {stmt : Statement V}
    {row : Option V} (h : stmt.run valid row = .error .unique) :
    (∃ new, stmt = .create new) ∧ row ≠ none := by
  cases stmt with
  | find => cases h
  | create new =>
    refine ⟨⟨new, rfl⟩, ?_⟩
    rintro rfl
    simp only [Statement.run] at h
    split at h <;> cases h
  | upsert new data =>
    cases row with
    | none =>
      simp only [Statement.run] at h
      split at h <;> cases h
    | some row => cases h
  | update data => cases row <;> cases h
  | updateMany required data =>
    cases row with
    | none => cases h
    | some row =>
      simp only [Statement.run] at h
      split at h <;> cases h

/-- A statement that writes a row creates it, or changes the one that is there. -/
inductive Statement.Writes {V : Type} : Statement V → Option V → V → Prop
  | create (row : V) : Writes (.create row) none row
  | insert (row : V) (data : V → V) : Writes (.upsert row data) none row
  | upsert (row : V) (data : V → V) (old : V) : Writes (.upsert row data) (some old) (data old)
  | update (data : V → V) (old : V) : Writes (.update data) (some old) (data old)
  | updateMany (required : V → Bool) (data : V → V) (old : V) (h : required old = true) :
      Writes (.updateMany required data) (some old) (data old)

theorem Statement.writes_of_run {V : Type} {valid : V → Bool} {stmt : Statement V}
    {old : Option V} {new : V} {r : stmt.Result} (h : stmt.run valid old = .ok (some new, r)) :
    stmt.Writes old new := by
  cases stmt with
  | find => cases h
  | create row =>
    cases old with
    | none =>
      simp only [Statement.run] at h
      split at h <;> cases h
      exact .create new
    | some old => cases h
  | upsert row data =>
    cases old with
    | none =>
      simp only [Statement.run] at h
      split at h <;> cases h
      exact .insert new data
    | some old =>
      cases h
      exact .upsert row data old
  | update data =>
    cases old with
    | none => cases h
    | some old =>
      cases h
      exact .update data old
  | updateMany required data =>
    cases old with
    | none => cases h
    | some old =>
      simp only [Statement.run] at h
      split at h <;> cases h
      exact .updateMany required data old ‹_›

variable {K : Type} {V : K → Type} {α β : Type}

/-- What runs inside a transaction. -/
inductive Program (V : K → Type) (α : Type) : Type
  | done (a : α)
  | raise (fault : Fault)
  | query (k : K) (stmt : Statement (V k)) (next : stmt.Result → Program V α)

namespace Program

def bind : Program V α → (α → Program V β) → Program V β
  | .done a, f => f a
  | .raise fault, _ => .raise fault
  | .query k stmt next, f => .query k stmt fun r => (next r).bind f

instance : Monad (Program V) where
  pure := .done
  bind := bind

@[simp] theorem pure_def (a : α) : (pure a : Program V α) = .done a := rfl

@[simp] theorem done_bind (a : α) (f : α → Program V β) : (Program.done a >>= f) = f a := rfl

@[simp] theorem raise_bind (fault : Fault) (f : α → Program V β) :
    (Program.raise fault >>= f) = .raise fault := rfl

@[simp] theorem query_bind (k : K) (stmt : Statement (V k)) (next : stmt.Result → Program V α)
    (f : α → Program V β) :
    (Program.query k stmt next >>= f) = .query k stmt fun r => next r >>= f := rfl

end Program

/-- Ask one thing. -/
def ask (k : K) (stmt : Statement (V k)) : Program V stmt.Result := .query k stmt .done

def findUnique (k : K) : Program V (Option (V k)) := ask k .find

def create (k : K) (row : V k) : Program V Unit := ask k (.create row)

def upsert (k : K) (row : V k) (data : V k → V k) : Program V (V k) := ask k (.upsert row data)

def update (k : K) (data : V k → V k) : Program V (V k) := ask k (.update data)

def updateMany (k : K) (required : V k → Bool) (data : V k → V k) : Program V Nat :=
  ask k (.updateMany required data)

/-! ## Invariants of the rows -/

/-- The rows a statement can write have `I`, where the old one had it. -/
def Statement.Keeps {V : Type} (I : V → Prop) : Statement V → Prop
  | .find => True
  | .create row => I row
  | .upsert row data => I row ∧ ∀ old, I old → I (data old)
  | .update data => ∀ old, I old → I (data old)
  | .updateMany required data => ∀ old, I old → required old = true → I (data old)

/-- Whatever is answered, the program only writes rows that have `I`. -/
def Program.Keeps (I : ∀ k, V k → Prop) : Program V α → Prop
  | .done _ => True
  | .raise _ => True
  | .query k stmt next => stmt.Keeps (I k) ∧ ∀ r, (next r).Keeps I

section Keeps

variable {I : ∀ k, V k → Prop}

theorem keeps_done (a : α) : (Program.done a : Program V α).Keeps I := trivial

theorem keeps_raise (fault : Fault) : (Program.raise fault : Program V α).Keeps I := trivial

theorem keeps_ask {k : K} {stmt : Statement (V k)} (h : stmt.Keeps (I k)) :
    (ask k stmt : Program V _).Keeps I :=
  ⟨h, fun _ => trivial⟩

theorem keeps_ite {c : Prop} [Decidable c] {p q : Program V α} (hp : p.Keeps I)
    (hq : q.Keeps I) : (if c then p else q).Keeps I := by
  split
  · exact hp
  · exact hq

theorem Program.Keeps.bind {p : Program V α} {f : α → Program V β} (hp : p.Keeps I)
    (hf : ∀ a, (f a).Keeps I) : (p >>= f).Keeps I := by
  induction p with
  | done a => exact hf a
  | raise fault => trivial
  | query k stmt next ih => exact ⟨hp.1, fun r => ih r (hp.2 r)⟩

theorem Statement.Keeps.run {W : Type} {J : W → Prop} {stmt : Statement W} {valid : W → Bool}
    {old : Option W} {new : W} {r : stmt.Result} (h : stmt.Keeps J) (before : ∀ row ∈ old, J row)
    (ok : stmt.run valid old = .ok (some new, r)) : J new := by
  cases Statement.writes_of_run ok with
  | create => exact h
  | insert => exact h.1
  | upsert row data old => exact h.2 old (before old rfl)
  | update data old => exact h old (before old rfl)
  | updateMany required data old hrequired => exact h old (before old rfl) hrequired

end Keeps

/-! ## Running alone -/

/-- The rows by key. -/
abbrev Db (V : K → Type) := (k : K) → Option (V k)

variable [DecidableEq K]

/-- Write a row, if there is one to write. -/
def Db.write (db : Db V) (k : K) : Option (V k) → Db V
  | none => db
  | some row => Function.update db k (some row)

@[simp] theorem Db.write_none (db : Db V) (k : K) : db.write k none = db := rfl

@[simp] theorem Db.write_same (db : Db V) (k : K) (row : V k) :
    db.write k (some row) k = some row := by
  rw [Db.write, Function.update_self]

@[simp] theorem Db.write_of_ne (db : Db V) {k k' : K} (row : Option (V k)) (h : k' ≠ k) :
    db.write k row k' = db k' := by
  cases row with
  | none => rfl
  | some row => rw [Db.write, Function.update_of_ne h]

/-- Run a program with the database to itself. -/
def Program.exec (valid : ∀ k, V k → Bool) : Program V α → Db V → Except Fault (α × Db V)
  | .done a, db => .ok (a, db)
  | .raise fault, _ => .error fault
  | .query k stmt next, db =>
    match stmt.run (valid k) (db k) with
    | .ok (row, r) => (next r).exec valid (db.write k row)
    | .error fault => .error fault

/-- The database after a transaction. -/
def Program.commit (valid : ∀ k, V k → Bool) (p : Program V α) (db : Db V) : Db V :=
  match p.exec valid db with
  | .ok r => r.2
  | .error _ => db

variable {valid : ∀ k, V k → Bool} {db : Db V}

@[simp] theorem exec_done (a : α) :
    (Program.done a : Program V α).exec valid db = .ok (a, db) := rfl

@[simp] theorem exec_raise (fault : Fault) :
    (Program.raise fault : Program V α).exec valid db = .error fault := rfl

theorem exec_bind (p : Program V α) (f : α → Program V β) (db : Db V) :
    (p >>= f).exec valid db =
      match p.exec valid db with
      | .ok (a, db') => (f a).exec valid db'
      | .error fault => .error fault := by
  induction p generalizing db with
  | done a => rfl
  | raise fault => rfl
  | query k stmt next ih =>
    rw [Program.query_bind, Program.exec, Program.exec]
    cases stmt.run (valid k) (db k) with
    | ok r => exact ih r.2 _
    | error fault => rfl

/-! A program that goes on after one statement. -/

section Asking

variable {k : K}

theorem exec_ask_bind (stmt : Statement (V k)) (f : stmt.Result → Program V β) :
    (ask k stmt >>= f).exec valid db =
      match stmt.run (valid k) (db k) with
      | .ok (row, r) => (f r).exec valid (db.write k row)
      | .error fault => .error fault := by
  rw [ask, Program.query_bind, Program.exec]
  rfl

theorem exec_findUnique_bind (f : Option (V k) → Program V β) :
    (findUnique k >>= f).exec valid db = (f (db k)).exec valid db := rfl

theorem exec_create (row : V k) :
    (create k row).exec valid db =
      if db k ≠ none then .error .unique
      else if valid k row then .ok ((), db.write k (some row)) else .error .reference := by
  refine (exec_ask_bind (.create row) .done).trans ?_
  cases db k with
  | none =>
    by_cases h : valid k row
    · simp only [Statement.run, h]
      rfl
    · simp only [Statement.run, h]
      rfl
  | some old => rfl

theorem exec_create_eq_ok {row : V k} {db' : Db V} {u : Unit} :
    (create k row).exec valid db = .ok (u, db') ↔
      db k = none ∧ valid k row = true ∧ db' = db.write k (some row) := by
  rw [exec_create]
  by_cases hfree : db k = none
  · by_cases hvalid : valid k row = true
    · simp [hfree, hvalid, eq_comm]
    · simp [hfree, hvalid]
  · simp [hfree]

theorem exec_upsert_bind (row : V k) (data : V k → V k) (f : V k → Program V β) :
    (upsert k row data >>= f).exec valid db =
      match db k with
      | some old => (f (data old)).exec valid (db.write k (some (data old)))
      | none =>
        if valid k row then (f row).exec valid (db.write k (some row)) else .error .reference := by
  refine (exec_ask_bind (.upsert row data) f).trans ?_
  cases db k with
  | none => by_cases h : valid k row <;> simp [Statement.run, h]
  | some old => rfl

theorem exec_updateMany_bind (required : V k → Bool) (data : V k → V k)
    (f : Nat → Program V β) :
    (updateMany k required data >>= f).exec valid db =
      match (db k).filter required with
      | some old => (f 1).exec valid (db.write k (some (data old)))
      | none => (f 0).exec valid db := by
  refine (exec_ask_bind (.updateMany required data) f).trans ?_
  cases db k with
  | none => rfl
  | some old => by_cases h : required old <;> simp [Statement.run, Option.filter, h]

end Asking

/-! ## Invariants -/

section Keeps

variable {I : ∀ k, V k → Prop}

/-- Such a program keeps `I` in the whole database. -/
theorem Program.Keeps.exec {p : Program V α} {db db' : Db V} {a : α} (h : p.Keeps I)
    (before : ∀ k, ∀ row ∈ db k, I k row) (ok : p.exec valid db = .ok (a, db')) :
    ∀ k, ∀ row ∈ db' k, I k row := by
  induction p generalizing db with
  | done a =>
    cases ok
    exact before
  | raise fault => cases ok
  | query k stmt next ih =>
    rw [Program.exec] at ok
    cases hrun : stmt.run (valid k) (db k) with
    | error fault =>
      rw [hrun] at ok
      cases ok
    | ok answer =>
      obtain ⟨written, r⟩ := answer
      rw [hrun] at ok
      refine ih r (h.2 r) ?_ ok
      cases written with
      | none => exact before
      | some new =>
        intro k' row hrow
        by_cases hk : k' = k
        · subst hk
          rw [Db.write_same] at hrow
          cases hrow
          exact h.1.run (before k') hrun
        · rw [Db.write_of_ne _ _ hk] at hrow
          exact before k' row hrow

theorem Program.Keeps.commit {p : Program V α} (h : p.Keeps I)
    (before : ∀ k, ∀ row ∈ db k, I k row) : ∀ k, ∀ row ∈ p.commit valid db k, I k row := by
  unfold Program.commit
  cases hexec : p.exec valid db with
  | ok r => exact h.exec before hexec
  | error fault => exact before

end Keeps

end Amana.Lib.Database
