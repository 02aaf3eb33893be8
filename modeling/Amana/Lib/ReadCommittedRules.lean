import Amana.Lib.ReadCommitted

/-!
# Rules for safe tasks

Most tasks are safe because of what each of their statements does on its own.  A task that writes no
row `R` looks at is safe (`Task.Avoids.safe`).  Where `R` compares the rows one by one, a task is
safe when every row it writes is a successor of the row it replaces (`Task.Respects.safe`).  The
rest is worked out with `Wp`; a part of a transaction that stays away from some rows leaves them
alone there (`wp_of_confined`).

Where no transaction writes more than one row that matters, every step of a run changes these rows
by a single statement (`World.Single.step`).
-/

namespace Amana.Lib.Database

variable {K : Type} {V : K → Type} {α : Type}

/-- The program only reads the rows in `P`, and what it returns is in `S`. -/
def Program.Avoids (P : K → Prop) (S : α → Prop) : Program V α → Prop
  | .done a => S a
  | .raise _ => True
  | .query k stmt next => (P k → stmt = .find) ∧ ∀ r, (next r).Avoids P S

/-- The statements of the program are in `C`, and the errors it raises are in `F`. -/
def Program.Confined (C : ∀ k, Statement (V k) → Prop) (F : Fault → Prop) : Program V α → Prop
  | .done _ => True
  | .raise fault => F fault
  | .query k stmt next => C k stmt ∧ ∀ r, (next r).Confined C F

/-- Every row the statement writes is a successor of the row it replaces. -/
def Statement.Respects {W : Type} (Q : Option W → Option W → Prop) (permitted : Option W → Prop) :
    Statement W → Prop
  | .find => True
  | .create row => Q none (some row)
  | .upsert row data =>
    Q none (some row) ∧ ∀ old, permitted (some old) → Q (some old) (some (data old))
  | .update data => ∀ old, permitted (some old) → Q (some old) (some (data old))
  | .updateMany required data =>
    ∀ old, permitted (some old) → required old = true → Q (some old) (some (data old))

def Program.Respects (Q : ∀ k, Option (V k) → Option (V k) → Prop)
    (permitted : ∀ k, Statement (V k) → Option (V k) → Prop) : Program V α → Prop
  | .done _ => True
  | .raise _ => True
  | .query k stmt next => stmt.Respects (Q k) (permitted k stmt) ∧
    ∀ r, (next r).Respects Q permitted

theorem Statement.Respects.mono {W : Type} {Q : Option W → Option W → Prop}
    {permitted permitted' : Option W → Prop} {stmt : Statement W} (h : stmt.Respects Q permitted)
    (narrower : ∀ row, permitted' row → permitted row) : stmt.Respects Q permitted' := by
  cases stmt with
  | find => trivial
  | create row => exact h
  | upsert row data => exact ⟨h.1, fun old hold => h.2 old (narrower _ hold)⟩
  | update data => exact fun old hold => h old (narrower _ hold)
  | updateMany required data => exact fun old hold => h old (narrower _ hold)

theorem Statement.Respects.run {W : Type} {Q : Option W → Option W → Prop}
    {permitted : Option W → Prop} {stmt : Statement W} {valid : W → Bool} {old : Option W}
    {new : W} {r : stmt.Result} (h : stmt.Respects Q permitted) (hold : permitted old)
    (ok : stmt.run valid old = .ok (some new, r)) : Q old (some new) := by
  cases Statement.writes_of_run ok with
  | create => exact h
  | insert => exact h.1
  | upsert row data old => exact h.2 old hold
  | update data old => exact h old hold
  | updateMany required data old hrequired => exact h old hold hrequired

/-! How these properties go through a program. -/

section Binding

variable {β : Type} {P : K → Prop} {S : β → Prop} {C : ∀ k, Statement (V k) → Prop}
  {F : Fault → Prop}
  {Q : ∀ k, Option (V k) → Option (V k) → Prop}
  {permitted : ∀ k, Statement (V k) → Option (V k) → Prop} {p : Program V α} {f : α → Program V β}

theorem Program.Confined.bind (hp : p.Confined C F) (hf : ∀ a, (f a).Confined C F) :
    (p >>= f).Confined C F := by
  induction p with
  | done a => exact hf a
  | raise fault => exact hp
  | query k stmt next ih => exact ⟨hp.1, fun r => ih r (hp.2 r)⟩

theorem avoids_ask {k : K} {stmt : Statement (V k)} (h : P k → stmt = .find) :
    (ask k stmt : Program V _).Avoids P (fun _ => True) :=
  ⟨h, fun _ => trivial⟩

theorem avoids_ite {c : Prop} [Decidable c] {p q : Program V β} (hp : p.Avoids P S)
    (hq : q.Avoids P S) : (if c then p else q).Avoids P S := by
  split
  · exact hp
  · exact hq

theorem Program.Avoids.bind (hp : p.Avoids P (fun _ => True)) (hf : ∀ a, (f a).Avoids P S) :
    (p >>= f).Avoids P S := by
  induction p with
  | done a => exact hf a
  | raise fault => trivial
  | query k stmt next ih => exact ⟨hp.1, fun r => ih r (hp.2 r)⟩

theorem confined_ask {k : K} {stmt : Statement (V k)} (h : C k stmt) :
    (ask k stmt : Program V _).Confined C F :=
  ⟨h, fun _ => trivial⟩

theorem confined_ite {c : Prop} [Decidable c] {q : Program V α} (hp : p.Confined C F)
    (hq : q.Confined C F) : (if c then p else q).Confined C F := by
  split
  · exact hp
  · exact hq

theorem respects_ask {k : K} {stmt : Statement (V k)} (h : stmt.Respects (Q k) (permitted k stmt)) :
    (ask k stmt : Program V _).Respects Q permitted :=
  ⟨h, fun _ => trivial⟩

theorem respects_ite {c : Prop} [Decidable c] {q : Program V α}
    (hp : c → p.Respects Q permitted) (hq : q.Respects Q permitted) :
    (if c then p else q).Respects Q permitted := by
  split
  · exact hp ‹_›
  · exact hq

theorem Program.Respects.bind (hp : p.Respects Q permitted)
    (hf : ∀ a, (f a).Respects Q permitted) : (p >>= f).Respects Q permitted := by
  induction p with
  | done a => exact hf a
  | raise fault => trivial
  | query k stmt next ih => exact ⟨hp.1, fun r => ih r (hp.2 r)⟩

end Binding

/-! ## One write on every way -/

section Single

variable {β : Type} {P : K → Prop} {S : α → Prop}
  {Q : ∀ k, Option (V k) → Option (V k) → Prop}

/-- On every way through the program at most one statement writes rows in `P`, and what it writes is
a successor of what it replaces. -/
def Program.Single (P : K → Prop) (Q : ∀ k, Option (V k) → Option (V k) → Prop) :
    Program V α → Prop
  | .done _ => True
  | .raise _ => True
  | .query k stmt next =>
    (P k → stmt = .find) ∧ (∀ r, (next r).Single P Q) ∨
      (P k → stmt.Respects (Q k) fun _ => True) ∧ ∀ r, (next r).Avoids P fun _ => True

theorem Program.Avoids.any {p : Program V α} (h : p.Avoids P S) : p.Avoids P fun _ => True := by
  induction p with
  | done a => trivial
  | raise fault => trivial
  | query k stmt next ih => exact ⟨h.1, fun r => ih r (h.2 r)⟩

theorem Program.Avoids.single {p : Program V α} (h : p.Avoids P S) : p.Single P Q := by
  induction p with
  | done a => trivial
  | raise fault => trivial
  | query k stmt next ih => exact .inl ⟨h.1, fun r => ih r (h.2 r)⟩

theorem Program.Single.bind {p : Program V α} {f : α → Program V β} (hp : p.Single P Q)
    (hf : ∀ a, (f a).Avoids P fun _ => True) : (p >>= f).Single P Q := by
  induction p with
  | done a => exact (hf a).single
  | raise fault => trivial
  | query k stmt next ih =>
    rcases hp with ⟨hfind, hnext⟩ | ⟨hwrites, hnext⟩
    · exact .inl ⟨hfind, fun r => ih r (hnext r)⟩
    · exact .inr ⟨hwrites, fun r => (hnext r).bind hf⟩

theorem Program.Avoids.bind_single {p : Program V α} {f : α → Program V β}
    (hp : p.Avoids P fun _ => True) (hf : ∀ a, (f a).Single P Q) : (p >>= f).Single P Q := by
  induction p with
  | done a => exact hf a
  | raise fault => trivial
  | query k stmt next ih => exact .inl ⟨hp.1, fun r => ih r (hp.2 r)⟩

theorem single_ask {k : K} {stmt : Statement (V k)}
    (h : P k → stmt.Respects (Q k) fun _ => True) : (ask k stmt : Program V _).Single P Q :=
  .inr ⟨h, fun _ => trivial⟩

theorem single_ite {c : Prop} [Decidable c] {p q : Program V α} (hp : c → p.Single P Q)
    (hq : ¬ c → q.Single P Q) : (if c then p else q).Single P Q := by
  split
  · exact hp ‹_›
  · exact hq ‹_›

theorem Program.respects_any (p : Program V α)
    (permitted : ∀ k, Statement (V k) → Option (V k) → Prop) :
    p.Respects (fun _ _ _ => True) permitted := by
  induction p with
  | done a => trivial
  | raise fault => trivial
  | query k stmt next ih => exact ⟨by cases stmt <;> simp [Statement.Respects], ih⟩

end Single

end Amana.Lib.Database

namespace Amana.Lib.ReadCommitted

open Database

variable {K : Type} {V : K → Type} {α β : Type}

/-- The task only reads the rows in `P`, and its transactions return something in `S`. -/
def Task.Avoids (P : K → Prop) (S : α → Prop) : Task V α → Prop
  | .done => True
  | .statement k stmt next => (P k → stmt = .find) ∧ ∀ r, (next r).Avoids P S
  | .transaction body next => body.Avoids P S ∧ ∀ r, (next r).Avoids P S

/-- Every row the task writes is a successor of the row it replaces, in a transaction where the
statement is permitted. -/
def Task.Respects (Q : ∀ k, Option (V k) → Option (V k) → Prop)
    (permitted : ∀ k, Statement (V k) → Option (V k) → Prop) : Task V α → Prop
  | .done => True
  | .statement k stmt next =>
    stmt.Respects (Q k) (fun _ => True) ∧ ∀ r, (next r).Respects Q permitted
  | .transaction body next => body.Respects Q permitted ∧ ∀ r, (next r).Respects Q permitted

theorem Task.avoids_ofProgram {P : K → Prop} {S : α → Prop} {p : Program V β}
    (h : p.Avoids P (fun _ => True)) : (Task.ofProgram p : Task V α).Avoids P S := by
  induction p with
  | done b => trivial
  | raise fault => trivial
  | query k stmt next ih =>
    rw [Task.ofProgram]
    refine ⟨h.1, fun answer => ?_⟩
    cases answer with
    | ok r => exact ih r (h.2 r)
    | error fault => trivial

variable [DecidableEq K] {R : Config V α → Config V α → Prop}
  {permitted : ∀ k, Statement (V k) → Option (V k) → Prop} {P : K → Prop} {F : Fault → Prop}
  {S : α → Prop} {c : Config V α} {writes : Db V} {Ψ : Fault → Config V α → Prop}
  {Φ : β → Db V → Config V α → Prop}

/-- A part of a transaction that stays away from some rows leaves them alone. -/
theorem wp_of_confined {C : ∀ k, Statement (V k) → Prop} {p : Program V β} (h : p.Confined C F)
    (away : ∀ k stmt, C k stmt → ¬ P k)
    (faults : ∀ k stmt row valid fault, C k stmt → permitted k stmt row →
      stmt.run valid row = .error fault → F fault)
    (failing : ∀ fault c, F fault → Ψ fault c)
    (ending : ∀ b writes' c, (∀ k, P k → writes' k = writes k) → Φ b writes' c) :
    Wp R permitted Ψ Φ p writes c := by
  induction p generalizing writes c with
  | done b => exact ending b writes c fun _ _ => rfl
  | raise fault => exact failing fault c h
  | query k stmt next ih =>
    intro c' _ hpermitted valid
    cases hrun : stmt.run valid (view writes c'.db k) with
    | error fault => exact failing fault c' (faults k stmt _ valid fault h.1 hpermitted hrun)
    | ok answer =>
      apply ih answer.2 (h.2 answer.2)
      intro b writes' c'' hsame
      apply ending b writes' c''
      intro k' hk'
      rw [hsame k' hk', Db.write_of_ne]
      rintro rfl
      exact away k' stmt h.1 hk'

/-! ## Tasks that stay away -/

section Avoiding

variable
  (frame : ∀ c c' : Config V α, (∀ k, P k → c'.db k = c.db k) →
    (c'.log = c.log ∨ ∃ a, S a ∧ c'.log = c.log ++ [a]) → R c c')

/-- Reading writes nothing. -/
theorem write_of_avoids {k : K} {stmt : Statement (V k)} {valid : V k → Bool}
    {old row : Option (V k)} {r : stmt.Result} (h : P k → stmt = .find)
    (run : stmt.run valid old = .ok (row, r)) (db : Db V)
    (k' : K) (hk' : P k') : db.write k row k' = db k' := by
  by_cases hk : k' = k
  · subst hk
    obtain rfl := h hk'
    cases run
    rfl
  · exact Db.write_of_ne db row hk

include frame

theorem Program.Avoids.concludes {body : Program V α} {next : Except Fault α → Task V α}
    (h : body.Avoids P S) (clean : ∀ k, P k → writes k = none)
    (safe : ∀ r c, (next r).Safe R permitted c) : Concludes R permitted next body writes c := by
  induction body generalizing writes c with
  | done a =>
    intro c' _
    refine ⟨frame _ _ (fun k hk => ?_) (.inr ⟨a, h, rfl⟩), safe _ _⟩
    change (writes k).or (c'.db k) = c'.db k
    rw [clean k hk, Option.none_or]
  | raise fault => exact safe _ _
  | query k stmt cont ih =>
    intro c' _ _ valid
    cases hrun : stmt.run valid (view writes c'.db k) with
    | error fault => exact safe _ _
    | ok answer =>
      apply ih answer.2 (h.2 answer.2)
      intro k' hk'
      rw [write_of_avoids h.1 hrun writes k' hk', clean k' hk']

theorem Task.Avoids.safe {task : Task V α} (h : task.Avoids P S) (c : Config V α) :
    task.Safe R permitted c := by
  induction task generalizing c with
  | done => trivial
  | statement k stmt next ih =>
    refine fun c' _ => ⟨ih _ (h.2 _) c', fun valid => ?_⟩
    cases hrun : stmt.run valid (c'.db k) with
    | error fault => exact ih _ (h.2 _) c'
    | ok answer =>
      exact ⟨frame _ _ (write_of_avoids h.1 hrun c'.db) (.inl rfl), ih _ (h.2 _) _⟩
  | transaction body next ih =>
    apply Task.safe_transaction
    · exact fun c' _ => ih _ (h.2 _) c'
    · exact fun c' _ =>
        Program.Avoids.concludes frame h.1 (fun _ _ => rfl) fun r c => ih r (h.2 r) c

end Avoiding

/-! ## Tasks that write successors -/

section Successors

variable {Q : ∀ k, Option (V k) → Option (V k) → Prop}

/-- Every row is a successor of the row it has taken the place of. -/
def Pointwise (Q : ∀ k, Option (V k) → Option (V k) → Prop) (c c' : Config V α) : Prop :=
  ∀ k, Q k (c.db k) (c'.db k)

variable (refl : ∀ k row, Q k row row) (trans : ∀ {k r r' r''}, Q k r r' → Q k r' r'' → Q k r r'')

include refl

theorem Pointwise.write {k : K} {row : Option (V k)} (h : ∀ new ∈ row, Q k (c.db k) (some new)) :
    Pointwise Q c (c.write k row) := by
  intro k'
  change Q k' (c.db k') (c.db.write k row k')
  cases row with
  | none => exact refl k' _
  | some new =>
    by_cases hk : k' = k
    · subst hk
      rw [Db.write_same]
      exact h new rfl
    · rw [Db.write_of_ne _ _ hk]
      exact refl k' _

include trans

omit [DecidableEq K] in
theorem onward_pointwise : Onward (Pointwise Q : Config V α → Config V α → Prop) :=
  ⟨fun c k => refl k (c.db k), fun h h' k => trans (h k) (h' k)⟩

theorem Program.Respects.concludes {body : Program V α} {next : Except Fault α → Task V α}
    (h : body.Respects Q permitted) (ahead : ∀ k, Q k (c.db k) (view writes c.db k))
    (safe : ∀ r c, (next r).Safe (Pointwise Q) permitted c) :
    Concludes (Pointwise Q) permitted next body writes c := by
  -- The rows this transaction has written stay ahead of the committed ones.
  have hahead : ∀ {writes : Db V} {c c' : Config V α}, (∀ k, Q k (c.db k) (view writes c.db k)) →
      Later (Pointwise Q) writes c c' → ∀ k, Q k (c'.db k) (view writes c'.db k) := by
    intro writes c c' hbefore later k
    cases hw : writes k with
    | none => simpa [view, hw] using refl k (c'.db k)
    | some row =>
      have hq := hbefore k
      rw [← later.2 k (by simp [hw])] at hq
      simpa [view, hw] using hq
  induction body generalizing writes c with
  | done a => exact fun c' later => ⟨hahead ahead later, safe _ _⟩
  | raise fault => exact safe _ _
  | query k stmt cont ih =>
    intro c' later hpermitted valid
    cases hrun : stmt.run valid (view writes c'.db k) with
    | error fault => exact safe _ _
    | ok answer =>
      obtain ⟨row, r⟩ := answer
      apply ih r (h.2 r)
      intro k'
      have hk' := hahead ahead later k'
      cases row with
      | none => exact hk'
      | some new =>
        by_cases hk : k' = k
        · subst hk
          have hnew : view (writes.write k' (some new)) c'.db k' = some new := by simp [view]
          rw [hnew]
          exact trans hk' (h.1.run hpermitted hrun)
        · have hsame : view (writes.write k (some new)) c'.db k' = view writes c'.db k' := by
            simp [view, hk]
          rw [hsame]
          exact hk'

omit trans in
theorem Task.safe_statement {k : K} {stmt : Statement (V k)}
    {next : Except Fault stmt.Result → Task V α}
    (h : ∀ c', Pointwise Q c c' → stmt.Respects (Q k) (· = c'.db k))
    (safe : ∀ r c, (next r).Safe (Pointwise Q) permitted c) :
    (Task.statement k stmt next).Safe (Pointwise Q) permitted c := by
  refine fun c' later => ⟨safe _ c', fun valid => ?_⟩
  cases hrun : stmt.run valid (c'.db k) with
  | error fault => exact safe _ c'
  | ok answer =>
    obtain ⟨row, r⟩ := answer
    refine ⟨Pointwise.write refl ?_, safe _ _⟩
    rintro new rfl
    exact (h c' later).run rfl hrun

theorem Task.Respects.safe {task : Task V α} (h : task.Respects Q permitted) (c : Config V α) :
    task.Safe (Pointwise Q) permitted c := by
  induction task generalizing c with
  | done => trivial
  | statement k stmt next ih =>
    apply Task.safe_statement refl
    · exact fun _ _ => h.1.mono fun _ _ => trivial
    · exact fun r c => ih r (h.2 r) c
  | transaction body next ih =>
    apply Task.safe_transaction
    · exact fun c' _ => ih _ (h.2 _) c'
    · exact fun c' _ =>
        Program.Respects.concludes refl trans h.1 (fun k => refl k _) fun r c => ih r (h.2 r) c

end Successors

/-! ## Rows that a transaction writes once -/

section Single

variable {P : K → Prop} {Q : ∀ k, Option (V k) → Option (V k) → Prop}

/-- Every statement on its own, and every transaction, writes at most one row in `P`. -/
def Task.Single (P : K → Prop) (Q : ∀ k, Option (V k) → Option (V k) → Prop) : Task V α → Prop
  | .done => True
  | .statement k stmt next =>
    (P k → stmt.Respects (Q k) fun _ => True) ∧ ∀ r, (next r).Single P Q
  | .transaction body next => body.Single P Q ∧ ∀ r, (next r).Single P Q

omit [DecidableEq K] in
theorem Task.Avoids.single {task : Task V α} (h : task.Avoids P S) : task.Single P Q := by
  induction task with
  | done => trivial
  | statement k stmt next ih =>
    refine ⟨fun hk => ?_, fun r => ih r (h.2 r)⟩
    rw [h.1 hk]
    trivial
  | transaction body next ih => exact ⟨h.1.single, fun r => ih r (h.2 r)⟩

omit [DecidableEq K] in
theorem Task.single_ofProgram {p : Program V β} (h : p.Single P Q) :
    (Task.ofProgram p : Task V α).Single P Q := by
  induction p with
  | done b => trivial
  | raise fault => trivial
  | query k stmt next ih =>
    rw [Task.ofProgram]
    rcases h with ⟨hfind, hnext⟩ | ⟨hwrites, hnext⟩
    · refine ⟨fun hk => by rw [hfind hk]; trivial, fun answer => ?_⟩
      cases answer with
      | ok r => exact ih r (hnext r)
      | error fault => trivial
    · refine ⟨hwrites, fun answer => ?_⟩
      cases answer with
      | ok r => exact ih r (hnext r).single
      | error fault => trivial

omit [DecidableEq K] in
theorem Task.respects_any (task : Task V α)
    (permitted : ∀ k, Statement (V k) → Option (V k) → Prop) :
    task.Respects (fun _ _ _ => True) permitted := by
  induction task with
  | done => trivial
  | statement k stmt next ih => exact ⟨by cases stmt <;> simp [Statement.Respects], ih⟩
  | transaction body next ih => exact ⟨body.respects_any permitted, ih⟩

/-- The transaction has not written a row in `P` yet, or it has written a successor of what is there
and writes no more of them. -/
def Worker.Single (P : K → Prop) (Q : ∀ k, Option (V k) → Option (V k) → Prop) (c : Config V α) :
    Worker V α → Prop
  | .outside task => task.Single P Q
  | .inside body writes next => (∀ r, (next r).Single P Q) ∧
    ((∀ k, P k → writes k = none) ∧ body.Single P Q ∨
      (∀ k, P k → ∀ row ∈ writes k, Q k (c.db k) (some row)) ∧ body.Avoids P fun _ => True)

/-- The rows in `P` stay, or are replaced by successors. -/
def Changes (P : K → Prop) (Q : ∀ k, Option (V k) → Option (V k) → Prop) (c c' : Config V α) :
    Prop :=
  ∀ k, P k → c'.db k = c.db k ∨ Q k (c.db k) (c'.db k)

omit [DecidableEq K] in
theorem Changes.refl (c : Config V α) : Changes P Q c c := fun _ _ => .inl rfl

theorem Worker.Single.advance {worker : Worker V α} (h : worker.Single P Q c)
    (valid : ∀ k, V k → Bool) (heard : Bool) (busy : K → Bool) :
    (worker.advance valid heard busy c).1.Single P Q (worker.advance valid heard busy c).2 ∧
      Changes P Q c (worker.advance valid heard busy c).2 := by
  cases worker with
  | outside task =>
    cases task with
    | done => exact ⟨h, .refl c⟩
    | transaction body next => exact ⟨⟨h.2, .inl ⟨fun _ _ => rfl, h.1⟩⟩, .refl c⟩
    | statement k stmt next =>
      rw [Worker.advance]
      cases hrun : stmt.run (valid k) (c.db k) with
      | error fault => exact ⟨h.2 _, .refl c⟩
      | ok answer =>
        obtain ⟨row, r⟩ := answer
        by_cases hwaits : (row.isSome && busy k) = true
        · simp only [hwaits, if_true]
          exact ⟨h, .refl c⟩
        simp only [hwaits]
        refine ⟨h.2 _, fun k' hk' => ?_⟩
        change c.db.write k row k' = c.db k' ∨ Q k' (c.db k') (c.db.write k row k')
        by_cases hk : k' = k
        · subst hk
          cases row with
          | none => exact .inl rfl
          | some new =>
            rw [Db.write_same]
            exact .inr ((h.1 hk').run trivial hrun)
        · exact .inl (Db.write_of_ne _ _ hk)
  | inside body writes next =>
    obtain ⟨hnext, hbody⟩ := h
    cases body with
    | raise fault => exact ⟨hnext _, .refl c⟩
    | done a =>
      refine ⟨hnext _, fun k hk => ?_⟩
      change (writes k).or (c.db k) = c.db k ∨ Q k (c.db k) ((writes k).or (c.db k))
      cases hw : writes k with
      | none => exact .inl rfl
      | some row =>
        rcases hbody with ⟨hnone, -⟩ | ⟨hrows, -⟩
        · cases hw.symm.trans (hnone k hk)
        · exact .inr (hrows k hk row hw)
    | query k stmt cont =>
      rw [Worker.advance]
      cases hrun : stmt.run (valid k) (view writes c.db k) with
      | error fault => exact ⟨hnext _, .refl c⟩
      | ok answer =>
        obtain ⟨row, r⟩ := answer
        by_cases hwaits : (row.isSome && busy k) = true
        · simp only [hwaits, if_true]
          exact ⟨⟨hnext, hbody⟩, .refl c⟩
        simp only [hwaits]
        refine ⟨⟨hnext, ?_⟩, .refl c⟩
        rcases hbody with ⟨hnone, ⟨hfind, hcont⟩ | ⟨hwrites, hcont⟩⟩ | ⟨hrows, hfind, hcont⟩
        · refine .inl ⟨fun k' hk' => ?_, hcont r⟩
          rw [write_of_avoids hfind hrun writes k' hk', hnone k' hk']
        · refine .inr ⟨fun k' hk' new hnew => ?_, hcont r⟩
          by_cases hk : k' = k
          · subst hk
            have hview : view writes c.db k' = c.db k' := by
              rw [view, hnone k' hk', Option.none_or]
            cases row with
            | none =>
              rw [Db.write_none, hnone k' hk'] at hnew
              cases hnew
            | some row =>
              rw [Db.write_same] at hnew
              cases hnew
              change Q k' (c.db k') (some new)
              rw [← hview]
              exact (hwrites hk').run trivial hrun
          · rw [Db.write_of_ne _ _ hk, hnone k' hk'] at hnew
            cases hnew
        · refine .inr ⟨fun k' hk' new hnew => ?_, hcont r⟩
          rw [write_of_avoids hfind hrun writes k' hk'] at hnew
          exact hrows k' hk' new hnew

omit [DecidableEq K] in
/-- What others do away from the rows this worker has written does not matter to it. -/
theorem Worker.Single.later {worker : Worker V α} {c' : Config V α} (h : worker.Single P Q c)
    (kept : ∀ k, worker.holds k = true → c'.db k = c.db k) : worker.Single P Q c' := by
  cases worker with
  | outside task => exact h
  | inside body writes next =>
    refine ⟨h.1, h.2.imp_right fun hrows => ⟨fun k hk row hrow => ?_, hrows.2⟩⟩
    have hholds : (writes k).isSome = true := Option.isSome_iff_exists.2 ⟨row, hrow⟩
    rw [kept k hholds]
    exact hrows.1 k hk row hrow

omit [DecidableEq K] in
theorem Worker.Single.disrupt {worker : Worker V α} (h : worker.Single P Q c) :
    worker.disrupt.Single P Q c := by
  cases worker with
  | outside task =>
    cases task with
    | done => trivial
    | statement k stmt next => exact h.2 _
    | transaction body next => exact h.2 _
  | inside body writes next => exact h.1 _

/-- All workers write single rows, and hold rows of their own. -/
structure World.Single (P : K → Prop) (Q : ∀ k, Option (V k) → Option (V k) → Prop)
    (w : World V α) : Prop where
  ok : w.Ok (Pointwise fun _ _ _ => True) fun _ _ _ => True
  single : ∀ (i : Nat) (worker : Worker V α), w.workers[i]? = some worker →
    worker.Single P Q w.config

theorem World.Single.start (c : Config V α) : World.Single P Q ⟨c, []⟩ where
  ok := .start c
  single := fun i worker found => by simp at found

omit [DecidableEq K] in
theorem onward_any : Onward (Pointwise fun _ _ _ => True : Config V α → Config V α → Prop) :=
  onward_pointwise (fun _ _ => trivial) fun _ _ => trivial

theorem World.Single.update {w : World V α} (h : w.Single P Q) {i : Nat}
    {f : Worker V α → Worker V α × Config V α}
    (progress : ∀ worker, w.workers[i]? = some worker → Progress (Pointwise fun _ _ _ => True)
      (fun _ _ _ => True) (locked w.workers i) w.config (f worker))
    (single : ∀ worker, w.workers[i]? = some worker →
      (f worker).1.Single P Q (f worker).2 ∧ Changes P Q w.config (f worker).2) :
    (w.update i f).Single P Q ∧ Changes P Q w.config (w.update i f).config := by
  have hok := (World.Ok.update onward_any h.ok progress).1
  unfold World.update at hok ⊢
  cases hworker : w.workers[i]? with
  | none => exact ⟨h, .refl _⟩
  | some worker =>
    rw [hworker] at hok
    obtain ⟨hself, hchanges⟩ := single worker hworker
    refine ⟨⟨hok, fun j other found => ?_⟩, hchanges⟩
    have hlt : i < w.workers.length := (List.getElem?_eq_some_iff.1 hworker).1
    by_cases hj : i = j
    · subst hj
      rw [List.getElem?_set_self hlt] at found
      obtain rfl := Option.some.inj found
      exact hself
    · rw [List.getElem?_set_ne hj] at found
      apply (h.single j other found).later
      exact fun k hholds =>
        (progress worker hworker).frame k (locked_of_holds found (Ne.symm hj) hholds)

/-- One step changes the rows in `P` by single statements. -/
theorem World.Single.step {w : World V α} (h : w.Single P Q) {a : Activity V α}
    (spawns : ∀ task, a = .spawn task → task.Single P Q) :
    (step w a).Single P Q ∧ Changes P Q w.config (step w a).config := by
  have hsafe (task : Task V α) (c : Config V α) :
      task.Safe (Pointwise fun _ _ _ => True) (fun _ _ _ => True) c :=
    Task.Respects.safe (fun _ _ => trivial) (fun _ _ => trivial) (task.respects_any _) c
  cases a with
  | spawn task =>
    refine ⟨⟨(step_keeps onward_any h.ok (a := .spawn task) trivial (hsafe task)).1,
      fun i worker found => ?_⟩,
      .refl _⟩
    by_cases hi : i < w.workers.length
    · change (w.workers ++ [.outside task])[i]? = _ at found
      rw [List.getElem?_append_left hi] at found
      exact h.single i worker found
    · change (w.workers ++ [.outside task])[i]? = _ at found
      rw [List.getElem?_append_right (by omega)] at found
      rw [List.mem_singleton.1 (List.mem_of_getElem? found)]
      exact spawns task rfl
  | advance i valid heard =>
    apply h.update
    · intro worker found
      have hpermitted : worker.Permitted (fun _ _ _ => True) w.config := by
        cases worker with
        | outside task => trivial
        | inside body writes next => cases body <;> trivial
      apply Worker.advance_progress onward_any (h.ok.safe i worker found) hpermitted
      intro k hlocked
      obtain ⟨j, other, hother, hj, hholds⟩ := exists_of_locked hlocked
      exact h.ok.apart j i other worker hother found hj k hholds
    · exact fun worker found => (h.single i worker found).advance valid heard _
  | disrupt i =>
    apply h.update
    · intro worker found
      refine ⟨onward_any.refl _, Worker.disrupt_safe onward_any (h.ok.safe i worker found),
        fun _ _ => rfl, fun k _ => ?_⟩
      cases worker with
      | outside task => cases task <;> rfl
      | inside body writes next => rfl
    · exact fun worker found => ⟨(h.single i worker found).disrupt, .refl _⟩
  | crash i =>
    apply h.update
    · exact fun worker _ => ⟨onward_any.refl _, trivial, fun _ _ => rfl, fun _ _ => rfl⟩
    · exact fun worker _ => ⟨trivial, .refl _⟩

end Single

end Amana.Lib.ReadCommitted
