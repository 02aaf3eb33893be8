import Mathlib.Tactic.Common

/-!
# Guarded computations

A fallible operation is an `Except ε`.  `ensure` is an assertion, `expect` unwraps an option, and
the `_eq_ok` lemmas take a successful computation apart: what was asserted held, what was
unwrapped was there, and every part of a sequence succeeded.
-/

namespace Amana.Lib

variable {ε α β : Type}

/-- Stop with `e` unless `p` holds. -/
def ensure (p : Prop) [Decidable p] (e : ε) : Except ε Unit := if p then .ok () else .error e

/-- The content of `o`, or stop with `e`. -/
def expect (o : Option α) (e : ε) : Except ε α :=
  match o with
  | some a => .ok a
  | none => .error e

theorem ensure_eq_ok {p : Prop} [Decidable p] {e : ε} {u : Unit} :
    ensure p e = .ok u ↔ p := by
  unfold ensure
  split <;> simp [*]

theorem expect_eq_ok {o : Option α} {e : ε} {a : α} : expect o e = .ok a ↔ o = some a := by
  cases o <;> simp [expect]

theorem bind_eq_ok {x : Except ε α} {f : α → Except ε β} {b : β} :
    x >>= f = .ok b ↔ ∃ a, x = .ok a ∧ f a = .ok b := by
  cases x with
  | error e =>
    constructor
    · intro h
      cases h
    · rintro ⟨a, h, -⟩
      cases h
  | ok a =>
    constructor
    · intro h
      exact ⟨a, rfl, h⟩
    · rintro ⟨a', h, h'⟩
      cases h
      exact h'

theorem map_eq_ok {x : Except ε α} {f : α → β} {b : β} :
    x.map f = .ok b ↔ ∃ a, x = .ok a ∧ f a = b := by
  cases x <;> simp [Except.map]

theorem isOk_iff {x : Except ε α} : x.isOk = true ↔ ∃ a, x = .ok a := by
  cases x <;> simp [Except.isOk, Except.toBool]

theorem toOption_eq_some {x : Except ε α} {a : α} : x.toOption = some a ↔ x = .ok a := by
  cases x <;> simp [Except.toOption]

theorem pure_eq_ok {a b : α} : (pure a : Except ε α) = .ok b ↔ a = b := by
  constructor
  · intro h
    cases h
    rfl
  · rintro rfl
    rfl

/-! ## How a computation stops -/

/-- Whatever stops the computation satisfies `P`. -/
def FailsWith (P : ε → Prop) (x : Except ε α) : Prop := ∀ e, x = .error e → P e

section

variable {P : ε → Prop} {x : Except ε α} {f : α → Except ε β}

theorem FailsWith.pure (a : α) : FailsWith P (pure a : Except ε α) := by
  intro e h
  cases h

theorem FailsWith.mono {Q : ε → Prop} (h : FailsWith P x) (himp : ∀ e, P e → Q e) :
    FailsWith Q x := fun e hfail => himp e (h e hfail)

theorem FailsWith.ensure {p : Prop} [Decidable p] {e : ε} (h : ¬ p → P e) :
    FailsWith P (ensure p e) := by
  intro e' hfail
  unfold Lib.ensure at hfail
  split at hfail
  · cases hfail
  · next hp =>
    cases hfail
    exact h hp

theorem FailsWith.expect {o : Option α} {e : ε} (h : o = none → P e) :
    FailsWith P (expect o e) := by
  intro e' hfail
  cases o with
  | some a => cases hfail
  | none =>
    cases hfail
    exact h rfl

theorem FailsWith.bind_of (hx : FailsWith P x) (hf : ∀ a, x = .ok a → FailsWith P (f a)) :
    FailsWith P (x >>= f) := by
  intro e hfail
  cases x with
  | error e' =>
    cases hfail
    exact hx _ rfl
  | ok a => exact hf a rfl e hfail

theorem FailsWith.bind (hx : FailsWith P x) (hf : ∀ a, FailsWith P (f a)) :
    FailsWith P (x >>= f) := hx.bind_of fun a _ => hf a

end

theorem ensure_eq_error {p : Prop} [Decidable p] {e e' : ε} :
    ensure p e = .error e' ↔ ¬ p ∧ e = e' := by
  unfold Lib.ensure
  split <;> simp [*]

/-- A sequence stops in its first part or in the second one. -/
theorem bind_eq_error {x : Except ε α} {f : α → Except ε β} {e : ε} :
    x >>= f = .error e ↔ x = .error e ∨ ∃ a, x = .ok a ∧ f a = .error e := by
  cases x with
  | error e' =>
    constructor
    · intro h
      cases h
      exact .inl rfl
    · rintro (h | ⟨a, h, -⟩)
      · cases h
        rfl
      · cases h
  | ok a =>
    constructor
    · intro h
      exact .inr ⟨a, rfl, h⟩
    · rintro (h | ⟨a', h, h'⟩)
      · cases h
      · cases h
        exact h'

end Amana.Lib
