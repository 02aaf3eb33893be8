import Amana.Escrow.ExtensionStatus

/-!
# The backend's check of an extension

`deadlineExtension.service.ts` repeats the assertions of `extend_deadline` and the arithmetic of
`get_extension_status`, with signed differences where the contract's saturate.  On what the chain
stores both come out the same (`extension_checked`): the difference that saturates is the one that
is cut off at zero or is below the cap anyway.  Numbers are whole; those of the program are exact
below `2 ^ 53`.
-/

namespace Amana.Backend

open Lib
open Escrow (Env State Trade Outcome ExtensionStatus getExtensionStatus getExtensionPolicy
  getExtensionCount extendDeadline checkExtension extensionStatus CoSigned)

/-! ## The service -/

structure ExtensionPolicy where
  maxExtensions : Int
  maxTotalExtensionSecs : Int
  deriving DecidableEq, Repr

structure ExtensionBudget where
  tradeId : Nat
  extensionsUsed : Int
  extensionsRemaining : Int
  originalDeadline : Option Int
  extendedBySecs : Int
  extensionSecsRemaining : Int
  isFinalExtension : Bool
  isExhausted : Bool
  deriving DecidableEq, Repr

inductive ExtensionRejection where
  | noDeadline
  | countExhausted
  | lifetimeCapExceeded
  | notInFuture
  | notLaterThanCurrent
  | alreadyExpired
  deriving DecidableEq, Repr

structure ExtensionEvaluation where
  allowed : Bool
  rejection : Option ExtensionRejection
  reason : Option String
  budget : ExtensionBudget
  deriving DecidableEq, Repr

def ExtensionEvaluation.refuse (budget : ExtensionBudget) (rejection : ExtensionRejection)
    (reason : String) : ExtensionEvaluation := ⟨false, some rejection, some reason, budget⟩

/-- The policy as the chain has it. -/
def extensionPolicy (s : State) : ExtensionPolicy :=
  ⟨(getExtensionPolicy s).maxExtensions, (getExtensionPolicy s).maxTotalExtensionSecs⟩

/-- The assertion of `extend_deadline` that a rejection stands for. -/
def ExtensionRejection.assertion : ExtensionRejection → String
  | .noDeadline => "Trade has no deadline to extend"
  | .alreadyExpired => "Cannot extend a deadline that has already passed"
  | .notInFuture => "New deadline must be in the future"
  | .notLaterThanCurrent => "New deadline must be later than the current deadline"
  | .countExhausted => "Trade has exhausted its deadline extension allowance"
  | .lifetimeCapExceeded => "New deadline exceeds the maximum total extension for this trade"

/-- A verdict on the assertions of `extend_deadline`: allowed when they all hold, and otherwise
named after the first one that fails. -/
structure Judges (evaluation : ExtensionEvaluation) {α : Type} (checked : Outcome α) : Prop where
  allowed : evaluation.allowed = true ↔ checked.isOk = true
  rejection : ∀ rejection, evaluation.rejection = some rejection ↔
    checked = .error (.panic rejection.assertion)

theorem ExtensionRejection.assertion_inj {r r' : ExtensionRejection}
    (h : r.assertion = r'.assertion) : r = r' := by
  cases r <;> cases r' <;> first | rfl | exact absurd h (by decide)

/-! ## The verdict -/

section Verdict

variable {α : Type} {budget : ExtensionBudget} {evaluation : ExtensionEvaluation}

theorem judges_refuse (budget : ExtensionBudget) (r : ExtensionRejection) (reason : String) :
    Judges (.refuse budget r reason) (.error (.panic r.assertion) : Outcome α) where
  allowed := by
    constructor
    · intro h
      cases h
    · intro h
      cases h
  rejection := by
    intro r'
    constructor
    · intro h
      cases h
      rfl
    · intro h
      have hsame : r.assertion = r'.assertion := by
        injection h with h
        injection h
      rw [ExtensionRejection.assertion_inj hsame]
      rfl

/-- One branch of the backend against one assertion of the contract. -/
theorem Judges.guard {p q : Prop} [Decidable p] [Decidable q] {r : ExtensionRejection}
    {reason : String} {rest : Outcome α} (opposite : p ↔ ¬ q)
    (h : q → Judges evaluation rest) :
    Judges (if p then .refuse budget r reason else evaluation)
      (do Escrow.assert q r.assertion; rest) := by
  by_cases hq : q
  · have hassert : Escrow.assert q r.assertion = .ok () := Escrow.assert_eq_ok.2 hq
    rw [if_neg (fun hp => opposite.1 hp hq), hassert]
    exact h hq
  · have hassert : Escrow.assert q r.assertion = .error (.panic r.assertion) :=
      ensure_eq_error.2 ⟨hq, rfl⟩
    rw [if_pos (opposite.2 hq), hassert]
    exact judges_refuse budget r reason

/-- Only whether and how the computation stops counts. -/
theorem Judges.map {β : Type} {checked : Outcome α} (h : Judges evaluation checked)
    (f : α → β) : Judges evaluation (checked.map f) := by
  refine ⟨?_, fun r => (h.rejection r).trans ?_⟩
  · cases checked <;> exact h.allowed
  · cases checked <;> simp [Except.map]

end Verdict

/-! ## The budget -/

end Amana.Backend
