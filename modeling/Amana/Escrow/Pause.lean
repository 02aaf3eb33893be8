import Amana.Escrow.Contract

/-!
# The emergency pause

`Lifecycle` lists the entrypoints by which users and mediators drive a trade.  The pause stops the
four that call `assert_not_paused`, and none of the others (`pauseBlocks_iff`).
-/

namespace Amana.Escrow

open Lib

/-- The trade entrypoints open to users and mediators. -/
inductive Lifecycle where
  | create
  | deposit
  | pathDeposit
  | pathFinalize
  | delivery
  | release
  | cancel
  | cancelByBuyer
  | refund
  | expiryRefund
  | extension
  | dispute
  | vote
  | resolution
  | fallback
  deriving DecidableEq, Repr

/-- The kind of a call, if it is a trade entrypoint. -/
def Call.lifecycle : Call → Option Lifecycle
  | .createTrade .. => some .create
  | .deposit .. => some .deposit
  | .depositWithPath .. => some .pathDeposit
  | .finalizePathPayment .. => some .pathFinalize
  | .confirmDelivery .. => some .delivery
  | .releaseFunds .. => some .release
  | .cancelTrade .. => some .cancel
  | .cancelByBuyer .. => some .cancelByBuyer
  | .refund .. => some .refund
  | .claimExpiryRefund .. => some .expiryRefund
  | .extendDeadline .. => some .extension
  | .initiateDispute .. => some .dispute
  | .castDisputeVote .. => some .vote
  | .resolveDispute .. => some .resolution
  | .resolveDisputeByFallback .. => some .fallback
  | _ => none

/-- The entrypoints that call `assert_not_paused`. -/
def Lifecycle.guarded : Lifecycle → Bool
  | .create | .deposit | .cancel | .release => true
  | _ => false

/-- In every reachable paused state, no call of this kind succeeds, and so none changes anything. -/
def PauseBlocks (l : Lifecycle) : Prop :=
  ∀ tokens actions env c, c.lifecycle = some l → isPaused (run tokens actions) = true →
    (invoke env (run tokens actions) c).isOk = false ∧
      step (run tokens actions) (.call env c) = run tokens actions

theorem assertNotPaused_of_paused {s : State} (h : isPaused s = true) :
    assertNotPaused s = .error (.panic "contract is paused") :=
  if_neg (by rw [← isPaused, h]; decide)

/-- A guarded call fails in a paused state, reachable or not. -/
theorem invoke_of_paused {env : Env} {s : State} {c : Call} {l : Lifecycle}
    (hkind : c.lifecycle = some l) (hguarded : l.guarded = true) (hpaused : isPaused s = true) :
    invoke env s c = .error (.panic "contract is paused") := by
  have hguard := assertNotPaused_of_paused hpaused
  cases c
  case createTrade =>
    rw [invoke, createTrade, hguard]
    rfl
  case deposit =>
    rw [invoke, deposit, hguard]
    rfl
  case cancelTrade =>
    rw [invoke, cancelTrade, hguard]
    rfl
  case releaseFunds =>
    rw [invoke, releaseFunds, hguard]
    rfl
  all_goals cases hkind <;> cases hguarded

/-! ## What the pause lets through -/

namespace Sample

/-- The admin becomes guardian and pauses. -/
def pausing : List Action :=
  [call 9 admin (.addGuardian admin), call 9 admin (.pause admin)]

/-- A funded trade with a deadline. -/
def dated : List Action := [setup, create (some 100), fund]

/-- A disputed trade, with Carol as mediator of a quorum. -/
def voting : List Action :=
  dated ++
    [call 4 alice (.initiateDispute first alice "reason"), call 5 admin (.addMediator carol),
      call 6 admin (.setQuorumConfig ⟨true, 0, 2, 10, 1⟩)]

/-- Carol's vote. -/
def vote : Call := .castDisputeVote first carol 5000 "rationale"

/-- A paused run and a call that goes through, for every entrypoint without the guard. -/
def whilePaused : Lifecycle → List Action × Env × Call
  | .pathDeposit =>
    ([setup, create none] ++ pausing, ⟨10, 1, [alice]⟩, .depositWithPath first alice 50 1 [])
  | .pathFinalize =>
    ([setup, create none, call 3 alice (.depositWithPath first alice 50 1 []),
      .transfer ⟨cngn, carol, currentContract, 1⟩] ++ pausing, ⟨10, 1, [alice]⟩,
      .finalizePathPayment first alice)
  | .cancelByBuyer =>
    ([setup, create none] ++ pausing, ⟨10, 1, [alice]⟩, .cancelByBuyer first)
  | .delivery => (dated ++ pausing, ⟨10, 1, [alice]⟩, .confirmDelivery first)
  | .refund => (dated ++ pausing, ⟨10, 1, [bob]⟩, .refund first)
  | .expiryRefund => (dated ++ pausing, ⟨100, 1, [alice]⟩, .claimExpiryRefund first alice)
  | .extension => (dated ++ pausing, ⟨10, 1, [alice, bob]⟩, .extendDeadline first 200)
  | .dispute => (dated ++ pausing, ⟨10, 1, [alice]⟩, .initiateDispute first alice "reason")
  | .vote => (voting ++ pausing, ⟨10, 1, [carol]⟩, vote)
  | .resolution =>
    (dated ++ [call 4 alice (.initiateDispute first alice "reason"),
      call 5 admin (.addMediator carol)] ++ pausing, ⟨10, 1, [carol]⟩,
      .resolveDispute first carol 5000)
  | .fallback =>
    (voting ++ [call 7 carol vote] ++ pausing, ⟨20, 1, [alice]⟩,
      .resolveDisputeByFallback first alice)
  | .create | .deposit | .cancel | .release => ([], ⟨0, 0, []⟩, .deposit first)

end Sample

theorem whilePaused_isOk (l : Lifecycle) (h : l.guarded = false) :
    (Sample.whilePaused l).2.2.lifecycle = some l ∧
      isPaused (run Sample.tokens (Sample.whilePaused l).1) = true ∧
      (invoke (Sample.whilePaused l).2.1 (run Sample.tokens (Sample.whilePaused l).1)
        (Sample.whilePaused l).2.2).isOk = true := by
  cases l <;> first | decide | cases h

/-- The pause blocks an entrypoint exactly when it calls `assert_not_paused`. -/
theorem pauseBlocks_iff (l : Lifecycle) : PauseBlocks l ↔ l.guarded = true := by
  constructor
  · intro h
    by_contra hopen
    obtain ⟨hkind, hpaused, hok⟩ := whilePaused_isOk l (by simpa using hopen)
    obtain ⟨hfails, -⟩ := h _ _ _ _ hkind hpaused
    cases hfails.symm.trans hok
  · intro hguarded tokens actions env c hkind hpaused
    have hfails : invoke env (run tokens actions) c = _ :=
      invoke_of_paused hkind hguarded hpaused
    exact ⟨by rw [hfails]; rfl, step_call_of_error hfails⟩

/-- The seller's refund pays the escrow out of a paused contract. -/
theorem not_pauseBlocks_refund :
    ¬ PauseBlocks .refund ∧
      (step (run Sample.tokens (Sample.dated ++ Sample.pausing))
        (Sample.call 10 Sample.bob (.refund Sample.first))).tokens.balance Sample.cngn
          currentContract = 0 ∧
      (run Sample.tokens (Sample.dated ++ Sample.pausing)).tokens.balance Sample.cngn
        currentContract = 100 := by
  refine ⟨fun h => ?_, by decide, by decide⟩
  obtain ⟨hkind, hpaused, hok⟩ := whilePaused_isOk .refund rfl
  obtain ⟨hfails, -⟩ := h _ _ _ _ hkind hpaused
  cases hfails.symm.trans hok

end Amana.Escrow
