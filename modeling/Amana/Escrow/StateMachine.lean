import Amana.Escrow.Identifiers

/-!
# The life of a trade

A trade follows the status table, is touched only by calls on it, keeps its terms and never moves
again once it is closed, as long as no creation issues its identifier again; over a run that issues
every identifier once it does so throughout (`followsStateMachine_of_noReissue`).  A reissued
identifier breaks all of that (`not_followsStateMachine_at_wrap`).
-/

namespace Amana.Escrow

open Lib

variable {tokens : Token.Ledger Address} {actions : List Action} {k : Nat} {t : Trade}

/-- The trade an action works on. -/
def Action.subject (s : State) : Action → Option Nat
  | .call _ c => c.subject s
  | _ => none

/-- Ledger time does not go back. -/
def Chronological (actions : List Action) : Prop :=
  (actions.filterMap Action.time).Pairwise (· ≤ ·)

/-- What the steps of a run leave of a stored trade, other than creations under its identifier. -/
structure KeepsRecords (tokens : Token.Ledger Address) (actions : List Action) : Prop where
  /-- It stays stored, and its status stays or moves along the table. -/
  status : ∀ p ∈ trail tokens actions, ∀ k t, p.1.trades.get k = some t → ¬ Issues k p.1 p.2 →
    ∃ t', (step p.1 p.2).trades.get k = some t' ∧
      (t'.status = t.status ∨ t'.status ∈ t.status.next)
  /-- A call on another trade does not change the record. -/
  frame : ∀ p ∈ trail tokens actions, ∀ k t, p.1.trades.get k = some t → ¬ Issues k p.1 p.2 →
    p.2.subject p.1 ≠ some k → (step p.1 p.2).trades.get k = some t
  /-- A closed trade is not changed. -/
  absorbing : ∀ p ∈ trail tokens actions, ∀ k t, p.1.trades.get k = some t → ¬ Issues k p.1 p.2 →
    t.status.closed = true → (step p.1 p.2).trades.get k = some t
  /-- The terms are not changed. -/
  terms : ∀ p ∈ trail tokens actions, ∀ k t, p.1.trades.get k = some t → ¬ Issues k p.1 p.2 →
    ∃ t', (step p.1 p.2).trades.get k = some t' ∧ t.SameTerms t'
  /-- The time of the last update does not go back when ledger time does not, whatever is issued. -/
  updatedAt : Chronological actions → ∀ before later, actions = before ++ later →
    ∀ k t, (run tokens before).trades.get k = some t →
      ∃ t', (run tokens actions).trades.get k = some t' ∧ t.updatedAt ≤ t'.updatedAt

/-- The trades of a run follow the state machine. -/
structure FollowsStateMachine (tokens : Token.Ledger Address) (actions : List Action) : Prop where
  /-- A stored trade stays stored, and its status stays or moves along the table. -/
  status : ∀ p ∈ trail tokens actions, ∀ k t, p.1.trades.get k = some t →
    ∃ t', (step p.1 p.2).trades.get k = some t' ∧
      (t'.status = t.status ∨ t'.status ∈ t.status.next)
  /-- A call on another trade does not change the record. -/
  frame : ∀ p ∈ trail tokens actions, ∀ k t, p.1.trades.get k = some t →
    p.2.subject p.1 ≠ some k → (step p.1 p.2).trades.get k = some t
  /-- A closed trade is never changed again. -/
  absorbing : ∀ before later, actions = before ++ later →
    ∀ k t, (run tokens before).trades.get k = some t → t.status.closed = true →
      (run tokens actions).trades.get k = some t
  /-- The terms of a trade never change. -/
  terms : ∀ before later, actions = before ++ later →
    ∀ k t, (run tokens before).trades.get k = some t →
      ∃ t', (run tokens actions).trades.get k = some t' ∧ t.SameTerms t'
  /-- The time of the last update does not go back when ledger time does not. -/
  updatedAt : Chronological actions → ∀ before later, actions = before ++ later →
    ∀ k t, (run tokens before).trades.get k = some t →
      ∃ t', (run tokens actions).trades.get k = some t' ∧ t.updatedAt ≤ t'.updatedAt

theorem NoReissue.of_isPrefix {before : List Action} (h : NoReissue tokens actions)
    (hbefore : before <+: actions) : NoReissue tokens before :=
  fun p hp => h p (Machine.trail_of_isPrefix step hbefore hp)

theorem NoReissue.of_append {later : List Action} (h : NoReissue tokens (actions ++ later)) :
    NoReissue tokens actions := h.of_isPrefix (List.prefix_append ..)

theorem NoReissue.last {a : Action} (h : NoReissue tokens (actions ++ [a])) :
    ¬ Reissues (run tokens actions) a :=
  h (run tokens actions, a) (Machine.mem_trail_append step _ actions [] a)

/-- Every record carries the time of a call of the run. -/
theorem updatedAt_mem (stored : (run tokens actions).trades.get k = some t) :
    t.updatedAt ∈ actions.filterMap Action.time := by
  induction actions using List.reverseRecOn generalizing t with
  | nil => cases stored
  | append_singleton actions a ih =>
    rw [List.filterMap_append]
    rw [run_snoc] at stored
    have hchange := step_change (wellFormed_run tokens actions) a
    generalize step (run tokens actions) a = s' at hchange stored
    cases hchange with
    | stay _ => exact List.mem_append_left _ (ih stored)
    | configure _ _ conf =>
      rw [conf.books] at stored
      exact List.mem_append_left _ (ih stored)
    | outside _ _ => exact List.mem_append_left _ (ih stored)
    | @effect env c _ _ effect _ =>
      have hnow : env.timestamp ∈ [Action.call env c].filterMap Action.time :=
        List.mem_singleton_self _
      cases effect.record with
      | same _ trades _ =>
        rw [trades] at stored
        exact List.mem_append_left _ (ih stored)
      | create trade _ _ _ updatedAt trades _ =>
        rw [trades] at stored
        obtain ⟨-, rfl⟩ | ⟨-, stored⟩ := Store.get_set_cases stored
        · exact List.mem_append_right _ (updatedAt ▸ hnow)
        · exact List.mem_append_left _ (ih stored)
      | move k' _ t' trades _ _ _ moved =>
        rw [trades] at stored
        obtain ⟨-, rfl⟩ | ⟨-, stored⟩ := Store.get_set_cases stored
        · exact List.mem_append_right _ (moved.updatedAt ▸ hnow)
        · exact List.mem_append_left _ (ih stored)

theorem Chronological.of_append {later : List Action} (h : Chronological (actions ++ later)) :
    Chronological actions := by
  unfold Chronological at h
  rw [List.filterMap_append] at h
  exact (List.pairwise_append.1 h).1

/-- Whatever becomes of a stored trade, it is not updated before it was. -/
theorem run_updatedAt {before later : List Action} (chronological : Chronological (before ++ later))
    (stored : (run tokens before).trades.get k = some t) :
    ∃ t', (run tokens (before ++ later)).trades.get k = some t' ∧ t.updatedAt ≤ t'.updatedAt := by
  induction later using List.reverseRecOn with
  | nil =>
    rw [List.append_nil]
    exact ⟨t, stored, le_rfl⟩
  | append_singleton later a ih =>
    rw [← List.append_assoc] at chronological ⊢
    obtain ⟨t₁, hget, hle⟩ := ih chronological.of_append
    obtain ⟨t₂, hget', hmove⟩ :=
      step_record_cases (a := a) (wellFormed_run tokens (before ++ later)) hget
    rw [run_snoc]
    refine ⟨t₂, hget', ?_⟩
    rcases hmove with rfl | ⟨env, c, rfl, hmove⟩
    · exact hle
    · have hnow : t₂.updatedAt = env.timestamp := by
        rcases hmove with ⟨-, moved⟩ | ⟨-, updated⟩
        · exact moved.updatedAt
        · exact updated
      -- The earlier record carries the time of an earlier call.
      have hmem := updatedAt_mem hget
      unfold Chronological at chronological
      rw [List.filterMap_append] at chronological
      have hlast := (List.pairwise_append.1 chronological).2.2 _ hmem env.timestamp
        (List.mem_singleton_self _)
      rw [hnow]
      exact hle.trans hlast

/-- What becomes of a stored trade over the rest of a run. -/
theorem run_record {before later : List Action} (fresh : NoReissue tokens (before ++ later))
    (stored : (run tokens before).trades.get k = some t) :
    ∃ t', (run tokens (before ++ later)).trades.get k = some t' ∧ t.SameTerms t' ∧
      (t.status.closed = true → t' = t) := by
  induction later using List.reverseRecOn with
  | nil =>
    rw [List.append_nil]
    exact ⟨t, stored, .refl t, fun _ => rfl⟩
  | append_singleton later a ih =>
    rw [← List.append_assoc] at fresh ⊢
    obtain ⟨t₁, hget, hterms, hclosed⟩ := ih fresh.of_append
    obtain ⟨t₂, hget', hmove⟩ := step_record (wellFormed_run tokens (before ++ later))
      (fun issues => fresh.last (issues.reissues hget)) hget
    rw [run_snoc]
    rcases hmove with rfl | ⟨env, c, rfl, -, moved⟩
    · exact ⟨t₂, hget', hterms, hclosed⟩
    · refine ⟨t₂, hget', hterms.trans moved.terms, fun h => ?_⟩
      rw [hclosed h] at moved
      exact absurd (h.symm.trans moved.wasOpen) (by decide)

theorem keepsRecords_run (tokens : Token.Ledger Address) (actions : List Action) :
    KeepsRecords tokens actions := by
  have hrecord : ∀ p ∈ trail tokens actions, ∀ k t, p.1.trades.get k = some t →
      ¬ Issues k p.1 p.2 → ∃ t', (step p.1 p.2).trades.get k = some t' ∧ (t' = t ∨
        ∃ env c, p.2 = .call env c ∧ c.subject p.1 = some k ∧ t.Moved env.timestamp t') := by
    rintro ⟨s, a⟩ hp k t stored other
    obtain ⟨before, later, rfl, rfl⟩ := Machine.exists_append_of_mem_trail step hp
    exact step_record (wellFormed_run tokens before) other stored
  refine ⟨fun p hp k t stored other => ?_, fun p hp k t stored other hsubject => ?_,
    fun p hp k t stored other hclosed => ?_, fun p hp k t stored other => ?_, ?_⟩
  · obtain ⟨t', hget, rfl | ⟨_, _, _, _, moved⟩⟩ := hrecord p hp k t stored other
    · exact ⟨_, hget, .inl rfl⟩
    · exact ⟨t', hget, moved.status⟩
  · obtain ⟨t', hget, rfl | ⟨env, c, hcall, subject, _⟩⟩ := hrecord p hp k t stored other
    · exact hget
    · rw [hcall] at hsubject
      exact absurd subject hsubject
  · obtain ⟨t', hget, rfl | ⟨_, _, _, _, moved⟩⟩ := hrecord p hp k t stored other
    · exact hget
    · exact absurd (hclosed.symm.trans moved.wasOpen) (by decide)
  · obtain ⟨t', hget, rfl | ⟨_, _, _, _, moved⟩⟩ := hrecord p hp k t stored other
    · exact ⟨_, hget, .refl _⟩
    · exact ⟨t', hget, moved.terms⟩
  · rintro htime before later rfl k t stored
    exact run_updatedAt htime stored

/-- A run keeps its trades on the state machine wherever it does not issue their identifiers again,
and so throughout if it issues every identifier once. -/
theorem followsStateMachine_of_noReissue (tokens : Token.Ledger Address) (actions : List Action) :
    KeepsRecords tokens actions ∧
      (NoReissue tokens actions → FollowsStateMachine tokens actions) := by
  have hkeeps := keepsRecords_run tokens actions
  refine ⟨hkeeps, fun fresh => ?_⟩
  have hother : ∀ p ∈ trail tokens actions, ∀ k t, p.1.trades.get k = some t → ¬ Issues k p.1 p.2 :=
    fun p hp k t stored issues => fresh p hp (issues.reissues stored)
  refine ⟨fun p hp k t stored => hkeeps.status p hp k t stored (hother p hp k t stored),
    fun p hp k t stored => hkeeps.frame p hp k t stored (hother p hp k t stored), ?_, ?_,
    hkeeps.updatedAt⟩
  · rintro before later rfl k t stored hclosed
    obtain ⟨t', hget, -, hsame⟩ := run_record fresh stored
    rwa [hsame hclosed] at hget
  · rintro before later rfl k t stored
    obtain ⟨t', hget, hterms, -⟩ := run_record fresh stored
    exact ⟨t', hget, hterms⟩

theorem followsStateMachine_of_release :
    FollowsStateMachine Sample.tokens
      [Sample.setup, Sample.create none, Sample.call 3 Sample.alice (.deposit Sample.first),
        Sample.call 4 Sample.alice (.confirmDelivery Sample.first),
        Sample.call 5 Sample.alice (.releaseFunds Sample.first Sample.alice)] :=
  (followsStateMachine_of_noReissue _ _).2 (noReissue_of_creations_le (by decide))

/-- Alice opens a trade and cancels it. -/
def Sample.cancelled : List Action :=
  [Sample.setup, Sample.create none, Sample.call 3 Sample.alice (.cancelByBuyer Sample.first)]

/-- A cancelled trade comes back to life when its identifier is issued again. -/
theorem not_followsStateMachine_at_wrap :
    ¬ FollowsStateMachine Sample.tokens
      (Sample.countUp Sample.cancelled none ++ [Sample.create none]) := by
  intro h
  obtain ⟨s₁, s₂, trade, hrun₁, hrun₂, -, hkeep, hcreated, -, hbooks, -⟩ :=
    reissue_at_wrap Sample.tokens Sample.cancelled none (by decide) (by decide) (by simp)
      (by decide)
  obtain ⟨t, hget, hcancelled⟩ : ∃ t,
      (run Sample.tokens Sample.cancelled).trades.get Sample.first = some t ∧
        t.status = .cancelled := Option.map_eq_some_iff.1 (by decide)
  have hafter := h.absorbing _ _ rfl Sample.first t (by rw [hrun₁, hkeep, hget])
    (by rw [hcancelled]; rfl)
  rw [hrun₂, hbooks, Store.get_set_self] at hafter
  obtain rfl := Option.some.inj hafter
  exact absurd (hcreated.symm.trans hcancelled) (by decide)

end Amana.Escrow
