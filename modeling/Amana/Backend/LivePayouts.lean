import Amana.Backend.MilestoneRelease
import Mathlib.Data.List.TakeWhile

/-!
# Payouts of one milestone

The table knows one intent for each idempotency key, and the key of a release may come from the
request.  The route does not look for another intent of the same milestone, so that requests under
different keys all receive a transaction.  Where an intent is only created when no other one of its
milestone is live, and an intent that has failed is left alone once another one was created, no
request receives a transaction beside a live intent (`one_live_payout`).
-/

namespace Amana.Backend

open Lib Lib.Database Lib.Jobs

variable {config : PayoutConfig} {hash : String → String} {i : Nat} {key k k' : String}
  {s : Payouts} {w : PayoutWorld} {as : List PayoutStep}

/-- The trade and the milestone an intent is about. -/
def PayoutIntent.payout (row : PayoutIntent) : String × Option Nat :=
  (row.tradeId, row.milestoneIndex)

def PayoutIntentInput.payout (input : PayoutIntentInput) : String × Option Nat :=
  (input.tradeId, input.milestoneIndex)

/-- `PENDING`, `SUBMITTED` or `CONFIRMED`. -/
def PayoutIntent.live (row : PayoutIntent) : Bool :=
  [PayoutIntentStatus.pending, .submitted, .confirmed].contains row.status

/-- The keys of the intents that were created after the one under a key. -/
def Payouts.later (s : Payouts) (key : String) : List String :=
  (s.keys.dropWhile fun k => k ≠ key).tail

/-- The intent under the key is about the payout, and so is an earlier one, which is live. -/
def Payouts.besideLive (s : Payouts) (payout : String × Option Nat) (key : String) : Bool :=
  (s.intents key).any (fun row => row.payout = payout) &&
    s.keys.any fun k => (s.later k).contains key &&
      (s.intents k).any fun row => row.payout = payout && row.live

/-- The workers that have responded with a transaction for the payout while an earlier intent of it
is live. -/
def paidBesideLive (w : PayoutWorld) (payout : String × Option Nat) : List Nat :=
  (List.range w.workers.length).filter fun i =>
    match w.result i with
    | some (.responded (.ok (.ok _ key))) => w.shared.besideLive payout key
    | _ => false

/-- At any time, at most one request has received a transaction beside a live intent. -/
def OneLivePayout (config : PayoutConfig) (s : Payouts) (as : List PayoutStep) : Prop :=
  ∀ before, before <+: as → ∀ payout,
    (paidBesideLive (run (payouts config) (.fresh s) before) payout).length ≤ 1

/-- The update makes the intent live. -/
def IntentUpdate.revives : IntentUpdate → Bool
  | .submitted _ | .confirmed _ => true
  | .duplicate | .failed _ => false

/-- An intent is only created when all the others for its payout have failed, and one that has
failed only becomes live again when no other one was created since. -/
def KeepsAlone (given : PayoutInput) (s : Payouts) : PayoutOp → Prop
  | .createIntent input key => given.connection ≠ .down → s.intents key = none →
    ∀ k ∈ s.keys, ∀ row ∈ s.intents k, row.payout = input.payout → row.status = .failed
  | .updateIntent key data => given.connection ≠ .down → data.revives = true →
    ∀ row ∈ s.intents key, row.status = .failed →
      ∀ k ∈ s.later key, ∀ row' ∈ s.intents k, row'.payout ≠ row.payout
  | _ => True

instance (given : PayoutInput) (s : Payouts) (op : PayoutOp) :
    Decidable (KeepsAlone given s op) := by
  induction op using PayoutOp.casesOn <;> dsimp only [KeepsAlone] <;> infer_instance

/-- What is written next keeps to this. -/
def WritesAlone (w : PayoutWorld) (a : PayoutStep) : Prop :=
  Permits (fun _ op given s => KeepsAlone given s op) (fun _ _ => True) (fun _ _ => True) w a

instance (w : PayoutWorld) (a : PayoutStep) : Decidable (WritesAlone w a) :=
  inferInstanceAs (Decidable (Permits ..))

/-- The invariant: an intent with a later one for the same payout has failed. -/
structure LiveAlone (s : Payouts) : Prop where
  stored : ∀ k ∈ s.keys, (s.intents k).isSome = true
  failed : ∀ k, ∀ k' ∈ s.later k, ∀ row row', s.intents k = some row → s.intents k' = some row' →
    row.payout = row'.payout → row.status = .failed

theorem Payouts.mem_of_later (h : k' ∈ s.later k) : k' ∈ s.keys :=
  (List.dropWhile_sublist _).subset (List.mem_of_mem_tail h)

theorem mem_of_dropWhile {keys : List String} (h : keys.dropWhile (fun x => x ≠ k) ≠ []) :
    k ∈ keys := by
  by_contra hk
  apply h
  apply List.dropWhile_eq_nil_iff.2
  intro x hx
  simpa using ne_of_mem_of_not_mem hx hk

theorem Payouts.mem_keys_of_later (h : k' ∈ s.later k) : k ∈ s.keys := by
  apply mem_of_dropWhile
  intro hnil
  rw [later, hnil] at h
  cases h

/-- What was created after an intent, once another one is created. -/
theorem Payouts.later_insert {row : PayoutIntent} (h : k' ∈ (s.insert i key row).later k) :
    k' ∈ s.later k ∨ k' = key ∧ k ∈ s.keys := by
  have hkeys : (s.insert i key row).later k =
      ((s.keys ++ [key]).dropWhile fun x => x ≠ k).tail := rfl
  rw [hkeys, List.dropWhile_append] at h
  split at h
  · by_cases hkey : key = k
    · simp [hkey] at h
    · simp [hkey] at h
  · rename_i hsome
    have hne : s.keys.dropWhile (fun x => x ≠ k) ≠ [] := by
      simpa only [List.isEmpty_iff] using hsome
    rw [List.tail_append_of_ne_nil hne] at h
    obtain hold | hnew := List.mem_append.1 h
    · exact .inl hold
    · exact .inr ⟨List.mem_singleton.1 hnew, mem_of_dropWhile hne⟩

theorem LiveAlone.of_none (keys : s.keys = []) : LiveAlone s := by
  refine ⟨by simp [keys], fun k k' h => ?_⟩
  have := Payouts.mem_of_later h
  simp [keys] at this

/-- Nothing is live beside a later intent. -/
theorem LiveAlone.not_besideLive (h : LiveAlone s) (payout : String × Option Nat) :
    s.besideLive payout key = false := by
  by_contra hbeside
  simp only [Payouts.besideLive, Bool.not_eq_false, Bool.and_eq_true, Option.any_eq_true,
    List.any_eq_true, List.contains_iff_mem, decide_eq_true_eq] at hbeside
  obtain ⟨⟨row', hrow', hpayout'⟩, k, -, hlater, row, hrow, hpayout, hlive⟩ := hbeside
  have hfailed := h.failed k key hlater row row' hrow hrow' (hpayout.trans hpayout'.symm)
  rw [PayoutIntent.live, hfailed] at hlive
  cases hlive

theorem LiveAlone.insert {data : PayoutIntentInput} (h : LiveAlone s) (free : s.intents key = none)
    (alone : ∀ k ∈ s.keys, ∀ row ∈ s.intents k, row.payout = data.payout → row.status = .failed) :
    LiveAlone (s.insert i key (data.row key s.now)) := by
  have hfresh : key ∉ s.keys := by
    intro hmem
    have := h.stored key hmem
    rw [free] at this
    cases this
  have hother {k : String} (hk : k ∈ s.keys) :
      (s.insert i key (data.row key s.now)).intents k = s.intents k :=
    Function.update_of_ne (ne_of_mem_of_not_mem hk hfresh) ..
  constructor
  · intro k hk
    obtain hold | hnew := List.mem_append.1 hk
    · rw [hother hold]
      exact h.stored k hold
    · rw [List.mem_singleton.1 hnew]
      simp [Payouts.insert]
  · intro k k' hlater row row' hrow hrow' hpayout
    obtain hold | ⟨rfl, hk⟩ := Payouts.later_insert hlater
    · rw [hother (Payouts.mem_keys_of_later hold)] at hrow
      rw [hother (Payouts.mem_of_later hold)] at hrow'
      exact h.failed k k' hold row row' hrow hrow' hpayout
    · rw [hother hk] at hrow
      have hnew : row' = data.row k' s.now := by
        simpa [Payouts.insert, eq_comm] using hrow'
      apply alone k hk row hrow
      rw [hpayout, hnew]
      rfl

theorem IntentUpdate.apply_payout (data : IntentUpdate) (now : Nat) (row : PayoutIntent) :
    (data.apply now row).payout = row.payout := by
  cases data <;> rfl

/-- An update that does not revive an intent leaves it failed. -/
theorem IntentUpdate.apply_failed {data : IntentUpdate} {now : Nat} {row : PayoutIntent}
    (h : row.status = .failed) (revives : data.revives = false) :
    (data.apply now row).status = .failed := by
  cases data with
  | duplicate => exact h
  | failed => rfl
  | submitted | confirmed => cases revives

theorem LiveAlone.put {data : IntentUpdate} {row : PayoutIntent} (h : LiveAlone s)
    (found : s.intents key = some row)
    (alone : data.revives = true → row.status = .failed →
      ∀ k ∈ s.later key, ∀ row' ∈ s.intents k, row'.payout ≠ row.payout) :
    LiveAlone (s.put key (data.apply s.now row)) := by
  -- What is stored under a key now was stored there before, for the same payout.
  have hbefore {k : String} {new : PayoutIntent}
      (hnew : (s.put key (data.apply s.now row)).intents k = some new) :
      ∃ old, s.intents k = some old ∧ old.payout = new.payout ∧
        (k ≠ key ∧ new = old ∨ k = key ∧ old = row ∧ new = data.apply s.now row) := by
    by_cases hk : k = key
    · subst hk
      have hrow : data.apply s.now row = new := by simpa [Payouts.put] using hnew
      exact ⟨row, found, by rw [← hrow, data.apply_payout], .inr ⟨rfl, rfl, hrow.symm⟩⟩
    · exact ⟨new, (Function.update_of_ne hk ..).symm.trans hnew, rfl, .inl ⟨hk, rfl⟩⟩
  constructor
  · intro k hk
    by_cases hkey : k = key
    · simp [Payouts.put, hkey]
    · simpa [Payouts.put, hkey] using h.stored k hk
  · intro k k' hlater new new' hnew hnew' hpayout
    obtain ⟨old', hold', hpayout', -⟩ := hbefore hnew'
    obtain ⟨old, hold, hsame, ⟨-, rfl⟩ | ⟨rfl, rfl, rfl⟩⟩ := hbefore hnew
    · exact h.failed k k' hlater new old' hold hold' (hpayout.trans hpayout'.symm)
    · have hfailed := h.failed k k' hlater old old' hold hold'
        (hsame.trans (hpayout.trans hpayout'.symm))
      apply IntentUpdate.apply_failed hfailed
      by_contra hrevives
      exact alone (by simpa using hrevives) hfailed k' hlater old' hold'
        (hpayout'.trans (hpayout.symm.trans hsame.symm))

/-- Answers keep the invariant where what is written keeps to it. -/
theorem LiveAlone.answer {op : PayoutOp} {given : PayoutInput} (h : LiveAlone s)
    (keeps : KeepsAlone given s op) : LiveAlone (answer hash i op given s).2 := by
  have heffect := answer_effect hash i op given s
  generalize (Backend.answer hash i op given s).2 = s' at heffect
  cases heffect with
  | nothing => exact h
  | create data key free reached => exact h.insert free (keeps reached free)
  | update key data row found reached =>
    exact h.put found fun hrevives => keeps reached hrevives row found
  | build => exact ⟨h.stored, h.failed⟩

theorem LiveAlone.drift (h : LiveAlone s) (e : PayoutChange) : LiveAlone (e.apply s) := by
  cases e <;> exact ⟨h.stored, h.failed⟩

theorem LiveAlone.step {a : PayoutStep} (h : LiveAlone w.shared) (writes : WritesAlone w a) :
    LiveAlone (step (payouts config) w a).shared := by
  refine shared_step (P := LiveAlone) h ?_ ?_
  · rintro i given c op next rfl found
    exact h.answer (writes c op next found)
  · intro e _
    exact h.drift e

/-- Where intents are live alone, no request receives a transaction beside a live intent. -/
theorem one_live_payout (config : PayoutConfig) (s : Payouts) (as : List PayoutStep)
    (start : s.keys = [])
    (writes : ∀ p ∈ trail (payouts config) (.fresh s) as, WritesAlone p.1 p.2) :
    OneLivePayout config s as ∧ ∀ before, before <+: as → ∀ payout,
      paidBesideLive (run (payouts config) (.fresh s) before) payout = [] := by
  have hnone : ∀ before, before <+: as → ∀ payout,
      paidBesideLive (run (payouts config) (.fresh s) before) payout = [] := by
    intro before hbefore payout
    have halone : LiveAlone (run (payouts config) (.fresh s) before).shared := by
      refine Machine.run_invariant _ (P := fun w : PayoutWorld => LiveAlone w.shared)
        (.of_none start) ?_
      intro p hp h
      exact h.step (writes p (Machine.trail_of_isPrefix _ hbefore hp))
    apply List.filter_eq_nil_iff.2
    intro i _
    split
    · simp [halone.not_besideLive]
    · simp
  refine ⟨fun before hbefore payout => ?_, hnone⟩
  rw [hnone before hbefore payout]
  exact Nat.zero_le 1

/-- The buyer asks for the same milestone three times, under three keys. -/
def Sample.threeKeys : List PayoutStep :=
  .call (.releaseMilestone (Sample.request "a")) :: Sample.released 0 ++
    (.call (.releaseMilestone (Sample.request "b")) :: Sample.released 1) ++
      .call (.releaseMilestone (Sample.request "c")) :: Sample.released 2

/-- The buyer asks for the milestone again only after the first payout has failed. -/
def Sample.retriedUnderOtherKey : List PayoutStep :=
  .call (.releaseMilestone (Sample.request "a")) :: Sample.released 0 ++
    [.call (.fail "a" "rejected"), .advance 1 Sample.reached] ++
      .call (.releaseMilestone (Sample.request "b")) :: Sample.released 2

theorem one_live_payout_retried :
    OneLivePayout Sample.payoutConfig Sample.unpaid Sample.retriedUnderOtherKey :=
  (one_live_payout Sample.payoutConfig Sample.unpaid Sample.retriedUnderOtherKey rfl
    (by decide)).1

/-- All three requests have received a transaction, two of them beside a live intent. -/
theorem not_oneLivePayout :
    paidBesideLive (run (payouts Sample.payoutConfig) (.fresh Sample.unpaid) Sample.threeKeys)
        ("7", some 0) = [1, 2] ∧
      ¬ OneLivePayout Sample.payoutConfig Sample.unpaid Sample.threeKeys := by
  have htwo : paidBesideLive (run (payouts Sample.payoutConfig) (.fresh Sample.unpaid)
      Sample.threeKeys) ("7", some 0) = [1, 2] := by
    decide
  refine ⟨htwo, fun hone => ?_⟩
  have := hone Sample.threeKeys List.prefix_rfl ("7", some 0)
  rw [htwo] at this
  simp at this

end Amana.Backend
