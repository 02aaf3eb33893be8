import Amana.Escrow.Folder
import Amana.Escrow.Funding

/-!
# The history of a trade

`DataKey::TradeHistory` is meant to be appended on each state transition.  Four transitions append
nothing: finalizing a path payment, `cancel_by_buyer`, `claim_expiry_refund` and a queued clawback
of the whole escrow.  A run without them keeps complete histories, from which the status of every
trade can be replayed, and only such a run does (`completeHistory_iff_recorded`).
-/

namespace Amana.Escrow

open Lib

variable {env : Env} {s s' : State} {a : Action} {c : Call} {k : Nat} {t t' : Trade}
  {d d' : Folder} {tokens : Token.Ledger Address} {actions : List Action}

def getTradeHistory (s : State) (tradeId : Nat) : List TradeEvent :=
  (s.tradeHistory.get tradeId).getD []

/-- The status an entry of a history moves the trade to, if it moves it at all. -/
def TradeEvent.target (e : TradeEvent) : Option TradeStatus :=
  if e.eventType = "created" then some .created
  else if e.eventType = "funded" then some .funded
  else if e.eventType = "delivered" then some .delivered
  else if e.eventType = "disputed" then some .disputed
  else if e.eventType = "released" then some .completed
  else if e.eventType = "resolved" then some .completed
  else if e.eventType = "cancelled" then some .cancelled
  else if e.eventType = "clawback_full" then some .cancelled
  else none

/-- The status a history leads to. -/
def replay (history : List TradeEvent) : Option TradeStatus :=
  history.foldl (fun status e => e.target.or status) none

theorem replay_snoc (history : List TradeEvent) (e : TradeEvent) :
    replay (history ++ [e]) = e.target.or (replay history) := by
  rw [replay, List.foldl_append]
  rfl

/-- The action creates trade `k` or changes its status. -/
def Transition (s : State) (a : Action) (k : Nat) : Prop :=
  Issues k s a ∨ ((step s a).trades.get k).map Trade.status ≠ (s.trades.get k).map Trade.status

/-- The histories of a run are complete. -/
structure CompleteHistory (tokens : Token.Ledger Address) (actions : List Action) : Prop where
  /-- Every creation and every change of status appends exactly one entry. -/
  appends : ∀ p ∈ trail tokens actions, ∀ k, Transition p.1 p.2 k →
    ∃ e, getTradeHistory (step p.1 p.2) k = getTradeHistory p.1 k ++ [e]
  /-- Entries are never removed or reordered. -/
  kept : ∀ before, before <+: actions → ∀ k,
    getTradeHistory (run tokens before) k <+: getTradeHistory (run tokens actions) k
  /-- The entries determine the status. -/
  determines : ∀ before, before <+: actions → ∀ k t, (run tokens before).trades.get k = some t →
    replay (getTradeHistory (run tokens before) k) = some t.status

/-- Whether a queued clawback takes all that is left in its trade. -/
def TakesAll (s : State) (operationId : Nat) : Prop :=
  ∃ q op trade, s.timelockOperation.get operationId = some q ∧ q.payload = .clawback op ∧
    s.trades.get op.tradeId = some trade ∧ op.clawbackAmount = trade.amount

/-- The calls that change a status without recording it. -/
def Call.Unrecorded (s : State) : Call → Prop
  | .finalizePathPayment .. | .cancelByBuyer .. | .claimExpiryRefund .. => True
  | .executeClawback id => TakesAll s id
  | _ => False

/-- The action is not a successful call of that kind. -/
def Recorded (s : State) : Action → Prop
  | .call env c => (invoke env s c).isOk = true → ¬ c.Unrecorded s
  | _ => True

/-! ## One entry -/

/-- A call that is recorded appends an entry for the new status, or leaves the status. -/
theorem Entry.history (h : Entry env s k t d c t' d') (stored : s.trades.get k = some t)
    (recorded : ¬ c.Unrecorded s) :
    d'.history = d.history ∧ t'.status = t.status ∨
      ∃ e : TradeEvent, d'.history = some (d.history.getD [] ++ [e]) ∧
        e.target.or (some t.status) = some t'.status := by
  cases h with
  | finalizePath _ | cancelByBuyer _ | expire _ _ _ _ _ => exact absurd trivial recorded
  | openPath _ | request _ _ _ _ | vote _ _ _ _ _ _ _ | evidence _ _ | video _ _ | manifest _ _ =>
    exact .inl ⟨rfl, rfl⟩
  | deposit _ _ record => exact .inr ⟨_, rfl, by rw [record]; rfl⟩
  | deliver _ _ record => exact .inr ⟨_, rfl, by rw [record]; rfl⟩
  | dispute _ _ _ record => exact .inr ⟨_, rfl, by rw [record]; rfl⟩
  | drop _ | override _ _ _ | agree _ _ _ _ | refund _ _ | release _ _ _ | resolve _ _ _ _
  | decide _ _ _ _ _ _ _ | fallback _ _ _ _ _ _ _ | extend _ => exact .inr ⟨_, rfl, rfl⟩
  | clawPart _ _ _ left =>
    refine .inr ⟨_, rfl, ?_⟩
    rw [Trade.clawed, if_neg left]
    rfl
  | clawAll _ _ _ left =>
    refine .inr ⟨_, rfl, ?_⟩
    rw [Trade.clawed, if_pos left]
    rfl
  | @clawQueued id q amount _ _ _ _ _ queued payload =>
    refine .inl ⟨rfl, ?_⟩
    have hleft : t.amount - amount ≠ 0 := fun hzero =>
      recorded ⟨q, _, t, queued, payload, stored, by dsimp only; omega⟩
    rw [Trade.clawed, if_neg hleft]

/-- Entries are only appended. -/
theorem Entry.history_isPrefix (h : Entry env s k t d c t' d') :
    d.history.getD [] <+: d'.history.getD [] := by
  cases h <;> first | exact List.prefix_rfl | exact List.prefix_append ..

/-- A call that is not recorded changes the status and leaves the history. -/
theorem Entry.of_unrecorded (h : Entry env s k t d c t' d') (stored : s.trades.get k = some t)
    (unrecorded : c.Unrecorded s) : d'.history = d.history ∧ t'.status ≠ t.status := by
  cases h with
  | finalizePath status => exact ⟨rfl, by simp [status]⟩
  | cancelByBuyer status => exact ⟨rfl, by simp [Trade.cancel, status]⟩
  | expire status _ _ _ _ => exact ⟨rfl, by simp [Trade.cancel, status]⟩
  | @clawQueued id q amount _ _ status _ _ queued payload =>
    obtain ⟨q', op, trade, hqueued, hpayload, hstored, hall⟩ := unrecorded
    obtain rfl := Option.some.inj (queued.symm.trans hqueued)
    obtain rfl := TimelockOpPayload.clawback.inj (payload.symm.trans hpayload)
    obtain rfl := Option.some.inj (stored.symm.trans hstored)
    have hleft : t.amount - amount = 0 := by
      dsimp only at hall
      omega
    refine ⟨rfl, ?_⟩
    rw [Trade.clawed, if_pos hleft]
    rcases status with e | e <;> simp [e]
  | deposit | openPath | drop | request | override | agree | refund | extend | deliver | release
  | dispute | resolve | vote | decide | fallback | evidence | video | manifest | clawPart
  | clawAll => exact unrecorded.elim

/-! ## Steps -/

theorem getTradeHistory_eq (s : State) (k : Nat) :
    getTradeHistory s k = (s.toFiles.folder k).history.getD [] := rfl

theorem history_isPrefix_step (wf : WellFormed s.toSettings s.toBooks) (a : Action) (k : Nat) :
    getTradeHistory s k <+: getTradeHistory (step s a) k := by
  have hchange := step_at wf a k
  simp only [getTradeHistory_eq]
  generalize step s a = s' at hchange
  cases hchange with
  | same _ _ folder => rw [folder]
  | create _ _ _ _ _ _ _ _ folder =>
    rw [folder]
    exact List.prefix_append ..
  | write _ _ _ _ _ _ entry => exact entry.history_isPrefix

/-- A recorded step appends one entry to the history of a trade it moves, and the history goes on
leading to the status. -/
theorem history_step (wf : WellFormed s.toSettings s.toBooks) (recorded : Recorded s a)
    (h : ∀ t, s.trades.get k = some t → replay (getTradeHistory s k) = some t.status) :
    (Transition s a k →
      ∃ e, getTradeHistory (step s a) k = getTradeHistory s k ++ [e]) ∧
    ∀ t, (step s a).trades.get k = some t →
      replay (getTradeHistory (step s a) k) = some t.status := by
  have hchange := step_at wf a k
  simp only [Transition, getTradeHistory_eq] at h ⊢
  generalize step s a = s' at hchange
  cases hchange with
  | same quiet record folder =>
    rw [record, folder]
    refine ⟨fun htransition => ?_, h⟩
    exact htransition.elim (absurd · quiet) (absurd rfl ·)
  | create trade _ _ _ _ status _ record folder =>
    rw [folder]
    refine ⟨fun _ => ⟨_, rfl⟩, fun t ht => ?_⟩
    obtain rfl := Option.some.inj (record.symm.trans ht)
    exact (replay_snoc ..).trans (by rw [status]; rfl)
  | @write env c _ t t' ok subject stored record entry =>
    have hrecorded : ¬ c.Unrecorded s := recorded (by rw [ok]; rfl)
    have hstatus := h t stored
    rcases entry.history stored hrecorded with ⟨hsame, hquiet⟩ | ⟨e, hlog, htarget⟩
    · rw [hsame]
      refine ⟨fun htransition => ?_, fun t₁ ht => ?_⟩
      · rcases htransition with hissues | hmoved
        · cases (creates_of_subject subject).symm.trans hissues.1
        · rw [record, stored, Option.map_some, Option.map_some, hquiet] at hmoved
          exact absurd rfl hmoved
      · obtain rfl := Option.some.inj (record.symm.trans ht)
        rw [hstatus, hquiet]
    · rw [hlog]
      refine ⟨fun _ => ⟨e, rfl⟩, fun t₁ ht => ?_⟩
      obtain rfl := Option.some.inj (record.symm.trans ht)
      rw [Option.getD_some, replay_snoc, hstatus, htarget]

/-- A step that is not recorded moves a trade without appending to its history. -/
theorem recorded_of_appends (wf : WellFormed s.toSettings s.toBooks)
    (h : ∀ k, Transition s a k →
      ∃ e, getTradeHistory (step s a) k = getTradeHistory s k ++ [e]) : Recorded s a := by
  cases a with
  | transfer | mint | burn => trivial
  | call env c =>
    intro hok hunrecorded
    obtain ⟨s', ok⟩ := isOk_iff.1 hok
    have hconfigures : c.configures = false := by
      cases c <;> first | rfl | exact hunrecorded.elim
    obtain ⟨k, hsubject⟩ : ∃ k, c.subject s = some k := by
      cases c <;> first | exact ⟨_, rfl⟩ | exact hunrecorded.elim | skip
      obtain ⟨q, op, _, hqueued, hpayload, -⟩ := hunrecorded
      exact ⟨op.tradeId, by simp [Call.subject, hqueued, QueuedOperation.target, hpayload]⟩
    obtain ⟨t, t', stored, record, entry⟩ := (invoke_filing wf hconfigures ok).of_subject hsubject
    obtain ⟨hsame, hmoved⟩ := entry.of_unrecorded stored hunrecorded
    have hstep := step_call_of_ok ok
    obtain ⟨e, happend⟩ := h k (.inr (by rw [hstep, record, stored]; simpa using hmoved))
    rw [hstep, getTradeHistory_eq, getTradeHistory_eq, hsame] at happend
    exact absurd happend (by simp)

/-! ## Runs -/

theorem history_isPrefix_run (tokens : Token.Ledger Address) (before later : List Action)
    (k : Nat) :
    getTradeHistory (run tokens before) k <+: getTradeHistory (run tokens (before ++ later)) k := by
  induction later using List.reverseRecOn with
  | nil => rw [List.append_nil]
  | append_singleton later a ih =>
    rw [← List.append_assoc, run_snoc]
    exact ih.trans (history_isPrefix_step (wellFormed_run tokens _) a k)

/-- The histories of a run are complete exactly when it has no call that changes a status without
recording it. -/
theorem completeHistory_iff_recorded (tokens : Token.Ledger Address) (actions : List Action) :
    CompleteHistory tokens actions ↔ ∀ p ∈ trail tokens actions, Recorded p.1 p.2 := by
  constructor
  · rintro h ⟨s, a⟩ hp
    obtain ⟨before, later, rfl, rfl⟩ := Machine.exists_append_of_mem_trail step hp
    exact recorded_of_appends (wellFormed_run tokens before) (h.appends _ hp)
  · intro h
    have hreplay : ∀ before, before <+: actions → ∀ k t,
        (run tokens before).trades.get k = some t →
          replay (getTradeHistory (run tokens before) k) = some t.status := by
      intro before hbefore
      refine (Machine.run_invariant step
        (P := fun s => WellFormed s.toSettings s.toBooks ∧ ∀ k t, s.trades.get k = some t →
          replay (getTradeHistory s k) = some t.status)
        ⟨wellFormed_deployed tokens, fun _ _ ht => by cases ht⟩ fun p hp hkeep => ?_).2
      have hrecorded := h p (Machine.trail_of_isPrefix step hbefore hp)
      exact ⟨wellFormed_step hkeep.1 p.2,
        fun k => (history_step hkeep.1 hrecorded (hkeep.2 k)).2⟩
    refine ⟨?_, ?_, hreplay⟩
    · rintro ⟨s, a⟩ hp k htransition
      obtain ⟨before, later, rfl, rfl⟩ := Machine.exists_append_of_mem_trail step hp
      exact (history_step (wellFormed_run tokens before) (h _ hp)
        (hreplay before ⟨_, rfl⟩ k)).1 htransition
    · rintro before ⟨later, rfl⟩ k
      exact history_isPrefix_run tokens before later k

/-- A path payment funds a trade whose history still ends with its creation. -/
theorem not_completeHistory_of_pathPayment :
    ¬ CompleteHistory Sample.tokens (Sample.converting 100 100 ++ [Sample.finalize]) := by
  intro h
  obtain ⟨t, stored, hfunded⟩ : ∃ t, (run Sample.tokens (Sample.converting 100 100 ++
      [Sample.finalize])).trades.get Sample.first = some t ∧ t.status = .funded :=
    Option.map_eq_some_iff.1 (by decide)
  have hreplay := h.determines _ List.prefix_rfl Sample.first t stored
  have hcreated : replay (getTradeHistory (run Sample.tokens (Sample.converting 100 100 ++
      [Sample.finalize])) Sample.first) = some .created := by decide
  rw [hcreated, hfunded] at hreplay
  cases hreplay

end Amana.Escrow
