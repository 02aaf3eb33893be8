import Amana.Escrow.History

/-!
# The release sequence

The release sequence of a trade repeats, beside the record, when each step of the trade was taken.
Every entrypoint that moves a trade updates it by hand, and three do not: `finalize_path_payment`
does not note the funding, a queued clawback of the whole escrow does not note the cancellation,
and `create_trade` starts a new sequence under an identifier whose dispute record it leaves.  The
two copies agree all along a run exactly when it does none of these
(`sequencesAgree_iff_sequenced`).
-/

namespace Amana.Escrow

open Lib

variable {env : Env} {s s' : State} {a : Action} {c : Call} {k : Nat} {t t' : Trade}
  {d d' : Folder} {q : ReleaseSequence}

/-- The sequence says of a trade what its record and its dispute say. -/
structure ReleaseSequence.Agrees (q : ReleaseSequence) (t : Trade)
    (dispute : Option DisputeRecord) : Prop where
  fundedAt : q.fundedAt = t.fundedAt
  deliveredAt : q.deliveredAt = t.deliveredAt
  disputedAt : q.disputedAt.isSome = dispute.isSome
  cancelledAt : q.cancelledAt.isSome = true ↔ t.status = .cancelled
  /-- Exactly one of the two ways to complete a trade is stamped. -/
  completedAt : q.releasedAt.isSome ≠ q.resolvedAt.isSome ↔ t.status = .completed

/-- Every trade has a release sequence that agrees with it. -/
def SequencesAgree (s : State) : Prop :=
  ∀ k t, s.trades.get k = some t →
    ∃ q, s.releaseSequence.get k = some q ∧ q.Agrees t (s.disputeData.get k)

/-- The calls that move a trade and not its sequence. -/
def Call.Unsequenced (env : Env) (s : State) : Call → Prop
  | .finalizePathPayment .. => True
  | .executeClawback id => TakesAll s id
  | .createTrade .. => (s.disputeData.get (nextIdentifier env s)).isSome
  | _ => False

/-- The action is not a successful call of that kind. -/
def Sequenced (s : State) : Action → Prop
  | .call env c => (invoke env s c).isOk = true → ¬ c.Unsequenced env s
  | _ => True

/-! ## What holds whatever is called -/

/-- A trade that is not completed was stamped neither released nor resolved, and an unfunded one
not funded. -/
structure Stamped (t : Trade) (d : Folder) (q : ReleaseSequence) : Prop where
  sequence : d.sequence = some q
  ongoing : t.status ≠ .completed → q.releasedAt = none ∧ q.resolvedAt = none
  unfunded : t.status = .created → t.fundedAt = none

theorem Folder.stamp_sequence {updater : ReleaseSequence → Nat → ReleaseSequence}
    (h : d.sequence = some q) :
    (d.stamp env t updater).sequence = some (updater q env.timestamp) := by
  rw [Folder.stamp, h]
  rfl

theorem Folder.log_sequence {updater : ReleaseSequence → Nat → ReleaseSequence}
    {eventType data : String} {actor : Address} (h : d.sequence = some q) :
    ((d.stamp env t updater).log env eventType actor data).sequence =
      some (updater q env.timestamp) := Folder.stamp_sequence h

/-- What a call does to the sequence of a trade, and that it goes on agreeing if the call is one
that stamps it. -/
theorem Entry.sequence (h : Entry env s k t d c t' d') (stored : s.trades.get k = some t)
    (stamped : Stamped t d q) :
    ∃ q', Stamped t' d' q' ∧
      (¬ c.Unsequenced env s → q.Agrees t d.dispute → q'.Agrees t' d'.dispute) := by
  have hclosed := h.wasOpen
  have hcompleted : t.status ≠ .completed := fun e => by
    rw [e] at hclosed
    cases hclosed
  have hcancelled : t.status ≠ .cancelled := fun e => by
    rw [e] at hclosed
    cases hclosed
  obtain ⟨hsequence, hongoing, hunfunded⟩ := stamped
  obtain ⟨hreleased, hresolved⟩ := hongoing hcompleted
  -- The sequence of an open trade that agrees with it is not stamped cancelled.
  have hfresh (agrees : q.Agrees t d.dispute) : q.cancelledAt = none := by
    have := mt agrees.cancelledAt.1 hcancelled
    simpa using this
  cases h with
  | openPath | request | extend | vote | evidence | video =>
    exact ⟨q, ⟨hsequence, hongoing, hunfunded⟩, fun _ h => ⟨h.1, h.2, h.3, h.4, h.5⟩⟩
  | manifest =>
    exact ⟨_, ⟨Folder.stamp_sequence hsequence, hongoing, hunfunded⟩,
      fun _ h => ⟨h.1, h.2, h.3, h.4, h.5⟩⟩
  | deposit _ _ record =>
    subst record
    refine ⟨_, ⟨Folder.log_sequence hsequence,
      fun _ => ⟨hreleased, hresolved⟩, by simp⟩, fun _ h => ⟨rfl, h.2, h.3, ?_, ?_⟩⟩
    · simp [hfresh h]
    · simp [hreleased, hresolved]
  | finalizePath => exact ⟨q, ⟨hsequence, fun _ => ⟨hreleased, hresolved⟩, by simp⟩,
      fun hclean => absurd trivial hclean⟩
  | drop | override | refund =>
    refine ⟨_, ⟨Folder.log_sequence hsequence,
      fun _ => ⟨hreleased, hresolved⟩, by simp [Trade.cancel]⟩, fun _ h => ⟨h.1, h.2, h.3, ?_, ?_⟩⟩
    · simp [Trade.cancel]
    · simp [Trade.cancel, hreleased, hresolved]
  | @agree caller =>
    have hstamp : (d.cancelled env t caller).sequence =
        some { q with cancelledAt := some env.timestamp } := Folder.log_sequence hsequence
    refine ⟨_, ⟨hstamp, fun _ => ⟨hreleased, hresolved⟩, by simp [Trade.cancel]⟩,
      fun _ h => ⟨h.1, h.2, h.3, ?_, ?_⟩⟩
    · simp [Trade.cancel]
    · simp [Trade.cancel, hreleased, hresolved]
  | cancelByBuyer | expire =>
    refine ⟨_, ⟨Folder.stamp_sequence hsequence, fun _ => ⟨hreleased, hresolved⟩,
      by simp [Trade.cancel]⟩, fun _ h => ⟨h.1, h.2, h.3, ?_, ?_⟩⟩
    · simp [Trade.cancel]
    · simp [Trade.cancel, hreleased, hresolved]
  | deliver _ _ record =>
    subst record
    refine ⟨_, ⟨Folder.log_sequence hsequence,
      fun _ => ⟨hreleased, hresolved⟩, by simp⟩, fun _ h => ⟨h.1, rfl, h.3, ?_, ?_⟩⟩
    · simp [hfresh h]
    · simp [hreleased, hresolved]
  | dispute _ _ _ record =>
    subst record
    refine ⟨_, ⟨Folder.log_sequence hsequence,
      fun _ => ⟨hreleased, hresolved⟩, by simp⟩, fun _ h => ⟨h.1, h.2, rfl, ?_, ?_⟩⟩
    · simp [hfresh h]
    · simp [hreleased, hresolved]
  | release =>
    refine ⟨_, ⟨Folder.log_sequence hsequence,
      fun h => absurd rfl h, by simp [Trade.complete]⟩, fun _ h => ⟨h.1, h.2, h.3, ?_, ?_⟩⟩
    · simp [Trade.complete, hfresh h]
    · simp [Trade.complete, hresolved]
  | resolve | decide | fallback =>
    refine ⟨_, ⟨Folder.log_sequence hsequence,
      fun h => absurd rfl h, by simp [Trade.complete]⟩, fun _ h => ⟨h.1, h.2, h.3, ?_, ?_⟩⟩
    · simp [Trade.complete, hfresh h]
    · simp [Trade.complete, hreleased]
  | clawPart _ _ _ left =>
    rw [Trade.clawed, if_neg left]
    exact ⟨q, ⟨hsequence, hongoing, hunfunded⟩, fun _ h => ⟨h.1, h.2, h.3, h.4, h.5⟩⟩
  | clawAll _ _ _ left =>
    rw [Trade.clawed, if_pos left]
    refine ⟨_, ⟨Folder.log_sequence hsequence,
      fun _ => ⟨hreleased, hresolved⟩, by simp⟩, fun _ h => ⟨h.1, h.2, h.3, ?_, ?_⟩⟩
    · simp
    · simp [hreleased, hresolved]
  | @clawQueued id op amount _ _ _ _ _ queued payload =>
    by_cases hleft : t.amount - amount = 0
    · have htakes : TakesAll s id := ⟨op, _, t, queued, payload, stored, by dsimp only; omega⟩
      rw [Trade.clawed, if_pos hleft]
      exact ⟨q, ⟨hsequence, fun _ => ⟨hreleased, hresolved⟩, by simp⟩,
        fun hclean => absurd htakes hclean⟩
    · rw [Trade.clawed, if_neg hleft]
      exact ⟨q, ⟨hsequence, hongoing, hunfunded⟩, fun _ h => ⟨h.1, h.2, h.3, h.4, h.5⟩⟩

/-! ## Steps -/

/-- Every trade has a release sequence, stamped no further than the trade has come. -/
def AllStamped (s : State) : Prop :=
  ∀ k t, s.trades.get k = some t → ∃ q, Stamped t (s.toFiles.folder k) q

theorem allStamped_step (wf : WellFormed s.toSettings s.toBooks) (h : AllStamped s) (a : Action) :
    AllStamped (step s a) := by
  intro k t stored
  have hchange := step_at wf a k
  generalize step s a = s' at hchange stored
  cases hchange with
  | same _ record folder =>
    rw [folder]
    exact h k t (record ▸ stored)
  | create trade _ _ _ _ status stamps record folder =>
    obtain rfl := Option.some.inj (record.symm.trans stored)
    rw [folder]
    exact ⟨_, rfl, fun _ => ⟨rfl, rfl⟩, fun _ => stamps.1⟩
  | write t₀ t' _ _ stored₀ record entry =>
    obtain rfl := Option.some.inj (record.symm.trans stored)
    obtain ⟨q, hstamped⟩ := h k t₀ stored₀
    obtain ⟨q', hstamped', -⟩ := entry.sequence stored₀ hstamped
    exact ⟨q', hstamped'⟩

theorem sequencesAgree_step (wf : WellFormed s.toSettings s.toBooks) (stamped : AllStamped s)
    (h : SequencesAgree s) (hclean : Sequenced s a) : SequencesAgree (step s a) := by
  intro k t stored
  show ∃ q, ((step s a).toFiles.folder k).sequence = some q ∧
    q.Agrees t ((step s a).toFiles.folder k).dispute
  have hchange := step_at wf a k
  generalize step s a = s' at hchange stored
  cases hchange with
  | same _ record folder =>
    rw [folder]
    exact h k t (record ▸ stored)
  | @create env c _ trade ok creates _ issued status _ record folder =>
    obtain rfl := Option.some.inj (record.symm.trans stored)
    have hundisputed : s.disputeData.get k = none := by
      have hclean := hclean (by rw [ok]; rfl)
      cases c with
      | createTrade =>
        rw [issued]
        simpa [Call.Unsequenced] using hclean
      | _ => cases creates
    rw [folder]
    refine ⟨_, rfl, rfl, rfl, ?_, ?_, ?_⟩
    · exact (congrArg Option.isSome hundisputed).symm
    · simp [defaultReleaseSequence, status]
    · simp [defaultReleaseSequence, status]
  | @write env c _ t₀ t' ok _ stored₀ record entry =>
    obtain rfl := Option.some.inj (record.symm.trans stored)
    obtain ⟨q, hstamped⟩ := stamped k t₀ stored₀
    obtain ⟨q₀, hsequence, hagrees⟩ := h k t₀ stored₀
    obtain rfl := Option.some.inj (hstamped.sequence.symm.trans hsequence)
    obtain ⟨q', hstamped', hkeep⟩ := entry.sequence stored₀ hstamped
    exact ⟨q', hstamped'.sequence, hkeep (hclean (by rw [ok]; rfl)) hagrees⟩

/-- After a call that moves a trade and not its sequence, the two do not agree. -/
theorem sequenced_of_agree (wf : WellFormed s.toSettings s.toBooks) (stamped : AllStamped s)
    (h : SequencesAgree s) (hafter : SequencesAgree (step s a)) : Sequenced s a := by
  cases a with
  | transfer | mint | burn => trivial
  | call env c =>
    intro hok hunsequenced
    obtain ⟨s', ok⟩ := isOk_iff.1 hok
    rw [step_call_of_ok ok] at hafter
    cases c with
    | finalizePathPayment k caller =>
      obtain ⟨t, t', stored, record, entry⟩ := (invoke_filing wf rfl ok).of_subject rfl
      obtain ⟨q, hsequence, hagrees⟩ := h k t stored
      obtain ⟨q', hsequence', hagrees'⟩ := hafter k t' record
      obtain ⟨_, -, -, hunfunded⟩ := stamped k t stored
      generalize hd : s'.toFiles.folder k = d' at entry
      cases entry with
      | finalizePath status =>
        have hsame : s'.releaseSequence.get k = s.releaseSequence.get k :=
          congrArg Folder.sequence hd
        rw [hsame, hsequence] at hsequence'
        obtain rfl := Option.some.inj hsequence'
        have hnone := hagrees.fundedAt.trans (hunfunded status)
        cases hnone.symm.trans hagrees'.fundedAt
    | executeClawback id =>
      obtain ⟨op, claw, _, hqueued, hpayload, hstored, hall⟩ := hunsequenced
      have hsubject : Call.subject s (.executeClawback id) = some claw.tradeId := by
        simp [Call.subject, hqueued, QueuedOperation.target, hpayload]
      obtain ⟨t, t', stored, record, entry⟩ := (invoke_filing wf rfl ok).of_subject hsubject
      obtain rfl := Option.some.inj (stored.symm.trans hstored)
      obtain ⟨q, hsequence, hagrees⟩ := h _ t stored
      obtain ⟨q', hsequence', hagrees'⟩ := hafter _ t' record
      generalize hd : s'.toFiles.folder claw.tradeId = d' at entry
      cases entry with
      | @clawQueued _ _ amount _ _ status _ _ queued payload =>
        obtain rfl := Option.some.inj (queued.symm.trans hqueued)
        have hamount : amount = claw.clawbackAmount := congrArg TimelockClawbackOp.clawbackAmount
          (TimelockOpPayload.clawback.inj (payload.symm.trans hpayload))
        have hleft : t.amount - amount = 0 := by omega
        have hsame : s'.releaseSequence.get claw.tradeId = s.releaseSequence.get claw.tradeId :=
          congrArg Folder.sequence hd
        rw [hsame, hsequence] at hsequence'
        obtain rfl := Option.some.inj hsequence'
        have hcancelled := hagrees.cancelledAt.1 (hagrees'.cancelledAt.2 (if_pos hleft))
        rcases status with e | e <;> cases e.symm.trans hcancelled
    | createTrade =>
      obtain ⟨trade, -, -, record, hfolder⟩ := (invoke_filing wf rfl ok).of_creates rfl
      obtain ⟨q', hsequence', hagrees'⟩ := hafter _ trade record
      have hdefault : s'.releaseSequence.get (nextIdentifier env s) =
          some (defaultReleaseSequence trade) := congrArg Folder.sequence hfolder
      have hdispute : s'.disputeData.get (nextIdentifier env s) =
          s.disputeData.get (nextIdentifier env s) := congrArg Folder.dispute hfolder
      rw [hdefault] at hsequence'
      obtain rfl := Option.some.inj hsequence'
      have hnone := hagrees'.disputedAt
      rw [hdispute, show (s.disputeData.get (nextIdentifier env s)).isSome = true from
        hunsequenced] at hnone
      cases hnone
    | _ => exact hunsequenced.elim

/-- In every state of a run the release sequences agree with the trades, exactly when no call of the
run moves a trade and not its sequence. -/
theorem sequencesAgree_iff_sequenced (tokens : Token.Ledger Address) (actions : List Action) :
    (∀ before, before <+: actions → SequencesAgree (run tokens before)) ↔
      ∀ p ∈ trail tokens actions, Sequenced p.1 p.2 :=
  Machine.always_iff step (W := fun s => WellFormed s.toSettings s.toBooks ∧ AllStamped s) actions
    ⟨wellFormed_deployed tokens, fun _ _ ht => by cases ht⟩ (fun _ _ ht => by cases ht)
    (fun _ a h => ⟨wellFormed_step h.1 a, allStamped_step h.1 h.2 a⟩)
    (fun _ _ h hagree hclean => sequencesAgree_step h.1 h.2 hagree hclean)
    (fun _ _ h hagree hafter => sequenced_of_agree h.1 h.2 hagree hafter)

/-- A path payment funds a trade whose sequence knows of no funding. -/
theorem not_sequencesAgree_of_pathPayment :
    ¬ SequencesAgree (run Sample.tokens (Sample.converting 100 100 ++ [Sample.finalize])) := by
  intro h
  obtain ⟨t, stored, hfunded⟩ : ∃ t, (run Sample.tokens (Sample.converting 100 100 ++
      [Sample.finalize])).trades.get Sample.first = some t ∧ t.fundedAt = some 4 :=
    Option.map_eq_some_iff.1 (by decide)
  obtain ⟨q, hsequence, hagrees⟩ := h Sample.first t stored
  have hunstamped : ((run Sample.tokens (Sample.converting 100 100 ++
      [Sample.finalize])).releaseSequence.get Sample.first).map ReleaseSequence.fundedAt =
        some none := by decide
  rw [hsequence, Option.map_some, hagrees.fundedAt, hfunded] at hunstamped
  cases hunstamped

end Amana.Escrow
