import Amana.Escrow.History
import Amana.Escrow.Quorum

/-!
# The audit trail

Evidence, votes and history are appended to, and documents are written once, whatever is called and
whatever becomes of the trade (`auditTrail_run`).  The dispute record is the one document without a
check of its own: `initiate_dispute` relies on the status, which `create_trade` resets.  So it is
kept as long as the identifier of the trade is not issued again.
-/

namespace Amana.Escrow

open Lib

variable {env : Env} {s s' : State} {a : Action} {c : Call} {k : Nat} {t t' : Trade}
  {d d' d'' : Folder} {tokens : Token.Ledger Address} {actions : List Action}

/-- What is on record in `d` is still on record in `d'`, the dispute record apart. -/
structure Folder.Kept (d d' : Folder) : Prop where
  evidenceList : d.evidenceList.getD [] <+: d'.evidenceList.getD []
  votes : d.voteList <+: d'.voteList
  history : d.history.getD [] <+: d'.history.getD []
  openedAt : ∀ now ∈ d.votes.map QuorumState.openedAt, now ∈ d'.votes.map QuorumState.openedAt
  manifest : ∀ record ∈ d.manifest, record ∈ d'.manifest
  videoProof : ∀ record ∈ d.videoProof, record ∈ d'.videoProof

/-- The dispute record in `d` is still there in `d'`. -/
def Folder.DisputeKept (d d' : Folder) : Prop := ∀ record ∈ d.dispute, record ∈ d'.dispute

/-- Later states of a run keep the whole audit trail of trade `k`. -/
structure AppendOnly (tokens : Token.Ledger Address) (actions : List Action) (k : Nat) : Prop where
  kept : ∀ before, before <+: actions →
    ((run tokens before).toFiles.folder k).Kept ((run tokens actions).toFiles.folder k)
  dispute : ∀ before, before <+: actions →
    ((run tokens before).toFiles.folder k).DisputeKept ((run tokens actions).toFiles.folder k)

/-- The run creates trade `k` only while there is no trade `k`. -/
def IssuedOnce (tokens : Token.Ledger Address) (actions : List Action) (k : Nat) : Prop :=
  ∀ p ∈ trail tokens actions, Issues k p.1 p.2 → p.1.trades.get k = none

theorem NoReissue.issuedOnce (h : NoReissue tokens actions) (k : Nat) :
    IssuedOnce tokens actions k := fun p hp issues => NoReissue.not_stored (h p hp) issues

theorem IssuedOnce.of_append {later : List Action} (h : IssuedOnce tokens (actions ++ later) k) :
    IssuedOnce tokens actions k := fun p hp =>
  h p (Machine.trail_of_isPrefix step (List.prefix_append ..) hp)

theorem IssuedOnce.last {a : Action} (h : IssuedOnce tokens (actions ++ [a]) k)
    (issues : Issues k (run tokens actions) a) : (run tokens actions).trades.get k = none :=
  h _ (Machine.mem_trail_append step (.deployed tokens) actions [] a) issues

/-! ## The trail without the dispute record -/

theorem Folder.Kept.refl (d : Folder) : d.Kept d :=
  ⟨List.prefix_rfl, List.prefix_rfl, List.prefix_rfl, fun _ => id, fun _ => id, fun _ => id⟩

theorem Folder.Kept.trans (h : d.Kept d') (h' : d'.Kept d'') : d.Kept d'' where
  evidenceList := h.evidenceList.trans h'.evidenceList
  votes := h.votes.trans h'.votes
  history := h.history.trans h'.history
  openedAt := fun now hnow => h'.openedAt now (h.openedAt now hnow)
  manifest := fun record hrecord => h'.manifest record (h.manifest record hrecord)
  videoProof := fun record hrecord => h'.videoProof record (h.videoProof record hrecord)

/-- A vote goes to the ballot that is there. -/
theorem Folder.cast_openedAt (d : Folder) (env : Env) (k : Nat) (vote : MediatorVote) (now : Nat)
    (h : now ∈ d.votes.map QuorumState.openedAt) :
    now ∈ (some (d.cast env k vote)).map QuorumState.openedAt := by
  obtain ⟨q, hq, rfl⟩ := Option.mem_map.1 h
  simp only [Folder.cast, Folder.ballot, Option.mem_def.1 hq]
  rfl

theorem Entry.openedAt (h : Entry env s k t d c t' d') :
    ∀ now ∈ d.votes.map QuorumState.openedAt, now ∈ d'.votes.map QuorumState.openedAt := by
  cases h with
  | vote _ _ _ _ _ ballot _ | decide _ _ _ _ _ ballot _ =>
    subst ballot
    exact d.cast_openedAt env k _
  | _ => exact fun _ => id

theorem Entry.evidenceList (h : Entry env s k t d c t' d') :
    d.evidenceList.getD [] <+: d'.evidenceList.getD [] := by
  cases h with
  | evidence => apply List.prefix_append
  | _ => exact List.prefix_rfl

/-- A manifest is written to an empty slot. -/
theorem Entry.manifest_kept (h : Entry env s k t d c t' d') :
    ∀ record ∈ d.manifest, record ∈ d'.manifest := by
  cases h with
  | manifest _ fresh =>
    rw [fresh]
    simp
  | _ => exact fun _ => id

theorem Entry.videoProof_kept (h : Entry env s k t d c t' d') :
    ∀ record ∈ d.videoProof, record ∈ d'.videoProof := by
  cases h with
  | video _ fresh =>
    rw [fresh]
    simp
  | _ => exact fun _ => id

theorem Entry.voteList_isPrefix (h : Entry env s k t d c t' d') : d.voteList <+: d'.voteList := by
  obtain ⟨-, hsame⟩ | ⟨_, _, _, -, -, -, hvotes, -⟩ := h.votes
  · rw [hsame]
  · rw [hvotes]
    apply List.prefix_append

theorem Entry.kept (h : Entry env s k t d c t' d') : d.Kept d' :=
  ⟨h.evidenceList, h.voteList_isPrefix, h.history_isPrefix, h.openedAt, h.manifest_kept,
    h.videoProof_kept⟩

theorem kept_step (wf : WellFormed s.toSettings s.toBooks) (a : Action) (k : Nat) :
    (s.toFiles.folder k).Kept ((step s a).toFiles.folder k) := by
  have hchange := step_at wf a k
  generalize step s a = s' at hchange
  cases hchange with
  | same _ _ folder =>
    rw [folder]
    apply Folder.Kept.refl
  | create _ _ _ _ _ _ _ _ folder =>
    -- A creation starts a release sequence and logs; it clears nothing that is there.
    rw [folder]
    exact ⟨List.prefix_rfl, List.prefix_rfl, List.prefix_append .., fun _ => id, fun _ => id,
      fun _ => id⟩
  | write _ _ _ _ _ _ entry => exact entry.kept

theorem kept_run (tokens : Token.Ledger Address) {before : List Action} (h : before <+: actions)
    (k : Nat) :
    ((run tokens before).toFiles.folder k).Kept ((run tokens actions).toFiles.folder k) := by
  obtain ⟨later, rfl⟩ := h
  induction later using List.reverseRecOn with
  | nil =>
    rw [List.append_nil]
    apply Folder.Kept.refl
  | append_singleton later a ih =>
    rw [← List.append_assoc, run_snoc]
    exact ih.trans (kept_step (wellFormed_run tokens _) a k)

/-! ## The dispute record -/

/-- The statuses before a dispute. -/
def TradeStatus.early : TradeStatus → Bool
  | .created | .funded | .delivered => true
  | .completed | .disputed | .cancelled => false

/-- A trade that was not disputed has no dispute record. -/
def Undisputed (s : State) (k : Nat) : Prop :=
  ∀ t, s.trades.get k = some t → t.status.early = true → s.disputeData.get k = none

theorem Entry.dispute_of_early (h : Entry env s k t d c t' d') (early : t'.status.early = true) :
    t.status.early = true ∧ d'.dispute = d.dispute := by
  cases h with
  | dispute _ _ _ record =>
    rw [record] at early
    cases early
  | deposit status | finalizePath status | deliver status =>
    rw [status]
    exact ⟨rfl, rfl⟩
  | drop | cancelByBuyer | override | agree | refund | expire | release | resolve | decide
  | fallback => cases early
  | openPath | request | extend | vote | evidence | video | manifest => exact ⟨early, rfl⟩
  | clawPart status | clawAll status | clawQueued status =>
    obtain status | status := status
    · rw [status]
      exact ⟨rfl, rfl⟩
    · simp only [Trade.clawed, status] at early
      split at early <;> cases early

/-- Only a trade that was not disputed gets a dispute record. -/
theorem Entry.disputeKept (h : Entry env s k t d c t' d')
    (undisputed : t.status.early = true → d.dispute = none) : d.DisputeKept d' := by
  cases h with
  | dispute status =>
    rw [status] at undisputed
    intro record hrecord
    rw [undisputed rfl] at hrecord
    cases hrecord
  | _ => exact fun _ => id

theorem disputeKept_step (wf : WellFormed s.toSettings s.toBooks) (undisputed : Undisputed s k)
    (a : Action) : (s.toFiles.folder k).DisputeKept ((step s a).toFiles.folder k) := by
  have hchange := step_at wf a k
  generalize step s a = s' at hchange
  cases hchange with
  | same _ _ folder | create _ _ _ _ _ _ _ _ folder =>
    rw [folder]
    exact fun _ => id
  | write t _ _ _ stored _ entry => exact entry.disputeKept (undisputed t stored)

theorem undisputed_step (wf : WellFormed s.toSettings s.toBooks) (undisputed : Undisputed s k)
    (fresh : Issues k s a → s.disputeData.get k = none) : Undisputed (step s a) k := by
  intro t₁ stored₁ early
  have hchange := step_at wf a k
  change ((step s a).toFiles.folder k).dispute = none
  generalize step s a = s' at hchange stored₁
  cases hchange with
  | same _ record folder =>
    rw [folder]
    exact undisputed t₁ (record ▸ stored₁) early
  | create _ ok creates _ issued _ _ _ folder =>
    rw [folder]
    exact fresh ⟨creates, by rw [ok]; rfl, issued.symm⟩
  | write t t' _ _ stored record entry =>
    obtain rfl := Option.some.inj (record.symm.trans stored₁)
    obtain ⟨hearly, hsame⟩ := entry.dispute_of_early early
    rw [hsame]
    exact undisputed t stored hearly

theorem undisputed_run (h : IssuedOnce tokens actions k) : Undisputed (run tokens actions) k := by
  induction actions using List.reverseRecOn with
  | nil => exact fun _ stored => by cases stored
  | append_singleton actions a ih =>
    rw [run_snoc]
    apply undisputed_step (wellFormed_run tokens actions) (ih h.of_append)
    intro issues
    -- Nothing is stored under an identifier that is not in use.
    have hunused := unused_of_not_stored tokens actions (h.last issues)
    exact congrArg Folder.dispute hunused.folder

theorem disputeKept_run {before : List Action} (once : IssuedOnce tokens actions k)
    (h : before <+: actions) :
    ((run tokens before).toFiles.folder k).DisputeKept
      ((run tokens actions).toFiles.folder k) := by
  obtain ⟨later, rfl⟩ := h
  induction later using List.reverseRecOn with
  | nil =>
    rw [List.append_nil]
    exact fun _ => id
  | append_singleton later a ih =>
    rw [← List.append_assoc] at once ⊢
    intro record hrecord
    rw [run_snoc]
    apply disputeKept_step (wellFormed_run tokens _) (undisputed_run once.of_append)
    exact ih once.of_append record hrecord

/-- In every run the trail of every trade is only appended to, and its dispute record is kept as
long as its identifier is not issued again. -/
theorem auditTrail_run (tokens : Token.Ledger Address) (actions : List Action) (k : Nat) :
    (∀ before, before <+: actions →
      ((run tokens before).toFiles.folder k).Kept ((run tokens actions).toFiles.folder k)) ∧
    (IssuedOnce tokens actions k → AppendOnly tokens actions k) :=
  ⟨fun _ h => kept_run tokens h k,
    fun once => ⟨fun _ h => kept_run tokens h k, fun _ h => disputeKept_run once h⟩⟩

/-- Bob disputes the first trade. -/
def Sample.accused : List Action :=
  Sample.funded ++
    [Sample.call 4 Sample.bob (.initiateDispute Sample.first Sample.bob "not collected")]

/-- Evidence about it leaves the dispute record as it is. -/
theorem auditTrail_of_evidence :
    (run Sample.tokens Sample.accused).disputeData.get Sample.first =
        some ⟨Sample.bob, "not collected", 4⟩ ∧
      AppendOnly Sample.tokens (Sample.accused ++ [Sample.call 6 Sample.alice
        (.submitEvidence Sample.first Sample.alice "Qm" "photograph")]) Sample.first :=
  ⟨by decide, (auditTrail_run _ _ _).2
    ((noReissue_of_creations_le (by decide)).issuedOnce _)⟩

/-- A trade that comes to be under an identifier in use overwrites the dispute record when it is
disputed itself. -/
theorem not_appendOnly_at_wrap :
    ¬ AppendOnly Sample.tokens (Sample.countUp Sample.accused none ++
      [Sample.create none, Sample.fund, Sample.complain]) Sample.first := by
  intro h
  obtain ⟨s, hrun, -, -, -, hdispute⟩ := disputed_at_wrap Sample.tokens Sample.accused (by decide)
    (by decide) (by decide) (by decide) (by decide)
  have hbefore : Sample.accused <+: Sample.countUp Sample.accused none ++
      [Sample.create none, Sample.fund, Sample.complain] :=
    (List.prefix_append ..).trans (List.prefix_append ..)
  have hkept := h.dispute _ hbefore ⟨Sample.bob, "not collected", 4⟩ (by decide)
  rw [hrun, hdispute] at hkept
  exact absurd hkept (by decide)

end Amana.Escrow
