import Amana.Escrow.Folder
import Amana.Escrow.StateMachine

/-!
# New trades start empty

Nothing is ever stored under an identifier that was not issued: every call writes to a trade that
is there, and trades are never removed (`unused_of_not_stored`).  So in a run that issues every
identifier once, `create_trade` overwrites nothing and a new trade finds every key of its own
empty.
-/

namespace Amana.Escrow

open Lib

variable {env : Env} {s s' : State} {a : Action} {c : Call} {k : Nat} {t : Trade}
  {tokens : Token.Ledger Address} {actions : List Action}

/-- The identifier `create_trade` returns, if the action is a successful creation. -/
def returned (s : State) : Action → Option Nat
  | .call env (.createTrade buyer seller amount buyerLossBps sellerLossBps expiresAt) =>
    (createTrade env buyer seller amount buyerLossBps sellerLossBps expiresAt s).toOption.map
      Prod.fst
  | _ => none

/-- The identifiers a run returns, in order. -/
def returnedIds (tokens : Token.Ledger Address) (actions : List Action) : List Nat :=
  (trail tokens actions).filterMap fun p => returned p.1 p.2

/-- Beside the record of trade `k`, the books hold nothing for it. -/
structure Books.Clear (b : Books) (k : Nat) : Prop where
  pathPaymentIntent : b.pathPaymentIntent.get k = none
  clawbackTotal : b.clawbackTotal.get k = none
  extensionCount : b.extensionCount.get k = none
  originalDeadline : b.originalDeadline.get k = none

/-- Nothing is stored under the identifier `k`. -/
structure Unused (s : State) (k : Nat) : Prop where
  trade : s.trades.get k = none
  folder : s.toFiles.folder k = .empty
  books : s.toBooks.Clear k

/-- Trade `k` was just created: it has a record, a release sequence and one entry in its history,
and nothing else. -/
structure Fresh (s : State) (k : Nat) : Prop where
  trade : ∃ t, s.trades.get k = some t ∧ t.status = .created ∧
    s.releaseSequence.get k = some (defaultReleaseSequence t)
  history : ∃ e, s.tradeHistory.get k = some [e]
  cancelRequest : s.cancelRequest.get k = none
  dispute : s.disputeData.get k = none
  votes : s.disputeVotes.get k = none
  evidence : ∀ submitter, s.evidence.get (k, submitter) = none
  evidenceList : s.evidenceList.get k = none
  videoProof : s.videoProof.get k = none
  manifest : s.manifest.get k = none
  books : s.toBooks.Clear k

/-- Every creation of a run issues a new identifier and starts an empty trade. -/
structure IssuesAfresh (tokens : Token.Ledger Address) (actions : List Action) : Prop where
  /-- The returned identifiers are distinct. -/
  distinct : (returnedIds tokens actions).Nodup
  /-- Nothing is stored under an identifier before it is returned. -/
  unused : ∀ p ∈ trail tokens actions, ∀ k, returned p.1 p.2 = some k → Unused p.1 k
  /-- A creation leaves the records and folders of all other trades. -/
  kept : ∀ p ∈ trail tokens actions, ∀ k, returned p.1 p.2 = some k → Elsewhere p.1 (step p.1 p.2) k
  /-- A creation writes nothing else to the books than the record and the counter. -/
  books : ∀ p ∈ trail tokens actions, ∀ k, returned p.1 p.2 = some k →
    (step p.1 p.2).toBooks = { p.1.toBooks with
      nextTradeId := (step p.1 p.2).nextTradeId, trades := (step p.1 p.2).trades }
  /-- A new trade starts empty. -/
  fresh : ∀ p ∈ trail tokens actions, ∀ k, returned p.1 p.2 = some k → Fresh (step p.1 p.2) k

/-! ## Nothing is stored beside a trade that is not there -/

/-- A call clears or writes only what belongs to a stored trade. -/
theorem Effect.clear {b' : Books} (h : Effect env s c b') (hnone : s.trades.get k = none)
    (clear : s.toBooks.Clear k) : b'.Clear k := by
  have hne {k' : Nat} {t : Trade} (stored : s.trades.get k' = some t) : k ≠ k' := by
    rintro rfl
    cases hnone.symm.trans stored
  cases h with
  | idle _ | create _ _ _ _ _ _ _ _ _ _ _ | deposit _ _ _ | drop _ _ _ | request _ _
  | refund _ _ _ _ | deliver _ _ | dispute _ _ | release _ _ _ _ | settle _ _ _ _ _ _ _
  | withdraw _ _ _ => exact ⟨clear.1, clear.2, clear.3, clear.4⟩
  | openPath stored _ _ _ _ =>
    exact ⟨(Store.get_set_ne _ _ (hne stored)).trans clear.1, clear.2, clear.3, clear.4⟩
  | finalizePath stored _ _ _ _ =>
    exact ⟨(Store.get_erase_ne _ (hne stored)).trans clear.1, clear.2, clear.3, clear.4⟩
  | extend stored _ _ _ _ _ _ =>
    refine ⟨clear.1, clear.2, (Store.get_set_ne _ _ (hne stored)).trans clear.3, ?_⟩
    dsimp only
    split
    · exact (Store.get_set_ne _ _ (hne stored)).trans clear.4
    · exact clear.4
  | claw _ stored _ _ _ =>
    exact ⟨clear.1, (Store.get_set_ne _ _ (hne stored)).trans clear.2, clear.3, clear.4⟩

theorem clear_step (wf : WellFormed s.toSettings s.toBooks) (hnone : s.trades.get k = none)
    (clear : s.toBooks.Clear k) (a : Action) : (step s a).toBooks.Clear k := by
  have hchange := step_change wf a
  generalize step s a = s' at hchange
  cases hchange with
  | stay _ => exact clear
  | configure _ _ conf =>
    rw [conf.books]
    exact clear
  | outside _ _ => exact ⟨clear.1, clear.2, clear.3, clear.4⟩
  | effect _ effect _ _ => exact effect.clear hnone clear

/-- A stored trade is never removed. -/
theorem stored_of_step (wf : WellFormed s.toSettings s.toBooks) (a : Action)
    (h : (step s a).trades.get k = none) : s.trades.get k = none := by
  have hchange := step_at wf a k
  generalize step s a = s' at hchange h
  cases hchange with
  | same _ record _ => exact record ▸ h
  | create _ _ _ _ _ _ _ record _ => cases record.symm.trans h
  | write _ _ _ _ _ record _ => cases record.symm.trans h

theorem unused_step (wf : WellFormed s.toSettings s.toBooks)
    (h : ∀ k, s.trades.get k = none → Unused s k) (a : Action) :
    ∀ k, (step s a).trades.get k = none → Unused (step s a) k := by
  intro k hafter
  have hbefore := stored_of_step wf a hafter
  refine ⟨hafter, ?_, clear_step wf hbefore (h k hbefore).books a⟩
  have hchange := step_at wf a k
  generalize step s a = s' at hchange hafter
  cases hchange with
  | same _ _ folder => exact folder.trans (h k hbefore).folder
  | create _ _ _ _ _ _ _ record _ => cases record.symm.trans hafter
  | write _ _ _ _ stored _ _ => cases stored.symm.trans hbefore

/-- In a reachable state nothing is stored under an identifier without a trade. -/
theorem unused_of_not_stored (tokens : Token.Ledger Address) (actions : List Action)
    (h : (run tokens actions).trades.get k = none) : Unused (run tokens actions) k := by
  refine (Machine.run_invariant_of_step step
    (P := fun s => WellFormed s.toSettings s.toBooks ∧ ∀ k, s.trades.get k = none → Unused s k)
    actions ⟨wellFormed_deployed tokens, fun k _ => ⟨rfl, rfl, rfl, rfl, rfl, rfl⟩⟩ ?_).2 k h
  exact fun s a hkeep => ⟨wellFormed_step hkeep.1 a, unused_step hkeep.1 hkeep.2 a⟩

/-! ## Creations -/

/-- What is returned is the identifier the action issues. -/
theorem issues_of_returned (h : returned s a = some k) : Issues k s a := by
  cases a with
  | transfer | mint | burn => cases h
  | call env c =>
    cases c with
    | createTrade buyer seller amount buyerLoss sellerLoss expiresAt =>
      obtain ⟨⟨id, s'⟩, hok, rfl⟩ := Option.map_eq_some_iff.1 h
      have hcreate : createTrade env buyer seller amount buyerLoss sellerLoss expiresAt s =
          .ok (id, s') := by
        cases hresult : createTrade env buyer seller amount buyerLoss sellerLoss expiresAt s with
        | error e =>
          rw [hresult] at hok
          cases hok
        | ok r =>
          rw [hresult] at hok
          rw [Option.some.inj hok]
      have hid : nextIdentifier env s = id := by
        simp only [createTrade, bind_eq_ok, assertNotPaused_eq_ok, requireAuth_eq_ok,
          assert_eq_ok, expect_eq_ok, pure_eq_ok, exists_const, Prod.mk.injEq] at hcreate
        obtain ⟨-, -, -, -, -, -, -, -, -, _, -, hid, -⟩ := hcreate
        exact hid
      exact ⟨rfl, by simp only [invoke, hcreate]; rfl, hid⟩
    | _ => cases h

/-- A trade that is created where nothing was stored starts empty. -/
theorem fresh_of_unused (wf : WellFormed s.toSettings s.toBooks) (unused : Unused s k)
    (issues : Issues k s a) : Fresh (step s a) k := by
  have hbooks := clear_step wf unused.trade unused.books a
  have hchange := step_at wf a k
  generalize step s a = s' at hchange hbooks
  cases hchange with
  | same quiet _ _ => exact absurd issues quiet
  | create trade _ _ _ _ status _ record folder =>
    have hfolder := unused.folder ▸ folder
    exact {
      trade := ⟨trade, record, status, congrArg Folder.sequence hfolder⟩
      history := ⟨_, congrArg Folder.history hfolder⟩
      cancelRequest := congrArg Folder.cancelRequest hfolder
      dispute := congrArg Folder.dispute hfolder
      votes := congrArg Folder.votes hfolder
      evidence := congrFun (congrArg Folder.evidence hfolder)
      evidenceList := congrArg Folder.evidenceList hfolder
      videoProof := congrArg Folder.videoProof hfolder
      manifest := congrArg Folder.manifest hfolder
      books := hbooks }
  | write _ _ _ _ stored _ _ => cases stored.symm.trans unused.trade

/-- A creation leaves the records and folders of all other trades. -/
theorem elsewhere_of_issues (wf : WellFormed s.toSettings s.toBooks) (issues : Issues k s a) :
    Elsewhere s (step s a) k := by
  intro k' hk
  have hchange := step_at wf a k'
  generalize step s a = s' at hchange
  cases hchange with
  | same _ record folder => exact ⟨record, folder⟩
  | create _ _ _ _ issued _ _ _ _ => exact absurd (issued.trans issues.2.2) hk
  | write _ _ _ subject _ _ _ => cases (creates_of_subject subject).symm.trans issues.1

/-- A creation writes the record and the counter. -/
theorem books_of_issues (issues : Issues k s a) :
    (step s a).toBooks =
      { s.toBooks with nextTradeId := (step s a).nextTradeId, trades := (step s a).trades } := by
  cases a with
  | transfer | mint | burn => exact issues.elim
  | call env c =>
    obtain ⟨creates, hok, -⟩ := issues
    obtain ⟨s', ok⟩ := isOk_iff.1 hok
    rw [step_call_of_ok ok]
    cases c with
    | createTrade =>
      obtain ⟨trade, -, -, hbooks, -⟩ := creation_books ok
      rw [hbooks]
    | _ => cases creates

theorem returnedIds_snoc (tokens : Token.Ledger Address) (actions : List Action) (a : Action) :
    returnedIds tokens (actions ++ [a]) =
      returnedIds tokens actions ++ (returned (run tokens actions) a).toList := by
  rw [returnedIds, trail, Machine.trail_snoc, List.filterMap_append]
  rfl

/-- What was returned is stored from then on. -/
theorem stored_of_returned (h : k ∈ returnedIds tokens actions) :
    (run tokens actions).trades.get k ≠ none := by
  induction actions using List.reverseRecOn with
  | nil => cases h
  | append_singleton actions a ih =>
    have wf := wellFormed_run tokens actions
    rw [returnedIds_snoc, List.mem_append, Option.mem_toList] at h
    rw [run_snoc]
    rcases h with h | h
    · exact mt (stored_of_step wf a) (ih h)
    · have issues := issues_of_returned h
      have hchange := step_at wf a k
      generalize step (run tokens actions) a = s' at hchange
      cases hchange with
      | same quiet _ _ => exact absurd issues quiet
      | create _ _ _ _ _ _ _ record _ => simp [record]
      | write _ _ _ _ _ record _ => simp [record]

theorem nodup_returnedIds (h : NoReissue tokens actions) : (returnedIds tokens actions).Nodup := by
  induction actions using List.reverseRecOn with
  | nil => exact List.nodup_nil
  | append_singleton actions a ih =>
    rw [returnedIds_snoc]
    refine List.nodup_append.2 ⟨ih h.of_append, ?_, ?_⟩
    · cases returned (run tokens actions) a <;> simp
    · rintro k hold _ hnew rfl
      have issues := issues_of_returned (Option.mem_toList.1 hnew)
      exact stored_of_returned hold (NoReissue.not_stored h.last issues)

/-- A run of fewer than `2 ^ 32 - 1` creations, in whatever ledgers, returns distinct identifiers,
overwrites nothing and starts every trade empty. -/
theorem issuesAfresh_of_creations_lt (h : creations tokens actions < 2 ^ 32 - 1) :
    IssuesAfresh tokens actions := by
  have hfresh : NoReissue tokens actions := noReissue_of_creations_le (by omega)
  have hunused : ∀ p ∈ trail tokens actions, ∀ k, returned p.1 p.2 = some k →
      WellFormed p.1.toSettings p.1.toBooks ∧ Unused p.1 k := by
    rintro ⟨s, a⟩ hp k hreturned
    have hnone := NoReissue.not_stored (hfresh _ hp) (issues_of_returned hreturned)
    obtain ⟨before, later, -, rfl⟩ := Machine.exists_append_of_mem_trail step hp
    exact ⟨wellFormed_run tokens before, unused_of_not_stored tokens before hnone⟩
  refine ⟨nodup_returnedIds hfresh, fun p hp k hk => (hunused p hp k hk).2, fun p hp k hk => ?_,
    fun p hp k hk => books_of_issues (issues_of_returned hk), fun p hp k hk => ?_⟩
  · exact elsewhere_of_issues (hunused p hp k hk).1 (issues_of_returned hk)
  · exact fresh_of_unused (hunused p hp k hk).1 (hunused p hp k hk).2 (issues_of_returned hk)

/-- Two trades in one ledger, the first of them funded before the second is opened. -/
theorem issuesAfresh_of_two :
    IssuesAfresh Sample.tokens (Sample.funded ++ [Sample.create none]) :=
  issuesAfresh_of_creations_lt (by decide)

end Amana.Escrow
