import Amana.Escrow.Mediation
import Amana.Escrow.Freshness
import Amana.Escrow.Wrap

/-!
# The mediator quorum

Votes on a disputed trade are appended, one for each mediator, at the weight the mediator has.  The
vote that brings its own outcome to the required weight settles the trade, so while a trade is
disputed no outcome has that weight, as long as nobody changes the quorum policy under it
(`quorumVoting_run`).
-/

namespace Amana.Escrow

open Lib

variable {env : Env} {s s' : State} {a : Action} {c : Call} {k bps : Nat} {t t' : Trade}
  {d d' : Folder} {tokens : Token.Ledger Address} {actions : List Action}

/-- The votes on record in a folder. -/
def Folder.voteList (d : Folder) : List MediatorVote := (d.votes.map QuorumState.votes).getD []

/-- The votes on record for trade `k`. -/
def votesOn (s : State) (k : Nat) : List MediatorVote :=
  ((s.disputeVotes.get k).map QuorumState.votes).getD []

/-- Trade `k` is disputed. -/
def Disputed (s : State) (k : Nat) : Prop :=
  (s.trades.get k).map Trade.status = some .disputed

instance (s : State) (k : Nat) : Decidable (Disputed s k) := inferInstanceAs (Decidable (_ = _))

/-- The action settles the dispute about trade `k`. -/
def SettledBy (s : State) (a : Action) (k : Nat) : Prop :=
  Disputed s k ∧ ((step s a).trades.get k).map Trade.status = some .completed

/-- Trade `k` is completed and its escrow is paid out as the split for `bps` says. -/
def SettledWith (bps k : Nat) (s s' : State) : Prop :=
  ∃ t t' split tokens, s.trades.get k = some t ∧
    disputeSplit t.amount bps t.sellerLossBps (getFeeBps s) = .ok split ∧
    Token.pay s.tokens ⟨t.token, currentContract, t.seller, split.sellerNet⟩ = some tokens ∧
    Token.pay tokens ⟨t.token, currentContract, t.buyer, split.buyerRefund⟩ = some s'.tokens ∧
    s'.accruedFees = feesWith s.accruedFees split.fee ∧
    s'.trades.get k = some t' ∧ t'.status = .completed

/-- The action is a successful vote that brings its own outcome `bps` to the required weight. -/
def Decides (k bps : Nat) (s : State) : Action → Prop
  | .call env (.castDisputeVote k' mediator bps' rationale) =>
    k' = k ∧ bps' = bps ∧ (invoke env s (.castDisputeVote k' mediator bps' rationale)).isOk = true ∧
      (getQuorumConfig s).requiredWeight ≤ weightForOutcome
        (votesOn (step s (.call env (.castDisputeVote k' mediator bps' rationale))) k) bps
  | _ => False

/-- The policy is not changed while trade `k` is disputed. -/
def SteadyConfig (tokens : Token.Ledger Address) (actions : List Action) (k : Nat) : Prop :=
  ∀ p ∈ trail tokens actions, Disputed p.1 k → getQuorumConfig (step p.1 p.2) = getQuorumConfig p.1

/-- What a run does with the votes on its trades; `other` lists the ways to settle a trade beside
the deciding vote. -/
structure QuorumVoting (other : Nat → State → Action → Prop) (tokens : Token.Ledger Address)
    (actions : List Action) : Prop where
  /-- Nobody votes twice. -/
  once : ∀ k, ((votesOn (run tokens actions) k).map MediatorVote.mediator).Nodup
  weights : ∀ k, ∀ v ∈ votesOn (run tokens actions) k, ValidWeight v.weight
  /-- Votes are only appended. -/
  appended : ∀ before, before <+: actions → ∀ k,
    votesOn (run tokens before) k <+: votesOn (run tokens actions) k
  /-- The trade is settled exactly by the deciding vote, or in one of the other ways. -/
  settled : ∀ k, SteadyConfig tokens actions k → ∀ p ∈ trail tokens actions, Disputed p.1 k →
    (SettledBy p.1 p.2 k ↔ (∃ bps, Decides k bps p.1 p.2) ∨ other k p.1 p.2)
  /-- The deciding vote settles it at its own outcome. -/
  share : ∀ k, SteadyConfig tokens actions k → ∀ p ∈ trail tokens actions, Disputed p.1 k →
    ∀ bps, Decides k bps p.1 p.2 → SettledWith bps k p.1 (step p.1 p.2)

/-- Under a steady policy, no outcome has the required weight while the trade is disputed. -/
def BelowQuorum (tokens : Token.Ledger Address) (actions : List Action) : Prop :=
  ∀ k, SteadyConfig tokens actions k → ∀ before, before <+: actions →
    Disputed (run tokens before) k → ∀ bps, weightForOutcome (votesOn (run tokens before) k) bps <
      (getQuorumConfig (run tokens before)).requiredWeight

/-- The other ways to settle a trade: the fallback, and a single mediator if the trade does not
need a quorum. -/
def SettledOtherwise (k : Nat) (s : State) : Action → Prop
  | .call env (.resolveDisputeByFallback k' caller) =>
    k' = k ∧ (invoke env s (.resolveDisputeByFallback k' caller)).isOk = true
  | .call env (.resolveDispute k' mediator bps) =>
    k' = k ∧ (invoke env s (.resolveDispute k' mediator bps)).isOk = true ∧
      ∀ t, s.trades.get k = some t → ¬ t.NeedsQuorum s
  | _ => False

/-! ## Votes -/

theorem weightForOutcome_snoc (votes : List MediatorVote) (v : MediatorVote) (bps : Nat) :
    weightForOutcome (votes ++ [v]) bps =
      if v.sellerGetsBps = bps then U32.saturatingAdd (weightForOutcome votes bps) v.weight
      else weightForOutcome votes bps := by
  rw [weightForOutcome, List.foldl_append]
  rfl

theorem Folder.ballot_votes (d : Folder) (env : Env) (k : Nat) :
    (d.ballot env k).votes = d.voteList := by
  unfold Folder.ballot Folder.voteList
  cases d.votes <;> rfl

/-- What a call does to the votes: nothing, or it appends the vote of a mediator that has not voted,
and settles the trade unless the outcome is short of the required weight. -/
theorem Entry.votes (h : Entry env s k t d c t' d') :
    ((∀ mediator bps rationale, c ≠ .castDisputeVote k mediator bps rationale) ∧
        d'.voteList = d.voteList) ∨
      ∃ mediator bps rationale, c = .castDisputeVote k mediator bps rationale ∧
        t.status = .disputed ∧ (∀ v ∈ d.voteList, v.mediator ≠ mediator) ∧
        d'.voteList = d.voteList ++ [voteOf env s mediator bps rationale] ∧
        (weightForOutcome d'.voteList bps < (getQuorumConfig s).requiredWeight ∨
          (getQuorumConfig s).requiredWeight ≤ weightForOutcome d'.voteList bps ∧
            t'.status = .completed) := by
  cases h with
  | @vote mediator bps rationale state status _ _ _ once ballot short =>
    rw [Folder.ballot_votes] at once
    have hvotes : state.votes = d.voteList ++ [voteOf env s mediator bps rationale] := by
      rw [ballot, ← Folder.ballot_votes d env k]
      rfl
    exact .inr ⟨mediator, bps, rationale, rfl, status, once, hvotes, .inl short⟩
  | @decide mediator _ bps rationale state status _ _ _ once ballot reached =>
    rw [Folder.ballot_votes] at once
    have hvotes : state.votes = d.voteList ++ [voteOf env s mediator bps rationale] := by
      rw [ballot, ← Folder.ballot_votes d env k]
      rfl
    exact .inr ⟨mediator, bps, rationale, rfl, status, once, hvotes, .inr ⟨reached, rfl⟩⟩
  | _ => exact .inl ⟨fun _ _ _ e => (by cases e), rfl⟩

/-- A step leaves the votes on a trade, or appends the vote of a mediator that has not voted. -/
theorem votesOn_step (wf : WellFormed s.toSettings s.toBooks) (a : Action) (k : Nat) :
    votesOn (step s a) k = votesOn s k ∨
      ∃ env mediator bps rationale, (∀ v ∈ votesOn s k, v.mediator ≠ mediator) ∧
        votesOn (step s a) k = votesOn s k ++ [voteOf env s mediator bps rationale] := by
  show ((step s a).toFiles.folder k).voteList = (s.toFiles.folder k).voteList ∨
    ∃ env mediator bps rationale, (∀ v ∈ (s.toFiles.folder k).voteList, v.mediator ≠ mediator) ∧
      ((step s a).toFiles.folder k).voteList =
        (s.toFiles.folder k).voteList ++ [voteOf env s mediator bps rationale]
  have hchange := step_at wf a k
  generalize step s a = s' at hchange
  cases hchange with
  | same _ _ folder => exact .inl (by rw [folder])
  | create _ _ _ _ _ _ _ _ folder => exact .inl (by rw [folder]; rfl)
  | @write env _ _ _ _ _ _ _ _ entry =>
    obtain ⟨-, hsame⟩ | ⟨mediator, bps, rationale, -, -, hnew, hvotes, -⟩ := entry.votes
    · exact .inl hsame
    · exact .inr ⟨env, mediator, bps, rationale, hnew, hvotes⟩

/-- The votes on every trade are by distinct mediators, at weights that can be set. -/
structure BallotsSound (s : State) : Prop where
  once : ∀ k, ((votesOn s k).map MediatorVote.mediator).Nodup
  weights : ∀ k, ∀ v ∈ votesOn s k, ValidWeight v.weight

theorem ballotsSound_step (wf : WellFormed s.toSettings s.toBooks) (sound : s.mediation.Sound)
    (h : BallotsSound s) (a : Action) : BallotsSound (step s a) := by
  refine ⟨fun k => ?_, fun k v hv => ?_⟩
  · obtain hsame | ⟨env, mediator, bps, rationale, hnew, hvotes⟩ := votesOn_step wf a k
    · rw [hsame]
      exact h.once k
    · rw [hvotes, List.map_append]
      refine List.nodup_append.2 ⟨h.once k, List.nodup_singleton _, ?_⟩
      rintro m hm m' hm' rfl
      obtain ⟨v, hv, rfl⟩ := List.mem_map.1 hm
      exact hnew v hv (List.mem_singleton.1 hm')
  · obtain hsame | ⟨env, mediator, bps, rationale, -, hvotes⟩ := votesOn_step wf a k
    · rw [hsame] at hv
      exact h.weights k v hv
    · rw [hvotes, List.mem_append, List.mem_singleton] at hv
      obtain hv | rfl := hv
      · exact h.weights k v hv
      · exact sound.getMediatorWeight mediator

theorem ballotsSound_run (tokens : Token.Ledger Address) (actions : List Action) :
    BallotsSound (run tokens actions) := by
  induction actions using List.reverseRecOn with
  | nil => exact ⟨fun _ => List.nodup_nil, fun _ _ hv => by cases hv⟩
  | append_singleton actions a ih =>
    rw [run_snoc]
    exact ballotsSound_step (wellFormed_run tokens actions) (mediationSound_run tokens actions) ih a

theorem votesOn_isPrefix (tokens : Token.Ledger Address) {before : List Action}
    (h : before <+: actions) (k : Nat) :
    votesOn (run tokens before) k <+: votesOn (run tokens actions) k := by
  obtain ⟨later, rfl⟩ := h
  induction later using List.reverseRecOn with
  | nil => rw [List.append_nil]
  | append_singleton later a ih =>
    apply ih.trans
    rw [← List.append_assoc, run_snoc]
    obtain hsame | ⟨_, _, _, _, -, hvotes⟩ :=
      votesOn_step (wellFormed_run tokens (before ++ later)) a k
    · rw [hsame]
    · rw [hvotes]
      exact List.prefix_append ..

/-! ## No outcome has the required weight while the trade is disputed -/

/-- There are votes only on disputed or closed trades, and as long as the trade is disputed they
decide nothing. -/
structure Undecided (required : Nat) (t : Trade) (d : Folder) : Prop where
  unvoted : t.status ≠ .disputed → t.status.closed = false → d.voteList = []
  below : t.status = .disputed → ∀ bps, weightForOutcome d.voteList bps < required

/-- Where an open trade that is not disputed comes from. -/
theorem TradeStatus.undisputed {status status' : TradeStatus}
    (h : status' = status ∨ status' ∈ status.next) (hne : status' ≠ .disputed)
    (hopen : status'.closed = false) : status ≠ .disputed := by
  revert h hne hopen
  cases status <;> cases status' <;> decide

theorem Entry.undecided (h : Entry env s k t d c t' d')
    (hpos : 0 < (getQuorumConfig s).requiredWeight)
    (undecided : Undecided (getQuorumConfig s).requiredWeight t d) :
    Undecided (getQuorumConfig s).requiredWeight t' d' := by
  have hopen := h.wasOpen
  obtain ⟨-, hsame⟩ | ⟨mediator, bps, rationale, -, hstatus, -, hvotes, hweight⟩ := h.votes
  · refine ⟨fun hne hopen' => ?_, fun hdisputed bps => ?_⟩
    · rw [hsame]
      exact undecided.unvoted (TradeStatus.undisputed h.status hne hopen') hopen
    · rw [hsame]
      by_cases hbefore : t.status = .disputed
      · exact undecided.below hbefore bps
      · rw [undecided.unvoted hbefore hopen]
        exact hpos
  · refine ⟨fun hne hopen' => ?_, fun hdisputed bps' => ?_⟩
    · exact absurd hstatus (TradeStatus.undisputed h.status hne hopen')
    · have hshort : weightForOutcome d'.voteList bps < (getQuorumConfig s).requiredWeight := by
        obtain hshort | ⟨-, hcompleted⟩ := hweight
        · exact hshort
        · cases hcompleted.symm.trans hdisputed
      by_cases hbps : bps = bps'
      · rwa [← hbps]
      · have hother : (voteOf env s mediator bps rationale).sellerGetsBps ≠ bps' := hbps
        rw [hvotes, weightForOutcome_snoc, if_neg hother]
        exact undecided.below hstatus bps'

/-- A call on a trade leaves the policy. -/
theorem getQuorumConfig_of_subject (wf : WellFormed s.toSettings s.toBooks)
    (subject : c.subject s = some k) (ok : invoke env s c = .ok s') :
    getQuorumConfig s' = getQuorumConfig s := by
  have hchange := invoke_mediation wf ok
  have hsame : s'.mediation = s.mediation := by
    generalize s'.mediation = x at hchange
    cases hchange with
    | same _ => rfl
    | setMediator | addMediator | removeMediator | setMediatorWeight | setQuorumConfig =>
      cases subject
  rw [getQuorumConfig, show s'.quorumConfig = s.quorumConfig from congrArg Mediation.config hsame]
  rfl

/-- Nothing is decided about trade `k`. -/
def UndecidedOn (k : Nat) (s : State) : Prop :=
  ∀ t, s.trades.get k = some t →
    Undecided (getQuorumConfig s).requiredWeight t (s.toFiles.folder k)

theorem undecidedOn_step (wf : WellFormed s.toSettings s.toBooks) (sound : s.mediation.Sound)
    (unused : ∀ k, s.trades.get k = none → s.toFiles.folder k = .empty) (fresh : ¬ Reissues s a)
    (steady : Disputed s k → getQuorumConfig (step s a) = getQuorumConfig s)
    (h : UndecidedOn k s) : UndecidedOn k (step s a) := by
  intro t stored
  have hchange := step_at wf a k
  generalize step s a = s' at hchange steady stored
  cases hchange with
  | same _ record folder =>
    rw [record] at stored
    rw [folder]
    refine ⟨(h t stored).unvoted, fun hdisputed bps => ?_⟩
    rw [steady (by rw [Disputed, stored, Option.map_some, hdisputed])]
    exact (h t stored).below hdisputed bps
  | @create env c _ trade ok creates _ issued status _ record folder =>
    obtain rfl := Option.some.inj (record.symm.trans stored)
    have hissues : Issues k s (.call env c) := ⟨creates, by rw [ok]; rfl, issued.symm⟩
    rw [unused k (NoReissue.not_stored fresh hissues)] at folder
    rw [folder]
    exact ⟨fun _ _ => rfl, fun hdisputed => by cases status.symm.trans hdisputed⟩
  | write t₀ t' ok subject stored₀ record entry =>
    obtain rfl := Option.some.inj (record.symm.trans stored)
    rw [getQuorumConfig_of_subject wf subject ok]
    exact entry.undecided sound.getQuorumConfig.requiredWeight (h t₀ stored₀)

theorem SteadyConfig.of_isPrefix {before : List Action} (h : SteadyConfig tokens actions k)
    (hbefore : before <+: actions) : SteadyConfig tokens before k :=
  fun p hp => h p (Machine.trail_of_isPrefix step hbefore hp)

theorem undecidedOn_run (fresh : NoReissue tokens actions)
    (steady : SteadyConfig tokens actions k) : UndecidedOn k (run tokens actions) := by
  induction actions using List.reverseRecOn with
  | nil => exact fun t ht => by cases ht
  | append_singleton actions a ih =>
    have hearlier : actions <+: actions ++ [a] := List.prefix_append ..
    rw [run_snoc]
    exact undecidedOn_step (wellFormed_run tokens actions) (mediationSound_run tokens actions)
      (fun k hk => (unused_of_not_stored tokens actions hk).folder) fresh.last
      (steady _ (Machine.mem_trail_append step _ actions [] a))
      (ih fresh.of_append (steady.of_isPrefix hearlier))

/-! ## How a trade is settled -/

theorem settleDispute_settledWith {mediator : Address}
    (h : settleDispute env k bps mediator s = .ok s') : SettledWith bps k s s' := by
  simp only [settleDispute, bind_eq_ok, loadTrade_eq_ok, assert_eq_ok, payOut_eq_ok, pure_eq_ok,
    exists_const] at h
  obtain ⟨t, stored, -, split, hsplit, _, ⟨tokens, hseller, rfl⟩, _, ⟨tokens', hbuyer, rfl⟩, rfl⟩ :=
    h
  exact ⟨t, _, split, tokens, stored, hsplit, hseller, hbuyer, rfl, Store.get_set_self .., rfl⟩

/-- Only the books and the fee rate matter. -/
theorem SettledWith.congr {s₀ s₁ : State} (h : SettledWith bps k s s')
    (before : s₀.toBooks = s.toBooks) (fee : s₀.feeBps = s.feeBps)
    (after : s₁.toBooks = s'.toBooks) : SettledWith bps k s₀ s₁ := by
  unfold SettledWith getFeeBps
  rw [before, fee, after]
  exact h

theorem finalizeQuorum_settledWith {state : QuorumState} {weight : Nat} {outcome : QuorumOutcome}
    (h : finalizeQuorum env k state bps weight outcome s = .ok s') : SettledWith bps k s s' := by
  simp only [finalizeQuorum, bind_eq_ok, expect_eq_ok, pure_eq_ok] at h
  obtain ⟨vote, -, mid, hmid, rfl⟩ := h
  exact (settleDispute_settledWith hmid).congr rfl rfl rfl

/-- A vote that brings its outcome to the required weight settles the trade at that outcome. -/
theorem castDisputeVote_settledWith {mediator : Address} {rationale : String}
    (h : castDisputeVote env k mediator bps rationale s = .ok s')
    (hreached : (getQuorumConfig s).requiredWeight ≤
      weightForOutcome (votesOn s k ++ [voteOf env s mediator bps rationale]) bps) :
    SettledWith bps k s s' := by
  simp only [castDisputeVote, bind_eq_ok, assert_eq_ok, loadTrade_eq_ok, requireMediator_eq_ok,
    exists_const] at h
  obtain ⟨_, ⟨-, -, rfl⟩, -, -, -, trade, -, -, -, -, h⟩ := h
  have hballot := Folder.ballot_votes (s.toFiles.folder k) env k
  split at h
  · exact (finalizeQuorum_settledWith h).congr rfl rfl rfl
  · next hshort =>
    refine absurd ?_ hshort
    rw [show votesOn s k = _ from hballot.symm] at hreached
    exact hreached

/-- The three ways from a disputed trade to a completed one. -/
theorem Entry.settled (h : Entry env s k t d c t' d') (hstatus : t.status = .disputed)
    (hcompleted : t'.status = .completed) :
    (∃ mediator bps rationale, c = .castDisputeVote k mediator bps rationale ∧
        (getQuorumConfig s).requiredWeight ≤ weightForOutcome d'.voteList bps) ∨
      (∃ mediator bps, c = .resolveDispute k mediator bps ∧ ¬ t.NeedsQuorum s) ∨
      ∃ caller, c = .resolveDisputeByFallback k caller := by
  cases h with
  | decide _ _ _ _ _ _ reached => exact .inl ⟨_, _, _, rfl, reached⟩
  | resolve _ _ _ single => exact .inr (.inl ⟨_, _, rfl, single⟩)
  | fallback => exact .inr (.inr ⟨_, rfl⟩)
  | vote | evidence | video | manifest => cases hstatus.symm.trans hcompleted
  | deposit status | openPath status | finalizePath status | drop status | cancelByBuyer status
  | request status | override status | agree status | expire status | extend status
  | deliver status | release status | dispute status => cases status.symm.trans hstatus
  | refund => cases hcompleted
  | clawPart | clawAll | clawQueued =>
    simp only [Trade.clawed, hstatus] at hcompleted
    split at hcompleted <;> cases hcompleted

/-- The deciding vote completes the trade. -/
theorem completed_of_decides (wf : WellFormed s.toSettings s.toBooks) (h : Decides k bps s a) :
    ((step s a).trades.get k).map Trade.status = some .completed := by
  cases a with
  | transfer | mint | burn => exact h.elim
  | call env c =>
    cases c with
    | castDisputeVote k' mediator bps' rationale =>
      obtain ⟨rfl, rfl, hok, hreached⟩ := h
      obtain ⟨s', ok⟩ := isOk_iff.1 hok
      rw [step_call_of_ok ok] at hreached ⊢
      obtain ⟨t, t', -, record, entry⟩ := (invoke_filing wf rfl ok).of_subject rfl
      change _ ≤ weightForOutcome (s'.toFiles.folder k').voteList bps' at hreached
      generalize s'.toFiles.folder k' = d' at entry hreached
      cases entry with
      | vote _ _ _ _ _ _ short => exact absurd hreached (Nat.not_le.2 short)
      | decide => exact congrArg (Option.map Trade.status) record
    | _ => exact h.elim

theorem completed_of_otherwise (wf : WellFormed s.toSettings s.toBooks)
    (h : SettledOtherwise k s a) :
    ((step s a).trades.get k).map Trade.status = some .completed := by
  cases a with
  | transfer | mint | burn => exact h.elim
  | call env c =>
    cases c with
    | resolveDispute k' mediator bps =>
      obtain ⟨rfl, hok, -⟩ := h
      obtain ⟨s', ok⟩ := isOk_iff.1 hok
      rw [step_call_of_ok ok]
      obtain ⟨t, t', -, record, entry⟩ := (invoke_filing wf rfl ok).of_subject rfl
      generalize s'.toFiles.folder k' = d' at entry
      cases entry with
      | resolve => exact congrArg (Option.map Trade.status) record
    | resolveDisputeByFallback k' caller =>
      obtain ⟨rfl, hok⟩ := h
      obtain ⟨s', ok⟩ := isOk_iff.1 hok
      rw [step_call_of_ok ok]
      obtain ⟨t, t', -, record, entry⟩ := (invoke_filing wf rfl ok).of_subject rfl
      generalize s'.toFiles.folder k' = d' at entry
      cases entry with
      | fallback => exact congrArg (Option.map Trade.status) record
    | _ => exact h.elim

/-- The settling calls, from what they did. -/
theorem settles_of_completed (wf : WellFormed s.toSettings s.toBooks) (hdisputed : Disputed s k)
    (hafter : ((step s a).trades.get k).map Trade.status = some .completed) :
    (∃ bps, Decides k bps s a) ∨ SettledOtherwise k s a := by
  obtain ⟨t, stored, hstatus⟩ := Option.map_eq_some_iff.1 hdisputed
  obtain ⟨t₁, record₁, hcompleted⟩ := Option.map_eq_some_iff.1 hafter
  have hchange := step_at wf a k
  generalize hs' : step s a = s' at hchange record₁
  cases hchange with
  | same _ record _ =>
    obtain rfl := Option.some.inj (stored.symm.trans (record.symm.trans record₁))
    cases hstatus.symm.trans hcompleted
  | create _ _ _ _ _ status _ record _ =>
    obtain rfl := Option.some.inj (record.symm.trans record₁)
    cases status.symm.trans hcompleted
  | @write env c _ t₀ t' ok _ stored₀ record entry =>
    obtain rfl := Option.some.inj (stored.symm.trans stored₀)
    obtain rfl := Option.some.inj (record.symm.trans record₁)
    have hok : (invoke env s c).isOk = true := by
      rw [ok]
      rfl
    obtain ⟨mediator, bps, rationale, rfl, hreached⟩ | ⟨mediator, bps, rfl, single⟩ |
      ⟨caller, rfl⟩ := entry.settled hstatus hcompleted
    · refine .inl ⟨bps, rfl, rfl, hok, ?_⟩
      rw [hs']
      exact hreached
    · refine .inr ⟨rfl, hok, fun t₂ stored₂ => ?_⟩
      obtain rfl := Option.some.inj (stored.symm.trans stored₂)
      exact single
    · exact .inr ⟨rfl, hok⟩

/-- The deciding vote pays out its own outcome. -/
theorem settledWith_of_decides (wf : WellFormed s.toSettings s.toBooks) (h : Decides k bps s a) :
    SettledWith bps k s (step s a) := by
  cases a with
  | transfer | mint | burn => exact h.elim
  | call env c =>
    cases c with
    | castDisputeVote k' mediator bps' rationale =>
      obtain ⟨rfl, rfl, hok, hreached⟩ := h
      obtain ⟨s', ok⟩ := isOk_iff.1 hok
      rw [step_call_of_ok ok] at hreached ⊢
      obtain ⟨t, t', -, -, entry⟩ := (invoke_filing wf rfl ok).of_subject rfl
      apply castDisputeVote_settledWith ok
      change _ ≤ weightForOutcome (s'.toFiles.folder k').voteList bps' at hreached
      obtain ⟨hother, -⟩ | ⟨_, _, _, hcall, -, -, hvotes, -⟩ := entry.votes
      · exact absurd rfl (hother mediator bps' rationale)
      · cases hcall
        rw [hvotes] at hreached
        exact hreached
    | _ => exact h.elim

theorem belowQuorum_of_noReissue (fresh : NoReissue tokens actions) :
    BelowQuorum tokens actions := by
  intro k steady before hbefore hdisputed
  obtain ⟨t, stored, hstatus⟩ := Option.map_eq_some_iff.1 hdisputed
  have hundecided :=
    undecidedOn_run (fresh.of_isPrefix hbefore) (steady.of_isPrefix hbefore) t stored
  exact hundecided.below hstatus

/-- In every run the votes on a trade are sound, and the deciding vote, the fallback and, where no
quorum is needed, a single mediator are the ways to settle it; if the run issues every identifier
once, a disputed trade is undecided. -/
theorem quorumVoting_run (tokens : Token.Ledger Address) (actions : List Action) :
    QuorumVoting SettledOtherwise tokens actions ∧
      (NoReissue tokens actions → BelowQuorum tokens actions) := by
  refine ⟨⟨(ballotsSound_run tokens actions).once, (ballotsSound_run tokens actions).weights,
    fun _ hbefore k => votesOn_isPrefix tokens hbefore k, ?_, ?_⟩, belowQuorum_of_noReissue⟩
  · rintro k - ⟨s, a⟩ hp hdisputed
    obtain ⟨before, later, rfl, rfl⟩ := Machine.exists_append_of_mem_trail step hp
    have wf := wellFormed_run tokens before
    constructor
    · exact fun h => settles_of_completed wf hdisputed h.2
    · rintro (⟨bps, h⟩ | h)
      · exact ⟨hdisputed, completed_of_decides wf h⟩
      · exact ⟨hdisputed, completed_of_otherwise wf h⟩
  · rintro k - ⟨s, a⟩ hp - bps h
    obtain ⟨before, later, rfl, rfl⟩ := Machine.exists_append_of_mem_trail step hp
    exact settledWith_of_decides (wellFormed_run tokens before) h

/-- Alice disputes the first trade. -/
def Sample.complain : Action :=
  Sample.call 5 Sample.alice (.initiateDispute Sample.first Sample.alice "spoiled")

/-- Under the given policy Alice disputes a trade, and the admin votes on it as mediator. -/
def Sample.oneVote (config : QuorumConfig) : List Action :=
  Sample.funded ++
    [Sample.call 4 Sample.admin (.setQuorumConfig config),
      Sample.call 4 Sample.admin (.setMediator Sample.admin), Sample.complain,
      Sample.call 10 Sample.admin (.castDisputeVote Sample.first Sample.admin 5000 "photographs")]

/-- After one of three votes the trade is disputed, and the vote is short of the quorum. -/
theorem quorumVoting_of_one_vote :
    Disputed (run Sample.tokens (Sample.oneVote ⟨true, 1, 3, 10, 1⟩)) Sample.first ∧
      weightForOutcome (votesOn (run Sample.tokens (Sample.oneVote ⟨true, 1, 3, 10, 1⟩))
        Sample.first) 5000 = 1 ∧
      QuorumVoting SettledOtherwise Sample.tokens (Sample.oneVote ⟨true, 1, 3, 10, 1⟩) ∧
      BelowQuorum Sample.tokens (Sample.oneVote ⟨true, 1, 3, 10, 1⟩) := by
  obtain ⟨hvoting, hbelow⟩ := quorumVoting_run Sample.tokens (Sample.oneVote ⟨true, 1, 3, 10, 1⟩)
  exact ⟨by decide, by decide, hvoting, hbelow (noReissue_of_creations_le (by decide))⟩

/-! ## Settled otherwise, and at the wrap -/

/-- Whether an action sets the quorum policy. -/
def Action.setsPolicy : Action → Bool
  | .call _ (.setQuorumConfig _) => true
  | _ => false

theorem getQuorumConfig_step (wf : WellFormed s.toSettings s.toBooks) (h : a.setsPolicy = false) :
    getQuorumConfig (step s a) = getQuorumConfig s := by
  have hconfig : (step s a).mediation.config = s.mediation.config := by
    obtain hsame | ⟨env, c, rfl, -, hchange⟩ := step_mediation wf a
    · rw [hsame]
    · generalize (step s (.call env c)).mediation = x at hchange
      cases hchange with
      | setQuorumConfig => cases h
      | _ => rfl
  rw [getQuorumConfig, show (step s a).quorumConfig = s.quorumConfig from hconfig]
  rfl

theorem SteadyConfig.append {later : List Action} (h : SteadyConfig tokens actions k)
    (hlater : ∀ a ∈ later, a.setsPolicy = false) : SteadyConfig tokens (actions ++ later) k := by
  rintro ⟨s, a⟩ hp hdisputed
  rw [trail, Machine.trail_append, List.mem_append] at hp
  obtain hp | hp := hp
  · exact h _ hp hdisputed
  · obtain ⟨before, rest, rfl, rfl⟩ := Machine.exists_append_of_mem_trail step hp
    have hrun : run tokens (actions ++ before) =
        Machine.run step (Machine.run step (.deployed tokens) actions) before :=
      Machine.run_append ..
    have wf := wellFormed_run tokens (actions ++ before)
    rw [hrun] at wf
    exact getQuorumConfig_step wf (hlater a (by simp))

/-- `initiate_dispute` succeeds on a funded trade. -/
theorem initiateDispute_isOk {initiator : Address} {reason : String}
    (stored : s.trades.get k = some t) (status : t.status = .funded)
    (hauth : initiator ∈ env.auths ∧ initiator ≠ currentContract)
    (hreason : reason.utf8ByteSize ≠ 0 ∧ reason.utf8ByteSize ≤ maxHashLen)
    (party : t.IsParty initiator) :
    ∃ s', invoke env s (.initiateDispute k initiator reason) = .ok s' := by
  simp only [invoke, initiateDispute, bind_eq_ok, requireAuth_eq_ok, assert_eq_ok,
    loadTrade_eq_ok, pure_eq_ok, exists_const]
  exact ⟨_, hauth, hreason.1, hreason.2, t, stored, status, party, rfl⟩

/-- Alice calls for the fallback. -/
def Sample.fallBack (now : Nat) : Action :=
  Sample.call now Sample.alice (.resolveDisputeByFallback Sample.first Sample.alice)

/-- A trade under a reissued identifier can be disputed, and meets the votes on the old one. -/
theorem disputed_at_wrap (tokens : Token.Ledger Address) (start : List Action)
    (hpaused : (run tokens start).paused.getD false = false)
    (htoken : (run tokens start).cngnContract = some Sample.cngn)
    (hcounter : (run tokens start).nextTradeId.getD 1 = 2)
    (hbalance : 100 ≤ (run tokens start).tokens.balance Sample.cngn Sample.alice)
    (hroom : (run tokens start).tokens.balance Sample.cngn currentContract + 100 ≤
      I128.maxValue) :
    ∃ s, run tokens
        (Sample.countUp start none ++ [Sample.create none, Sample.fund, Sample.complain]) = s ∧
      Disputed s Sample.first ∧
      votesOn s Sample.first = votesOn (run tokens start) Sample.first ∧
      getQuorumConfig s = getQuorumConfig (run tokens start) ∧
      (s.toFiles.folder Sample.first).dispute = some ⟨Sample.alice, "spoiled", 5⟩ := by
  obtain ⟨s₃, t, hrun, stored, ⟨hfunded, hbuyer, -, -⟩, hsettings, -, hvotes, -⟩ :=
    funded_at_wrap tokens start hpaused htoken hcounter hbalance hroom
  have wf : WellFormed s₃.toSettings s₃.toBooks := hrun ▸ wellFormed_run tokens _
  obtain ⟨s₄, ok⟩ : ∃ s₄, invoke ⟨5, 1, [Sample.alice]⟩ s₃
      (.initiateDispute Sample.first Sample.alice "spoiled") = .ok s₄ :=
    initiateDispute_isOk stored hfunded (by decide) (by decide) (.inl hbuyer.symm)
  have hrun₄ : run tokens (Sample.countUp start none ++
      [Sample.create none, Sample.fund, Sample.complain]) = s₄ := by
    have happ : Sample.countUp start none ++ [Sample.create none, Sample.fund, Sample.complain] =
        Sample.countUp start none ++ [Sample.create none, Sample.fund] ++ [Sample.complain] := by
      simp
    rw [happ, run_snoc, hrun]
    exact step_call_of_ok ok
  obtain ⟨t₀, t', stored₀, record, entry⟩ := (invoke_filing wf rfl ok).of_subject rfl
  have hlist := entry.votes
  generalize hd : s₄.toFiles.folder Sample.first = d' at entry hlist
  refine ⟨s₄, hrun₄, ?_, ?_, ?_, ?_⟩
  · cases entry with
    | dispute _ _ _ ht => rw [Disputed, record, ht]; rfl
  · obtain ⟨-, hsame⟩ | ⟨_, _, _, hcall, -⟩ := hlist
    · have hold : (s₃.toFiles.folder Sample.first).voteList =
          ((run tokens start).toFiles.folder Sample.first).voteList := by
        rw [Folder.voteList, hvotes]
        rfl
      exact (congrArg Folder.voteList hd).trans (hsame.trans hold)
    · cases hcall
  · rw [getQuorumConfig_of_subject wf rfl ok, getQuorumConfig, hsettings]
    rfl
  · rw [hd]
    cases entry with
    | dispute => rfl

/-- The fallback settles a trade without a deciding vote; and where an identifier is issued again,
the votes that decided the old trade stand against the new one as soon as it is disputed. -/
theorem not_quorumVoting_of_fallback_or_wrap :
    ¬ QuorumVoting (fun _ _ _ => False) Sample.tokens
        (Sample.oneVote ⟨true, 1, 3, 10, 1⟩ ++ [Sample.fallBack 20]) ∧
      ¬ BelowQuorum Sample.tokens (Sample.countUp (Sample.oneVote ⟨true, 1, 1, 10, 1⟩) none ++
        [Sample.create none, Sample.fund, Sample.complain]) := by
  constructor
  · intro h
    have hsteady : SteadyConfig Sample.tokens
        (Sample.oneVote ⟨true, 1, 3, 10, 1⟩ ++ [Sample.fallBack 20]) Sample.first := by
      unfold SteadyConfig
      decide
    have hmem := Machine.mem_trail_append step (.deployed Sample.tokens)
      (Sample.oneVote ⟨true, 1, 3, 10, 1⟩) [] (Sample.fallBack 20)
    obtain ⟨bps, hdecides⟩ | hother :=
      (h.settled Sample.first hsteady _ hmem (by decide)).1 ⟨by decide, by decide⟩
    · exact hdecides
    · exact hother
  · intro h
    have hstart : SteadyConfig Sample.tokens (Sample.oneVote ⟨true, 1, 1, 10, 1⟩)
        Sample.first := by
      unfold SteadyConfig
      decide
    have hsteady : SteadyConfig Sample.tokens
        (Sample.countUp (Sample.oneVote ⟨true, 1, 1, 10, 1⟩) none ++
          [Sample.create none, Sample.fund, Sample.complain]) Sample.first := by
      rw [Sample.countUp, List.append_assoc]
      refine hstart.append fun a ha => ?_
      obtain ha | ha := List.mem_append.1 ha
      · rw [List.eq_of_mem_replicate ha]
        rfl
      · have hnone : ∀ b ∈ [Sample.create none, Sample.fund, Sample.complain],
            b.setsPolicy = false := by decide
        exact hnone a ha
    obtain ⟨s, hrun, hdisputed, hvotes, hconfig, -⟩ :=
      disputed_at_wrap Sample.tokens (Sample.oneVote ⟨true, 1, 1, 10, 1⟩) (by decide) (by decide)
        (by decide) (by decide) (by decide)
    have hbelow := h Sample.first hsteady _ List.prefix_rfl
    rw [hrun] at hbelow
    have hweight := hbelow hdisputed 5000
    rw [hvotes, hconfig] at hweight
    exact absurd hweight (by decide)

end Amana.Escrow
