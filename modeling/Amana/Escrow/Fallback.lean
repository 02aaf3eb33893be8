import Amana.Escrow.Quorum

/-!
# No settlement without a quorum

A disputed trade that needs a quorum is settled by the vote that decides it, or by the fallback once
the voting window has closed.  The fallback adds `opened_at` and `vote_window_secs` with an
unchecked `u64` addition, and nothing bounds the window, so a window that reaches past the end of
the range counts as closed at once.  Apart from that every settlement has the votes it needs behind
it (`justified_iff_windowInRange`).
-/

namespace Amana.Escrow

open Lib

variable {env : Env} {s s' : State} {c : Call} {k bps : Nat} {t : Trade}
  {tokens : Token.Ledger Address} {actions : List Action}

/-! ## Exact weights -/

/-- The weight behind one outcome, as an integer. -/
def exactWeight (votes : List MediatorVote) (bps : Nat) : Nat :=
  ((votes.filter fun v => v.sellerGetsBps = bps).map MediatorVote.weight).sum

/-- The weight of all votes, as an integer. -/
def exactTotal (votes : List MediatorVote) : Nat := (votes.map MediatorVote.weight).sum

theorem exactWeight_snoc (votes : List MediatorVote) (v : MediatorVote) (bps : Nat) :
    exactWeight (votes ++ [v]) bps =
      exactWeight votes bps + if v.sellerGetsBps = bps then v.weight else 0 := by
  by_cases hv : v.sellerGetsBps = bps <;> simp [exactWeight, hv]

theorem exactWeight_eq_zero {votes : List MediatorVote} (h : ¬ ∃ v ∈ votes, v.sellerGetsBps = bps) :
    exactWeight votes bps = 0 := by
  have hnone : votes.filter (fun v => v.sellerGetsBps = bps) = [] := by
    rw [List.filter_eq_nil_iff]
    intro v hv
    simpa using fun e => h ⟨v, hv, e⟩
  rw [exactWeight, hnone]
  rfl

theorem exactWeight_le_exactTotal (votes : List MediatorVote) (bps : Nat) :
    exactWeight votes bps ≤ exactTotal votes :=
  (List.filter_sublist.map _).sum_le_sum fun _ _ => Nat.zero_le _

theorem weightForOutcome_eq_min (votes : List MediatorVote) (bps : Nat) :
    weightForOutcome votes bps = min (exactWeight votes bps) U32.maxValue := by
  induction votes using List.reverseRecOn with
  | nil => rfl
  | append_singleton votes v ih =>
    rw [weightForOutcome_snoc, exactWeight_snoc, ih]
    by_cases hv : v.sellerGetsBps = bps
    · rw [if_pos hv, if_pos hv, U32.saturatingAdd_min]
    · rw [if_neg hv, if_neg hv, Nat.add_zero]

theorem totalVoteWeight_eq_min (votes : List MediatorVote) :
    totalVoteWeight votes = min (exactTotal votes) U32.maxValue := by
  induction votes using List.reverseRecOn with
  | nil => rfl
  | append_singleton votes v ih =>
    have hsnoc : totalVoteWeight (votes ++ [v]) =
        U32.saturatingAdd (totalVoteWeight votes) v.weight := by
      rw [totalVoteWeight, List.foldl_append]
      rfl
    rw [hsnoc, ih, U32.saturatingAdd_min]
    simp [exactTotal]

theorem weightForOutcome_le (votes : List MediatorVote) (bps : Nat) :
    weightForOutcome votes bps ≤ exactWeight votes bps := by
  rw [weightForOutcome_eq_min]
  exact Nat.min_le_left ..

theorem totalVoteWeight_le (votes : List MediatorVote) :
    totalVoteWeight votes ≤ exactTotal votes := by
  rw [totalVoteWeight_eq_min]
  exact Nat.min_le_left ..

/-! ## The plurality -/

/-- An outcome somebody voted for, with the most weight behind it; of several such outcomes the one
that gives the seller least. -/
structure IsPlurality (votes : List MediatorVote) (bps : Nat) : Prop where
  voted : ∃ v ∈ votes, v.sellerGetsBps = bps
  most : ∀ v ∈ votes, weightForOutcome votes v.sellerGetsBps ≤ weightForOutcome votes bps
  lowest : ∀ v ∈ votes, weightForOutcome votes v.sellerGetsBps = weightForOutcome votes bps →
    bps ≤ v.sellerGetsBps

/-- The loop of `plurality_outcome` after the votes `seen`. -/
structure Plurality.Best (votes seen : List MediatorVote) (best : Plurality) : Prop where
  seenAny : best.seenAny = true
  weight : best.bestWeight = weightForOutcome votes best.bestBps
  voted : ∃ v ∈ seen, v.sellerGetsBps = best.bestBps
  most : ∀ v ∈ seen, weightForOutcome votes v.sellerGetsBps ≤ best.bestWeight
  lowest : ∀ v ∈ seen, weightForOutcome votes v.sellerGetsBps = best.bestWeight →
    best.bestBps ≤ v.sellerGetsBps

theorem Plurality.Best.consider {votes seen : List MediatorVote} {best : Plurality}
    (h : Plurality.Best votes seen best) (v : MediatorVote) :
    Plurality.Best votes (seen ++ [v]) (best.consider votes v) := by
  unfold Plurality.consider
  dsimp only
  split
  · next hcond =>
    have hbetter : best.bestWeight < weightForOutcome votes v.sellerGetsBps ∨
        weightForOutcome votes v.sellerGetsBps = best.bestWeight ∧
          v.sellerGetsBps < best.bestBps := by
      simpa [h.seenAny] using hcond
    refine ⟨rfl, rfl, ⟨v, by simp, rfl⟩, fun u hu => ?_, fun u hu => ?_⟩
    · obtain hu | rfl := List.mem_append.1 hu |>.imp_right List.mem_singleton.1
      · have hmost := h.most u hu
        dsimp only
        omega
      · exact le_rfl
    · dsimp only
      intro hequal
      obtain hu | rfl := List.mem_append.1 hu |>.imp_right List.mem_singleton.1
      · have hmost := h.most u hu
        have hlowest := h.lowest u hu
        omega
      · exact le_rfl
  · next hcond =>
    have hworse : weightForOutcome votes v.sellerGetsBps ≤ best.bestWeight ∧
        (weightForOutcome votes v.sellerGetsBps = best.bestWeight →
          best.bestBps ≤ v.sellerGetsBps) := by
      simpa [h.seenAny] using hcond
    obtain ⟨u, hu, hbps⟩ := h.voted
    refine ⟨h.seenAny, h.weight, ⟨u, List.mem_append_left _ hu, hbps⟩, fun u hu => ?_,
      fun u hu => ?_⟩
    · obtain hu | rfl := List.mem_append.1 hu |>.imp_right List.mem_singleton.1
      · exact h.most u hu
      · exact hworse.1
    · obtain hu | rfl := List.mem_append.1 hu |>.imp_right List.mem_singleton.1
      · exact h.lowest u hu
      · exact hworse.2

theorem Plurality.best_first (votes : List MediatorVote) (v : MediatorVote) :
    Plurality.Best votes [v] (Plurality.consider votes ⟨0, 0, false⟩ v) := by
  refine ⟨rfl, rfl, ⟨v, List.mem_singleton_self v, rfl⟩, fun u hu => ?_, fun u hu _ => ?_⟩
  · obtain rfl := List.mem_singleton.1 hu
    exact le_rfl
  · obtain rfl := List.mem_singleton.1 hu
    exact le_rfl

theorem Plurality.best_fold (votes seen : List MediatorVote) (hseen : seen ≠ []) :
    Plurality.Best votes seen (seen.foldl (Plurality.consider votes) ⟨0, 0, false⟩) := by
  induction seen using List.reverseRecOn with
  | nil => exact absurd rfl hseen
  | append_singleton seen v ih =>
    rw [List.foldl_append]
    by_cases hempty : seen = []
    · rw [hempty]
      exact Plurality.best_first votes v
    · exact (ih hempty).consider v

theorem isPlurality_pluralityOutcome {votes : List MediatorVote} (h : votes ≠ []) :
    IsPlurality votes (pluralityOutcome votes).1 := by
  have hbest := Plurality.best_fold votes votes h
  refine ⟨hbest.voted, fun v hv => ?_, fun v hv hequal => ?_⟩
  · exact (hbest.most v hv).trans hbest.weight.le
  · exact hbest.lowest v hv (hequal.trans hbest.weight.symm)

theorem pluralityOutcome_snd {votes : List MediatorVote} (h : votes ≠ []) :
    (pluralityOutcome votes).2 = weightForOutcome votes (pluralityOutcome votes).1 :=
  (Plurality.best_fold votes votes h).weight

/-- There is one plurality. -/
theorem IsPlurality.unique {votes : List MediatorVote} {bps bps' : Nat}
    (h : IsPlurality votes bps) (h' : IsPlurality votes bps') : bps = bps' := by
  obtain ⟨v, hv, rfl⟩ := h.voted
  obtain ⟨v', hv', rfl⟩ := h'.voted
  have hweight := Nat.le_antisymm (h'.most v hv) (h.most v' hv')
  exact Nat.le_antisymm (h.lowest v' hv' hweight.symm) (h'.lowest v hv hweight)

/-- Among the outcomes of a plurality, any weight in the range of `u32` that one outcome has the
plurality has. -/
theorem IsPlurality.le_exactWeight {votes : List MediatorVote} {required other : Nat}
    (h : IsPlurality votes bps) (hrange : required ≤ U32.maxValue) (hpos : 0 < required)
    (hother : required ≤ exactWeight votes other) : required ≤ exactWeight votes bps := by
  have hvoted : ∃ v ∈ votes, v.sellerGetsBps = other := by
    by_contra hnone
    have hempty := exactWeight_eq_zero hnone
    omega
  obtain ⟨v, hv, rfl⟩ := hvoted
  have hmost := h.most v hv
  rw [weightForOutcome_eq_min, weightForOutcome_eq_min] at hmost
  omega

/-! ## What stands in the way of a settlement -/

/-- The settlement of the trade with this share of the seller can be computed and paid out. -/
def Settlable (s : State) (t : Trade) (bps : Nat) : Prop :=
  ∃ split tokens tokens',
    disputeSplit t.amount bps t.sellerLossBps (getFeeBps s) = .ok split ∧
      Token.pay s.tokens ⟨t.token, currentContract, t.seller, split.sellerNet⟩ = some tokens ∧
      Token.pay tokens ⟨t.token, currentContract, t.buyer, split.buyerRefund⟩ = some tokens'

/-- A settlement looks at the fee and the balances, not at the files of the trade. -/
theorem settlable_congr {mid : State} (fee : getFeeBps mid = getFeeBps s)
    (ledger : mid.tokens = s.tokens) : Settlable mid t bps ↔ Settlable s t bps := by
  rw [Settlable, Settlable, fee, ledger]

theorem settleDispute_isOk_iff (mediator : Address) (stored : s.trades.get k = some t)
    (status : t.status = .disputed) :
    (settleDispute env k bps mediator s).isOk = true ↔ Settlable s t bps := by
  rw [isOk_iff]
  simp only [settleDispute, bind_eq_ok, loadTrade_eq_ok, assert_eq_ok, payOut_eq_ok, pure_eq_ok,
    exists_const]
  constructor
  · rintro ⟨_, t', stored', -, split, hsplit, _, ⟨tokens, hseller, rfl⟩, _,
      ⟨tokens', hbuyer, rfl⟩, -⟩
    obtain rfl := Option.some.inj (stored.symm.trans stored')
    exact ⟨split, tokens, tokens', hsplit, hseller, hbuyer⟩
  · rintro ⟨split, tokens, tokens', hsplit, hseller, hbuyer⟩
    exact ⟨_, t, stored, status, split, hsplit, _, ⟨tokens, hseller, rfl⟩, _,
      ⟨tokens', hbuyer, rfl⟩, rfl⟩

/-- Somebody voted for the outcome, so there is a mediator of record. -/
theorem finalizeQuorum_isOk_iff {state : QuorumState} {weight : Nat} {outcome : QuorumOutcome}
    (stored : s.trades.get k = some t) (status : t.status = .disputed)
    (voted : ∃ v ∈ state.votes, v.sellerGetsBps = bps) :
    (finalizeQuorum env k state bps weight outcome s).isOk = true ↔ Settlable s t bps := by
  obtain ⟨v, hv, hbps⟩ := voted
  have hfound : (state.votes.find? fun vote => vote.sellerGetsBps = bps).isSome = true :=
    List.find?_isSome.2 ⟨v, hv, decide_eq_true hbps⟩
  obtain ⟨first, hfirst⟩ := Option.isSome_iff_exists.1 hfound
  rw [← settleDispute_isOk_iff first.mediator stored status, isOk_iff, isOk_iff]
  simp only [finalizeQuorum, bind_eq_ok, expect_eq_ok, pure_eq_ok, hfirst]
  constructor
  · rintro ⟨_, _, ⟨⟩, s', hsettled, -⟩
    exact ⟨s', hsettled⟩
  · rintro ⟨s', hsettled⟩
    exact ⟨_, first, rfl, s', hsettled, rfl⟩

/-- What a party needs for the fallback. -/
theorem resolveDisputeByFallback_isOk_iff {caller : Address} (stored : s.trades.get k = some t)
    (status : t.status = .disputed) (party : t.IsParty caller)
    (hauth : caller ∈ env.auths ∧ caller ≠ currentContract) :
    (resolveDisputeByFallback env k caller s).isOk = true ↔
      t.NeedsQuorum s ∧ ∃ state, s.disputeVotes.get k = some state ∧ state.votes ≠ [] ∧
        U64.add state.openedAt (getQuorumConfig s).voteWindowSecs ≤ env.timestamp ∧
        (getQuorumConfig s).fallbackMinWeight ≤ totalVoteWeight state.votes ∧
        Settlable s t (pluralityOutcome state.votes).1 := by
  have hparty : (caller = t.buyer ∨ caller = t.seller) ∨ isMediator s caller = true := .inl party
  rw [isOk_iff]
  simp only [resolveDisputeByFallback, bind_eq_ok, requireAuth_eq_ok, assert_eq_ok,
    loadTrade_eq_ok, expect_eq_ok, exists_const]
  constructor
  · rintro ⟨s', -, t', stored', -, -, hquorum, state, hvotes, hsome, hwindow, hweight, ok⟩
    obtain rfl := Option.some.inj (stored.symm.trans stored')
    refine ⟨hquorum, state, hvotes, hsome, hwindow, hweight, ?_⟩
    exact (finalizeQuorum_isOk_iff stored status (isPlurality_pluralityOutcome hsome).voted).1
      (isOk_iff.2 ⟨s', ok⟩)
  · rintro ⟨hquorum, state, hvotes, hsome, hwindow, hweight, hsettle⟩
    obtain ⟨s', ok⟩ := isOk_iff.1 ((finalizeQuorum_isOk_iff stored status
      (isPlurality_pluralityOutcome hsome).voted).2 hsettle)
    exact ⟨s', hauth, t, stored, status, hparty, hquorum, state, hvotes, hsome, hwindow, hweight,
      ok⟩

/-- A ballot that was not opened yet holds no votes. -/
theorem votes_getD (s : State) (k now : Nat) :
    ((s.disputeVotes.get k).getD ⟨k, [], now⟩).votes = votesOn s k := by
  unfold votesOn
  cases s.disputeVotes.get k <;> rfl

/-- What an approved mediator needs for a vote. -/
theorem castDisputeVote_isOk_iff {mediator : Address} {rationale : String}
    (stored : s.trades.get k = some t) (status : t.status = .disputed)
    (approved : s.Mediates mediator) (hauth : mediator ∈ env.auths ∧ mediator ≠ currentContract) :
    (castDisputeVote env k mediator bps rationale s).isOk = true ↔
      bps ≤ 10000 ∧ rationale.utf8ByteSize ≠ 0 ∧ rationale.utf8ByteSize ≤ maxHashLen ∧
        t.NeedsQuorum s ∧ (∀ existing ∈ votesOn s k, existing.mediator ≠ mediator) ∧
        ((getQuorumConfig s).requiredWeight ≤
            weightForOutcome (votesOn s k ++ [voteOf env s mediator bps rationale]) bps →
          Settlable s t bps) := by
  have hmediator := requireMediator_eq_ok.2 ⟨hauth, approved, rfl⟩
  have hvoted : ∃ v ∈ votesOn s k ++ [voteOf env s mediator bps rationale], v.sellerGetsBps = bps :=
    ⟨voteOf env s mediator bps rationale, by simp, rfl⟩
  rw [isOk_iff]
  simp only [castDisputeVote, hmediator, bind_eq_ok, assert_eq_ok, loadTrade_eq_ok, exists_const,
    Except.ok.injEq, exists_eq_left', exists_and_left, votes_getD]
  constructor
  · rintro ⟨hbps, hsome, hlength, s', t', stored', -, hquorum, hnew, h⟩
    obtain rfl := Option.some.inj (stored.symm.trans stored')
    refine ⟨hbps, hsome, hlength, hquorum, hnew, fun hreached => ?_⟩
    split at h
    · have hfinal := isOk_iff.2 ⟨s', h⟩
      rw [finalizeQuorum_isOk_iff (t := t) _ status hvoted, settlable_congr (s := s)] at hfinal
      · exact hfinal
      · rfl
      · rfl
      · exact stored
    · next hshort => exact absurd hreached hshort
  · rintro ⟨hbps, hsome, hlength, hquorum, hnew, hsettle⟩
    refine ⟨hbps, hsome, hlength, ?_⟩
    rw [exists_comm]
    refine ⟨t, ?_⟩
    simp only [exists_and_left]
    refine ⟨stored, status, hquorum, hnew, ?_⟩
    rw [← isOk_iff]
    split
    · next hreached =>
      rw [finalizeQuorum_isOk_iff (t := t) _ status hvoted, settlable_congr (s := s)]
      · exact hsettle hreached
      · rfl
      · rfl
      · exact stored
    · rfl

/-! ## Settlements -/

/-- The plurality of the votes on record decides, with enough weight cast and the window closed. -/
def ByPlurality (env : Env) (s s' : State) (k bps : Nat) : Prop :=
  ∃ state, s'.disputeVotes.get k = some state ∧ IsPlurality state.votes bps ∧
    (getQuorumConfig s).fallbackMinWeight ≤ exactTotal state.votes ∧
    state.openedAt + (getQuorumConfig s).voteWindowSecs ≤ env.timestamp

/-- A settlement of trade `k` has the votes it needs behind it. -/
structure Justified (env : Env) (s : State) (c : Call) (s' : State) (k : Nat) : Prop where
  /-- The share paid out has the required weight, or is that of the plurality. -/
  share : ∃ bps, SettledWith bps k s s' ∧
    ((getQuorumConfig s).requiredWeight ≤ exactWeight (votesOn s' k) bps ∨
      ByPlurality env s s' k bps)
  /-- It is not the decision of a single mediator. -/
  notSingle : ∀ mediator bps, c ≠ .resolveDispute k mediator bps

/-- A fallback finds a window that ends in the range of `u64`, or an outcome that has the required
weight. -/
def WindowInRange (s : State) (c : Call) (k : Nat) : Prop :=
  ∀ caller state, c = .resolveDisputeByFallback k caller → s.disputeVotes.get k = some state →
    state.openedAt + (getQuorumConfig s).voteWindowSecs < 2 ^ 64 ∨
      ∃ bps, (getQuorumConfig s).requiredWeight ≤ exactWeight state.votes bps

/-- What a successful fallback found and did. -/
theorem resolveDisputeByFallback_settledWith {caller : Address}
    (h : resolveDisputeByFallback env k caller s = .ok s') :
    ∃ state, s.disputeVotes.get k = some state ∧ state.votes ≠ [] ∧
      U64.add state.openedAt (getQuorumConfig s).voteWindowSecs ≤ env.timestamp ∧
      (getQuorumConfig s).fallbackMinWeight ≤ totalVoteWeight state.votes ∧
      SettledWith (pluralityOutcome state.votes).1 k s s' := by
  simp only [resolveDisputeByFallback, bind_eq_ok, requireAuth_eq_ok, assert_eq_ok,
    loadTrade_eq_ok, expect_eq_ok, exists_const] at h
  obtain ⟨-, trade, -, -, -, -, state, hvotes, hsome, hwindow, hweight, h⟩ := h
  exact ⟨state, hvotes, hsome, hwindow, hweight, finalizeQuorum_settledWith h⟩

/-- A deciding vote needs nothing more. -/
theorem justified_of_decides (wf : WellFormed s.toSettings s.toBooks)
    (ok : invoke env s c = .ok s') (h : Decides k bps s (.call env c)) :
    Justified env s c s' k ∧ WindowInRange s c k := by
  have hstep := step_call_of_ok ok
  have hsettled := settledWith_of_decides wf h
  rw [hstep] at hsettled
  cases c with
  | castDisputeVote k' mediator bps' rationale =>
    obtain ⟨rfl, rfl, -, hreached⟩ := h
    rw [hstep] at hreached
    refine ⟨⟨⟨bps', hsettled, .inl ?_⟩, fun _ _ e => ?_⟩, fun _ _ e => ?_⟩
    · exact hreached.trans (weightForOutcome_le ..)
    · cases e
    · cases e
  | _ => exact h.elim

/-- The votes stay on record after a fallback. -/
theorem disputeVotes_of_fallback {caller : Address} (wf : WellFormed s.toSettings s.toBooks)
    (ok : invoke env s (.resolveDisputeByFallback k caller) = .ok s') :
    s'.disputeVotes.get k = s.disputeVotes.get k := by
  obtain ⟨t, t', -, -, entry⟩ := (invoke_filing wf rfl ok).of_subject rfl
  show (s'.toFiles.folder k).votes = (s.toFiles.folder k).votes
  generalize s'.toFiles.folder k = d' at entry
  cases entry with
  | fallback => rfl

/-- A fallback is justified exactly when the window it waited for did not wrap. -/
theorem justified_fallback_iff {caller : Address} (wf : WellFormed s.toSettings s.toBooks)
    (sound : s.mediation.Sound) (ok : invoke env s (.resolveDisputeByFallback k caller) = .ok s')
    (now : env.timestamp < 2 ^ 64) (range : (getQuorumConfig s).requiredWeight ≤ U32.maxValue) :
    Justified env s (.resolveDisputeByFallback k caller) s' k ↔
      WindowInRange s (.resolveDisputeByFallback k caller) k := by
  obtain ⟨state, hvotes, hsome, hwindow, hweight, hsettled⟩ :=
    resolveDisputeByFallback_settledWith ok
  have hafter := (disputeVotes_of_fallback wf ok).trans hvotes
  have hlist : votesOn s' k = state.votes := by
    rw [votesOn, hafter]
    rfl
  have hplurality := isPlurality_pluralityOutcome hsome
  constructor
  · intro h caller' state' _ hvotes'
    obtain rfl := Option.some.inj (hvotes.symm.trans hvotes')
    obtain ⟨bps, -, hreached | ⟨state', hvotes', -, -, hclosed⟩⟩ := h.share
    · rw [hlist] at hreached
      exact .inr ⟨bps, hreached⟩
    · obtain rfl := Option.some.inj (hafter.symm.trans hvotes')
      exact .inl (lt_of_le_of_lt hclosed now)
  · intro h
    refine ⟨⟨_, hsettled, ?_⟩, fun _ _ e => by cases e⟩
    obtain hrange | ⟨bps, hreached⟩ := h caller state rfl hvotes
    · refine .inr ⟨state, hafter, hplurality, hweight.trans (totalVoteWeight_le _), ?_⟩
      rwa [U64.add_of_lt hrange] at hwindow
    · refine .inl ?_
      rw [hlist]
      exact hplurality.le_exactWeight range sound.getQuorumConfig.requiredWeight hreached

/-- In every reachable state, a call that settles a disputed trade in need of a quorum has the votes
for it exactly when it is not a fallback whose window wraps. -/
theorem justified_iff_windowInRange (stored : (run tokens actions).trades.get k = some t)
    (status : t.status = .disputed) (quorum : t.NeedsQuorum (run tokens actions))
    (ok : invoke env (run tokens actions) c = .ok s')
    (settled : (s'.trades.get k).map Trade.status = some .completed)
    (now : env.timestamp < 2 ^ 64)
    (range : (getQuorumConfig (run tokens actions)).requiredWeight ≤ U32.maxValue) :
    Justified env (run tokens actions) c s' k ↔ WindowInRange (run tokens actions) c k := by
  have wf := wellFormed_run tokens actions
  have hdisputed : Disputed (run tokens actions) k := by
    rw [Disputed, stored, Option.map_some, status]
  rw [← step_call_of_ok ok] at settled
  obtain ⟨bps, hdecides⟩ | hother := settles_of_completed wf hdisputed settled
  · have hboth := justified_of_decides wf ok hdecides
    exact ⟨fun _ => hboth.2, fun _ => hboth.1⟩
  · cases c with
    | resolveDispute k' mediator bps => exact absurd quorum (hother.2.2 t stored)
    | resolveDisputeByFallback k' caller =>
      obtain ⟨rfl, -⟩ := hother
      exact justified_fallback_iff wf (mediationSound_run tokens actions) ok now range
    | _ => exact hother.elim

/-- The fallback Alice calls for succeeds and completes the trade. -/
theorem fallBack_ok (config : QuorumConfig) (now : Nat)
    (h : (invoke ⟨now, 1, [Sample.alice]⟩ (run Sample.tokens (Sample.oneVote config))
      (.resolveDisputeByFallback Sample.first Sample.alice)).isOk = true) :
    invoke ⟨now, 1, [Sample.alice]⟩ (run Sample.tokens (Sample.oneVote config))
      (.resolveDisputeByFallback Sample.first Sample.alice) =
        .ok (run Sample.tokens (Sample.oneVote config ++ [Sample.fallBack now])) := by
  obtain ⟨s', ok⟩ := isOk_iff.1 h
  rw [run_snoc, Sample.fallBack, Sample.call, step_call_of_ok ok]
  exact ok

/-- Once the window of ten seconds has closed, one vote of three is enough for the fallback. -/
theorem justified_after_window :
    Justified ⟨20, 1, [Sample.alice]⟩ (run Sample.tokens (Sample.oneVote ⟨true, 1, 3, 10, 1⟩))
      (.resolveDisputeByFallback Sample.first Sample.alice)
      (run Sample.tokens (Sample.oneVote ⟨true, 1, 3, 10, 1⟩ ++ [Sample.fallBack 20]))
      Sample.first := by
  obtain ⟨t, stored, hstatus, hquorum⟩ : ∃ t,
      (run Sample.tokens (Sample.oneVote ⟨true, 1, 3, 10, 1⟩)).trades.get Sample.first = some t ∧
        t.status = .disputed ∧
          t.NeedsQuorum (run Sample.tokens (Sample.oneVote ⟨true, 1, 3, 10, 1⟩)) :=
    ⟨_, rfl, by decide, by decide, by decide⟩
  refine (justified_iff_windowInRange stored hstatus hquorum (fallBack_ok _ _ (by decide))
    (by decide) (by decide) (by decide)).2 fun _ state _ hvotes => .inl ?_
  obtain rfl : state = ⟨Sample.first, [⟨Sample.admin, 5000, 1, "photographs", 10⟩], 10⟩ :=
    Option.some.inj (hvotes.symm.trans (by decide))
  decide

/-- With a window that reaches past the end of the range, the fallback settles a trade at once, on
one vote of three. -/
theorem not_justified_of_wrapping_window :
    ∃ t, (run Sample.tokens (Sample.oneVote ⟨true, 1, 3, 2 ^ 64 - 1, 1⟩)).trades.get Sample.first =
        some t ∧ t.status = .disputed ∧
      t.NeedsQuorum (run Sample.tokens (Sample.oneVote ⟨true, 1, 3, 2 ^ 64 - 1, 1⟩)) ∧
      invoke ⟨10, 1, [Sample.alice]⟩
        (run Sample.tokens (Sample.oneVote ⟨true, 1, 3, 2 ^ 64 - 1, 1⟩))
        (.resolveDisputeByFallback Sample.first Sample.alice) =
          .ok (run Sample.tokens
            (Sample.oneVote ⟨true, 1, 3, 2 ^ 64 - 1, 1⟩ ++ [Sample.fallBack 10])) ∧
      ((run Sample.tokens (Sample.oneVote ⟨true, 1, 3, 2 ^ 64 - 1, 1⟩ ++
        [Sample.fallBack 10])).trades.get Sample.first).map Trade.status = some .completed ∧
      ¬ Justified ⟨10, 1, [Sample.alice]⟩
        (run Sample.tokens (Sample.oneVote ⟨true, 1, 3, 2 ^ 64 - 1, 1⟩))
        (.resolveDisputeByFallback Sample.first Sample.alice)
        (run Sample.tokens (Sample.oneVote ⟨true, 1, 3, 2 ^ 64 - 1, 1⟩ ++ [Sample.fallBack 10]))
        Sample.first := by
  have ok := fallBack_ok ⟨true, 1, 3, 2 ^ 64 - 1, 1⟩ 10 (by decide)
  refine ⟨_, rfl, by decide, ⟨by decide, by decide⟩, ok, by decide, fun h => ?_⟩
  rw [justified_fallback_iff (wellFormed_run _ _) (mediationSound_run _ _) ok (by decide)
    (by decide)] at h
  obtain hrange | ⟨bps, hreached⟩ := h Sample.alice
    ⟨Sample.first, [⟨Sample.admin, 5000, 1, "photographs", 10⟩], 10⟩ rfl (by decide)
  · exact absurd hrange (by decide)
  · have hle : exactWeight [⟨Sample.admin, 5000, 1, "photographs", 10⟩] bps ≤ 1 := by
      by_cases hbps : 5000 = bps <;> simp [exactWeight, hbps]
    exact absurd (hreached.trans hle) (by decide)

end Amana.Escrow
