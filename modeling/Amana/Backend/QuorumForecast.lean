import Amana.Backend.MediatorQuorum
import Amana.Escrow.Plurality

/-!
# What the dashboard of the mediators says

`quorumStatus` tells when the fallback is available and `evaluateVote` whether a vote is allowed,
from the votes and the policy read from the chain.  Both leave out checks of the contract.  The
fallback is announced without asking whether the trade needs a quorum at all, and withheld as soon
as an outcome has the required weight, which the contract does not look at (`forecast_iff`).  The
reason of a vote is taken for missing when it is blank, and its length is not looked at
(`vote_checked_iff`).

Times and weights are exact, as numbers below `2 ^ 53` are in JavaScript.
-/

namespace Amana.Backend

open Lib
open Escrow (Address Env State Trade Outcome Failure MediatorVote QuorumConfig QuorumState exactWeight
  exactTotal weightForOutcome totalVoteWeight pluralityOutcome getQuorumConfig votesOn voteOf Settlable
  castDisputeVote resolveDisputeByFallback currentContract maxHashLen settleDispute)

/-- The votes on a trade as the chain has them. -/
def voteState (s : State) (k : Nat) (t : Trade) : DisputeVoteState where
  tradeId := k
  amount := t.amount
  votes := votesOn s k
  openedAt := (s.disputeVotes.get k).map QuorumState.openedAt

variable {env : Env} {s : State} {k : Nat} {t : Trade}

/-! ## The fallback -/

/-- The dashboard says that the fallback is available and what comes of it, exactly when a party that
calls for it succeeds. -/
def ForecastRight (env : Env) (s : State) (k : Nat) (t : Trade) (caller : Address) : Prop :=
  ((quorumStatus (voteState s k t) env.timestamp (getQuorumConfig s)).fallbackAvailable = true ∧
      pendingResolution (voteState s k t) env.timestamp (getQuorumConfig s) =
        some ((pluralityOutcome (votesOn s k)).1, (pluralityOutcome (votesOn s k)).2, .fallback)) ↔
    (resolveDisputeByFallback env k caller s).isOk = true

/-- Once enough votes are cast and the window counts as closed, one of two cases is given: the trade
needs a quorum and can be settled, no outcome has the required weight and the window has really
closed; or the trade needs no quorum or cannot be settled, and an outcome has the required weight or
the window has not really closed. -/
def FallbackMatches (env : Env) (s : State) (k : Nat) (t : Trade) : Prop :=
  ∀ state, s.disputeVotes.get k = some state →
    (getQuorumConfig s).fallbackMinWeight ≤ exactTotal state.votes →
    U64.add state.openedAt (getQuorumConfig s).voteWindowSecs ≤ env.timestamp →
      t.NeedsQuorum s ∧ Settlable s t (pluralityOutcome state.votes).1 ∧
          (∀ v ∈ state.votes,
            exactWeight state.votes v.sellerGetsBps < (getQuorumConfig s).requiredWeight) ∧
          state.openedAt + (getQuorumConfig s).voteWindowSecs ≤ env.timestamp ∨
        (¬ t.NeedsQuorum s ∨ ¬ Settlable s t (pluralityOutcome state.votes).1) ∧
          ((∃ v ∈ state.votes,
              (getQuorumConfig s).requiredWeight ≤ exactWeight state.votes v.sellerGetsBps) ∨
            env.timestamp < state.openedAt + (getQuorumConfig s).voteWindowSecs)

theorem fallbackMatches_iff : FallbackMatches env s k t ↔
    ∀ state, s.disputeVotes.get k = some state →
      (getQuorumConfig s).fallbackMinWeight ≤ exactTotal state.votes →
      U64.add state.openedAt (getQuorumConfig s).voteWindowSecs ≤ env.timestamp →
        (t.NeedsQuorum s ∧ Settlable s t (pluralityOutcome state.votes).1 ↔
          (∀ v ∈ state.votes,
            exactWeight state.votes v.sellerGetsBps < (getQuorumConfig s).requiredWeight) ∧
          state.openedAt + (getQuorumConfig s).voteWindowSecs ≤ env.timestamp) := by
  have hcases : ∀ a b c d : Prop,
      a ∧ b ∧ c ∧ d ∨ (¬ a ∨ ¬ b) ∧ (¬ c ∨ ¬ d) ↔ (a ∧ b ↔ c ∧ d) := by tauto
  refine forall_congr' fun state => forall_congr' fun _ => forall_congr' fun _ =>
    forall_congr' fun _ => ?_
  rw [← hcases]
  simp only [not_forall, not_lt, not_le, exists_prop]

theorem quorumReached_eq_false_iff (state : DisputeVoteState) (now : Nat) (config : QuorumConfig) :
    (quorumStatus state now config).quorumReached = false ↔
      ∀ v ∈ state.votes, exactWeight state.votes v.sellerGetsBps < config.requiredWeight := by
  by_cases hsome : state.votes = []
  · have hnone : tallyVotes [] = [] := by rw [tallyVotes, List.foldl_nil, List.mergeSort_nil]
    simp [quorumStatus, hnone, hsome]
  · obtain ⟨leader, rest, hlist, ⟨u, hu, hbps⟩, hweight, hmost⟩ := head_tallyVotes hsome
    have hreached : (quorumStatus state now config).quorumReached =
        decide (leader.weight ≥ config.requiredWeight) := by
      simp [quorumStatus, hlist]
    rw [hreached, decide_eq_false_iff_not]
    constructor
    · intro hshort v hv
      have := hmost v hv
      omega
    · intro hshort
      have := hshort u hu
      rw [hbps] at this
      omega

theorem fallbackAvailable_iff (state : DisputeVoteState) (now : Nat) (config : QuorumConfig) :
    (quorumStatus state now config).fallbackAvailable = true ↔
      (∀ v ∈ state.votes, exactWeight state.votes v.sellerGetsBps < config.requiredWeight) ∧
      (∃ openedAt, state.openedAt = some openedAt ∧ openedAt + config.voteWindowSecs ≤ now) ∧
      config.fallbackMinWeight ≤ exactTotal state.votes := by
  rw [← quorumReached_eq_false_iff state now config]
  show (!(quorumStatus state now config).quorumReached &&
    (state.openedAt.map (· + config.voteWindowSecs)).any (now ≥ ·) &&
    decide (exactTotal state.votes ≥ config.fallbackMinWeight)) = true ↔ _
  cases state.openedAt with
  | none => simp
  | some openedAt => simp [and_assoc]

/-- When the fallback is available, its outcome is that of the contract. -/
theorem pendingResolution_of_fallbackAvailable {state : DisputeVoteState} {now : Nat}
    {config : QuorumConfig} (valid : config.Valid) (range : config.requiredWeight ≤ U32.maxValue)
    (h : (quorumStatus state now config).fallbackAvailable = true) :
    pendingResolution state now config =
      some ((pluralityOutcome state.votes).1, (pluralityOutcome state.votes).2, .fallback) := by
  obtain ⟨hshort, -, hweight⟩ := (fallbackAvailable_iff state now config).1 h
  have hsome : state.votes ≠ [] := by
    intro hnone
    have hpos := valid.fallbackMinWeight
    rw [hnone] at hweight
    have hzero : exactTotal [] = 0 := rfl
    omega
  obtain ⟨leader, rest, hlist, hleader⟩ := leader_eq_pluralityOutcome hsome fun v hv =>
    ((hshort v hv).trans_le range).le
  have hreached := (quorumReached_eq_false_iff state now config).2 hshort
  have hhead : (quorumStatus state now config).tallies.head? = some leader := by
    show (tallyVotes state.votes).head? = some leader
    rw [hlist]
    rfl
  rw [← hleader]
  simp [pendingResolution, hhead, hreached, h]

/-- In every state whose policy is valid, the forecast is right exactly where the two sides match. -/
theorem forecastRight_iff {caller : Address} (valid : (getQuorumConfig s).Valid)
    (stored : s.trades.get k = some t) (status : t.status = .disputed) (party : t.IsParty caller)
    (hauth : caller ∈ env.auths ∧ caller ≠ currentContract)
    (range : (getQuorumConfig s).requiredWeight ≤ U32.maxValue) :
    ForecastRight env s k t caller ↔ FallbackMatches env s k t := by
  have hforecast : ((quorumStatus (voteState s k t) env.timestamp
      (getQuorumConfig s)).fallbackAvailable = true ∧
      pendingResolution (voteState s k t) env.timestamp (getQuorumConfig s) =
        some ((pluralityOutcome (votesOn s k)).1, (pluralityOutcome (votesOn s k)).2, .fallback)) ↔
      (quorumStatus (voteState s k t) env.timestamp (getQuorumConfig s)).fallbackAvailable = true :=
    and_iff_left_of_imp fun h => pendingResolution_of_fallbackAvailable valid range h
  have hmin : (getQuorumConfig s).fallbackMinWeight ≤ U32.maxValue :=
    valid.fallback_le.trans range
  rw [ForecastRight, hforecast, fallbackAvailable_iff, fallbackMatches_iff,
    Escrow.resolveDisputeByFallback_isOk_iff stored status party hauth]
  cases hvotes : s.disputeVotes.get k with
  | none => simp [voteState, hvotes]
  | some state =>
    have hlist : votesOn s k = state.votes := by
      rw [votesOn, hvotes]
      rfl
    have hweight : (getQuorumConfig s).fallbackMinWeight ≤ totalVoteWeight state.votes ↔
        (getQuorumConfig s).fallbackMinWeight ≤ exactTotal state.votes := by
      rw [Escrow.totalVoteWeight_eq_min]
      exact ⟨fun h => h.trans (Nat.min_le_left ..), fun h => Nat.le_min.2 ⟨h, hmin⟩⟩
    have hsome : (getQuorumConfig s).fallbackMinWeight ≤ exactTotal state.votes →
        state.votes ≠ [] := by
      intro h hnone
      have hpos := valid.fallbackMinWeight
      rw [hnone] at h
      have hzero : exactTotal [] = 0 := rfl
      omega
    -- A sum that has not wrapped is the larger one.
    have hclosed : state.openedAt + (getQuorumConfig s).voteWindowSecs ≤ env.timestamp →
        U64.add state.openedAt (getQuorumConfig s).voteWindowSecs ≤ env.timestamp :=
      fun h => (Nat.mod_le _ _).trans h
    simp only [voteState, hvotes, hlist, Option.map_some, Option.some.injEq, exists_eq_left',
      forall_eq', hweight]
    constructor
    · intro h henough hwindow
      constructor
      · rintro ⟨hquorum, hsettle⟩
        obtain ⟨hshort, hreally, -⟩ := h.2 ⟨hquorum, hsome henough, hwindow, henough, hsettle⟩
        exact ⟨hshort, hreally⟩
      · rintro ⟨hshort, hreally⟩
        obtain ⟨hquorum, -, -, -, hsettle⟩ := h.1 ⟨hshort, hreally, henough⟩
        exact ⟨hquorum, hsettle⟩
    · intro h
      constructor
      · rintro ⟨hshort, hreally, henough⟩
        obtain ⟨hquorum, hsettle⟩ := (h henough (hclosed hreally)).2 ⟨hshort, hreally⟩
        exact ⟨hquorum, hsome henough, hclosed hreally, henough, hsettle⟩
      · rintro ⟨hquorum, -, hwindow, henough, hsettle⟩
        obtain ⟨hshort, hreally⟩ := (h henough hwindow).1 ⟨hquorum, hsettle⟩
        exact ⟨hshort, hreally, henough⟩

/-- In every reachable state of a disputed trade, under every policy, the dashboard is right about
the fallback exactly when what the two sides look at comes out the same. -/
theorem forecast_iff {tokens : Token.Ledger Address} {actions : List Escrow.Action}
    {caller : Address} (stored : (Escrow.run tokens actions).trades.get k = some t)
    (status : t.status = .disputed) (party : t.IsParty caller)
    (hauth : caller ∈ env.auths ∧ caller ≠ currentContract)
    (range : (getQuorumConfig (Escrow.run tokens actions)).requiredWeight ≤ U32.maxValue) :
    ForecastRight env (Escrow.run tokens actions) k t caller ↔
      FallbackMatches env (Escrow.run tokens actions) k t :=
  forecastRight_iff (Escrow.mediationSound_run tokens actions).getQuorumConfig stored status party
    hauth range

/-- After one of three votes, once the window has closed. -/
theorem forecast_iff_after_window :
    ∃ t, (Escrow.run Escrow.Sample.tokens (Escrow.Sample.oneVote ⟨true, 1, 3, 10, 1⟩)).trades.get
        Escrow.Sample.first = some t ∧
      (ForecastRight ⟨20, 1, [Escrow.Sample.alice]⟩
          (Escrow.run Escrow.Sample.tokens (Escrow.Sample.oneVote ⟨true, 1, 3, 10, 1⟩))
          Escrow.Sample.first t Escrow.Sample.alice ↔
        FallbackMatches ⟨20, 1, [Escrow.Sample.alice]⟩
          (Escrow.run Escrow.Sample.tokens (Escrow.Sample.oneVote ⟨true, 1, 3, 10, 1⟩))
          Escrow.Sample.first t) :=
  ⟨_, rfl, forecast_iff rfl (by decide) (.inl (by decide)) (by decide) (by decide)⟩

/-- The admin turns the quorum off after the first vote. -/
def Sample.turnedOff : List Escrow.Action :=
  Escrow.Sample.oneVote ⟨true, 1, 3, 10, 1⟩ ++
    [Escrow.Sample.call 11 Escrow.Sample.admin (.setQuorumConfig ⟨false, 1, 3, 10, 1⟩)]

/-- The dashboard still announces the fallback, which the contract refuses. -/
theorem not_forecastRight_of_turned_off :
    ∃ t, (Escrow.run Escrow.Sample.tokens Sample.turnedOff).trades.get Escrow.Sample.first =
        some t ∧ t.status = .disputed ∧ t.IsParty Escrow.Sample.alice ∧
      ¬ ForecastRight ⟨20, 1, [Escrow.Sample.alice]⟩
        (Escrow.run Escrow.Sample.tokens Sample.turnedOff) Escrow.Sample.first t
        Escrow.Sample.alice := by
  obtain ⟨t, stored, status, party⟩ : ∃ t,
      (Escrow.run Escrow.Sample.tokens Sample.turnedOff).trades.get Escrow.Sample.first = some t ∧
        t.status = .disputed ∧ t.IsParty Escrow.Sample.alice :=
    ⟨_, rfl, by decide, .inl (by decide)⟩
  refine ⟨t, stored, status, party, fun h => ?_⟩
  have hrefused : (resolveDisputeByFallback ⟨20, 1, [Escrow.Sample.alice]⟩ Escrow.Sample.first
      Escrow.Sample.alice (Escrow.run Escrow.Sample.tokens Sample.turnedOff)).isOk = false := by
    decide
  have hshort : ∀ v ∈ votesOn (Escrow.run Escrow.Sample.tokens Sample.turnedOff)
      Escrow.Sample.first, exactWeight (votesOn (Escrow.run Escrow.Sample.tokens Sample.turnedOff)
        Escrow.Sample.first) v.sellerGetsBps < 3 := by
    decide
  have hopened : (((Escrow.run Escrow.Sample.tokens Sample.turnedOff).disputeVotes.get
      Escrow.Sample.first).map QuorumState.openedAt) = some 10 := by
    decide
  have havailable := (fallbackAvailable_iff (voteState
    (Escrow.run Escrow.Sample.tokens Sample.turnedOff) Escrow.Sample.first t) 20
    (getQuorumConfig (Escrow.run Escrow.Sample.tokens Sample.turnedOff))).2
      ⟨hshort, ⟨10, hopened, by decide⟩, show 1 ≤ exactTotal (votesOn
        (Escrow.run Escrow.Sample.tokens Sample.turnedOff) Escrow.Sample.first) by decide⟩
  have hok := h.1 ⟨havailable, pendingResolution_of_fallbackAvailable
    (Escrow.mediationSound_run _ _).getQuorumConfig (by decide) havailable⟩
  rw [hrefused] at hok
  cases hok

/-! ## A vote -/

/-- The assertion of `cast_dispute_vote` that a rejection stands for. -/
def VoteRejection.assertion : VoteRejection → String
  | .invalidBps => "seller_gets_bps must be <= 10_000"
  | .missingRationale => "rationale_hash must not be empty"
  | .alreadyResolved => "Trade must be in Disputed status"
  | .quorumNotRequired => "Trade does not require a mediator quorum; use resolve_dispute"
  | .alreadyVoted => "Mediator has already voted on this dispute"

/-- `evaluateVote` allows what the contract accepts, and where both refuse it names the assertion
that stopped the contract.  A negative share cannot be passed to the contract. -/
structure VoteChecked (env : Env) (s : State) (k : Nat) (t : Trade) (mediator : Address)
    (sellerGetsBps : Int) (rationaleHash : String) : Prop where
  allowed : (evaluateVote (voteState s k t) mediator sellerGetsBps rationaleHash
      (getQuorumConfig s)).allowed = true ↔
    ∃ bps : Nat, (bps : Int) = sellerGetsBps ∧
      (castDisputeVote env k mediator bps rationaleHash s).isOk = true
  rejection : ∀ (bps : Nat) (failure : Failure), (bps : Int) = sellerGetsBps →
    castDisputeVote env k mediator bps rationaleHash s = .error failure →
    (evaluateVote (voteState s k t) mediator sellerGetsBps rationaleHash
      (getQuorumConfig s)).allowed = false →
    ∃ rejection, (evaluateVote (voteState s k t) mediator sellerGetsBps rationaleHash
        (getQuorumConfig s)).rejection = some rejection ∧
      failure = .panic rejection.assertion

/-- A reason that is there and not too long, and if this is the vote that decides, a settlement that
goes through. -/
def VoteMatches (env : Env) (s : State) (k : Nat) (t : Trade) (mediator : Address) (bps : Nat)
    (rationaleHash : String) : Prop :=
  Text.trim rationaleHash ≠ "" ∧ rationaleHash.utf8ByteSize ≤ maxHashLen ∧
    (t.NeedsQuorum s → (∀ existing ∈ votesOn s k, existing.mediator ≠ mediator) →
      (getQuorumConfig s).requiredWeight ≤
        weightForOutcome (votesOn s k ++ [voteOf env s mediator bps rationaleHash]) bps →
      Settlable s t bps)

/-- How `cast_dispute_vote` fails for an approved mediator: at the first of its assertions that does
not hold, or when the settlement does not go through. -/
inductive VoteRefused (s : State) (k : Nat) (t : Trade) (mediator : Address) (bps : Nat)
    (rationaleHash : String) : Failure → Prop
  | invalidBps (share : ¬ bps ≤ 10000) : VoteRefused s k t mediator bps rationaleHash
      (.panic VoteRejection.invalidBps.assertion)
  | missingRationale (share : bps ≤ 10000) (empty : rationaleHash.utf8ByteSize = 0) :
      VoteRefused s k t mediator bps rationaleHash
        (.panic VoteRejection.missingRationale.assertion)
  | tooLong (share : bps ≤ 10000) (some : rationaleHash.utf8ByteSize ≠ 0)
      (long : ¬ rationaleHash.utf8ByteSize ≤ maxHashLen) :
      VoteRefused s k t mediator bps rationaleHash (.panic "rationale_hash exceeds max length")
  | quorumNotRequired (share : bps ≤ 10000) (some : rationaleHash.utf8ByteSize ≠ 0)
      (short : rationaleHash.utf8ByteSize ≤ maxHashLen) (single : ¬ t.NeedsQuorum s) :
      VoteRefused s k t mediator bps rationaleHash
        (.panic VoteRejection.quorumNotRequired.assertion)
  | alreadyVoted (share : bps ≤ 10000) (some : rationaleHash.utf8ByteSize ≠ 0)
      (short : rationaleHash.utf8ByteSize ≤ maxHashLen) (quorum : t.NeedsQuorum s)
      (voted : ¬ ∀ existing ∈ votesOn s k, existing.mediator ≠ mediator) :
      VoteRefused s k t mediator bps rationaleHash (.panic VoteRejection.alreadyVoted.assertion)
  | unsettled (failure : Failure) (share : bps ≤ 10000) (some : rationaleHash.utf8ByteSize ≠ 0)
      (short : rationaleHash.utf8ByteSize ≤ maxHashLen) (quorum : t.NeedsQuorum s)
      (first : ∀ existing ∈ votesOn s k, existing.mediator ≠ mediator)
      (other : failure ≠ .panic VoteRejection.missingRationale.assertion) :
      VoteRefused s k t mediator bps rationaleHash failure

theorem voteRefused_of_error {mediator : Address} {bps : Nat} {rationaleHash : String}
    {failure : Failure} (stored : s.trades.get k = some t) (status : t.status = .disputed)
    (approved : s.Mediates mediator) (hauth : mediator ∈ env.auths ∧ mediator ≠ currentContract)
    (h : castDisputeVote env k mediator bps rationaleHash s = .error failure) :
    VoteRefused s k t mediator bps rationaleHash failure := by
  have hmediator := Escrow.requireMediator_eq_ok.2 ⟨hauth, approved, rfl⟩
  have hload : Escrow.loadTrade s k = .ok t := Escrow.loadTrade_eq_ok.2 stored
  simp only [castDisputeVote, hmediator, hload, bind_eq_error, Escrow.assert, ensure_eq_error,
    ensure_eq_ok, Except.ok.injEq, exists_eq_left', reduceCtorEq, false_or, exists_const,
    Escrow.votes_getD] at h
  obtain ⟨share, rfl⟩ | ⟨share, h⟩ := h
  · exact .invalidBps share
  obtain ⟨empty, rfl⟩ | ⟨some, h⟩ := h
  · exact .missingRationale share (not_not.1 empty)
  obtain ⟨long, rfl⟩ | ⟨short, h⟩ := h
  · exact .tooLong share some long
  obtain ⟨other, -⟩ | ⟨-, h⟩ := h
  · exact absurd status other
  obtain ⟨single, rfl⟩ | ⟨quorum, h⟩ := h
  · exact .quorumNotRequired share some short single
  obtain ⟨voted, rfl⟩ | ⟨first, h⟩ := h
  · exact .alreadyVoted share some short quorum voted
  refine .unsettled failure share some short quorum first ?_
  split at h
  · have hfails := Escrow.finalizeQuorum_failsWith ?_ failure h
    · rintro rfl
      exact absurd hfails (by decide)
    · exact ⟨_, List.mem_append_right _ (List.mem_singleton_self _), rfl⟩
  · cases h

theorem requiresQuorum_iff :
    requiresQuorum t.amount (getQuorumConfig s) = true ↔ t.NeedsQuorum s := by
  simp [requiresQuorum, Trade.NeedsQuorum]

section

variable {mediator : Address} {sellerGetsBps : Int} {rationaleHash : String}

theorem evaluateVote_invalidBps (share : sellerGetsBps < 0 ∨ sellerGetsBps > 10000) :
    evaluateVote (voteState s k t) mediator sellerGetsBps rationaleHash (getQuorumConfig s) =
      .refuse .invalidBps "sellerGetsBps must be an integer in 0..10000" := if_pos share

theorem evaluateVote_missingRationale (share : ¬ (sellerGetsBps < 0 ∨ sellerGetsBps > 10000))
    (blank : Text.trim rationaleHash = "") :
    evaluateVote (voteState s k t) mediator sellerGetsBps rationaleHash (getQuorumConfig s) =
      .refuse .missingRationale "rationaleHash must not be empty" := by
  rw [evaluateVote, if_neg share, blank]
  rfl

/-- What `evaluateVote` looks at once the share and the reason are there. -/
theorem evaluateVote_of_rationale (share : ¬ (sellerGetsBps < 0 ∨ sellerGetsBps > 10000))
    (solid : Text.trim rationaleHash ≠ "") :
    evaluateVote (voteState s k t) mediator sellerGetsBps rationaleHash (getQuorumConfig s) =
      if requiresQuorum t.amount (getQuorumConfig s) = false then
        .refuse .quorumNotRequired "Trade does not require a mediator quorum; use resolve_dispute"
      else if (votesOn s k).any fun vote => vote.mediator = mediator then
        .refuse .alreadyVoted "Mediator has already voted on this dispute"
      else ⟨true, none, none⟩ := by
  have hlength : (Text.trim rationaleHash).length ≠ 0 :=
    fun h => solid (String.length_eq_zero_iff.1 h)
  rw [evaluateVote, if_neg share, if_neg hlength]
  rfl

/-- Where the contract refuses with the assertion `evaluateVote` names, the two agree. -/
theorem VoteChecked.of_refused {rejection : VoteRejection} {reason : String}
    (evaluation : evaluateVote (voteState s k t) mediator sellerGetsBps rationaleHash
      (getQuorumConfig s) = .refuse rejection reason)
    (refused : ∀ bps : Nat, (bps : Int) = sellerGetsBps →
      (castDisputeVote env k mediator bps rationaleHash s).isOk = false ∧
        ∀ failure, VoteRefused s k t mediator bps rationaleHash failure →
          failure = .panic rejection.assertion)
    (stored : s.trades.get k = some t) (status : t.status = .disputed)
    (approved : s.Mediates mediator) (hauth : mediator ∈ env.auths ∧ mediator ≠ currentContract) :
    VoteChecked env s k t mediator sellerGetsBps rationaleHash where
  allowed := by
    rw [evaluation]
    constructor
    · intro h
      cases h
    · rintro ⟨bps, hbps, hok⟩
      rw [(refused bps hbps).1] at hok
      cases hok
  rejection := fun bps failure hbps herror _ => by
    rw [evaluation]
    exact ⟨rejection, rfl, (refused bps hbps).2 failure
      (voteRefused_of_error stored status approved hauth herror)⟩

/-- A blank reason is taken for missing; the contract takes it for missing only if it is empty. -/
theorem voteChecked_iff_of_blank {bps : Nat} (stored : s.trades.get k = some t)
    (status : t.status = .disputed) (approved : s.Mediates mediator)
    (hauth : mediator ∈ env.auths ∧ mediator ≠ currentContract) (share : bps ≤ 10000)
    (blank : Text.trim rationaleHash = "") :
    VoteChecked env s k t mediator bps rationaleHash ↔ rationaleHash = "" := by
  have hinRange : ¬ ((bps : Int) < 0 ∨ (bps : Int) > 10000) := by omega
  have hevaluation := @evaluateVote_missingRationale s k t mediator bps rationaleHash hinRange blank
  constructor
  · intro h
    by_contra hsome
    have hsize : rationaleHash.utf8ByteSize ≠ 0 :=
      fun hzero => hsome (String.utf8ByteSize_eq_zero_iff.1 hzero)
    cases hcast : castDisputeVote env k mediator bps rationaleHash s with
    | ok s' =>
      have hallowed := h.allowed.2 ⟨bps, rfl, by rw [hcast]; rfl⟩
      rw [hevaluation] at hallowed
      cases hallowed
    | error failure =>
      obtain ⟨rejection, hrejection, rfl⟩ :=
        h.rejection bps failure rfl hcast (by rw [hevaluation]; rfl)
      rw [hevaluation] at hrejection
      obtain rfl := Option.some.inj hrejection
      have hrefused := voteRefused_of_error stored status approved hauth hcast
      generalize hfailure : Failure.panic VoteRejection.missingRationale.assertion = failure
        at hrefused
      cases hrefused with
      | missingRationale _ empty => exact hsize empty
      | unsettled _ _ _ _ _ _ other => exact other hfailure.symm
      | _ => exact absurd hfailure (by decide)
  · rintro rfl
    refine .of_refused hevaluation ?_ stored status approved hauth
    intro bps' _
    refine ⟨?_, fun failure hrefused => ?_⟩
    · rw [← Bool.not_eq_true, Escrow.castDisputeVote_isOk_iff stored status approved hauth]
      exact fun h => h.2.1 rfl
    · cases hrefused with
      | invalidBps large => omega
      | missingRationale _ _ => rfl
      | tooLong _ some _ | quorumNotRequired _ some _ _ | alreadyVoted _ some _ _ _ =>
        exact absurd rfl some
      | unsettled _ _ some _ _ _ _ => exact absurd rfl some

/-- A reason that is too long is stopped by an assertion that `evaluateVote` does not know. -/
theorem not_voteChecked_of_long {bps : Nat} (stored : s.trades.get k = some t)
    (status : t.status = .disputed) (approved : s.Mediates mediator)
    (hauth : mediator ∈ env.auths ∧ mediator ≠ currentContract) (share : bps ≤ 10000)
    (some : rationaleHash.utf8ByteSize ≠ 0) (long : ¬ rationaleHash.utf8ByteSize ≤ maxHashLen) :
    ¬ VoteChecked env s k t mediator bps rationaleHash := by
  intro h
  have hcast : ∀ bps, (castDisputeVote env k mediator bps rationaleHash s).isOk ≠ true :=
    fun bps hok =>
      long ((Escrow.castDisputeVote_isOk_iff stored status approved hauth).1 hok).2.2.1
  cases hvote : castDisputeVote env k mediator bps rationaleHash s with
  | ok s' => exact hcast bps (by rw [hvote]; rfl)
  | error failure =>
    have hrefused : (evaluateVote (voteState s k t) mediator bps rationaleHash
        (getQuorumConfig s)).allowed = false := by
      rw [← Bool.not_eq_true, h.allowed]
      rintro ⟨bps', -, hok⟩
      exact hcast bps' hok
    obtain ⟨rejection, -, rfl⟩ := h.rejection bps failure rfl hvote hrefused
    have hlong := voteRefused_of_error stored status approved hauth hvote
    generalize hfailure : Failure.panic rejection.assertion = failure at hlong
    cases hlong with
    | invalidBps large => exact large share
    | missingRationale _ empty => exact some empty
    | tooLong _ _ _ => cases rejection <;> exact absurd hfailure (by decide)
    | quorumNotRequired _ _ short _ | alreadyVoted _ _ short _ _ => exact long short
    | unsettled _ _ _ short _ _ _ => exact long short

/-- With a reason the two differ in the length they accept and in what the vote decides. -/
theorem voteChecked_iff_of_rationale {bps : Nat} (stored : s.trades.get k = some t)
    (status : t.status = .disputed) (approved : s.Mediates mediator)
    (hauth : mediator ∈ env.auths ∧ mediator ≠ currentContract) (share : bps ≤ 10000)
    (solid : Text.trim rationaleHash ≠ "") :
    VoteChecked env s k t mediator bps rationaleHash ↔
      VoteMatches env s k t mediator bps rationaleHash := by
  have hcast := fun bps => @Escrow.castDisputeVote_isOk_iff env s k bps t mediator rationaleHash stored
    status approved hauth
  have hsome : rationaleHash.utf8ByteSize ≠ 0 := by
    intro hzero
    rw [String.utf8ByteSize_eq_zero_iff.1 hzero] at solid
    exact solid rfl
  have hinRange : ¬ ((bps : Int) < 0 ∨ (bps : Int) > 10000) := by omega
  have hevaluation := @evaluateVote_of_rationale s k t mediator bps rationaleHash hinRange solid
  have hany : ((votesOn s k).any fun vote => vote.mediator = mediator) = true ↔
      ¬ ∀ existing ∈ votesOn s k, existing.mediator ≠ mediator := by
    simp
  by_cases hlength : rationaleHash.utf8ByteSize ≤ maxHashLen
  swap
  · exact iff_of_false (not_voteChecked_of_long stored status approved hauth share hsome hlength)
      fun h => hlength h.2.1
  by_cases hquorum : t.NeedsQuorum s
  swap
  · have hnot : requiresQuorum t.amount (getQuorumConfig s) = false :=
      Bool.not_eq_true _ ▸ fun h => hquorum (requiresQuorum_iff.1 h)
    rw [if_pos hnot] at hevaluation
    refine iff_of_true (.of_refused hevaluation (fun bps' _ => ⟨?_, fun failure h => ?_⟩) stored
      status approved hauth) ⟨solid, hlength, fun h => absurd h hquorum⟩
    · rw [← Bool.not_eq_true, hcast]
      exact fun h => hquorum h.2.2.2.1
    · cases h with
      | invalidBps large => omega
      | missingRationale _ empty => exact absurd empty hsome
      | tooLong _ _ long => exact absurd hlength long
      | quorumNotRequired _ _ _ _ => rfl
      | alreadyVoted _ _ _ quorum _ => exact absurd quorum hquorum
      | unsettled _ _ _ _ quorum _ _ => exact absurd quorum hquorum
  have hneeded : requiresQuorum t.amount (getQuorumConfig s) = true := requiresQuorum_iff.2 hquorum
  rw [if_neg (by rw [hneeded]; decide)] at hevaluation
  by_cases hfirst : ∀ existing ∈ votesOn s k, existing.mediator ≠ mediator
  swap
  · rw [if_pos (hany.2 hfirst)] at hevaluation
    refine iff_of_true (.of_refused hevaluation (fun bps' _ => ⟨?_, fun failure h => ?_⟩) stored
      status approved hauth) ⟨solid, hlength, fun _ h => absurd h hfirst⟩
    · rw [← Bool.not_eq_true, hcast]
      exact fun h => hfirst h.2.2.2.2.1
    · cases h with
      | invalidBps large => omega
      | missingRationale _ empty => exact absurd empty hsome
      | tooLong _ _ long => exact absurd hlength long
      | quorumNotRequired _ _ _ single => exact absurd hquorum single
      | alreadyVoted _ _ _ _ _ => rfl
      | unsettled _ _ _ _ _ first _ => exact absurd first hfirst
  -- Nothing is left but the settlement.
  rw [if_neg (fun h => hany.1 h hfirst)] at hevaluation
  constructor
  · intro h
    refine ⟨solid, hlength, fun _ _ => ?_⟩
    obtain ⟨bps', hbps, hok⟩ := h.allowed.1 (by rw [hevaluation])
    obtain rfl : bps' = bps := by omega
    exact ((hcast bps').1 hok).2.2.2.2.2
  · rintro ⟨-, -, hsettle⟩
    refine ⟨iff_of_true (by rw [hevaluation]) ⟨bps, rfl, ?_⟩, fun _ _ _ _ hrefused => ?_⟩
    · exact (hcast bps).2 ⟨share, hsome, hlength, hquorum, hfirst, hsettle hquorum hfirst⟩
    · rw [hevaluation] at hrefused
      cases hrefused

/-- `evaluateVote` checks a vote as the contract does, exactly when the share is out of range, the
reason is empty, or the reason is neither blank nor too long and what the vote decides goes
through. -/
theorem vote_checked_iff (stored : s.trades.get k = some t) (status : t.status = .disputed)
    (approved : s.Mediates mediator) (hauth : mediator ∈ env.auths ∧ mediator ≠ currentContract) :
    VoteChecked env s k t mediator sellerGetsBps rationaleHash ↔
      (sellerGetsBps < 0 ∨ sellerGetsBps > 10000) ∨ rationaleHash = "" ∨
        VoteMatches env s k t mediator sellerGetsBps.toNat rationaleHash := by
  by_cases hshare : sellerGetsBps < 0 ∨ sellerGetsBps > 10000
  · refine iff_of_true (.of_refused (evaluateVote_invalidBps hshare) ?_ stored status approved
      hauth) (.inl hshare)
    intro bps hbps
    have hlarge : ¬ bps ≤ 10000 := by omega
    refine ⟨?_, fun failure hrefused => ?_⟩
    · rw [← Bool.not_eq_true, Escrow.castDisputeVote_isOk_iff stored status approved hauth]
      exact fun h => hlarge h.1
    · cases hrefused with
      | invalidBps _ => rfl
      | missingRationale share _ | tooLong share _ _ | quorumNotRequired share _ _ _
      | alreadyVoted share _ _ _ _ | unsettled _ share _ _ _ _ _ => exact absurd share hlarge
  obtain ⟨bps, rfl⟩ := Int.eq_ofNat_of_zero_le (a := sellerGetsBps) (by omega)
  have hbps : bps ≤ 10000 := by omega
  rw [or_iff_right hshare]
  by_cases hblank : Text.trim rationaleHash = ""
  · rw [voteChecked_iff_of_blank stored status approved hauth hbps hblank]
    exact (or_iff_left fun h => h.1 hblank).symm
  · have hsome : rationaleHash ≠ "" := by
      rintro rfl
      exact hblank rfl
    rw [or_iff_right hsome]
    exact voteChecked_iff_of_rationale stored status approved hauth hbps hblank

end

/-- A mediator who has voted is stopped by the same assertion on both sides. -/
theorem vote_checked_iff_again :
    ∃ t, (Escrow.run Escrow.Sample.tokens (Escrow.Sample.oneVote ⟨true, 1, 3, 10, 1⟩)).trades.get
        Escrow.Sample.first = some t ∧
      (VoteChecked ⟨11, 1, [Escrow.Sample.admin]⟩
          (Escrow.run Escrow.Sample.tokens (Escrow.Sample.oneVote ⟨true, 1, 3, 10, 1⟩))
          Escrow.Sample.first t Escrow.Sample.admin 5000 "letters" ↔
        ((5000 : Int) < 0 ∨ (5000 : Int) > 10000) ∨ "letters" = "" ∨
          VoteMatches ⟨11, 1, [Escrow.Sample.admin]⟩
            (Escrow.run Escrow.Sample.tokens (Escrow.Sample.oneVote ⟨true, 1, 3, 10, 1⟩))
            Escrow.Sample.first t Escrow.Sample.admin (5000 : Int).toNat "letters") :=
  ⟨_, rfl, vote_checked_iff rfl (by decide) (.inl (by decide)) (by decide)⟩

/-- The trade is disputed, and nobody has voted yet. -/
def Sample.beforeVotes : List Escrow.Action :=
  (Escrow.Sample.oneVote ⟨true, 1, 3, 10, 1⟩).dropLast

/-- The contract takes a blank for a reason. -/
theorem not_voteChecked_of_blank :
    ∃ t, (Escrow.run Escrow.Sample.tokens Sample.beforeVotes).trades.get Escrow.Sample.first =
        some t ∧ t.status = .disputed ∧
      (Escrow.run Escrow.Sample.tokens Sample.beforeVotes).Mediates Escrow.Sample.admin ∧
      ¬ VoteChecked ⟨10, 1, [Escrow.Sample.admin]⟩
        (Escrow.run Escrow.Sample.tokens Sample.beforeVotes) Escrow.Sample.first t
        Escrow.Sample.admin 5000 " " := by
  obtain ⟨t, stored, status⟩ : ∃ t,
      (Escrow.run Escrow.Sample.tokens Sample.beforeVotes).trades.get Escrow.Sample.first = some t ∧
        t.status = .disputed := ⟨_, rfl, by decide⟩
  refine ⟨t, stored, status, .inl (by decide), fun h => ?_⟩
  have haccepted : (castDisputeVote ⟨10, 1, [Escrow.Sample.admin]⟩ Escrow.Sample.first
      Escrow.Sample.admin 5000 " " (Escrow.run Escrow.Sample.tokens Sample.beforeVotes)).isOk =
        true := by
    decide
  have hallowed := h.allowed.2 ⟨5000, rfl, haccepted⟩
  rw [evaluateVote_missingRationale (by decide) (by decide)] at hallowed
  cases hallowed

end Amana.Backend
