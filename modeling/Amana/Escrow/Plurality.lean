import Amana.Escrow.Fallback

/-!
# The outcome with the most weight

The single pass of `plurality_outcome` finds the outcome with the most weight, whatever the order of
the votes (`plurality_outcome`).  Somebody has voted for it, so the search for a mediator of record
finds a vote.
-/

namespace Amana.Escrow

open Lib

variable {env : Env} {s : State} {k bps : Nat} {votes votes' : List MediatorVote}

/-! ## Order -/

theorem exactWeight_perm (h : votes.Perm votes') (bps : Nat) :
    exactWeight votes bps = exactWeight votes' bps :=
  ((h.filter _).map _).sum_eq

theorem weightForOutcome_perm (h : votes.Perm votes') (bps : Nat) :
    weightForOutcome votes bps = weightForOutcome votes' bps := by
  rw [weightForOutcome_eq_min, weightForOutcome_eq_min, exactWeight_perm h]

theorem IsPlurality.perm (h : votes.Perm votes') (hp : IsPlurality votes bps) :
    IsPlurality votes' bps := by
  obtain ⟨v, hv, hbps⟩ := hp.voted
  refine ⟨⟨v, h.mem_iff.1 hv, hbps⟩, fun u hu => ?_, fun u hu => ?_⟩
  · rw [← weightForOutcome_perm h, ← weightForOutcome_perm h]
    exact hp.most u (h.mem_iff.2 hu)
  · rw [← weightForOutcome_perm h, ← weightForOutcome_perm h]
    exact hp.lowest u (h.mem_iff.2 hu)

theorem pluralityOutcome_perm (h : votes.Perm votes') :
    pluralityOutcome votes = pluralityOutcome votes' := by
  by_cases hnone : votes = []
  · subst hnone
    rw [← h.nil_eq]
  have hsome : votes' ≠ [] := fun hnone' => hnone (hnone' ▸ h).eq_nil
  have hbps : (pluralityOutcome votes).1 = (pluralityOutcome votes').1 :=
    ((isPlurality_pluralityOutcome hnone).perm h).unique (isPlurality_pluralityOutcome hsome)
  refine Prod.ext hbps ?_
  rw [pluralityOutcome_snd hnone, pluralityOutcome_snd hsome, hbps, weightForOutcome_perm h]

/-! ## The mediator of record -/

/-- How a settlement may fail. -/
def settlementFailures : List Failure :=
  [.panic "Trade not found", .panic "Trade must be in Disputed status",
    .panic "loss calculation overflow", .panic "loss sharing calculation overflow",
    .panic "fee calculation overflow", .panic "seller_net must be non-negative",
    .panic "buyer_refund must be non-negative", .panic "fee must be non-negative",
    .panic "resolve_dispute: cNGN conservation invariant violated", .token]

theorem payOut_failsWith {token dest : Address} {amount : Int} :
    FailsWith (· ∈ settlementFailures) (payOut s token dest amount) := by
  unfold payOut
  split
  · exact .bind (.expect fun _ => by decide) fun _ => .pure _
  · exact .pure _

theorem disputeSplit_failsWith {total : Int} {bps lossBps feeBps : Nat} :
    FailsWith (· ∈ settlementFailures) (disputeSplit total bps lossBps feeBps) := by
  refine .bind (.bind (.expect fun _ => by decide) fun _ =>
    .bind (.expect fun _ => by decide) fun _ => .pure _) fun _ => ?_
  refine .bind (.bind (.expect fun _ => by decide) fun _ => .pure _) fun _ => ?_
  refine .bind (.ensure fun _ => by decide) fun _ => .bind (.ensure fun _ => by decide) fun _ => ?_
  exact .bind (.ensure fun _ => by decide) fun _ =>
    .bind (.ensure fun _ => by decide) fun _ => .pure _

theorem settleDispute_failsWith {mediator : Address} :
    FailsWith (· ∈ settlementFailures) (settleDispute env k bps mediator s) := by
  refine .bind (.expect fun _ => by decide) fun _ => .bind (.ensure fun _ => by decide) fun _ => ?_
  refine .bind disputeSplit_failsWith fun _ => .bind payOut_failsWith fun _ => ?_
  exact .bind payOut_failsWith fun _ => .pure _

/-- The panic of the search for a mediator of record. -/
def noMediatorOfRecord : Failure := .panic "winning outcome must have at least one vote"

/-- When somebody voted for the outcome, a mediator of record is found. -/
theorem finalizeQuorum_failsWith {state : QuorumState} {weight : Nat} {outcome : QuorumOutcome}
    (voted : ∃ v ∈ state.votes, v.sellerGetsBps = bps) :
    FailsWith (· ∈ settlementFailures) (finalizeQuorum env k state bps weight outcome s) := by
  refine .bind (.expect fun hnone => ?_) fun _ => .bind settleDispute_failsWith fun _ => .pure _
  obtain ⟨v, hv, hbps⟩ := voted
  exact absurd hbps (by simpa using List.find?_eq_none.1 hnone v hv)

theorem ne_of_mem_settlementFailures (e : Failure) (h : e ∈ settlementFailures) :
    e ≠ noMediatorOfRecord := by
  rintro rfl
  exact absurd h (by decide)

theorem requireMediator_failsWith {mediator : Address} :
    FailsWith (· ≠ noMediatorOfRecord) (requireMediator env s mediator) := by
  refine .bind (.ensure fun _ h => by cases h) fun _ => ?_
  exact .bind (.ensure fun _ => by decide) fun _ => .pure _

/-- The deciding vote is itself one for the outcome. -/
theorem castDisputeVote_failsWith {mediator : Address} {rationaleHash : String} :
    FailsWith (· ≠ noMediatorOfRecord) (castDisputeVote env k mediator bps rationaleHash s) := by
  refine .bind requireMediator_failsWith fun _ => .bind (.ensure fun _ => by decide) fun _ => ?_
  refine .bind (.ensure fun _ => by decide) fun _ => .bind (.ensure fun _ => by decide) fun _ => ?_
  refine .bind (.expect fun _ => by decide) fun _ => .bind (.ensure fun _ => by decide) fun _ => ?_
  refine .bind (.ensure fun _ => by decide) fun _ => .bind (.ensure fun _ => by decide) fun _ => ?_
  dsimp only
  split
  · refine (finalizeQuorum_failsWith ?_).mono ne_of_mem_settlementFailures
    exact ⟨_, List.mem_append_right _ (List.mem_singleton_self _), rfl⟩
  · exact .pure _

/-- The fallback only decides where there are votes. -/
theorem resolveDisputeByFallback_failsWith {caller : Address} :
    FailsWith (· ≠ noMediatorOfRecord) (resolveDisputeByFallback env k caller s) := by
  refine .bind (.ensure fun _ h => by cases h) fun _ => .bind (.expect fun _ => by decide) fun _ => ?_
  refine .bind (.ensure fun _ => by decide) fun _ => .bind (.ensure fun _ => by decide) fun _ => ?_
  refine .bind (.ensure fun _ => by decide) fun _ => .bind (.expect fun _ => by decide) fun _ => ?_
  refine .bind_of (.ensure fun _ => by decide) fun _ hsome => ?_
  refine .bind (.ensure fun _ => by decide) fun _ => .bind (.ensure fun _ => by decide) fun _ => ?_
  have hvoted := (isPlurality_pluralityOutcome (assert_eq_ok.1 hsome)).voted
  exact (finalizeQuorum_failsWith hvoted).mono ne_of_mem_settlementFailures

/-! ## What `plurality_outcome` finds -/

/-- The outcome some vote carries that has the most weight, the lowest share of those, with its
weight; the same in every order of the votes. -/
structure PluralityFound (votes : List MediatorVote) : Prop where
  plurality : IsPlurality votes (pluralityOutcome votes).1
  weight : (pluralityOutcome votes).2 = weightForOutcome votes (pluralityOutcome votes).1
  /-- Without saturation this is the sum of the weights. -/
  exact : (∀ v ∈ votes, exactWeight votes v.sellerGetsBps ≤ U32.maxValue) →
    (pluralityOutcome votes).2 = exactWeight votes (pluralityOutcome votes).1 ∧
      ∀ v ∈ votes, exactWeight votes v.sellerGetsBps ≤ (pluralityOutcome votes).2
  order : ∀ votes', votes'.Perm votes → pluralityOutcome votes' = pluralityOutcome votes
  mediator : ∃ v ∈ votes, votes.find? (fun vote => vote.sellerGetsBps =
    (pluralityOutcome votes).1) = some v

/-- The search of `finalize_quorum` never panics. -/
structure MediatorFound : Prop where
  vote : ∀ env k mediator bps rationaleHash s,
    castDisputeVote env k mediator bps rationaleHash s ≠ .error noMediatorOfRecord
  fallback : ∀ env k caller s,
    resolveDisputeByFallback env k caller s ≠ .error noMediatorOfRecord

theorem exactWeight_eq_of_le (h : exactWeight votes bps ≤ U32.maxValue) :
    weightForOutcome votes bps = exactWeight votes bps := by
  rw [weightForOutcome_eq_min]
  exact Nat.min_eq_left h

theorem pluralityFound_of_ne_nil (h : votes ≠ []) : PluralityFound votes := by
  have hplurality := isPlurality_pluralityOutcome h
  have hweight := pluralityOutcome_snd h
  refine ⟨hplurality, hweight, fun hrange => ?_, fun _ => pluralityOutcome_perm, ?_⟩
  · obtain ⟨u, hu, hbps⟩ := hplurality.voted
    constructor
    · rw [hweight, ← hbps, exactWeight_eq_of_le (hrange u hu)]
    · intro v hv
      rw [hweight, ← exactWeight_eq_of_le (hrange v hv)]
      exact hplurality.most v hv
  · obtain ⟨u, hu, hbps⟩ := hplurality.voted
    have hsome : (votes.find? fun vote =>
        vote.sellerGetsBps = (pluralityOutcome votes).1).isSome = true :=
      List.find?_isSome.2 ⟨u, hu, decide_eq_true hbps⟩
    obtain ⟨v, hv⟩ := Option.isSome_iff_exists.1 hsome
    exact ⟨v, List.mem_of_find?_eq_some hv, hv⟩

/-- For every non-empty list of votes the plurality is found, and no settlement by votes fails for
want of a mediator of record. -/
theorem plurality_outcome (h : votes ≠ []) : PluralityFound votes ∧ MediatorFound :=
  ⟨pluralityFound_of_ne_nil h, fun _ _ _ _ _ _ hfail => castDisputeVote_failsWith _ hfail rfl,
    fun _ _ _ _ hfail => resolveDisputeByFallback_failsWith _ hfail rfl⟩

/-- Two outcomes of the same weight. -/
theorem plurality_outcome_tie :
    PluralityFound [⟨Sample.alice, 7000, 2, "a", 1⟩, ⟨Sample.bob, 3000, 1, "b", 2⟩,
      ⟨Sample.carol, 3000, 1, "c", 3⟩] ∧ MediatorFound :=
  plurality_outcome (by decide)

example : pluralityOutcome [⟨Sample.alice, 7000, 2, "a", 1⟩, ⟨Sample.bob, 3000, 1, "b", 2⟩,
    ⟨Sample.carol, 3000, 1, "c", 3⟩] = (3000, 2) := by decide

end Amana.Escrow
