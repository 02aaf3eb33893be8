import Amana.Lib.Text
import Amana.Escrow.Fallback

/-!
# Mediator quorum

`mediatorQuorum.service.ts` does the rules of a vote over again for the dashboard of the mediators.
It tallies the votes outcome by outcome and sorts the tallies, while the contract looks through the
votes and adds up the weight behind each; both find the same leader (`tallyVotes_tallied`).

The votes and the quorum policy have the fields of the contract's records, and stand for them here.
-/

namespace Amana.Backend

open Lib
open Escrow (Address MediatorVote QuorumConfig exactWeight exactTotal weightForOutcome
  pluralityOutcome IsPlurality)

/-- `openedAt` is the time of the first vote. -/
structure DisputeVoteState where
  tradeId : Nat
  amount : Int
  votes : List MediatorVote
  openedAt : Option Nat
  deriving DecidableEq, Repr

/-- The weight behind one outcome. -/
structure OutcomeTally where
  sellerGetsBps : Nat
  weight : Nat
  voteCount : Nat
  deriving DecidableEq, Repr

inductive QuorumResolution where
  | quorum
  | fallback
  deriving DecidableEq, Repr

structure QuorumStatus where
  tradeId : Nat
  requiresQuorum : Bool
  tallies : List OutcomeTally
  totalWeight : Nat
  voteCount : Nat
  leadingBps : Option Nat
  weightToQuorum : Nat
  quorumReached : Bool
  fallbackAvailableAt : Option Nat
  fallbackAvailable : Bool
  deriving DecidableEq, Repr

def requiresQuorum (amount : Int) (config : QuorumConfig) : Bool :=
  config.enabled && decide (amount ≥ config.valueThreshold)

/-- The loop of `tallyVotes` at one vote.  The map keeps its entries in the order in which they came
in. -/
def tallyVote : List OutcomeTally → MediatorVote → List OutcomeTally
  | [], vote => [⟨vote.sellerGetsBps, vote.weight, 1⟩]
  | existing :: rest, vote =>
    if existing.sellerGetsBps = vote.sellerGetsBps then
      { existing with
        weight := existing.weight + vote.weight
        voteCount := existing.voteCount + 1 } :: rest
    else existing :: tallyVote rest vote

/-- The comparison `tallyVotes` sorts by. -/
def compareTallies (a b : OutcomeTally) : Int :=
  if (b.weight : Int) - a.weight ≠ 0 then (b.weight : Int) - a.weight
  else (a.sellerGetsBps : Int) - b.sellerGetsBps

/-- The outcomes voted for, heaviest first. -/
def tallyVotes (votes : List MediatorVote) : List OutcomeTally :=
  (votes.foldl tallyVote []).mergeSort fun a b => compareTallies a b ≤ 0

def quorumStatus (state : DisputeVoteState) (now : Nat) (config : QuorumConfig) : QuorumStatus :=
  let tallies := tallyVotes state.votes
  let totalWeight := (state.votes.map MediatorVote.weight).sum
  let leader := tallies.head?
  let fallbackAvailableAt := state.openedAt.map (· + config.voteWindowSecs)
  let quorumReached := leader.any fun leader => leader.weight ≥ config.requiredWeight
  { tradeId := state.tradeId
    requiresQuorum := requiresQuorum state.amount config
    tallies, totalWeight
    voteCount := state.votes.length
    leadingBps := leader.map OutcomeTally.sellerGetsBps
    weightToQuorum := config.requiredWeight - (leader.elim 0 OutcomeTally.weight)
    quorumReached, fallbackAvailableAt
    fallbackAvailable := !quorumReached && fallbackAvailableAt.any (now ≥ ·) &&
      decide (totalWeight ≥ config.fallbackMinWeight) }

/-- The share of the seller and the weight of the outcome that would be applied now, and how. -/
def pendingResolution (state : DisputeVoteState) (now : Nat) (config : QuorumConfig) :
    Option (Nat × Nat × QuorumResolution) :=
  let status := quorumStatus state now config
  match status.tallies.head? with
  | none => none
  | some leader =>
    if status.quorumReached then some (leader.sellerGetsBps, leader.weight, .quorum)
    else if status.fallbackAvailable then some (leader.sellerGetsBps, leader.weight, .fallback)
    else none

inductive VoteRejection where
  | quorumNotRequired
  | alreadyVoted
  | invalidBps
  | missingRationale
  | alreadyResolved
  deriving DecidableEq, Repr

structure VoteEvaluation where
  allowed : Bool
  rejection : Option VoteRejection
  reason : Option String
  deriving DecidableEq, Repr

def VoteEvaluation.refuse (rejection : VoteRejection) (reason : String) : VoteEvaluation :=
  ⟨false, some rejection, some reason⟩

/-- `evaluateVote` for a share that is an integer. -/
def evaluateVote (state : DisputeVoteState) (mediator : Address) (sellerGetsBps : Int)
    (rationaleHash : String) (config : QuorumConfig) : VoteEvaluation :=
  if sellerGetsBps < 0 ∨ sellerGetsBps > 10000 then
    .refuse .invalidBps "sellerGetsBps must be an integer in 0..10000"
  else if (Text.trim rationaleHash).length = 0 then
    .refuse .missingRationale "rationaleHash must not be empty"
  else if requiresQuorum state.amount config = false then
    .refuse .quorumNotRequired "Trade does not require a mediator quorum; use resolve_dispute"
  else if state.votes.any fun vote => vote.mediator = mediator then
    .refuse .alreadyVoted "Mediator has already voted on this dispute"
  else ⟨true, none, none⟩

/-! ## One entry for each outcome -/

/-- The entries are those of the votes seen so far. -/
structure Grouped (votes : List MediatorVote) (byOutcome : List OutcomeTally) : Prop where
  distinct : (byOutcome.map OutcomeTally.sellerGetsBps).Nodup
  voted : ∀ bps, bps ∈ byOutcome.map OutcomeTally.sellerGetsBps ↔
    ∃ v ∈ votes, v.sellerGetsBps = bps
  weight : ∀ tally ∈ byOutcome, tally.weight = exactWeight votes tally.sellerGetsBps
  voteCount : ∀ tally ∈ byOutcome,
    tally.voteCount = votes.countP fun v => v.sellerGetsBps = tally.sellerGetsBps
  weights : (byOutcome.map OutcomeTally.weight).sum = exactTotal votes
  voteCounts : (byOutcome.map OutcomeTally.voteCount).sum = votes.length

variable {votes : List MediatorVote} {byOutcome : List OutcomeTally} {v : MediatorVote}

theorem map_sellerGetsBps_tallyVote (byOutcome : List OutcomeTally) (v : MediatorVote) :
    (tallyVote byOutcome v).map OutcomeTally.sellerGetsBps =
      if v.sellerGetsBps ∈ byOutcome.map OutcomeTally.sellerGetsBps then
        byOutcome.map OutcomeTally.sellerGetsBps
      else byOutcome.map OutcomeTally.sellerGetsBps ++ [v.sellerGetsBps] := by
  induction byOutcome with
  | nil => rfl
  | cons existing rest ih =>
    by_cases heq : existing.sellerGetsBps = v.sellerGetsBps
    · simp [tallyVote, heq]
    · rw [tallyVote, if_neg heq, List.map_cons, ih]
      by_cases hmem : v.sellerGetsBps ∈ rest.map OutcomeTally.sellerGetsBps
      · rw [if_pos hmem, List.map_cons, if_pos (List.mem_cons_of_mem _ hmem)]
      · have hnone : v.sellerGetsBps ∉ existing.sellerGetsBps ::
            rest.map OutcomeTally.sellerGetsBps :=
          fun h => (List.mem_cons.1 h).elim (fun e => heq e.symm) hmem
        rw [if_neg hmem, List.map_cons, if_neg hnone, List.cons_append]

/-- The entries of the other outcomes stay, and that of the vote's outcome gets the vote. -/
theorem mem_tallyVote (distinct : (byOutcome.map OutcomeTally.sellerGetsBps).Nodup)
    {tally : OutcomeTally} (h : tally ∈ tallyVote byOutcome v) :
    (tally ∈ byOutcome ∧ tally.sellerGetsBps ≠ v.sellerGetsBps) ∨
      (∃ existing ∈ byOutcome, existing.sellerGetsBps = v.sellerGetsBps ∧
        tally = ⟨v.sellerGetsBps, existing.weight + v.weight, existing.voteCount + 1⟩) ∨
      (v.sellerGetsBps ∉ byOutcome.map OutcomeTally.sellerGetsBps ∧
        tally = ⟨v.sellerGetsBps, v.weight, 1⟩) := by
  induction byOutcome with
  | nil => exact .inr (.inr ⟨List.not_mem_nil, List.mem_singleton.1 h⟩)
  | cons existing rest ih =>
    rw [List.map_cons, List.nodup_cons] at distinct
    by_cases heq : existing.sellerGetsBps = v.sellerGetsBps
    · rw [tallyVote, if_pos heq] at h
      obtain rfl | hrest := List.mem_cons.1 h
      · exact .inr (.inl ⟨existing, List.mem_cons_self, heq, by rw [heq]⟩)
      · refine .inl ⟨List.mem_cons_of_mem _ hrest, fun hsame => distinct.1 ?_⟩
        rw [heq, ← hsame]
        exact List.mem_map_of_mem hrest
    · rw [tallyVote, if_neg heq] at h
      obtain rfl | hrest := List.mem_cons.1 h
      · exact .inl ⟨List.mem_cons_self, heq⟩
      · obtain ⟨hmem, hother⟩ | ⟨found, hfound, hsame, rfl⟩ | ⟨hnew, rfl⟩ := ih distinct.2 hrest
        · exact .inl ⟨List.mem_cons_of_mem _ hmem, hother⟩
        · exact .inr (.inl ⟨found, List.mem_cons_of_mem _ hfound, hsame, rfl⟩)
        · refine .inr (.inr ⟨fun hin => ?_, rfl⟩)
          exact (List.mem_cons.1 hin).elim (fun e => heq e.symm) hnew

/-- A quantity that a vote adds `d` to, in an entry as in a new one. -/
theorem sum_tallyVote {f : OutcomeTally → Nat} {d : Nat}
    (opened : f ⟨v.sellerGetsBps, v.weight, 1⟩ = d)
    (raised : ∀ existing : OutcomeTally,
      f { existing with
        weight := existing.weight + v.weight
        voteCount := existing.voteCount + 1 } = f existing + d)
    (byOutcome : List OutcomeTally) :
    ((tallyVote byOutcome v).map f).sum = (byOutcome.map f).sum + d := by
  induction byOutcome with
  | nil =>
    rw [tallyVote, List.map_singleton, List.sum_singleton, opened]
    simp
  | cons existing rest ih =>
    by_cases heq : existing.sellerGetsBps = v.sellerGetsBps
    · rw [tallyVote, if_pos heq, List.map_cons, List.sum_cons, raised, List.map_cons,
        List.sum_cons]
      omega
    · rw [tallyVote, if_neg heq, List.map_cons, List.sum_cons, ih, List.map_cons, List.sum_cons]
      omega

theorem Grouped.vote (h : Grouped votes byOutcome) (v : MediatorVote) :
    Grouped (votes ++ [v]) (tallyVote byOutcome v) := by
  have hmap := map_sellerGetsBps_tallyVote byOutcome v
  have hcount : ∀ bps, (votes ++ [v]).countP (fun u => u.sellerGetsBps = bps) =
      votes.countP (fun u => u.sellerGetsBps = bps) + if v.sellerGetsBps = bps then 1 else 0 := by
    intro bps
    simp [List.countP_append, List.countP_singleton]
  refine ⟨?_, fun bps => ?_, fun tally hmem => ?_, fun tally hmem => ?_, ?_, ?_⟩
  · rw [hmap]
    split
    · exact h.distinct
    · next hnew =>
      rw [← List.concat_eq_append]
      exact h.distinct.concat hnew
  · have hsnoc : (∃ u ∈ votes ++ [v], u.sellerGetsBps = bps) ↔
        (∃ u ∈ votes, u.sellerGetsBps = bps) ∨ v.sellerGetsBps = bps := by
      simp [or_and_right, exists_or]
    rw [hmap, hsnoc, ← h.voted bps]
    split
    · next hold => exact ⟨.inl, fun hor => hor.elim id fun e => e ▸ hold⟩
    · rw [List.mem_append, List.mem_singleton]
      exact or_congr Iff.rfl eq_comm
  · rw [Escrow.exactWeight_snoc]
    obtain ⟨hold, hother⟩ | ⟨existing, hold, hsame, rfl⟩ | ⟨hnew, rfl⟩ :=
      mem_tallyVote h.distinct hmem
    · rw [if_neg (Ne.symm hother), h.weight tally hold, Nat.add_zero]
    · rw [if_pos rfl, ← hsame, h.weight existing hold]
    · rw [if_pos rfl, Escrow.exactWeight_eq_zero (fun hv => hnew ((h.voted _).2 hv))]
      exact (Nat.zero_add _).symm
  · rw [hcount]
    obtain ⟨hold, hother⟩ | ⟨existing, hold, hsame, rfl⟩ | ⟨hnew, rfl⟩ :=
      mem_tallyVote h.distinct hmem
    · rw [if_neg (Ne.symm hother), h.voteCount tally hold, Nat.add_zero]
    · rw [if_pos rfl, ← hsame, h.voteCount existing hold]
    · have hnone : votes.countP (fun u => u.sellerGetsBps = v.sellerGetsBps) = 0 := by
        rw [List.countP_eq_zero]
        intro u hu
        simpa using fun e => hnew ((h.voted _).2 ⟨u, hu, e⟩)
      rw [if_pos rfl, hnone]
  · rw [sum_tallyVote (d := v.weight) rfl (fun _ => rfl), h.weights]
    simp [exactTotal]
  · rw [sum_tallyVote (d := 1) rfl (fun _ => rfl), h.voteCounts]
    simp

theorem grouped_fold (votes : List MediatorVote) : Grouped votes (votes.foldl tallyVote []) := by
  induction votes using List.reverseRecOn with
  | nil =>
    refine ⟨List.nodup_nil, fun bps => ?_, ?_, ?_, rfl, rfl⟩
    · simp
    · simp
    · simp
  | append_singleton votes v ih =>
    rw [List.foldl_append]
    exact ih.vote v

/-! ## The leader -/

/-- Heavier, or as heavy and better for the buyer. -/
def OutcomeTally.Before (a b : OutcomeTally) : Prop :=
  b.weight < a.weight ∨ a.weight = b.weight ∧ a.sellerGetsBps < b.sellerGetsBps

theorem compareTallies_le {a b : OutcomeTally} :
    compareTallies a b ≤ 0 ↔
      b.weight < a.weight ∨ a.weight = b.weight ∧ a.sellerGetsBps ≤ b.sellerGetsBps := by
  unfold compareTallies
  split <;> omega

/-- What `tallyVotes` returns for the votes. -/
structure Tallied (votes : List MediatorVote) (tallies : List OutcomeTally) : Prop
    extends Grouped votes tallies where
  leader : ∃ leader rest, tallies = leader :: rest ∧
    (leader.sellerGetsBps, leader.weight) = pluralityOutcome votes
  sorted : tallies.Pairwise OutcomeTally.Before

theorem Grouped.perm (h : Grouped votes byOutcome) {tallies : List OutcomeTally}
    (hperm : tallies.Perm byOutcome) : Grouped votes tallies where
  distinct := (hperm.map _).nodup_iff.2 h.distinct
  voted := fun bps => (hperm.map _).mem_iff.trans (h.voted bps)
  weight := fun tally hmem => h.weight tally (hperm.mem_iff.1 hmem)
  voteCount := fun tally hmem => h.voteCount tally (hperm.mem_iff.1 hmem)
  weights := (hperm.map _).sum_eq.trans h.weights
  voteCounts := (hperm.map _).sum_eq.trans h.voteCounts

theorem grouped_tallyVotes (votes : List MediatorVote) : Grouped votes (tallyVotes votes) :=
  (grouped_fold votes).perm (List.mergeSort_perm ..)

theorem sorted_tallyVotes (votes : List MediatorVote) :
    (tallyVotes votes).Pairwise OutcomeTally.Before := by
  have hle : (tallyVotes votes).Pairwise fun a b => decide (compareTallies a b ≤ 0) = true := by
    apply List.pairwise_mergeSort
    · intro a b c
      simp only [decide_eq_true_eq, compareTallies_le]
      omega
    · intro a b
      simp only [Bool.or_eq_true, decide_eq_true_eq, compareTallies_le]
      omega
  have hdistinct := List.pairwise_map.1 (grouped_tallyVotes votes).distinct
  refine (hle.and hdistinct).imp fun {a b} hboth => ?_
  have hcompare := compareTallies_le.1 (of_decide_eq_true hboth.1)
  unfold OutcomeTally.Before
  omega

/-- The first entry of the sorted list is at least as heavy as every outcome voted for. -/
theorem head_tallyVotes (some : votes ≠ []) :
    ∃ leader rest, tallyVotes votes = leader :: rest ∧
      (∃ v ∈ votes, v.sellerGetsBps = leader.sellerGetsBps) ∧
      leader.weight = exactWeight votes leader.sellerGetsBps ∧
      ∀ v ∈ votes, exactWeight votes v.sellerGetsBps < leader.weight ∨
        leader.weight = exactWeight votes v.sellerGetsBps ∧
          leader.sellerGetsBps ≤ v.sellerGetsBps := by
  have hgrouped := grouped_tallyVotes votes
  have hsorted := sorted_tallyVotes votes
  obtain ⟨u, hu⟩ := List.exists_mem_of_ne_nil _ some
  generalize tallyVotes votes = tallies at hgrouped hsorted
  cases tallies with
  | nil => exact absurd ((hgrouped.voted u.sellerGetsBps).2 ⟨u, hu, rfl⟩) List.not_mem_nil
  | cons leader rest =>
    refine ⟨leader, rest, rfl, (hgrouped.voted _).1 List.mem_cons_self,
      hgrouped.weight leader List.mem_cons_self, fun v hv => ?_⟩
    obtain ⟨tally, htally, hbps⟩ := List.mem_map.1 ((hgrouped.voted v.sellerGetsBps).2 ⟨v, hv, rfl⟩)
    have hweight := hgrouped.weight tally htally
    rw [hbps] at hweight
    obtain rfl | hrest := List.mem_cons.1 htally
    · exact .inr ⟨hweight, hbps.le⟩
    · have hbefore := (List.pairwise_cons.1 hsorted).1 tally hrest
      unfold OutcomeTally.Before at hbefore
      omega

/-- As long as no weight is cut off at the end of the range, the leader is the contract's. -/
theorem leader_eq_pluralityOutcome (some : votes ≠ [])
    (range : ∀ v ∈ votes, exactWeight votes v.sellerGetsBps ≤ U32.maxValue) :
    ∃ leader rest, tallyVotes votes = leader :: rest ∧
      (leader.sellerGetsBps, leader.weight) = pluralityOutcome votes := by
  obtain ⟨leader, rest, hlist, ⟨u, hu, hbps⟩, hweight, hmost⟩ := head_tallyVotes some
  have hexact : ∀ v ∈ votes,
      weightForOutcome votes v.sellerGetsBps = exactWeight votes v.sellerGetsBps := by
    intro v hv
    rw [Escrow.weightForOutcome_eq_min]
    exact Nat.min_eq_left (range v hv)
  have hleader : weightForOutcome votes leader.sellerGetsBps = leader.weight := by
    rw [← hbps, hexact u hu, hbps, hweight]
  have hplurality : IsPlurality votes leader.sellerGetsBps := by
    refine ⟨⟨u, hu, hbps⟩, fun v hv => ?_, fun v hv hequal => ?_⟩
    · have := hmost v hv
      rw [hexact v hv, hleader]
      omega
    · have := hmost v hv
      rw [hexact v hv, hleader] at hequal
      omega
  have hsame := hplurality.unique (Escrow.isPlurality_pluralityOutcome some)
  refine ⟨leader, rest, hlist, Prod.ext hsame ?_⟩
  rw [Escrow.pluralityOutcome_snd some, ← hsame, hleader]

/-- Every list of votes is tallied outcome by outcome and sorted, and led by the outcome the contract
finds. -/
theorem tallyVotes_tallied (some : votes ≠ []) (range : exactTotal votes < 2 ^ 32) :
    Tallied votes (tallyVotes votes) where
  toGrouped := grouped_tallyVotes votes
  leader := by
    refine leader_eq_pluralityOutcome some fun v _ => ?_
    have := Escrow.exactWeight_le_exactTotal votes v.sellerGetsBps
    unfold U32.maxValue
    omega
  sorted := sorted_tallyVotes votes

/-- Two votes of weight one against one of weight two: the lower share leads. -/
theorem tallyVotes_tallied_tie :
    Tallied [⟨⟨1⟩, 7000, 1, "a", 0⟩, ⟨⟨2⟩, 2000, 2, "b", 1⟩, ⟨⟨3⟩, 7000, 1, "c", 2⟩]
      (tallyVotes [⟨⟨1⟩, 7000, 1, "a", 0⟩, ⟨⟨2⟩, 2000, 2, "b", 1⟩, ⟨⟨3⟩, 7000, 1, "c", 2⟩]) :=
  tallyVotes_tallied (by decide) (by decide)

end Amana.Backend
