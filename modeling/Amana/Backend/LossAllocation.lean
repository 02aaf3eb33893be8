import Amana.Backend.Money
import Amana.Escrow.Limits
import Amana.Lib.LargestRemainder
import Mathlib.Algebra.BigOperators.Ring.List

/-!
# Loss shares

`lossAllocation.ts` splits a total by shares in basis points: every part is rounded down, and the
stroops that are left over go to the parts with the largest remainders, the first ones among equals
(`largest_remainders`).
-/

namespace Amana.Backend

open Lib

/-! ## The allocation -/

structure AllocationResult where
  exact : List Int
  allocated : List Int
  remainder : Int
  sum : Int
  deriving DecidableEq, Repr

/-- An entry of the list `remainders`. -/
structure ShareRemainder where
  index : Nat
  remainder : Int
  deriving DecidableEq, Repr

/-- The comparison function of the sort. -/
def compareRemainders (a b : ShareRemainder) : Int :=
  if a.remainder > b.remainder then -1 else if a.remainder < b.remainder then 1 else 0

/-- `product - floorValue * BPS_DIVISOR`. -/
def bpsRemainder (product : Int) : Int := product - product.tdiv bpsDivisor * bpsDivisor

/-- The loop that hands out the stroops left over. -/
def distribute : List ShareRemainder → Int → List Int → List Int
  | [], _, allocated => allocated
  | entry :: rest, remainingStroops, allocated =>
    if remainingStroops > 0 then
      distribute rest (remainingStroops - 1) (allocated.modify entry.index (· + 1))
    else allocated

def largestRemainderAllocation (total : Int) (sharesBps : List Int) :
    Except String AllocationResult :=
  if total < 0 then .error "total must be non-negative"
  else if sharesBps.sum ≠ bpsDivisor then
    .error s!"sharesBps must sum to {bpsDivisor}, got {sharesBps.sum}"
  else if sharesBps.any (· < 0) then
    .error "sharesBps must contain only non-negative values"
  else
    let exact := sharesBps.map (total * ·)
    let floored := exact.map (·.tdiv bpsDivisor)
    let remainders := exact.mapIdx fun i product => ⟨i, bpsRemainder product⟩
    let assignedSum := floored.sum
    let sorted := remainders.mergeSort fun a b => compareRemainders a b ≤ 0
    let allocated := distribute sorted (total - assignedSum) floored
    .ok {
      exact := exact.map (·.tdiv bpsDivisor)
      allocated
      remainder := total - assignedSum
      sum := allocated.sum }

def splitLossRatio (total buyerLossBps sellerLossBps : Int) : Except String (Int × Int) :=
  if buyerLossBps + sellerLossBps ≠ bpsDivisor then
    .error (s!"buyerLossBps + sellerLossBps must equal {bpsDivisor}, " ++
      s!"got {buyerLossBps + sellerLossBps}")
  else do
    let result ← largestRemainderAllocation total [buyerLossBps, sellerLossBps]
    return (result.allocated.getD 0 0, result.allocated.getD 1 0)

/-! ## The loop -/

theorem sum_modify_succ {l : List Int} {i : Nat} (h : i < l.length) :
    (l.modify i (· + 1)).sum = l.sum + 1 := by
  induction l generalizing i with
  | nil => cases h
  | cons x l ih =>
    cases i with
    | zero =>
      show x + 1 + l.sum = x + l.sum + 1
      omega
    | succ i =>
      show x + (l.modify i (· + 1)).sum = x + l.sum + 1
      rw [ih (Nat.lt_of_succ_lt_succ h)]
      omega

theorem sum_distribute {entries : List ShareRemainder} {m : Nat} {base : List Int}
    (inside : ∀ entry ∈ entries, entry.index < base.length) (few : m ≤ entries.length) :
    (distribute entries m base).sum = base.sum + m := by
  induction entries generalizing m base with
  | nil =>
    obtain rfl : m = 0 := by simpa using few
    simp [distribute]
  | cons entry entries ih =>
    cases m with
    | zero => simp [distribute]
    | succ m =>
      have hrest : (((m + 1 : Nat) : Int) - 1) = m := by omega
      rw [distribute, if_pos (by omega), hrest, ih, sum_modify_succ (inside entry (by simp))]
      · omega
      · intro other hother
        rw [List.length_modify]
        exact inside other (List.mem_cons_of_mem _ hother)
      · exact Nat.le_of_succ_le_succ few

theorem length_distribute (entries : List ShareRemainder) (m : Int) (base : List Int) :
    (distribute entries m base).length = base.length := by
  induction entries generalizing m base with
  | nil => rfl
  | cons entry entries ih =>
    unfold distribute
    split
    · rw [ih, List.length_modify]
    · rfl

theorem getElem?_distribute {entries : List ShareRemainder} {m : Nat} {base : List Int}
    (distinct : (entries.map ShareRemainder.index).Nodup) (i : Nat) :
    (distribute entries m base)[i]? =
      base[i]?.map (· + if i ∈ (entries.map ShareRemainder.index).take m then 1 else 0) := by
  induction entries generalizing m base with
  | nil => simp [distribute]
  | cons entry entries ih =>
    obtain ⟨hnew, hrest⟩ := List.nodup_cons.1 distinct
    cases m with
    | zero => simp [distribute]
    | succ m =>
      have hprev : (((m + 1 : Nat) : Int) - 1) = m := by omega
      rw [distribute, if_pos (by omega), hprev, ih hrest, List.getElem?_modify]
      have hout : entry.index ∉ (entries.map ShareRemainder.index).take m :=
        fun h => hnew (List.mem_of_mem_take h)
      cases base[i]? with
      | none => rfl
      | some x =>
        by_cases hi : entry.index = i
        · subst hi
          simp [hout]
        · simp [hi, Ne.symm hi]

/-! ## The order of the remainders -/

/-- The remainders of the shares, in the order of the shares. -/
def shareRemainders (total : Int) (sharesBps : List Int) : List ShareRemainder :=
  (sharesBps.map (total * ·)).mapIdx fun i product => ⟨i, bpsRemainder product⟩

/-- The remainders as the loop takes them. -/
def sortedRemainders (total : Int) (sharesBps : List Int) : List ShareRemainder :=
  (shareRemainders total sharesBps).mergeSort fun a b => compareRemainders a b ≤ 0

theorem compareRemainders_le {a b : ShareRemainder} :
    compareRemainders a b ≤ 0 ↔ b.remainder ≤ a.remainder := by
  unfold compareRemainders
  split
  · omega
  · split <;> omega

theorem map_index_shareRemainders (total : Int) (sharesBps : List Int) :
    (shareRemainders total sharesBps).map ShareRemainder.index =
      List.range sharesBps.length := by
  apply List.ext_getElem
  · simp [shareRemainders]
  · intro i h₁ h₂
    simp [shareRemainders]

theorem mem_shareRemainders {total : Int} {sharesBps : List Int} {entry : ShareRemainder} :
    entry ∈ shareRemainders total sharesBps ↔
      ∃ share, sharesBps[entry.index]? = some share ∧
        entry.remainder = bpsRemainder (total * share) := by
  rw [shareRemainders, List.mem_mapIdx]
  constructor
  · rintro ⟨i, h, rfl⟩
    exact ⟨sharesBps.get ⟨i, by simpa using h⟩, by simp, by simp⟩
  · rintro ⟨share, hshare, hrem⟩
    obtain ⟨hlt, rfl⟩ := List.getElem?_eq_some_iff.1 hshare
    refine ⟨entry.index, by simpa using hlt, ?_⟩
    cases entry
    simpa using hrem.symm

/-- Of two remainders in the order of the loop the first is larger, or they are equal and it belongs
to an earlier share. -/
theorem sorted_sortedRemainders (total : Int) (sharesBps : List Int) :
    (sortedRemainders total sharesBps).Pairwise fun a b =>
      b.remainder ≤ a.remainder ∧ (a.remainder ≤ b.remainder → a.index < b.index) := by
  have hbefore : (shareRemainders total sharesBps).Pairwise fun a b => a.index < b.index := by
    rw [← List.pairwise_map (f := ShareRemainder.index) (R := (· < ·)),
      map_index_shareRemainders]
    exact List.pairwise_lt_range
  have hnodup : (shareRemainders total sharesBps).Nodup :=
    hbefore.imp fun hlt heq => by
      rw [heq] at hlt
      exact absurd hlt (Nat.lt_irrefl _)
  refine (LargestRemainder.pairwise_mergeSort ?_ ?_ hnodup hbefore).imp fun {a b} h => ?_
  · intro a b c
    simp only [decide_eq_true_eq, compareRemainders_le]
    omega
  · intro a b
    simp only [Bool.or_eq_true, decide_eq_true_eq, compareRemainders_le]
    omega
  · simpa only [decide_eq_true_eq, compareRemainders_le] using h

/-! ## What the allocation is -/

/-- Part `i` got one of the stroops that were left over. -/
def Incremented (total : Int) (sharesBps allocated : List Int) (i : Nat) : Prop :=
  allocated[i]? = sharesBps[i]?.map fun share => total * share / bpsDivisor + 1

instance (total : Int) (sharesBps allocated : List Int) :
    DecidablePred (Incremented total sharesBps allocated) :=
  fun _ => inferInstanceAs (Decidable (_ = _))

/-- The parts of a total by the largest remainders. -/
structure Apportioned (total : Int) (sharesBps allocated : List Int) : Prop where
  length : allocated.length = sharesBps.length
  whole : allocated.sum = total
  near : ∀ (i : Nat) share, sharesBps[i]? = some share →
    allocated[i]? = some (total * share / bpsDivisor) ∨
      allocated[i]? = some (total * share / bpsDivisor + 1)
  few : (List.range sharesBps.length).countP (Incremented total sharesBps allocated) <
    sharesBps.length
  fair : ∀ (i j : Nat) share share', sharesBps[i]? = some share →
    sharesBps[j]? = some share' → total * share % bpsDivisor < total * share' % bpsDivisor →
      Incremented total sharesBps allocated i → Incremented total sharesBps allocated j
  ties : ∀ (i j : Nat) share share', i < j → sharesBps[i]? = some share →
    sharesBps[j]? = some share' → total * share % bpsDivisor = total * share' % bpsDivisor →
      Incremented total sharesBps allocated j → Incremented total sharesBps allocated i
  zero : ∀ i : Nat, sharesBps[i]? = some 0 → allocated[i]? = some 0

/-- The parts whose units the loop hands out. -/
def bumped (total : Int) (sharesBps : List Int) (m : Nat) : List Nat :=
  ((sortedRemainders total sharesBps).map ShareRemainder.index).take m

section

variable {total : Int} {sharesBps : List Int} {m : Nat}

theorem mem_sortedRemainders {entry : ShareRemainder} :
    entry ∈ sortedRemainders total sharesBps ↔
      ∃ share, sharesBps[entry.index]? = some share ∧
        entry.remainder = bpsRemainder (total * share) :=
  (List.mergeSort_perm _ _).mem_iff.trans mem_shareRemainders

theorem nodup_index_sortedRemainders :
    ((sortedRemainders total sharesBps).map ShareRemainder.index).Nodup := by
  have hperm := (List.mergeSort_perm (shareRemainders total sharesBps)
    fun a b => compareRemainders a b ≤ 0).map ShareRemainder.index
  rw [map_index_shareRemainders] at hperm
  exact hperm.nodup_iff.2 List.nodup_range

theorem mem_bumped_iff {i : Nat} :
    i ∈ bumped total sharesBps m ↔
      ∃ entry ∈ (sortedRemainders total sharesBps).take m, entry.index = i := by
  rw [bumped, ← List.map_take, List.mem_map]

/-- Whoever is not after a part that got a unit got one too. -/
theorem bumped_of_not_after {i j : Nat} {share share' : Int} (hi : sharesBps[i]? = some share)
    (hj : sharesBps[j]? = some share')
    (h : bpsRemainder (total * share) < bpsRemainder (total * share') ∨
      bpsRemainder (total * share) = bpsRemainder (total * share') ∧ j < i)
    (hbumped : i ∈ bumped total sharesBps m) : j ∈ bumped total sharesBps m := by
  obtain ⟨entry, hentry, rfl⟩ := mem_bumped_iff.1 hbumped
  obtain ⟨share₀, hshare, hrem⟩ := mem_sortedRemainders.1 (List.mem_of_mem_take hentry)
  obtain rfl := Option.some.inj (hi.symm.trans hshare)
  refine mem_bumped_iff.2 ⟨⟨j, bpsRemainder (total * share')⟩, ?_, rfl⟩
  refine LargestRemainder.mem_take_of_not_rel (sorted_sortedRemainders total sharesBps) hentry
    (mem_sortedRemainders.2 ⟨share', hj, rfl⟩) ?_
  dsimp only
  omega

/-! ## Sums -/

variable (nonneg : 0 ≤ total) (shares : ∀ share ∈ sharesBps, 0 ≤ share)

theorem tdiv_of_nonneg {product : Int} (h : 0 ≤ product) :
    product.tdiv bpsDivisor = product / bpsDivisor ∧
      bpsRemainder product = product % bpsDivisor := by
  have hdiv := Int.tdiv_eq_ediv_of_nonneg (b := bpsDivisor) h
  have hsum := Int.mul_ediv_add_emod product bpsDivisor
  rw [Int.mul_comm] at hsum
  refine ⟨hdiv, ?_⟩
  rw [bpsRemainder, hdiv]
  omega

/-- The parts rounded down. -/
def flooredParts (total : Int) (sharesBps : List Int) : List Int :=
  sharesBps.map fun share => total * share / bpsDivisor

include nonneg shares in
theorem map_tdiv_eq :
    (sharesBps.map (total * ·)).map (·.tdiv bpsDivisor) = flooredParts total sharesBps := by
  rw [flooredParts, List.map_map]
  apply List.map_congr_left
  intro share hshare
  exact (tdiv_of_nonneg (Int.mul_nonneg nonneg (shares share hshare))).1

include nonneg shares in
theorem remainder_range {entry : ShareRemainder} (h : entry ∈ sortedRemainders total sharesBps) :
    0 ≤ entry.remainder ∧ entry.remainder < bpsDivisor := by
  obtain ⟨share, hshare, hrem⟩ := mem_sortedRemainders.1 h
  have hproduct := Int.mul_nonneg nonneg (shares share (List.mem_of_getElem? hshare))
  rw [hrem, (tdiv_of_nonneg hproduct).2]
  exact ⟨Int.emod_nonneg _ (by decide), Int.emod_lt_of_pos _ (by decide)⟩

include nonneg shares in
theorem leftover_sum (sum : sharesBps.sum = bpsDivisor) :
    (total - (flooredParts total sharesBps).sum) * bpsDivisor =
      ((sortedRemainders total sharesBps).map ShareRemainder.remainder).sum := by
  have hproducts : (sharesBps.map (total * ·)).sum = total * bpsDivisor := by
    rw [List.sum_map_mul_left, List.map_id', sum]
  have hleft := LargestRemainder.leftover_mul hproducts
  rw [List.map_map, List.map_map] at hleft
  have hperm := ((List.mergeSort_perm (shareRemainders total sharesBps)
    fun a b => compareRemainders a b ≤ 0).map ShareRemainder.remainder).sum_eq
  rw [sortedRemainders, hperm]
  refine hleft.trans (congrArg List.sum ?_)
  apply List.ext_getElem
  · simp [shareRemainders]
  · intro i h₁ h₂
    have hi : i < sharesBps.length := by simpa using h₁
    have hproduct := Int.mul_nonneg nonneg (shares _ (List.getElem_mem hi))
    simp [shareRemainders, (tdiv_of_nonneg hproduct).2]

/-- How the total is allocated: each of the first `m` parts in the order of the loop gets one of the
units left over. -/
structure Allocates (total : Int) (sharesBps : List Int) (m : Nat) (result : AllocationResult) :
    Prop where
  leftover : (m : Int) = total - (flooredParts total sharesBps).sum
  few : m < sharesBps.length
  units : (m : Int) * bpsDivisor =
    ((sortedRemainders total sharesBps).map ShareRemainder.remainder).sum
  sum : result.sum = result.allocated.sum
  allocated : result.allocated =
    distribute (sortedRemainders total sharesBps) m (flooredParts total sharesBps)

include nonneg shares in
theorem largestRemainderAllocation_eq (sum : sharesBps.sum = bpsDivisor) :
    largestRemainderAllocation total sharesBps =
      let floored := flooredParts total sharesBps
      let allocated := distribute (sortedRemainders total sharesBps) (total - floored.sum) floored
      .ok ⟨floored, allocated, total - floored.sum, allocated.sum⟩ := by
  have hshares : ¬ sharesBps.any (· < 0) = true := by
    rw [List.any_eq_true]
    rintro ⟨share, hshare, hneg⟩
    have := shares share hshare
    have := of_decide_eq_true hneg
    omega
  rw [largestRemainderAllocation, if_neg (by omega), if_neg (not_not.2 sum), if_neg hshares,
    ← map_tdiv_eq nonneg shares]
  rfl

include nonneg shares in
theorem exists_allocates (sum : sharesBps.sum = bpsDivisor) :
    ∃ m result, largestRemainderAllocation total sharesBps = .ok result ∧
      Allocates total sharesBps m result := by
  have hunits := leftover_sum nonneg shares sum
  have hrange : ∀ entry ∈ sortedRemainders total sharesBps,
      0 ≤ entry.remainder ∧ entry.remainder < bpsDivisor :=
    fun _ => remainder_range nonneg shares
  have hlength : (sortedRemainders total sharesBps).length = sharesBps.length := by
    rw [sortedRemainders, List.length_mergeSort, shareRemainders, List.length_mapIdx,
      List.length_map]
  have hsome : sortedRemainders total sharesBps ≠ [] := by
    intro hnone
    rw [hnone, List.length_nil] at hlength
    rw [List.eq_nil_of_length_eq_zero hlength.symm] at sum
    cases sum
  have hfew := LargestRemainder.leftover_lt (fun entry h => (hrange entry h).2) hsome (by decide)
    hunits
  have hnonneg := LargestRemainder.leftover_nonneg (fun entry h => (hrange entry h).1) (by decide)
    hunits
  rw [hlength] at hfew
  obtain ⟨m, hm⟩ := Int.eq_ofNat_of_zero_le hnonneg
  have hok := largestRemainderAllocation_eq nonneg shares sum
  dsimp only at hok
  rw [hm] at hok hunits
  exact ⟨m, _, hok, hm.symm, by omega, hunits, rfl, rfl⟩

theorem Allocates.getElem? {result : AllocationResult} (h : Allocates total sharesBps m result)
    {i : Nat} {share : Int} (hi : sharesBps[i]? = some share) :
    result.allocated[i]? =
      some (total * share / bpsDivisor + if i ∈ bumped total sharesBps m then 1 else 0) := by
  rw [h.allocated, getElem?_distribute nodup_index_sortedRemainders, flooredParts,
    List.getElem?_map, hi]
  rfl

theorem Allocates.incremented_iff {result : AllocationResult}
    (h : Allocates total sharesBps m result) {i : Nat} {share : Int}
    (hi : sharesBps[i]? = some share) :
    Incremented total sharesBps result.allocated i ↔ i ∈ bumped total sharesBps m := by
  rw [Incremented, h.getElem? hi, hi, Option.map_some, Option.some.injEq]
  split <;> simp [*]

include nonneg shares in
/-- The largest remainders give every part its exact share, rounded down or up, and the total as
their sum. -/
theorem Allocates.apportioned {result : AllocationResult}
    (h : Allocates total sharesBps m result) : Apportioned total sharesBps result.allocated := by
  have hrem : ∀ {i : Nat} {share}, sharesBps[i]? = some share →
      bpsRemainder (total * share) = total * share % bpsDivisor := fun hi =>
    (tdiv_of_nonneg (Int.mul_nonneg nonneg (shares _ (List.mem_of_getElem? hi)))).2
  have hlength : (sortedRemainders total sharesBps).length = sharesBps.length := by
    rw [sortedRemainders, List.length_mergeSort, shareRemainders, List.length_mapIdx,
      List.length_map]
  constructor
  case length => rw [h.allocated, length_distribute, flooredParts, List.length_map]
  case whole =>
    rw [h.allocated, sum_distribute, h.leftover]
    · omega
    · intro entry hentry
      obtain ⟨share, hshare, -⟩ := mem_sortedRemainders.1 hentry
      rw [flooredParts, List.length_map]
      exact (List.getElem?_eq_some_iff.1 hshare).1
    · rw [hlength]
      exact h.few.le
  case near =>
    intro i share hi
    rw [h.getElem? hi]
    split
    · exact .inr rfl
    · exact .inl (by rw [Int.add_zero])
  case few =>
    have hsubset : (List.range sharesBps.length).filter
        (Incremented total sharesBps result.allocated) ⊆ bumped total sharesBps m := by
      intro i hi
      rw [List.mem_filter, List.mem_range, decide_eq_true_eq] at hi
      exact (h.incremented_iff (List.getElem?_eq_getElem hi.1)).1 hi.2
    have hcount := (List.subperm_of_subset (List.nodup_range.filter _) hsubset).length_le
    rw [List.countP_eq_length_filter]
    exact (hcount.trans (List.length_take_le _ _)).trans_lt h.few
  case fair =>
    intro i j share share' hi hj hlt hinc
    rw [h.incremented_iff hi] at hinc
    rw [h.incremented_iff hj]
    exact bumped_of_not_after hi hj (.inl (by rwa [hrem hi, hrem hj])) hinc
  case ties =>
    intro i j share share' hlt hi hj heq hinc
    rw [h.incremented_iff hj] at hinc
    rw [h.incremented_iff hi]
    exact bumped_of_not_after hj hi (.inr ⟨by rw [hrem hi, hrem hj, heq], hlt⟩) hinc
  case zero =>
    intro i hi
    rw [h.getElem? hi, if_neg]
    · simp
    · intro hbumped
      obtain ⟨entry, hentry, rfl⟩ := mem_bumped_iff.1 hbumped
      obtain ⟨share, hshare, hzero⟩ := mem_sortedRemainders.1 (List.mem_of_mem_take hentry)
      obtain rfl := Option.some.inj (hi.symm.trans hshare)
      have hpos := LargestRemainder.pos_of_mem_take
        ((sorted_sortedRemainders total sharesBps).imp fun hab => hab.1)
        (fun entry => remainder_range nonneg shares) h.units hentry
      rw [hzero, Int.mul_zero] at hpos
      cases hpos

end

/-- For every total and all shares of 100%, each from zero on, the total is apportioned. -/
theorem largest_remainders {total : Int} {sharesBps : List Int} (nonneg : 0 ≤ total)
    (shares : ∀ share ∈ sharesBps, 0 ≤ share) (sum : sharesBps.sum = bpsDivisor) :
    ∃ result, largestRemainderAllocation total sharesBps = .ok result ∧ result.sum = total ∧
      Apportioned total sharesBps result.allocated := by
  obtain ⟨m, result, hok, halloc⟩ := exists_allocates nonneg shares sum
  have happortioned := halloc.apportioned nonneg shares
  exact ⟨result, hok, halloc.sum.trans happortioned.whole, happortioned⟩

theorem largest_remainders_thirds :
    ∃ result, largestRemainderAllocation 100 [3333, 0, 3334, 3333] = .ok result ∧
      result.sum = 100 ∧ Apportioned 100 [3333, 0, 3334, 3333] result.allocated :=
  largest_remainders (by decide) (by decide) (by decide)

/-! ## The loss of two parties -/

/-- The seller's part is the loss the contract computes, and the buyer's part is the rest. -/
def SplitMatches (total : Int) (buyerLossBps sellerLossBps : Nat) : Prop :=
  ∃ buyerAmount sellerAmount,
    splitLossRatio total buyerLossBps sellerLossBps = .ok (buyerAmount, sellerAmount) ∧
      Escrow.checkedLossAmount total Escrow.bpsDivisor sellerLossBps = .ok sellerAmount ∧
      buyerAmount = total - sellerAmount

section

variable {total : Int} {buyerLossBps sellerLossBps : Nat}

/-- The contract truncates. -/
theorem checkedLossAmount_whole (lo : 0 ≤ total) (hi : total ≤ Escrow.maxTradeValue)
    (seller : sellerLossBps ≤ 10000) :
    Escrow.checkedLossAmount total Escrow.bpsDivisor sellerLossBps =
      .ok (total * sellerLossBps / 10000) := by
  obtain ⟨loss, hok, -, -⟩ := Escrow.checkedLossAmount_isOk lo hi
    (show 0 ≤ Escrow.bpsDivisor ∧ Escrow.bpsDivisor ≤ 10000 by decide) seller
  rw [hok, Escrow.checkedLossAmount_exact hok]
  have hmul : total * Escrow.bpsDivisor * (sellerLossBps : Int) =
      total * sellerLossBps * Escrow.bpsDivisor := by ring
  have hnonneg : 0 ≤ total * (sellerLossBps : Int) := Int.mul_nonneg lo (by omega)
  rw [hmul, Int.mul_tdiv_mul_of_pos_left _ _ (by decide), Int.tdiv_eq_ediv_of_nonneg hnonneg]
  rfl

/-- The stroop that is left over goes to the seller if the seller's remainder is the larger one. -/
theorem splitLossRatio_seller (lo : 0 ≤ total) (whole : buyerLossBps + sellerLossBps = 10000) :
    ∃ buyerAmount sellerAmount,
      splitLossRatio total buyerLossBps sellerLossBps = .ok (buyerAmount, sellerAmount) ∧
        buyerAmount + sellerAmount = total ∧
        sellerAmount = total * sellerLossBps / 10000 +
          if total * sellerLossBps % 10000 ≤ 5000 then 0 else 1 := by
  have hshares : ∀ share ∈ [(buyerLossBps : Int), sellerLossBps], 0 ≤ share := by simp
  have hsum : [(buyerLossBps : Int), sellerLossBps].sum = bpsDivisor := by
    show (buyerLossBps : Int) + (sellerLossBps + 0) = 10000
    omega
  obtain ⟨m, result, hok, halloc⟩ := exists_allocates lo hshares hsum
  obtain ⟨hlength, hwhole, hnear, -, hfair, hties, -⟩ := halloc.apportioned lo hshares
  obtain ⟨x, y, hparts⟩ := List.length_eq_two.1 hlength
  have hsplit : splitLossRatio total buyerLossBps sellerLossBps = .ok (x, y) := by
    rw [splitLossRatio, if_neg (by show ¬ (_ : Int) ≠ 10000; omega), hok]
    show Except.ok (result.allocated.getD 0 0, result.allocated.getD 1 0) = _
    rw [hparts]
    rfl
  have hbuyer : Incremented total [(buyerLossBps : Int), sellerLossBps] result.allocated 0 ↔
      x = total * buyerLossBps / 10000 + 1 := by
    simp [Incremented, hparts, bpsDivisor]
  have hseller : Incremented total [(buyerLossBps : Int), sellerLossBps] result.allocated 1 ↔
      y = total * sellerLossBps / 10000 + 1 := by
    simp [Incremented, hparts, bpsDivisor]
  have hx := hnear 0 buyerLossBps rfl
  have hy := hnear 1 sellerLossBps rfl
  have hup := hfair 0 1 buyerLossBps sellerLossBps rfl rfl
  have hdown := hfair 1 0 sellerLossBps buyerLossBps rfl rfl
  have hfirst := hties 0 1 buyerLossBps sellerLossBps (by omega) rfl rfl
  rw [hbuyer, hseller] at hup hfirst
  rw [hseller, hbuyer] at hdown
  rw [hparts] at hx hy hwhole
  simp only [List.getElem?_cons_zero, List.getElem?_cons_succ, Option.some.injEq, bpsDivisor,
    List.sum_cons, List.sum_nil] at hx hy hup hdown hfirst hwhole
  have hproducts : total * buyerLossBps + total * sellerLossBps = total * 10000 := by
    have hrates : (buyerLossBps : Int) + sellerLossBps = 10000 := by omega
    rw [← Int.mul_add, hrates]
  refine ⟨x, y, hsplit, by omega, ?_⟩
  generalize total * (buyerLossBps : Int) = p at *
  generalize total * (sellerLossBps : Int) = q at *
  split <;> omega

/-- The split agrees with the contract exactly when the seller's remainder is at most one half. -/
theorem split_matches_iff (lo : 0 ≤ total) (hi : total ≤ Escrow.maxTradeValue)
    (whole : buyerLossBps + sellerLossBps = 10000) :
    SplitMatches total buyerLossBps sellerLossBps ↔ total * sellerLossBps % 10000 ≤ 5000 := by
  obtain ⟨x, y, hsplit, hsum, hy⟩ := splitLossRatio_seller lo whole
  rw [SplitMatches, checkedLossAmount_whole lo hi (by omega), hsplit]
  constructor
  · rintro ⟨_, _, hfirst, hsecond, -⟩
    obtain ⟨rfl, rfl⟩ := Prod.mk.inj (Except.ok.inj hfirst)
    have hseller := Except.ok.inj hsecond
    by_contra hmore
    rw [if_neg hmore] at hy
    omega
  · intro hhalf
    rw [if_pos hhalf, Int.add_zero] at hy
    exact ⟨x, y, rfl, by rw [hy], by omega⟩

theorem split_matches_iff_half :
    SplitMatches 12345 5000 5000 ↔ (12345 : Int) * (5000 : Nat) % 10000 ≤ 5000 :=
  split_matches_iff (by decide) (by decide) rfl

/-- One stroop at 40 to 60 goes to the seller, where the contract computes no loss. -/
theorem not_split_matches :
    ¬ (∀ (total : Int) (buyerLossBps sellerLossBps : Nat), 0 ≤ total →
      total ≤ Escrow.maxTradeValue → buyerLossBps + sellerLossBps = 10000 →
      SplitMatches total buyerLossBps sellerLossBps) := by
  intro h
  obtain ⟨x, y, hsplit, hloss, -⟩ := h 1 4000 6000 (by decide) (by decide) rfl
  obtain ⟨x', y', hsplit', -, hy'⟩ := splitLossRatio_seller (show (0 : Int) ≤ 1 by decide)
    (show 4000 + 6000 = 10000 from rfl)
  have hchain := checkedLossAmount_whole (show (0 : Int) ≤ 1 by decide) (by decide)
    (show 6000 ≤ 10000 by decide)
  obtain rfl : y = 0 := Except.ok.inj (hloss.symm.trans hchain)
  have hsame : (0 : Int) = y' := congrArg Prod.snd (Except.ok.inj (hsplit.symm.trans hsplit'))
  rw [hy'] at hsame
  exact absurd hsame (by decide)

end

end Amana.Backend
