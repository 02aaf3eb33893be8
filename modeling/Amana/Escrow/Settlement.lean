import Amana.Escrow.Limits

/-!
# The split of a disputed amount

Within the cap on amounts every step of the payout arithmetic stays far inside the range of `i128`,
so the split is the exact one (`exactSplit`): the loss that is not the seller's is rounded down, and
the fee on the rest too.  A larger share for the seller never pays the seller less, for a fee of at
most 100% takes no more than it is raised on (`sub_fee_mono`).
-/

namespace Amana.Escrow

open Lib

variable {total : Int} {sellerGetsBps sellerLossBps feeBps : Nat}

/-- The split in exact arithmetic. -/
def exactSplit (total : Int) (sellerGetsBps sellerLossBps feeBps : Nat) : Split :=
  let refund := total * (10000 - sellerGetsBps) * sellerLossBps / 10 ^ 8
  let fee := (total - refund) * feeBps / 10000
  ⟨total - refund - fee, refund, fee⟩

/-- The value of every operation of `settle_dispute` before the payouts, in exact arithmetic. -/
def splitSteps (total : Int) (sellerGetsBps sellerLossBps feeBps : Nat) : List Int :=
  let split := exactSplit total sellerGetsBps sellerLossBps feeBps
  let raw := total - split.buyerRefund
  [10000 - sellerGetsBps, total * (10000 - sellerGetsBps),
    total * (10000 - sellerGetsBps) * sellerLossBps, 10000 * 10000, split.buyerRefund, raw,
    total - raw, raw * feeBps, split.fee, raw - split.fee, split.sellerNet + split.buyerRefund,
    split.sellerNet + split.buyerRefund + split.fee]

/-- The computation of `settle_dispute` does not overflow and passes its assertions, with the exact
split as its result. -/
structure SplitSound (total : Int) (sellerGetsBps sellerLossBps feeBps : Nat) (split : Split) :
    Prop where
  inRange : ∀ x ∈ splitSteps total sellerGetsBps sellerLossBps feeBps,
    I128.minValue ≤ x ∧ x ≤ I128.maxValue
  computed : disputeSplit total sellerGetsBps sellerLossBps feeBps = .ok split
  nonneg : 0 ≤ split.sellerNet ∧ 0 ≤ split.buyerRefund ∧ 0 ≤ split.fee
  whole : split.sellerNet + split.buyerRefund + split.fee = total
  refund : split.buyerRefund = total * (10000 - sellerGetsBps) * sellerLossBps / 10 ^ 8
  /-- Rounding takes from the buyer. -/
  refund_le : split.buyerRefund * 10 ^ 8 ≤ total * (10000 - sellerGetsBps) * sellerLossBps

theorem disputeSplit_eq_exact (lo : 0 ≤ total) (hi : total ≤ maxTradeValue)
    (ruling : sellerGetsBps ≤ 10000) (losses : sellerLossBps ≤ 10000) (rate : feeBps ≤ 10000) :
    disputeSplit total sellerGetsBps sellerLossBps feeBps =
      .ok (exactSplit total sellerGetsBps sellerLossBps feeBps) := by
  obtain ⟨split, hsplit⟩ := isOk_iff.1 (disputeSplit_isOk lo hi rate losses ruling)
  have hrange : total ≤ I128.maxValue := hi.trans (by decide)
  obtain ⟨hrefund, hfee, hnet⟩ := disputeSplit_exact hsplit ruling lo hrange
  have hloss : 0 ≤ total * (10000 - (sellerGetsBps : Int)) * sellerLossBps :=
    Int.mul_nonneg (Int.mul_nonneg lo (by omega)) (by omega)
  have hrefund' : split.buyerRefund =
      total * (10000 - (sellerGetsBps : Int)) * sellerLossBps / 10 ^ 8 := by
    rw [hrefund]
    exact Int.tdiv_eq_ediv_of_nonneg hloss
  have hle : split.buyerRefund ≤ total := by
    obtain ⟨hnonneg, hwhole⟩ := disputeSplit_eq_ok hsplit lo hrange
    omega
  have hfee' : split.fee = (total - split.buyerRefund) * feeBps / 10000 := by
    rw [hfee]
    exact Int.tdiv_eq_ediv_of_nonneg (Int.mul_nonneg (by omega) (by omega))
  rw [hsplit, exactSplit, ← hrefund', ← hfee', ← hnet]

/-- Products with a rate of at most 100% stay within that multiple of what they are formed of. -/
theorem mul_rate_mem {x : Int} (lo : 0 ≤ x) (rate : Int) (hrate : 0 ≤ rate ∧ rate ≤ 10000) :
    0 ≤ x * rate ∧ x * rate ≤ 10000 * x := by
  refine ⟨Int.mul_nonneg lo hrate.1, ?_⟩
  rw [mul_comm 10000 x]
  exact Int.mul_le_mul_of_nonneg_left hrate.2 lo

theorem splitSound_exactSplit (lo : 0 ≤ total) (hi : total ≤ maxTradeValue)
    (ruling : sellerGetsBps ≤ 10000) (losses : sellerLossBps ≤ 10000) (rate : feeBps ≤ 10000) :
    SplitSound total sellerGetsBps sellerLossBps feeBps
      (exactSplit total sellerGetsBps sellerLossBps feeBps) := by
  have hcomputed := disputeSplit_eq_exact lo hi ruling losses rate
  obtain ⟨hnonneg, hwhole⟩ := disputeSplit_eq_ok hcomputed lo (hi.trans (by decide))
  refine ⟨fun x hx => ?_, hcomputed, hnonneg, hwhole, rfl, Int.ediv_mul_le _ (by decide)⟩
  have hcap : maxTradeValue = 10 ^ 12 := rfl
  have hfirst := mul_rate_mem lo (10000 - sellerGetsBps) ⟨by omega, by omega⟩
  have hsecond := mul_rate_mem hfirst.1 sellerLossBps ⟨by omega, by omega⟩
  generalize hsplit : exactSplit total sellerGetsBps sellerLossBps feeBps = split at *
  have hraw := mul_rate_mem (show 0 ≤ total - split.buyerRefund by omega) feeBps
    ⟨by omega, by omega⟩
  simp only [splitSteps, hsplit, List.mem_cons, List.not_mem_nil, or_false] at hx
  unfold I128.minValue I128.maxValue
  omega

/-! ## A larger share for the seller -/

/-- What is left after a fee of at most 100% grows with what the fee is raised on. -/
theorem sub_fee_mono {x y : Int} (hxy : x ≤ y) (rate : feeBps ≤ 10000) :
    x - x * feeBps / 10000 ≤ y - y * feeBps / 10000 := by
  have hstep : y * feeBps ≤ x * feeBps + (y - x) * 10000 := by
    have hmore := Int.mul_le_mul_of_nonneg_left (show (feeBps : Int) ≤ 10000 by omega)
      (show 0 ≤ y - x by omega)
    rw [Int.sub_mul] at hmore
    omega
  have hdiv := Int.ediv_le_ediv (show (0 : Int) < 10000 by decide) hstep
  rw [Int.add_mul_ediv_right _ _ (by decide)] at hdiv
  omega

theorem exactSplit_mono {sellerGetsBps' : Nat} (lo : 0 ≤ total) (rate : feeBps ≤ 10000)
    (h : sellerGetsBps ≤ sellerGetsBps') :
    (exactSplit total sellerGetsBps sellerLossBps feeBps).sellerNet ≤
        (exactSplit total sellerGetsBps' sellerLossBps feeBps).sellerNet ∧
      (exactSplit total sellerGetsBps' sellerLossBps feeBps).buyerRefund ≤
        (exactSplit total sellerGetsBps sellerLossBps feeBps).buyerRefund := by
  have hrefund : (exactSplit total sellerGetsBps' sellerLossBps feeBps).buyerRefund ≤
      (exactSplit total sellerGetsBps sellerLossBps feeBps).buyerRefund := by
    apply Int.ediv_le_ediv (by decide)
    apply Int.mul_le_mul_of_nonneg_right _ (Int.natCast_nonneg sellerLossBps)
    exact Int.mul_le_mul_of_nonneg_left (by omega) lo
  refine ⟨sub_fee_mono (by dsimp only [exactSplit] at hrefund; omega) rate, hrefund⟩

/-- For every amount within the cap and all rates of at most 100% the split of a settlement is
sound, and a larger share for the seller pays the seller no less and the buyer no more. -/
theorem settlement_split (lo : 0 < total) (hi : total ≤ maxTradeValue)
    (losses : sellerLossBps ≤ 10000) (rate : feeBps ≤ 10000) :
    ∃ split : Nat → Split,
      (∀ sellerGetsBps ≤ 10000,
        SplitSound total sellerGetsBps sellerLossBps feeBps (split sellerGetsBps)) ∧
      ∀ sellerGetsBps sellerGetsBps', sellerGetsBps ≤ sellerGetsBps' → sellerGetsBps' ≤ 10000 →
        (split sellerGetsBps).sellerNet ≤ (split sellerGetsBps').sellerNet ∧
          (split sellerGetsBps').buyerRefund ≤ (split sellerGetsBps).buyerRefund :=
  ⟨fun sellerGetsBps => exactSplit total sellerGetsBps sellerLossBps feeBps,
    fun _ ruling => splitSound_exactSplit lo.le hi ruling losses rate,
    fun _ _ h _ => exactSplit_mono lo.le rate h⟩

theorem settlement_split_odd :
    ∃ split : Nat → Split,
      (∀ sellerGetsBps ≤ 10000, SplitSound 9999 sellerGetsBps 3333 100 (split sellerGetsBps)) ∧
      ∀ sellerGetsBps sellerGetsBps', sellerGetsBps ≤ sellerGetsBps' → sellerGetsBps' ≤ 10000 →
        (split sellerGetsBps).sellerNet ≤ (split sellerGetsBps').sellerNet ∧
          (split sellerGetsBps').buyerRefund ≤ (split sellerGetsBps).buyerRefund :=
  settlement_split (by decide) (by decide) (by decide) (by decide)

end Amana.Escrow
