import Amana.Backend.Money
import Amana.Escrow.Limits
import Mathlib

/-!
# Fees

`feeComputation.ts` predicts what the contract pays out.  For a release and for a ruling it computes
what the contract does (`fees_mirror_chain`).  The shortcuts for a ruling in favour of one side leave
out the shares of a loss that the parties agreed on: the one for the buyer is right only if the
seller bears all of it (`full_wins_iff`).
-/

namespace Amana.Backend

open Lib
open Escrow (Env State Trade Address Split currentContract maxTradeValue releaseSplit disputeSplit
  releaseFunds settleDispute getFeeBps feesWith)

inductive TradeOutcome where
  | release
  | refund
  | split
  | fullSeller
  | fullBuyer
  deriving DecidableEq, Repr

structure FeeBreakdown where
  outcome : TradeOutcome
  total : String
  fee : String
  sellerNet : String
  buyerRefund : String
  feeBps : Int
  feeDust : String
  calculatedAt : String
  deriving DecidableEq, Repr

variable (amount feeBps : Int) (calculatedAt : String)

def computeReleaseFee : Except String FeeBreakdown := do
  let ⟨fee, residual, _⟩ ← applyBps amount feeBps contractRounding
  let sellerNet := amount - fee
  return ⟨.release, toString amount, toString fee, toString sellerNet, "0", feeBps,
    toString residual, calculatedAt⟩

def computeRefundFee : FeeBreakdown :=
  ⟨.refund, toString amount, "0", "0", toString amount, feeBps, "0", calculatedAt⟩

def computeSplitFee (sellerGetsBps sellerLossBps : Int) : Except String FeeBreakdown := do
  let lossBps := bpsDivisor - sellerGetsBps
  let ⟨sellerLoss, _, _⟩ ←
    divideWithPolicy (amount * lossBps * sellerLossBps) (bpsDivisor * bpsDivisor) contractRounding
  let sellerRaw := amount - sellerLoss
  let buyerRefund := amount - sellerRaw
  let ⟨fee, residual, _⟩ ← applyBps sellerRaw feeBps contractRounding
  let sellerNet := sellerRaw - fee
  return ⟨.split, toString amount, toString fee, toString sellerNet, toString buyerRefund, feeBps,
    toString residual, calculatedAt⟩

def computeFullSellerFee : Except String FeeBreakdown := do
  let ⟨fee, residual, _⟩ ← applyBps amount feeBps contractRounding
  let sellerNet := amount - fee
  return ⟨.fullSeller, toString amount, toString fee, toString sellerNet, "0", feeBps,
    toString residual, calculatedAt⟩

def computeFullBuyerFee : FeeBreakdown :=
  ⟨.fullBuyer, toString amount, "0", "0", toString amount, feeBps, "0", calculatedAt⟩

/-- Rates that the caller leaves out are 10000 and 5000. -/
def computeFee (outcome : TradeOutcome) (sellerGetsBps sellerLossBps : Option Int) :
    Except String FeeBreakdown :=
  match outcome with
  | .release => computeReleaseFee amount feeBps calculatedAt
  | .refund => .ok (computeRefundFee amount feeBps calculatedAt)
  | .split =>
    computeSplitFee amount feeBps calculatedAt (sellerGetsBps.getD 10000)
      (sellerLossBps.getD 5000)
  | .fullSeller => computeFullSellerFee amount feeBps calculatedAt
  | .fullBuyer => .ok (computeFullBuyerFee amount feeBps calculatedAt)

variable {amount feeBps calculatedAt}

theorem computeReleaseFee_eq (amount : Int) {feeBps : Int} (rate : 0 ≤ feeBps)
    (calculatedAt : String) : computeReleaseFee amount feeBps calculatedAt =
      .ok ⟨.release, toString amount, toString ((amount * feeBps).tdiv bpsDivisor),
        toString (amount - (amount * feeBps).tdiv bpsDivisor), "0", feeBps,
        toString ((amount * feeBps).tmod bpsDivisor), calculatedAt⟩ := by
  rw [computeReleaseFee, applyBps_trunc amount rate]
  rfl

theorem computeFullSellerFee_eq (amount : Int) {feeBps : Int} (rate : 0 ≤ feeBps)
    (calculatedAt : String) : computeFullSellerFee amount feeBps calculatedAt =
      .ok ⟨.fullSeller, toString amount, toString ((amount * feeBps).tdiv bpsDivisor),
        toString (amount - (amount * feeBps).tdiv bpsDivisor), "0", feeBps,
        toString ((amount * feeBps).tmod bpsDivisor), calculatedAt⟩ := by
  rw [computeFullSellerFee, applyBps_trunc amount rate]
  rfl

theorem computeSplitFee_eq (amount : Int) {feeBps : Int} (rate : 0 ≤ feeBps)
    (calculatedAt : String) (sellerGetsBps sellerLossBps : Int) {sellerLoss : Int}
    (loss : sellerLoss = (amount * (bpsDivisor - sellerGetsBps) * sellerLossBps).tdiv
      (bpsDivisor * bpsDivisor)) :
    computeSplitFee amount feeBps calculatedAt sellerGetsBps sellerLossBps =
      .ok ⟨.split, toString amount, toString (((amount - sellerLoss) * feeBps).tdiv bpsDivisor),
        toString (amount - sellerLoss - ((amount - sellerLoss) * feeBps).tdiv bpsDivisor),
        toString sellerLoss, feeBps,
        toString (((amount - sellerLoss) * feeBps).tmod bpsDivisor), calculatedAt⟩ := by
  have hdivide : divideWithPolicy (amount * (bpsDivisor - sellerGetsBps) * sellerLossBps)
      (bpsDivisor * bpsDivisor) contractRounding =
      .ok ⟨sellerLoss, (amount * (bpsDivisor - sellerGetsBps) * sellerLossBps).tmod
        (bpsDivisor * bpsDivisor), bpsDivisor * bpsDivisor⟩ := by
    rw [loss]
    exact divideWithPolicy_trunc _ (by decide)
  have hrefund : amount - (amount - sellerLoss) = sellerLoss := by omega
  simp only [computeSplitFee, hdivide, applyBps_trunc _ rate]
  show Except.ok (FeeBreakdown.mk _ _ _ _ (toString (amount - (amount - sellerLoss))) _ _ _) = _
  rw [hrefund]

/-- What `assertFeeConservation` checks: the parts make up the total. -/
def FeeBreakdown.Conserved (b : FeeBreakdown) : Prop :=
  ∃ total fee sellerNet buyerRefund : Int, b.total = toString total ∧ b.fee = toString fee ∧
    b.sellerNet = toString sellerNet ∧ b.buyerRefund = toString buyerRefund ∧
    sellerNet + buyerRefund + fee = total

/-- Whatever the outcome is, nothing of the amount gets lost. -/
theorem computeFee_conserved {outcome : TradeOutcome} {amount feeBps : Int} {calculatedAt : String}
    {sellerGetsBps sellerLossBps : Option Int} {b : FeeBreakdown} (rate : 0 ≤ feeBps)
    (h : computeFee amount feeBps calculatedAt outcome sellerGetsBps sellerLossBps = .ok b) :
    b.Conserved := by
  cases outcome with
  | release =>
    cases (computeReleaseFee_eq amount rate calculatedAt).symm.trans h
    exact ⟨amount, _, _, 0, rfl, rfl, rfl, rfl, by omega⟩
  | fullSeller =>
    cases (computeFullSellerFee_eq amount rate calculatedAt).symm.trans h
    exact ⟨amount, _, _, 0, rfl, rfl, rfl, rfl, by omega⟩
  | refund | fullBuyer =>
    cases h
    exact ⟨amount, 0, 0, amount, rfl, rfl, rfl, rfl, by omega⟩
  | split =>
    cases (computeSplitFee_eq amount rate calculatedAt _ _ rfl).symm.trans h
    exact ⟨amount, _, _, _, rfl, rfl, rfl, rfl, by omega⟩

/-! ## Release and ruling -/

/-- The forecast names the parts the contract splits the amount into, and what rounding takes off
the fee. -/
structure FeeBreakdown.Mirrors (b : FeeBreakdown) (amount feeBps : Int) (split : Split) : Prop where
  total : b.total = toString amount
  fee : b.fee = toString split.fee
  sellerNet : b.sellerNet = toString split.sellerNet
  buyerRefund : b.buyerRefund = toString split.buyerRefund
  whole : split.sellerNet + split.buyerRefund + split.fee = amount
  dust : ∃ dust : Int, b.feeDust = toString dust ∧ 0 ≤ dust ∧ dust < 10000 ∧
    split.fee * 10000 + dust = (amount - split.buyerRefund) * feeBps

/-- A release pays the seller and keeps the fee. -/
def Releases (s s' : State) (t : Trade) (sellerAmount fee : Int) : Prop :=
  Token.transfer s.tokens ⟨t.token, currentContract, t.seller, sellerAmount⟩ = some s'.tokens ∧
    s'.accruedFees = feesWith s.accruedFees fee

/-- A settlement pays the seller and the buyer, and keeps the fee. -/
def Settles (s s' : State) (t : Trade) (split : Split) : Prop :=
  ∃ tokens, Token.pay s.tokens ⟨t.token, currentContract, t.seller, split.sellerNet⟩ =
      some tokens ∧
    Token.pay tokens ⟨t.token, currentContract, t.buyer, split.buyerRefund⟩ = some s'.tokens ∧
    s'.accruedFees = feesWith s.accruedFees split.fee

/-- What truncation takes off a fee. -/
theorem feeDust_bounds {base feeBps : Int} (hbase : 0 ≤ base) (hfee : 0 ≤ feeBps) :
    0 ≤ (base * feeBps).tmod bpsDivisor ∧ (base * feeBps).tmod bpsDivisor < 10000 ∧
      (base * feeBps).tdiv bpsDivisor * 10000 + (base * feeBps).tmod bpsDivisor =
        base * feeBps := by
  have hprod : 0 ≤ base * feeBps := Int.mul_nonneg hbase hfee
  refine ⟨Int.tmod_nonneg _ hprod, Int.tmod_lt_of_pos _ (by decide), ?_⟩
  exact Int.tdiv_mul_add_tmod (base * feeBps) bpsDivisor

/-- `computeReleaseFee` returns what `release_funds` computes, and pays for every trade with this
amount and fee. -/
def ReleaseMirrored (amount : Int) (feeBps : Nat) (calculatedAt : String) : Prop :=
  ∃ b sellerAmount fee, computeReleaseFee amount feeBps calculatedAt = .ok b ∧
    releaseSplit amount feeBps = .ok (sellerAmount, fee) ∧
    b.Mirrors amount feeBps ⟨sellerAmount, 0, fee⟩ ∧
    ∀ env k caller s s' t, s.trades.get k = some t → t.amount = amount → getFeeBps s = feeBps →
      releaseFunds env k caller s = .ok s' → Releases s s' t sellerAmount fee

/-- `computeSplitFee` returns what `settle_dispute` computes, and pays for every trade with this
amount, fee and share of a loss. -/
def RulingMirrored (amount : Int) (feeBps sellerGetsBps sellerLossBps : Nat)
    (calculatedAt : String) : Prop :=
  ∃ b split, computeSplitFee amount feeBps calculatedAt sellerGetsBps sellerLossBps = .ok b ∧
    disputeSplit amount sellerGetsBps sellerLossBps feeBps = .ok split ∧
    b.Mirrors amount feeBps split ∧
    ∀ env k mediator s s' t, s.trades.get k = some t → t.amount = amount →
      t.sellerLossBps = sellerLossBps → getFeeBps s = feeBps →
        settleDispute env k sellerGetsBps mediator s = .ok s' → Settles s s' t split

theorem releaseMirrored {amount : Int} {feeBps : Nat} (calculatedAt : String) (lo : 0 < amount)
    (hi : amount ≤ maxTradeValue) (rate : feeBps ≤ 10000) :
    ReleaseMirrored amount feeBps calculatedAt := by
  have hrange : amount ≤ I128.maxValue := hi.trans (by decide)
  have hrate : 0 ≤ (feeBps : Int) := by omega
  obtain ⟨⟨sellerAmount, fee⟩, hsplit⟩ := isOk_iff.1 (Escrow.releaseSplit_isOk lo.le hi rate)
  obtain ⟨rfl, rfl⟩ := Escrow.releaseSplit_exact hsplit lo.le hrange
  obtain ⟨hdust, hdust', hwhole⟩ := feeDust_bounds lo.le hrate
  refine ⟨_, _, _, computeReleaseFee_eq amount hrate calculatedAt, hsplit, ?_, ?_⟩
  · refine ⟨rfl, rfl, rfl, rfl, ?_, _, rfl, hdust, hdust', ?_⟩
    · dsimp only
      omega
    · rw [Int.sub_zero]
      exact hwhole
  · rintro env k caller s s' t stored rfl hfee h
    obtain ⟨t', sellerAmount, fee, stored', hsplit', hpaid, haccrued⟩ := Escrow.releaseFunds_pays h
    obtain rfl := Option.some.inj (stored.symm.trans stored')
    rw [hfee, hsplit] at hsplit'
    cases hsplit'
    exact ⟨hpaid, haccrued⟩

theorem rulingMirrored {amount : Int} {feeBps sellerGetsBps sellerLossBps : Nat}
    (calculatedAt : String) (lo : 0 < amount) (hi : amount ≤ maxTradeValue)
    (rate : feeBps ≤ 10000) (ruling : sellerGetsBps ≤ 10000) (losses : sellerLossBps ≤ 10000) :
    RulingMirrored amount feeBps sellerGetsBps sellerLossBps calculatedAt := by
  have hrange : amount ≤ I128.maxValue := hi.trans (by decide)
  have hrate : 0 ≤ (feeBps : Int) := by omega
  obtain ⟨split, hsplit⟩ := isOk_iff.1 (Escrow.disputeSplit_isOk lo.le hi rate losses ruling)
  obtain ⟨hrefund, hfee, hnet⟩ := Escrow.disputeSplit_exact hsplit ruling lo.le hrange
  obtain ⟨⟨hseller, -, hpos⟩, hwhole⟩ := Escrow.disputeSplit_eq_ok hsplit lo.le hrange
  have hbase : 0 ≤ amount - split.buyerRefund := by omega
  obtain ⟨hdust, hdust', hexact⟩ := feeDust_bounds hbase hrate
  refine ⟨_, split, computeSplitFee_eq amount hrate calculatedAt _ _ hrefund, hsplit, ?_, ?_⟩
  · refine ⟨rfl, congrArg toString hfee.symm, ?_, rfl, hwhole, _, rfl, hdust, hdust', ?_⟩
    · rw [hnet, hfee]
      rfl
    · rw [hfee]
      exact hexact
  · rintro env k mediator s s' t stored rfl rfl hrate h
    obtain ⟨t', split', tokens, stored', hsplit', hseller, hbuyer, haccrued⟩ :=
      Escrow.settleDispute_pays h
    obtain rfl := Option.some.inj (stored.symm.trans stored')
    rw [hrate, hsplit] at hsplit'
    cases hsplit'
    exact ⟨tokens, hseller, hbuyer, haccrued⟩

/-- For every amount up to the cap and all rates up to 100%, the forecasts of a release and of a
ruling are what the contract pays out. -/
theorem fees_mirror_chain {amount : Int} {feeBps sellerGetsBps sellerLossBps : Nat}
    (calculatedAt : String) (lo : 0 < amount) (hi : amount ≤ maxTradeValue)
    (rate : feeBps ≤ 10000) (ruling : sellerGetsBps ≤ 10000) (losses : sellerLossBps ≤ 10000) :
    ReleaseMirrored amount feeBps calculatedAt ∧
      RulingMirrored amount feeBps sellerGetsBps sellerLossBps calculatedAt :=
  ⟨releaseMirrored calculatedAt lo hi rate, rulingMirrored calculatedAt lo hi rate ruling losses⟩

theorem fees_mirror_chain_third :
    ReleaseMirrored 1001 100 "" ∧ RulingMirrored 1001 100 3333 5000 "" :=
  fees_mirror_chain "" (by decide) (by decide) (by decide) (by decide) (by decide)

/-! ## Shortcuts -/

/-- The fee, the part of the seller and the refund, as texts. -/
def FeeBreakdown.payouts (b : FeeBreakdown) : String × String × String :=
  (b.fee, b.sellerNet, b.buyerRefund)

/-- What the shortcut says is what a ruling computes, in the forecast and on chain. -/
def Shortens (shortcut : FeeBreakdown) (amount : Int) (feeBps sellerGetsBps sellerLossBps : Nat) :
    Prop :=
  (computeSplitFee amount feeBps shortcut.calculatedAt sellerGetsBps sellerLossBps).map
      FeeBreakdown.payouts = .ok shortcut.payouts ∧
    (0 ≤ amount → amount ≤ I128.maxValue →
      ∀ split, disputeSplit amount sellerGetsBps sellerLossBps feeBps = .ok split →
        (toString split.fee, toString split.sellerNet, toString split.buyerRefund) =
          shortcut.payouts)

/-- Both shortcuts are right. -/
def FullWins (amount : Int) (feeBps sellerLossBps : Nat) (calculatedAt : String) : Prop :=
  (∃ b, computeFullSellerFee amount feeBps calculatedAt = .ok b ∧
    Shortens b amount feeBps 10000 sellerLossBps) ∧
  Shortens (computeFullBuyerFee amount feeBps calculatedAt) amount feeBps 0 sellerLossBps

/-- A ruling is computed as on chain, so that comparing the shortcut with one of them is enough. -/
theorem shortens_iff {shortcut : FeeBreakdown} {amount : Int}
    {feeBps sellerGetsBps sellerLossBps : Nat} (ruling : sellerGetsBps ≤ 10000) :
    Shortens shortcut amount feeBps sellerGetsBps sellerLossBps ↔
      (computeSplitFee amount feeBps shortcut.calculatedAt sellerGetsBps sellerLossBps).map
        FeeBreakdown.payouts = .ok shortcut.payouts := by
  refine ⟨And.left, fun h => ⟨h, fun lo hi split hsplit => ?_⟩⟩
  obtain ⟨hrefund, hfee, hnet⟩ := Escrow.disputeSplit_exact hsplit ruling lo hi
  rw [computeSplitFee_eq amount (by omega) _ _ _ hrefund] at h
  rw [hnet, hfee]
  exact Except.ok.inj h

/-- The buyer gets everything back only if the seller bears the whole loss. -/
theorem full_loss_iff {amount : Int} {sellerLossBps : Nat} (losses : sellerLossBps ≤ 10000) :
    (amount * (bpsDivisor - (0 : Nat)) * sellerLossBps).tdiv (bpsDivisor * bpsDivisor) = amount ↔
      amount = 0 ∨ sellerLossBps = 10000 := by
  have hcancel : (amount * (bpsDivisor - (0 : Nat)) * sellerLossBps).tdiv
      (bpsDivisor * bpsDivisor) = (amount * sellerLossBps).tdiv bpsDivisor := by
    have hproduct : amount * (bpsDivisor - (0 : Nat)) * sellerLossBps =
        bpsDivisor * (amount * sellerLossBps) := by
      rw [Nat.cast_zero, Int.sub_zero]
      ring
    rw [hproduct]
    exact Int.mul_tdiv_mul_of_pos _ _ (by decide)
  rw [hcancel]
  constructor
  · intro h
    by_contra hnot
    push Not at hnot
    obtain ⟨hamount, hloss⟩ := hnot
    have habs : amount.natAbs * sellerLossBps / 10000 = amount.natAbs := by
      have hdiv := congrArg Int.natAbs h
      rwa [Int.natAbs_tdiv, Int.natAbs_mul, Int.natAbs_natCast] at hdiv
    have hle : amount.natAbs * 10000 ≤ amount.natAbs * sellerLossBps :=
      (Nat.le_div_iff_mul_le (by decide)).1 habs.ge
    have := Nat.le_of_mul_le_mul_left hle (Int.natAbs_pos.2 hamount)
    omega
  · rintro (rfl | rfl)
    · rw [Int.zero_mul]
      rfl
    · exact Int.mul_tdiv_cancel _ (by decide)

theorem fullSeller_shortens (amount : Int) (feeBps sellerLossBps : Nat) (calculatedAt : String) :
    ∃ b, computeFullSellerFee amount feeBps calculatedAt = .ok b ∧
      Shortens b amount feeBps 10000 sellerLossBps := by
  have hnone : (0 : Int) = (amount * (bpsDivisor - (10000 : Nat)) * sellerLossBps).tdiv
      (bpsDivisor * bpsDivisor) := by
    have hrate : bpsDivisor - (10000 : Nat) = 0 := by decide
    rw [hrate, Int.mul_zero, Int.zero_mul]
    rfl
  refine ⟨_, computeFullSellerFee_eq amount (by omega) calculatedAt, ?_⟩
  rw [shortens_iff (by decide), computeSplitFee_eq amount (by omega) _ _ _ hnone, Int.sub_zero]
  rfl

theorem fullBuyer_shortens_iff {amount : Int} {feeBps sellerLossBps : Nat} {calculatedAt : String}
    (losses : sellerLossBps ≤ 10000) :
    Shortens (computeFullBuyerFee amount feeBps calculatedAt) amount feeBps 0 sellerLossBps ↔
      amount = 0 ∨ sellerLossBps = 10000 := by
  rw [shortens_iff (by decide), computeSplitFee_eq amount (by omega) _ _ _ rfl,
    ← full_loss_iff losses]
  generalize (amount * (bpsDivisor - (0 : Nat)) * sellerLossBps).tdiv
    (bpsDivisor * bpsDivisor) = loss
  constructor
  · intro h
    have hrefund := congrArg (fun p => p.2.2) (Except.ok.inj h)
    exact Int.repr_inj.1 hrefund
  · rintro rfl
    show Except.ok (toString _, toString _, toString _) = _
    rw [Int.sub_self, Int.zero_mul]
    rfl

/-- The shortcuts leave out how the parties share a loss: they are right exactly when nothing is at
stake or the seller bears all of it. -/
theorem full_wins_iff {amount : Int} {feeBps sellerLossBps : Nat} {calculatedAt : String}
    (losses : sellerLossBps ≤ 10000) :
    FullWins amount feeBps sellerLossBps calculatedAt ↔ amount = 0 ∨ sellerLossBps = 10000 := by
  rw [FullWins, fullBuyer_shortens_iff losses]
  exact and_iff_right (fullSeller_shortens amount feeBps sellerLossBps calculatedAt)

theorem full_wins_iff_half : FullWins 1000 100 5000 "" ↔ (1000 : Int) = 0 ∨ 5000 = 10000 :=
  full_wins_iff (by decide)

/-- Of 1000 the chain pays 500 back when the parties share a loss equally. -/
theorem not_fullWins_of_shared_loss : ¬ FullWins 1000 100 5000 "" := by
  rintro ⟨-, -, hchain⟩
  have hsplit : disputeSplit 1000 0 5000 100 = .ok ⟨495, 500, 5⟩ := by decide
  exact absurd (hchain (by decide) (by decide) _ hsplit) (by decide)

end Amana.Backend
