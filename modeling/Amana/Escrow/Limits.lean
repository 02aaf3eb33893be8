import Amana.Escrow.Funding

/-!
# Bounded amounts

`create_trade` caps the amount of a trade at `MAX_TRADE_VALUE`, small enough for the products of the
payout arithmetic to stay in the range of `i128`.  Every later change of an amount lowers it, but
for `finalize_path_payment`, which credits the trade with whatever arrived and does not look at the
cap.  So all trades that hold escrow are within the cap, and can be paid out, exactly as long as no
path payment of a larger sum is finalized (`allPayable_iff_withinLimit`).
-/

namespace Amana.Escrow

open Lib

variable {env : Env} {s s' : State} {a : Action} {c : Call} {k : Nat} {t t' : Trade}

/-- The payout arithmetic of `release_funds`, with its assertions. -/
def releaseSplit (amount : Int) (feeBps : Nat) : Outcome (Int × Int) := do
  let feeAmount ← checkedFeeAmount amount feeBps
  let sellerAmount := I128.sub amount feeAmount
  assert (I128.add sellerAmount feeAmount = amount)
    "release_funds: cNGN conservation invariant violated"
  assert (sellerAmount ≥ 0) "seller_amount must be non-negative"
  assert (feeAmount ≥ 0) "fee_amount must be non-negative"
  return (sellerAmount, feeAmount)

/-- `release_funds` does its arithmetic first and then pays. -/
theorem releaseFunds_eq (env : Env) (k : Nat) (caller : Address) (s : State) :
    releaseFunds env k caller s = (do
      assertNotPaused s
      let trade ← loadTrade s k
      assert (trade.status = .delivered) "Trade must be delivered"
      requireAuth env caller
      let admin ← loadAdmin s "Not initialized"
      assert (caller = trade.buyer ∨ caller = admin) "Unauthorized caller"
      let (sellerAmount, feeAmount) ← releaseSplit trade.amount (getFeeBps s)
      let s ← tokenTransfer s trade.token currentContract trade.seller sellerAmount
      let s := accrueFee s feeAmount
      let trade := { trade with status := .completed, updatedAt := env.timestamp }
      let s := saveTrade s k trade
      let s := updateReleaseSequence env s trade fun sequence now =>
        { sequence with releasedAt := some now }
      let s := recordTradeEvent env s k "released" caller "funds released to seller"
      return publish s (.fundsReleased k sellerAmount feeAmount)) := by
  simp only [releaseFunds, releaseSplit, bind_assoc, pure_bind]

/-- The trade is within the cap, the rates it is paid out at are at most 100%, and at such rates no
check of its release or its settlement fails. -/
structure Trade.Payable (s : State) (t : Trade) : Prop where
  bounds : 0 < t.amount ∧ t.amount ≤ maxTradeValue
  rates : getFeeBps s ≤ 10000 ∧ t.sellerLossBps ≤ 10000
  release : ∀ feeBps, feeBps ≤ 10000 → (releaseSplit t.amount feeBps).isOk = true
  settlement : ∀ feeBps lossBps sellerGetsBps, feeBps ≤ 10000 → lossBps ≤ 10000 →
    sellerGetsBps ≤ 10000 → (disputeSplit t.amount sellerGetsBps lossBps feeBps).isOk = true

/-- Every trade that holds escrow can be paid out. -/
def AllPayable (s : State) : Prop :=
  ∀ k t, s.trades.get k = some t → t.status.live = true → t.Payable s

/-- If the action finalizes a path payment, what arrived is within the cap. -/
def WithinLimit (s : State) : Action → Prop
  | .call env (.finalizePathPayment k caller) =>
    (invoke env s (.finalizePathPayment k caller)).isOk = true →
      ∀ intent ∈ s.pathPaymentIntent.get k, ∀ trade ∈ s.trades.get k,
        s.tokens.balance trade.token currentContract - intent.cngnBalanceBefore ≤ maxTradeValue
  | _ => True

/-! ## The arithmetic within the cap -/

/-- A product that is within the range, divided by at least one of its factors. -/
theorem tdiv_bounds {x y d : Int} (hx : 0 ≤ x) (hy : 0 ≤ y) (hd : 0 < d) (hyd : y ≤ d) :
    0 ≤ (x * y).tdiv d ∧ (x * y).tdiv d ≤ x := by
  have hprod : 0 ≤ x * y := Int.mul_nonneg hx hy
  refine ⟨Int.tdiv_nonneg hprod hd.le, ?_⟩
  rw [Int.tdiv_eq_ediv_of_nonneg hprod]
  exact Int.ediv_le_of_le_mul hd (Int.mul_le_mul_of_nonneg_left hyd hx)

theorem checkedFeeAmount_isOk {amount : Int} {feeBps : Nat} (lo : 0 ≤ amount)
    (hi : amount ≤ maxTradeValue) (hfee : feeBps ≤ 10000) :
    ∃ fee, checkedFeeAmount amount feeBps = .ok fee ∧ 0 ≤ fee ∧ fee ≤ amount := by
  have hfee' : (feeBps : Int) ≤ 10000 := by omega
  have hprod : amount * feeBps ≤ 10 ^ 12 * 10000 := by
    refine mul_le_mul (hi.trans ?_) hfee' (by omega) (by norm_num)
    decide
  have hnonneg : 0 ≤ amount * (feeBps : Int) := Int.mul_nonneg lo (by omega)
  have hchecked : I128.checkedMul amount feeBps = some (amount * feeBps) :=
    I128.checked_eq_some_iff.2 ⟨⟨by unfold I128.minValue; omega, by unfold I128.maxValue; omega⟩,
      rfl⟩
  obtain ⟨hpos, hle⟩ := tdiv_bounds (y := (feeBps : Int)) (d := bpsDivisor) lo (by omega)
    (by decide) hfee'
  refine ⟨_, ?_, hpos, hle⟩
  rw [checkedFeeAmount, hchecked]
  rfl

/-- The range of `i128` has room for the cap. -/
theorem sub_within {x y : Int} (hx : x ≤ maxTradeValue) (hy : 0 ≤ y) (hyx : y ≤ x) :
    I128.sub x y = x - y := by
  have hcap : maxTradeValue ≤ I128.maxValue := by decide
  exact I128.sub_of_nonneg (by omega) (by omega) hy (by omega)

theorem add_within {x y : Int} (hx : 0 ≤ x) (hy : 0 ≤ y) (hxy : x + y ≤ maxTradeValue) :
    I128.add x y = x + y := by
  have hcap : maxTradeValue ≤ I128.maxValue := by decide
  have hmin : I128.minValue ≤ 0 := by decide
  exact I128.add_of_mem (by omega) (by omega)

theorem releaseSplit_isOk {amount : Int} {feeBps : Nat} (lo : 0 ≤ amount)
    (hi : amount ≤ maxTradeValue) (hfee : feeBps ≤ 10000) :
    (releaseSplit amount feeBps).isOk = true := by
  obtain ⟨fee, hok, hpos, hle⟩ := checkedFeeAmount_isOk lo hi hfee
  have hseller : I128.sub amount fee = amount - fee := sub_within hi hpos hle
  have hwhole : I128.add (amount - fee) fee = amount := by
    rw [add_within (by omega) hpos (by omega)]
    omega
  refine isOk_iff.2 ⟨(I128.sub amount fee, fee), ?_⟩
  simp only [releaseSplit, bind_eq_ok, assert_eq_ok, pure_eq_ok, exists_const]
  refine ⟨fee, hok, ?_, ?_, hpos, rfl⟩
  · rw [hseller, hwhole]
  · rw [hseller]
    omega

theorem checkedLossAmount_isOk {total : Int} {lossBps : Int} {sellerLossBps : Nat}
    (lo : 0 ≤ total) (hi : total ≤ maxTradeValue) (hloss : 0 ≤ lossBps ∧ lossBps ≤ 10000)
    (hseller : sellerLossBps ≤ 10000) :
    ∃ loss, checkedLossAmount total lossBps sellerLossBps = .ok loss ∧ 0 ≤ loss ∧ loss ≤ total := by
  have hseller' : (sellerLossBps : Int) ≤ 10000 := by omega
  have hcap : maxTradeValue ≤ 10 ^ 12 := by decide
  have hfirst : 0 ≤ total * lossBps ∧ total * lossBps ≤ 10 ^ 12 * 10000 :=
    ⟨Int.mul_nonneg lo hloss.1, mul_le_mul (hi.trans hcap) hloss.2 hloss.1 (by norm_num)⟩
  have hsecond : 0 ≤ total * lossBps * sellerLossBps ∧
      total * lossBps * sellerLossBps ≤ 10 ^ 12 * 10000 * 10000 :=
    ⟨Int.mul_nonneg hfirst.1 (by omega), mul_le_mul hfirst.2 hseller' (by omega) (by norm_num)⟩
  have hmul : I128.checkedMul total lossBps = some (total * lossBps) :=
    I128.checked_eq_some_iff.2 ⟨⟨by unfold I128.minValue; omega, by unfold I128.maxValue; omega⟩,
      rfl⟩
  have hmul' : I128.checkedMul (total * lossBps) sellerLossBps =
      some (total * lossBps * sellerLossBps) :=
    I128.checked_eq_some_iff.2 ⟨⟨by unfold I128.minValue; omega, by unfold I128.maxValue; omega⟩,
      rfl⟩
  have hrate : lossBps * (sellerLossBps : Int) ≤ bpsDivisor * bpsDivisor :=
    mul_le_mul hloss.2 hseller' (by omega) (by decide)
  obtain ⟨hpos, hle⟩ := tdiv_bounds (d := bpsDivisor * bpsDivisor) lo
    (Int.mul_nonneg hloss.1 (Int.natCast_nonneg sellerLossBps)) (by decide) hrate
  rw [← Int.mul_assoc] at hpos hle
  refine ⟨_, ?_, hpos, hle⟩
  simp only [checkedLossAmount, hmul]
  show (do
    let product ← expect (I128.checkedMul (total * lossBps) sellerLossBps)
      (Failure.panic "loss sharing calculation overflow")
    pure (product.tdiv (bpsDivisor * bpsDivisor)) : Outcome Int) = _
  rw [hmul']
  rfl

theorem disputeSplit_isOk {total : Int} {bps lossBps feeBps : Nat} (lo : 0 ≤ total)
    (hi : total ≤ maxTradeValue) (hfee : feeBps ≤ 10000) (hloss : lossBps ≤ 10000)
    (hbps : bps ≤ 10000) : (disputeSplit total bps lossBps feeBps).isOk = true := by
  have hrate : I128.sub bpsDivisor bps = 10000 - (bps : Int) :=
    sub_within (x := bpsDivisor) (by decide) (by omega) (by unfold bpsDivisor; omega)
  obtain ⟨loss, hlossOk, hlossPos, hlossLe⟩ : ∃ loss,
      checkedLossAmount total (10000 - (bps : Int)) lossBps = .ok loss ∧ 0 ≤ loss ∧ loss ≤ total :=
    checkedLossAmount_isOk lo hi ⟨by omega, by omega⟩ hloss
  have hraw : I128.sub total loss = total - loss := sub_within hi hlossPos hlossLe
  have hrefund : I128.sub total (total - loss) = loss := by
    rw [sub_within hi (by omega) (by omega)]
    omega
  obtain ⟨fee, hfeeOk, hfeePos, hfeeLe⟩ : ∃ fee,
      checkedFeeAmount (total - loss) feeBps = .ok fee ∧ 0 ≤ fee ∧ fee ≤ total - loss :=
    checkedFeeAmount_isOk (by omega) (by omega) hfee
  have hnet : I128.sub (total - loss) fee = total - loss - fee :=
    sub_within (by omega) hfeePos hfeeLe
  have hwhole : I128.add (I128.add (total - loss - fee) loss) fee = total := by
    rw [add_within (by omega) hlossPos (by omega), add_within (by omega) hfeePos (by omega)]
    omega
  refine isOk_iff.2 ⟨⟨total - loss - fee, loss, fee⟩, ?_⟩
  simp only [disputeSplit, hrate, bind_eq_ok, assert_eq_ok, pure_eq_ok, exists_const]
  refine ⟨loss, hlossOk, fee, ?_⟩
  rw [hraw, hrefund, hnet]
  exact ⟨hfeeOk, by omega, hlossPos, hfeePos, hwhole, rfl⟩

/-! ## What a payout consists of -/

theorem checkedFeeAmount_exact {amount fee : Int} {feeBps : Nat}
    (h : checkedFeeAmount amount feeBps = .ok fee) : fee = (amount * feeBps).tdiv bpsDivisor := by
  simp only [checkedFeeAmount, bind_eq_ok, expect_eq_ok, I128.checkedMul,
    I128.checked_eq_some_iff, pure_eq_ok] at h
  obtain ⟨_, ⟨-, rfl⟩, rfl⟩ := h
  rfl

theorem checkedLossAmount_exact {total lossBps loss : Int} {sellerLossBps : Nat}
    (h : checkedLossAmount total lossBps sellerLossBps = .ok loss) :
    loss = (total * lossBps * sellerLossBps).tdiv (bpsDivisor * bpsDivisor) := by
  simp only [checkedLossAmount, bind_eq_ok, expect_eq_ok, I128.checkedMul,
    I128.checked_eq_some_iff, pure_eq_ok] at h
  obtain ⟨_, ⟨-, rfl⟩, _, ⟨-, rfl⟩, rfl⟩ := h
  rfl

theorem releaseSplit_exact {amount sellerAmount fee : Int} {feeBps : Nat}
    (h : releaseSplit amount feeBps = .ok (sellerAmount, fee)) (lo : 0 ≤ amount)
    (hi : amount ≤ I128.maxValue) :
    fee = (amount * feeBps).tdiv bpsDivisor ∧ sellerAmount = amount - fee := by
  simp only [releaseSplit, bind_eq_ok, assert_eq_ok, pure_eq_ok, exists_const, Prod.mk.injEq] at h
  obtain ⟨_, hfee, -, hseller, hpos, rfl, rfl⟩ := h
  exact ⟨checkedFeeAmount_exact hfee, (release_arithmetic hfee lo hi hseller hpos).1⟩

theorem disputeSplit_exact {total : Int} {bps lossBps feeBps : Nat} {split : Split}
    (h : disputeSplit total bps lossBps feeBps = .ok split) (ruling : bps ≤ 10000)
    (lo : 0 ≤ total) (hi : total ≤ I128.maxValue) :
    split.buyerRefund =
        (total * (bpsDivisor - bps) * lossBps).tdiv (bpsDivisor * bpsDivisor) ∧
      split.fee = ((total - split.buyerRefund) * feeBps).tdiv bpsDivisor ∧
      split.sellerNet = total - split.buyerRefund - split.fee := by
  obtain ⟨⟨-, hrefund, -⟩, hwhole⟩ := disputeSplit_eq_ok h lo hi
  simp only [disputeSplit, bind_eq_ok, assert_eq_ok, pure_eq_ok, exists_const] at h
  obtain ⟨loss, hloss, fee, hfee, -, -, -, -, rfl⟩ := h
  dsimp only at hrefund hwhole ⊢
  obtain ⟨hlo, hhi⟩ := checkedLossAmount_eq_ok hloss
  rw [I128.sub_sub_cancel hlo hhi] at hrefund hwhole ⊢
  have hrate : I128.sub bpsDivisor bps = bpsDivisor - (bps : Int) :=
    sub_within (x := bpsDivisor) (by decide) (by omega) (by unfold bpsDivisor; omega)
  have hraw : I128.sub total loss = total - loss := I128.sub_of_nonneg lo hi hrefund hhi
  rw [hrate] at hloss
  rw [hraw] at hfee hwhole ⊢
  exact ⟨checkedLossAmount_exact hloss, checkedFeeAmount_exact hfee, by omega⟩

/-- What a release pays to the seller and keeps as a fee. -/
theorem releaseFunds_pays {caller : Address} (h : releaseFunds env k caller s = .ok s') :
    ∃ (t : Trade) (sellerAmount fee : Int), s.trades.get k = some t ∧
      releaseSplit t.amount (getFeeBps s) = .ok (sellerAmount, fee) ∧
      Token.transfer s.tokens ⟨t.token, currentContract, t.seller, sellerAmount⟩ =
        some s'.tokens ∧
      s'.accruedFees = feesWith s.accruedFees fee := by
  simp only [releaseFunds_eq, bind_eq_ok, assertNotPaused_eq_ok, loadTrade_eq_ok, assert_eq_ok,
    requireAuth_eq_ok, loadAdmin_eq_ok, tokenTransfer_eq_ok, pure_eq_ok, exists_const] at h
  obtain ⟨-, t, stored, -, -, _, -, -, ⟨sellerAmount, fee⟩, hsplit, _, ⟨tokens, hpaid, rfl⟩,
    rfl⟩ := h
  exact ⟨t, sellerAmount, fee, stored, hsplit, hpaid, rfl⟩

/-- What a settlement pays to both parties and keeps as a fee. -/
theorem settleDispute_pays {bps : Nat} {mediator : Address}
    (h : settleDispute env k bps mediator s = .ok s') :
    ∃ (t : Trade) (split : Split) (tokens : Token.Ledger Address), s.trades.get k = some t ∧
      disputeSplit t.amount bps t.sellerLossBps (getFeeBps s) = .ok split ∧
      Token.pay s.tokens ⟨t.token, currentContract, t.seller, split.sellerNet⟩ = some tokens ∧
      Token.pay tokens ⟨t.token, currentContract, t.buyer, split.buyerRefund⟩ =
        some s'.tokens ∧
      s'.accruedFees = feesWith s.accruedFees split.fee := by
  simp only [settleDispute, bind_eq_ok, loadTrade_eq_ok, assert_eq_ok, payOut_eq_ok, pure_eq_ok,
    exists_const] at h
  obtain ⟨t, stored, -, split, hsplit, _, ⟨tokens, hseller, rfl⟩, _, ⟨_, hbuyer, rfl⟩, rfl⟩ := h
  exact ⟨t, split, tokens, stored, hsplit, hseller, hbuyer, rfl⟩

/-! ## Steps -/

/-- How a call left trade `k` with the amount of `t'`. -/
inductive Amount (s : State) (c : Call) (k : Nat) (t' : Trade) : Prop
  /-- The record was there before. -/
  | same (stored : s.trades.get k = some t')
  /-- The trade was just created. -/
  | created (status : t'.status = .created) (cap : t'.amount ≤ maxTradeValue)
      (losses : t'.sellerLossBps ≤ 10000)
  /-- The amount of an open trade stayed or was lowered. -/
  | lower (t : Trade) (stored : s.trades.get k = some t) (wasOpen : t.status.closed = false)
      (early : t'.status = .created → t.status = .created)
      (losses : t'.sellerLossBps = t.sellerLossBps) (amount : t'.amount ≤ t.amount)
  /-- A path payment was finalized. -/
  | converted (t : Trade) (caller : Address) (intent : PathPaymentIntent)
      (call : c = .finalizePathPayment k caller) (stored : s.trades.get k = some t)
      (pending : s.pathPaymentIntent.get k = some intent) (status : t'.status = .funded)
      (losses : t'.sellerLossBps = t.sellerLossBps)
      (amount : t'.amount =
        s.tokens.balance t.token currentContract - intent.cngnBalanceBefore)

/-- A record replaced by one with the same terms and amount. -/
theorem Amount.of_set {k₀ : Nat} {t₀ t₁ : Trade} (h : (s.trades.set k₀ t₁).get k = some t')
    (stored : s.trades.get k₀ = some t₀) (wasOpen : t₀.status.closed = false)
    (early : t₁.status = .created → t₀.status = .created)
    (losses : t₁.sellerLossBps = t₀.sellerLossBps) (amount : t₁.amount ≤ t₀.amount) :
    Amount s c k t' := by
  obtain ⟨rfl, rfl⟩ | ⟨-, h⟩ := Store.get_set_cases h
  · exact .lower t₀ stored wasOpen early losses amount
  · exact .same h

theorem Effect.amount {b' : Books} (h : Effect env s c b') (stored' : b'.trades.get k = some t') :
    Amount s c k t' := by
  cases h with
  | idle _ | withdraw _ _ _ => exact .same stored'
  | create _ _ status amount _ _ _ losses _ _ _ =>
    obtain ⟨-, rfl⟩ | ⟨-, stored⟩ := Store.get_set_cases stored'
    · exact .created status amount.2 (by omega)
    · exact .same stored
  | deposit stored status _ =>
    exact .of_set stored' stored (by rw [status]; rfl) (fun _ => status) rfl le_rfl
  | openPath stored status _ _ _ =>
    exact .of_set stored' stored (by rw [status]; rfl) (fun _ => status) rfl le_rfl
  | finalizePath stored status pending _ _ =>
    obtain ⟨rfl, rfl⟩ | ⟨-, stored⟩ := Store.get_set_cases stored'
    · exact .converted _ _ _ rfl stored pending rfl rfl rfl
    · exact .same stored
  | drop _ stored status =>
    exact .of_set stored' stored (by rw [status]; rfl) (fun _ => status) rfl le_rfl
  | request stored status =>
    exact .of_set stored' stored (by rw [status]; rfl) id rfl le_rfl
  | extend stored status _ _ _ _ _ =>
    exact .of_set stored' stored (by rw [status]; rfl) id rfl le_rfl
  | refund _ stored status _ =>
    refine .of_set stored' stored ?_ (fun e => by cases e) rfl le_rfl
    rcases status with e | e <;> rw [e] <;> rfl
  | deliver stored status =>
    exact .of_set stored' stored (by rw [status]; rfl) (fun e => by cases e) rfl le_rfl
  | dispute stored status =>
    exact .of_set stored' stored (by rw [status]; rfl) (fun e => by cases e) rfl le_rfl
  | release stored status _ _ =>
    exact .of_set stored' stored (by rw [status]; rfl) (fun e => by cases e) rfl le_rfl
  | settle _ stored status _ _ _ _ =>
    exact .of_set stored' stored (by rw [status]; rfl) (fun e => by cases e) rfl le_rfl
  | claw _ stored status bounds _ =>
    refine .of_set stored' stored ?_ (fun e => absurd e (Trade.clawed_not_created status)) rfl ?_
    · rcases status with e | e <;> rw [e] <;> rfl
    · show _ - _ ≤ _
      omega

/-- A step leaves the records, or is a call that changes amounts as it may. -/
theorem step_amount (wf : WellFormed s.toSettings s.toBooks)
    (stored' : (step s a).trades.get k = some t') :
    s.trades.get k = some t' ∨ ∃ env c, a = .call env c ∧ invoke env s c = .ok (step s a) ∧
      Amount s c k t' := by
  have hchange := step_change wf a
  generalize step s a = s' at hchange stored'
  cases hchange with
  | stay _ => exact .inl stored'
  | configure _ _ conf => exact .inl (by rw [conf.books] at stored'; exact stored')
  | outside _ _ => exact .inl stored'
  | effect ok effect _ _ => exact .inr ⟨_, _, rfl, ok, effect.amount stored'⟩

/-- What holds whatever is finalized: new trades are within the cap, and losses are shares. -/
structure Opened (s : State) : Prop where
  cap : ∀ k t, s.trades.get k = some t → t.status = .created → t.amount ≤ maxTradeValue
  losses : ∀ k t, s.trades.get k = some t → t.sellerLossBps ≤ 10000

theorem opened_step (wf : WellFormed s.toSettings s.toBooks) (h : Opened s) (a : Action) :
    Opened (step s a) := by
  refine ⟨fun k t' stored' hcreated => ?_, fun k t' stored' => ?_⟩
  · obtain stored | ⟨env, c, rfl, -, hamount⟩ := step_amount wf stored'
    · exact h.cap k t' stored hcreated
    · cases hamount with
      | same stored => exact h.cap k t' stored hcreated
      | created _ cap _ => exact cap
      | lower t stored _ early _ amount => exact amount.trans (h.cap k t stored (early hcreated))
      | converted _ _ _ _ _ _ status _ _ => cases status.symm.trans hcreated
  · obtain stored | ⟨env, c, rfl, -, hamount⟩ := step_amount wf stored'
    · exact h.losses k t' stored
    · cases hamount with
      | same stored => exact h.losses k t' stored
      | created _ _ losses => exact losses
      | lower t stored _ _ losses _ => exact losses ▸ h.losses k t stored
      | converted t _ _ _ stored _ _ losses _ => exact losses ▸ h.losses k t stored

theorem Trade.payable_of_bounds (sound : s.toSettings.Sound) (losses : t.sellerLossBps ≤ 10000)
    (lo : 0 < t.amount) (hi : t.amount ≤ maxTradeValue) : t.Payable s where
  bounds := ⟨lo, hi⟩
  rates := ⟨sound.feeBps, losses⟩
  release := fun _ hfee => releaseSplit_isOk lo.le hi hfee
  settlement := fun _ _ _ hfee hloss hbps => disputeSplit_isOk lo.le hi hfee hloss hbps

/-- A live trade of a well-formed state is payable when it is within the cap. -/
theorem allPayable_of_cap (wf : WellFormed s.toSettings s.toBooks) (opened : Opened s)
    (cap : ∀ k t, s.trades.get k = some t → t.status.live = true → t.amount ≤ maxTradeValue) :
    AllPayable s := by
  intro k t stored hlive
  refine Trade.payable_of_bounds wf.settings (opened.losses k t stored) ?_ (cap k t stored hlive)
  refine (wf.trade k t stored).positive (fun e => ?_) fun e => ?_
  · rw [e] at hlive
    cases hlive
  · rw [e] at hlive
    cases hlive

theorem allPayable_step (wf : WellFormed s.toSettings s.toBooks) (opened : Opened s)
    (h : AllPayable s) (clean : WithinLimit s a) : AllPayable (step s a) := by
  refine allPayable_of_cap (wellFormed_step wf a) (opened_step wf opened a)
    fun k t' stored' hlive => ?_
  obtain stored | ⟨env, c, rfl, ok, hamount⟩ := step_amount wf stored'
  · exact (h k t' stored hlive).bounds.2
  · cases hamount with
    | same stored => exact (h k t' stored hlive).bounds.2
    | created _ cap _ => exact cap
    | lower t stored wasOpen _ _ amount =>
      apply amount.trans
      by_cases hcreated : t.status = .created
      · exact opened.cap k t stored hcreated
      · have hlive : t.status.live = true := by
          cases hstatus : t.status <;> simp_all [TradeStatus.closed, TradeStatus.live]
        exact (h k t stored hlive).bounds.2
    | converted t caller intent call stored pending _ _ amount =>
      subst call
      rw [amount]
      exact clean (by rw [ok]; rfl) intent pending t stored

/-- A path payment above the cap leaves a trade that is not payable. -/
theorem withinLimit_of_payable (hafter : AllPayable (step s a)) : WithinLimit s a := by
  cases a with
  | transfer | mint | burn => trivial
  | call env c =>
    cases c with
    | finalizePathPayment k caller =>
      intro hok intent hpending trade hstored
      obtain ⟨s', ok⟩ := isOk_iff.1 hok
      rw [step_call_of_ok ok] at hafter
      obtain ⟨heffect, -⟩ := finalizePathPayment_effect ok
      obtain ⟨t, i, stored, -, pending, hbooks⟩ := heffect.of_finalize
      obtain rfl := Option.some.inj (stored.symm.trans hstored)
      obtain rfl := Option.some.inj (pending.symm.trans hpending)
      have hrecord := congrArg (fun b => b.trades.get k) hbooks
      exact (hafter k _ (hrecord.trans (Store.get_set_self ..)) rfl).bounds.2
    | _ => trivial

/-- In every state of a run all trades that hold escrow are within the cap and can be paid out,
exactly when every path payment the run finalizes is within the cap. -/
theorem allPayable_iff_withinLimit (tokens : Token.Ledger Address) (actions : List Action) :
    (∀ before, before <+: actions → AllPayable (run tokens before)) ↔
      ∀ p ∈ trail tokens actions, WithinLimit p.1 p.2 :=
  Machine.always_iff step (W := fun s => WellFormed s.toSettings s.toBooks ∧ Opened s) actions
    ⟨wellFormed_deployed tokens, fun _ _ ht => (by cases ht), fun _ _ ht => (by cases ht)⟩
    (fun _ _ ht => by cases ht)
    (fun _ a h => ⟨wellFormed_step h.1 a, opened_step h.1 h.2 a⟩)
    (fun _ _ h hpay hclean => allPayable_step h.1 h.2 hpay hclean)
    (fun _ _ _ _ hafter => withinLimit_of_payable hafter)

/-- A path payment by which more than the cap arrives funds a trade above the cap. -/
theorem not_allPayable_of_large_pathPayment :
    ¬ AllPayable (run Sample.tokens
      ([Sample.setup, Sample.create none,
        Sample.call 3 Sample.alice (.depositWithPath Sample.first Sample.alice 50 100 []),
        .mint Sample.cngn currentContract (maxTradeValue + 1)] ++ [Sample.finalize])) := by
  intro h
  obtain ⟨t, stored, hboth⟩ : ∃ t, (run Sample.tokens
      ([Sample.setup, Sample.create none,
        Sample.call 3 Sample.alice (.depositWithPath Sample.first Sample.alice 50 100 []),
        .mint Sample.cngn currentContract (maxTradeValue + 1)] ++
        [Sample.finalize])).trades.get Sample.first = some t ∧
          (t.status, t.amount) = (.funded, maxTradeValue + 1) :=
    Option.map_eq_some_iff.1 (by decide)
  obtain ⟨hfunded, hamount⟩ := Prod.mk.inj hboth
  have hcap := (h Sample.first t stored (by rw [hfunded]; rfl)).bounds.2
  omega

end Amana.Escrow
