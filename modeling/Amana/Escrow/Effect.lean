import Amana.Escrow.Contract

/-!
# What a call can do to the books

A successful call changes the books in one of fourteen ways, listed by `Effect`.  Calls that reach
the same change by different routes share a constructor: the two ways to drop an unfunded trade,
the three refunds, the three settlements and the two clawbacks.  `invoke_effect` is the only place
where the entrypoints are taken apart for the money and the trade records; every invariant of the
books is a case analysis on `Effect`.

The amounts in an `Effect` are exact: that no unchecked operator of a payout wraps is part of what
is proved here, from the stored amounts being non-negative `i128` values (`AmountsInRange`).
-/

namespace Amana.Escrow

open Lib

/-- Every stored amount is a non-negative `i128`. -/
def AmountsInRange (b : Books) : Prop :=
  ∀ k t, b.trades.get k = some t → 0 ≤ t.amount ∧ t.amount ≤ I128.maxValue

/-- The accrued fees after `fee` was added. -/
def feesWith (accrued : Option Int) (fee : Int) : Option Int :=
  if fee > 0 then some (I128.add (accrued.getD 0) fee) else accrued

/-- The trade after a clawback of `amount`. -/
def Trade.clawed (t : Trade) (amount : Int) (now : Nat) : Trade :=
  { t with
    amount := t.amount - amount
    status := if t.amount - amount = 0 then .cancelled else t.status
    updatedAt := now }

/-- The trade a queued operation claws back from. -/
def QueuedOperation.target (op : QueuedOperation) : Option Nat :=
  match op.payload with
  | .clawback op => some op.tradeId
  | .upgrade _ => none

/-- The trade whose record a call works on, in the given state. -/
def Call.subject (s : State) : Call → Option Nat
  | .deposit t => some t
  | .depositWithPath t _ _ _ _ => some t
  | .finalizePathPayment t _ => some t
  | .cancelTrade t _ => some t
  | .cancelByBuyer t => some t
  | .refund t => some t
  | .claimExpiryRefund t _ => some t
  | .extendDeadline t _ => some t
  | .confirmDelivery t => some t
  | .releaseFunds t _ => some t
  | .initiateDispute t _ _ => some t
  | .resolveDispute t _ _ => some t
  | .castDisputeVote t _ _ _ => some t
  | .resolveDisputeByFallback t _ => some t
  | .submitEvidence t _ _ _ => some t
  | .submitVideoProof t _ _ => some t
  | .submitManifest t _ _ _ => some t
  | .adminClawback t _ _ => some t
  | .executeClawback id => (s.timelockOperation.get id).bind QueuedOperation.target
  | _ => none

/-- Whether a call is one of the two clawbacks. -/
def Call.isClawback : Call → Bool
  | .adminClawback .. => true
  | .executeClawback .. => true
  | _ => false

/-- The two ways to drop an unfunded trade. -/
def Call.Drops (t : Nat) (c : Call) : Prop :=
  (∃ caller, c = .cancelTrade t caller) ∨ c = .cancelByBuyer t

/-- The three ways to refund the buyer. -/
def Call.Refunds (t : Nat) (c : Call) : Prop :=
  (∃ caller, c = .cancelTrade t caller) ∨ c = .refund t ∨ ∃ caller, c = .claimExpiryRefund t caller

/-- The three ways to settle a dispute. -/
def Call.Settles (t : Nat) (c : Call) : Prop :=
  (∃ mediator bps, c = .resolveDispute t mediator bps) ∨
    (∃ mediator bps rationale, c = .castDisputeVote t mediator bps rationale) ∨
    ∃ caller, c = .resolveDisputeByFallback t caller

/-- The two ways to claw back. -/
def Call.ClawsBack (s : State) (t : Nat) (amount : Int) (destination : Address) (c : Call) :
    Prop :=
  c = .adminClawback t amount destination ∨
    ∃ id op, c = .executeClawback id ∧ s.timelockOperation.get id = some op ∧
      op.payload = .clawback ⟨t, amount, destination⟩

/-- Whether a call creates a trade. -/
def Call.creates : Call → Bool
  | .createTrade .. => true
  | _ => false

/-- Whether a call can succeed and leave the books alone. -/
def Call.mayIdle : Call → Bool
  | .castDisputeVote .. | .submitEvidence .. | .submitVideoProof .. | .submitManifest ..
  | .queueClawback .. | .executeClawback .. | .cancelQueuedOperation .. | .queueUpgrade ..
  | .executeUpgrade .. => true
  | _ => false

/-- The changes of the books, by call. -/
inductive Effect (env : Env) (s : State) : Call → Books → Prop
  /-- Nothing in the books changes. -/
  | idle {c : Call} (quiet : c.mayIdle = true) : Effect env s c s.toBooks
  /-- A trade is created. -/
  | create {trade : Trade} {n : Nat}
      (counter : n = s.nextTradeId.getD 1)
      (tradeId : trade.tradeId = tradeIdOf env.sequence n)
      (status : trade.status = .created)
      (amount : 0 < trade.amount ∧ trade.amount ≤ maxTradeValue)
      (token : s.cngnContract = some trade.token)
      (buyer : trade.buyer ≠ currentContract)
      (parties : trade.buyer ≠ trade.seller)
      (losses : trade.buyerLossBps + trade.sellerLossBps = 10000)
      (times : trade.createdAt = env.timestamp ∧ trade.updatedAt = env.timestamp)
      (stamps : trade.fundedAt = none ∧ trade.deliveredAt = none)
      (deadline : ∀ d ∈ trade.expiresAt, env.timestamp < d) :
      Effect env s
        (.createTrade trade.buyer trade.seller trade.amount trade.buyerLossBps
          trade.sellerLossBps trade.expiresAt)
        { s.toBooks with
          nextTradeId := some (U64.add n 1)
          trades := s.trades.set trade.tradeId trade }
  /-- A created trade is funded by a direct deposit. -/
  | deposit {t : Nat} {trade : Trade} {tokens : Token.Ledger Address}
      (stored : s.trades.get t = some trade)
      (status : trade.status = .created)
      (paid : Token.transfer s.tokens ⟨trade.token, trade.buyer, currentContract, trade.amount⟩ =
        some tokens) :
      Effect env s (.deposit t)
        { s.toBooks with
          trades := s.trades.set t
            { trade with
              status := .funded, fundedAt := some env.timestamp, updatedAt := env.timestamp }
          tokens := tokens }
  /-- A path payment is opened on a created trade. -/
  | openPath {t : Nat} {trade : Trade} {source : Address} {sourceAmount destMin : Int}
      {path : List Address} {tokens : Token.Ledger Address}
      (stored : s.trades.get t = some trade)
      (status : trade.status = .created)
      (fresh : s.pathPaymentIntent.get t = none)
      (positive : 0 < destMin)
      (paid : Token.transfer s.tokens ⟨source, trade.buyer, currentContract, sourceAmount⟩ =
        some tokens) :
      Effect env s (.depositWithPath t trade.buyer sourceAmount destMin path)
        { s.toBooks with
          trades := s.trades.set t { trade with updatedAt := env.timestamp }
          pathPaymentIntent := s.pathPaymentIntent.set t
            { buyer := trade.buyer, sourceAmount, destMin, path
              cngnBalanceBefore := tokens.balance trade.token currentContract }
          tokens := tokens }
  /-- A path payment is finalized: the trade is credited with the balance delta. -/
  | finalizePath {t : Nat} {caller : Address} {trade : Trade} {intent : PathPaymentIntent}
      (stored : s.trades.get t = some trade)
      (status : trade.status = .created)
      (pending : s.pathPaymentIntent.get t = some intent)
      (enough : intent.destMin ≤
        s.tokens.balance trade.token currentContract - intent.cngnBalanceBefore)
      (small : s.tokens.balance trade.token currentContract - intent.cngnBalanceBefore ≤
        I128.maxValue) :
      Effect env s (.finalizePathPayment t caller)
        { s.toBooks with
          trades := s.trades.set t
            { trade with
              amount := s.tokens.balance trade.token currentContract - intent.cngnBalanceBefore
              status := .funded, fundedAt := some env.timestamp, updatedAt := env.timestamp }
          pathPaymentIntent := s.pathPaymentIntent.erase t }
  /-- An unfunded trade is cancelled. -/
  | drop {c : Call} {t : Nat} {trade : Trade}
      (route : c.Drops t)
      (stored : s.trades.get t = some trade)
      (status : trade.status = .created) :
      Effect env s c
        { s.toBooks with
          trades := s.trades.set t { trade with status := .cancelled, updatedAt := env.timestamp } }
  /-- One party asks to cancel a funded trade. -/
  | request {t : Nat} {caller : Address} {trade : Trade}
      (stored : s.trades.get t = some trade)
      (status : trade.status = .funded) :
      Effect env s (.cancelTrade t caller)
        { s.toBooks with trades := s.trades.set t { trade with updatedAt := env.timestamp } }
  /-- The escrow goes back to the buyer. -/
  | refund {c : Call} {t : Nat} {trade : Trade} {tokens : Token.Ledger Address}
      (route : c.Refunds t)
      (stored : s.trades.get t = some trade)
      (status : trade.status = .funded ∨ trade.status = .delivered)
      (paid : Token.pay s.tokens ⟨trade.token, currentContract, trade.buyer, trade.amount⟩ =
        some tokens) :
      Effect env s c
        { s.toBooks with
          trades := s.trades.set t { trade with status := .cancelled, updatedAt := env.timestamp }
          tokens := tokens }
  /-- The deadline of a funded trade moves. -/
  | extend {t newDeadline oldDeadline : Nat} {trade : Trade}
      (stored : s.trades.get t = some trade)
      (status : trade.status = .funded)
      (deadline : trade.expiresAt = some oldDeadline)
      (early : env.timestamp < oldDeadline)
      (later : oldDeadline < newDeadline)
      (count : getExtensionCount s t < (getExtensionPolicy s).maxExtensions)
      (total : newDeadline - (s.originalDeadline.get t).getD oldDeadline ≤
        (getExtensionPolicy s).maxTotalExtensionSecs) :
      Effect env s (.extendDeadline t newDeadline)
        { s.toBooks with
          trades := s.trades.set t
            { trade with expiresAt := some newDeadline, updatedAt := env.timestamp }
          extensionCount := s.extensionCount.set t (U32.add (getExtensionCount s t) 1)
          originalDeadline :=
            if getExtensionCount s t = 0 then
              s.originalDeadline.set t ((s.originalDeadline.get t).getD oldDeadline)
            else s.originalDeadline }
  /-- The buyer confirms delivery. -/
  | deliver {t : Nat} {trade : Trade}
      (stored : s.trades.get t = some trade)
      (status : trade.status = .funded) :
      Effect env s (.confirmDelivery t)
        { s.toBooks with
          trades := s.trades.set t
            { trade with
              status := .delivered, deliveredAt := some env.timestamp
              updatedAt := env.timestamp } }
  /-- A party disputes a funded trade. -/
  | dispute {t : Nat} {initiator : Address} {reason : String} {trade : Trade}
      (stored : s.trades.get t = some trade)
      (status : trade.status = .funded) :
      Effect env s (.initiateDispute t initiator reason)
        { s.toBooks with
          trades := s.trades.set t
            { trade with status := .disputed, updatedAt := env.timestamp } }
  /-- A delivered trade is released to the seller, less the fee. -/
  | release {t : Nat} {caller : Address} {trade : Trade} {fee : Int}
      {tokens : Token.Ledger Address}
      (stored : s.trades.get t = some trade)
      (status : trade.status = .delivered)
      (bounds : 0 ≤ fee ∧ fee ≤ trade.amount)
      (paid : Token.transfer s.tokens
        ⟨trade.token, currentContract, trade.seller, trade.amount - fee⟩ = some tokens) :
      Effect env s (.releaseFunds t caller)
        { s.toBooks with
          trades := s.trades.set t
            { trade with status := .completed, updatedAt := env.timestamp }
          accruedFees := feesWith s.accruedFees fee
          tokens := tokens }
  /-- A disputed trade is split between the parties, less the fee. -/
  | settle {c : Call} {t : Nat} {trade : Trade} {split : Split}
      {tokens₁ tokens₂ : Token.Ledger Address}
      (route : c.Settles t)
      (stored : s.trades.get t = some trade)
      (status : trade.status = .disputed)
      (bounds : 0 ≤ split.sellerNet ∧ 0 ≤ split.buyerRefund ∧ 0 ≤ split.fee)
      (whole : split.sellerNet + split.buyerRefund + split.fee = trade.amount)
      (paidSeller : Token.pay s.tokens
        ⟨trade.token, currentContract, trade.seller, split.sellerNet⟩ = some tokens₁)
      (paidBuyer : Token.pay tokens₁
        ⟨trade.token, currentContract, trade.buyer, split.buyerRefund⟩ = some tokens₂) :
      Effect env s c
        { s.toBooks with
          trades := s.trades.set t
            { trade with status := .completed, updatedAt := env.timestamp }
          accruedFees := feesWith s.accruedFees split.fee
          tokens := tokens₂ }
  /-- The admin claws back part or all of the escrow. -/
  | claw {c : Call} {t : Nat} {amount : Int} {destination : Address} {trade : Trade}
      {tokens : Token.Ledger Address}
      (route : c.ClawsBack s t amount destination)
      (stored : s.trades.get t = some trade)
      (status : trade.status = .funded ∨ trade.status = .disputed)
      (bounds : 0 < amount ∧ amount ≤ trade.amount)
      (paid : Token.transfer s.tokens ⟨trade.token, currentContract, destination, amount⟩ =
        some tokens) :
      Effect env s c
        { s.toBooks with
          trades := s.trades.set t (trade.clawed amount env.timestamp)
          clawbackTotal := s.clawbackTotal.set t (I128.add (getClawbackTotal s t) amount)
          tokens := tokens }
  /-- The admin withdraws accrued fees. -/
  | withdraw {amount : Int} {destination token : Address} {tokens : Token.Ledger Address}
      (bounds : 0 < amount ∧ amount ≤ getAccruedFees s)
      (settlement : s.cngnContract = some token)
      (paid : Token.transfer s.tokens ⟨token, currentContract, destination, amount⟩ =
        some tokens) :
      Effect env s (.withdrawFees amount destination)
        { s.toBooks with
          accruedFees := some (I128.sub (getAccruedFees s) amount)
          tokens := tokens }

/-! ## The arithmetic of a payout is exact -/

theorem checkedFeeAmount_eq_ok {amount fee : Int} {feeBps : Nat}
    (h : checkedFeeAmount amount feeBps = .ok fee) :
    I128.minValue ≤ fee ∧ fee ≤ I128.maxValue ∧ (amount ≤ 0 → fee ≤ 0) := by
  simp only [checkedFeeAmount, bind_eq_ok, expect_eq_ok, I128.checkedMul,
    I128.checked_eq_some_iff, pure_eq_ok] at h
  obtain ⟨_, ⟨hrange, rfl⟩, rfl⟩ := h
  have hmem := I128.tdiv_mem hrange.1 hrange.2 (d := bpsDivisor) (by decide)
  refine ⟨hmem.1, hmem.2, fun hneg => ?_⟩
  have hprod : 0 ≤ -(amount * (feeBps : Int)) :=
    neg_nonneg.2 (mul_nonpos_of_nonpos_of_nonneg hneg (Int.natCast_nonneg _))
  have hquot := Int.tdiv_nonneg hprod (b := bpsDivisor) (by decide)
  rw [Int.neg_tdiv] at hquot
  omega

/-- What the release pays: a fee between zero and the amount, and the exact rest. -/
theorem release_arithmetic {amount fee : Int} {feeBps : Nat}
    (hfee : checkedFeeAmount amount feeBps = .ok fee)
    (lo : 0 ≤ amount) (hi : amount ≤ I128.maxValue)
    (hseller : I128.sub amount fee ≥ 0) (hpos : fee ≥ 0) :
    I128.sub amount fee = amount - fee ∧ fee ≤ amount := by
  obtain ⟨-, hfee, -⟩ := checkedFeeAmount_eq_ok hfee
  have hexact := I128.sub_of_nonneg lo hi hpos hfee
  rw [hexact] at hseller
  exact ⟨hexact, by omega⟩

theorem checkedLossAmount_eq_ok {total lossBps loss : Int} {sellerLossBps : Nat}
    (h : checkedLossAmount total lossBps sellerLossBps = .ok loss) :
    I128.minValue ≤ loss ∧ loss ≤ I128.maxValue := by
  simp only [checkedLossAmount, bind_eq_ok, expect_eq_ok, I128.checkedMul,
    I128.checked_eq_some_iff, pure_eq_ok] at h
  obtain ⟨_, -, _, ⟨hrange, rfl⟩, rfl⟩ := h
  exact I128.tdiv_mem hrange.1 hrange.2 (by decide)

/-- The assertions of the settlement make its three parts an exact split of the total. -/
theorem disputeSplit_eq_ok {total : Int} {bps lossBps feeBps : Nat} {split : Split}
    (h : disputeSplit total bps lossBps feeBps = .ok split)
    (lo : 0 ≤ total) (hi : total ≤ I128.maxValue) :
    (0 ≤ split.sellerNet ∧ 0 ≤ split.buyerRefund ∧ 0 ≤ split.fee) ∧
      split.sellerNet + split.buyerRefund + split.fee = total := by
  simp only [disputeSplit, bind_eq_ok, assert_eq_ok, pure_eq_ok, exists_const] at h
  obtain ⟨loss, hloss, fee, hfee, hnet, hrefund, hfeepos, -, rfl⟩ := h
  obtain ⟨hlo, hhi⟩ := checkedLossAmount_eq_ok hloss
  -- The refund is the seller's loss whatever wraps in between, so the loss is not negative.
  have hback : I128.sub total (I128.sub total loss) = loss := I128.sub_sub_cancel hlo hhi
  rw [hback] at hrefund
  have hraw : I128.sub total loss = total - loss := I128.sub_of_nonneg lo hi hrefund hhi
  obtain ⟨-, hfeele, hfeeneg⟩ := checkedFeeAmount_eq_ok hfee
  have hexact : I128.sub (total - loss) fee = total - loss - fee := by
    rw [hraw] at hfeeneg
    have := I128.minValue_eq
    rcases le_or_gt (total - loss) 0 with hneg | hpos
    · have := hfeeneg hneg
      exact I128.sub_of_mem (by omega) (by omega)
    · exact I128.sub_of_nonneg hpos.le (by omega) hfeepos hfeele
  rw [hraw, hexact] at hnet
  dsimp only
  rw [hback, hraw, hexact]
  exact ⟨⟨hnet, hrefund, hfeepos⟩, by omega⟩

/-! ## The entrypoints, one by one -/

/-- Roles, policies and the queue are as before. -/
structure Framed (s s' : State) : Prop where
  settings : s'.toSettings = s.toSettings
  queue : s'.toQueue = s.toQueue

theorem Framed.outside {p : Prop} (h : Framed s s') :
    s'.toSettings = s.toSettings ∧ (p → s'.toQueue = s.toQueue) := ⟨h.settings, fun _ => h.queue⟩

variable {env : Env} {s s' : State}

theorem withdrawFees_effect {amount : Int} {destination : Address}
    (h : withdrawFees env amount destination s = .ok s') :
    Effect env s (.withdrawFees amount destination) s'.toBooks ∧ Framed s s' := by
  simp only [withdrawFees, bind_eq_ok, requireAdmin_eq_ok, assert_eq_ok, expect_eq_ok,
    tokenTransfer_eq_ok, pure_eq_ok, exists_const] at h
  obtain ⟨_, -, hpos, hle, token, htoken, _, ⟨tokens, hpaid, rfl⟩, rfl⟩ := h
  exact ⟨.withdraw ⟨hpos, hle⟩ htoken hpaid, rfl, rfl⟩

theorem createTrade_effect {buyer seller : Address} {amount : Int} {buyerLoss sellerLoss : Nat}
    {expiresAt : Option Nat} {id : Nat}
    (h : createTrade env buyer seller amount buyerLoss sellerLoss expiresAt s = .ok (id, s')) :
    Effect env s (.createTrade buyer seller amount buyerLoss sellerLoss expiresAt) s'.toBooks ∧
      Framed s s' := by
  simp only [createTrade, bind_eq_ok, assertNotPaused_eq_ok, requireAuth_eq_ok, assert_eq_ok,
    expect_eq_ok, pure_eq_ok, exists_const, Prod.mk.injEq] at h
  obtain ⟨-, ⟨-, hself⟩, hpos, hmax, hne, -, -, hsum, hdeadline, token, htoken, -, rfl⟩ := h
  have heffect := @Effect.create env s
    ⟨tradeIdOf env.sequence (s.nextTradeId.getD 1), buyer, seller, token, amount, .created,
      env.timestamp, env.timestamp, none, none, buyerLoss, sellerLoss, expiresAt⟩ _ rfl rfl rfl
    ⟨hpos, hmax⟩ htoken hself hne hsum ⟨rfl, rfl⟩ ⟨rfl, rfl⟩ hdeadline
  exact ⟨heffect, rfl, rfl⟩

theorem deposit_effect {t : Nat} (h : deposit env t s = .ok s') :
    Effect env s (.deposit t) s'.toBooks ∧ Framed s s' := by
  simp only [deposit, bind_eq_ok, assertNotPaused_eq_ok, loadTrade_eq_ok, assert_eq_ok,
    requireAuth_eq_ok, tokenTransfer_eq_ok, pure_eq_ok, exists_const] at h
  obtain ⟨-, trade, hstored, hstatus, -, _, ⟨tokens, hpaid, rfl⟩, rfl⟩ := h
  exact ⟨.deposit hstored hstatus hpaid, rfl, rfl⟩

theorem depositWithPath_effect {t : Nat} {buyer : Address} {sourceAmount destMin : Int}
    {path : List Address} (h : depositWithPath env t buyer sourceAmount destMin path s = .ok s') :
    Effect env s (.depositWithPath t buyer sourceAmount destMin path) s'.toBooks ∧
      Framed s s' := by
  simp only [depositWithPath, bind_eq_ok, loadTrade_eq_ok, assert_eq_ok, requireAuth_eq_ok,
    expect_eq_ok, tokenTransfer_eq_ok, pure_eq_ok, exists_const, Store.has_eq_false_iff] at h
  obtain ⟨-, hmin, trade, hstored, hstatus, rfl, -, source, -, _, ⟨tokens, hpaid, rfl⟩, hfresh,
    rfl⟩ := h
  exact ⟨.openPath hstored hstatus hfresh hmin hpaid, rfl, rfl⟩

theorem finalizePathPayment_effect {t : Nat} {caller : Address}
    (h : finalizePathPayment env t caller s = .ok s') :
    Effect env s (.finalizePathPayment t caller) s'.toBooks ∧ Framed s s' := by
  simp only [finalizePathPayment, bind_eq_ok, requireAuth_eq_ok, expect_eq_ok, loadTrade_eq_ok,
    assert_eq_ok, loadAdmin_eq_ok, pure_eq_ok, exists_const, I128.checkedSub,
    I128.checked_eq_some_iff] at h
  obtain ⟨-, intent, hpending, trade, hstored, hstatus, _, -, -, _, ⟨hrange, rfl⟩, henough, _, -,
    rfl⟩ := h
  exact ⟨.finalizePath hstored hstatus hpending henough hrange.2, rfl, rfl⟩

theorem cancelByBuyer_effect {t : Nat} (h : cancelByBuyer env t s = .ok s') :
    Effect env s (.cancelByBuyer t) s'.toBooks ∧ Framed s s' := by
  simp only [cancelByBuyer, bind_eq_ok, loadTrade_eq_ok, requireAuth_eq_ok, assert_eq_ok,
    pure_eq_ok, exists_const] at h
  obtain ⟨trade, hstored, -, hstatus, rfl⟩ := h
  exact ⟨.drop (.inr rfl) hstored hstatus, rfl, rfl⟩

/-- The books after `execute_cancellation`. -/
theorem executeCancellation_books {trade : Trade} {amount : Int} {caller : Address}
    (h : executeCancellation env trade amount caller s = .ok s') :
    (∃ tokens,
      Token.pay s.tokens ⟨trade.token, currentContract, trade.buyer, amount⟩ = some tokens ∧
      s'.toBooks =
        { s.toBooks with
          trades := s.trades.set trade.tradeId
            { trade with status := .cancelled, updatedAt := env.timestamp }
          tokens := tokens }) ∧ Framed s s' := by
  simp only [executeCancellation, bind_eq_ok, payOut_eq_ok, pure_eq_ok] at h
  obtain ⟨_, ⟨tokens, hpaid, rfl⟩, rfl⟩ := h
  exact ⟨⟨tokens, hpaid, rfl⟩, rfl, rfl⟩

theorem cancelTrade_effect {t : Nat} {caller : Address} (keyed : ∀ trade,
    s.trades.get t = some trade → trade.tradeId = t)
    (h : cancelTrade env t caller s = .ok s') :
    Effect env s (.cancelTrade t caller) s'.toBooks ∧ Framed s s' := by
  simp only [cancelTrade, bind_eq_ok, assertNotPaused_eq_ok, loadTrade_eq_ok, loadAdmin_eq_ok,
    requireAuth_eq_ok, exists_const] at h
  obtain ⟨-, trade, hstored, admin, -, -, h⟩ := h
  obtain rfl := keyed trade hstored
  split at h
  · next hstatus =>
    simp only [bind_eq_ok, assert_eq_ok, exists_const] at h
    obtain ⟨⟨tokens, hpaid, hbooks⟩, hframe⟩ := executeCancellation_books h.2
    cases hpaid
    rw [hbooks]
    exact ⟨.drop (.inl ⟨caller, rfl⟩) hstored hstatus, hframe⟩
  · next hstatus =>
    split at h
    · obtain ⟨⟨tokens, hpaid, hbooks⟩, hframe⟩ := executeCancellation_books h
      rw [hbooks]
      exact ⟨.refund (.inl ⟨caller, rfl⟩) hstored (.inl hstatus) hpaid, hframe⟩
    · simp only [bind_eq_ok, assert_eq_ok, exists_const] at h
      obtain ⟨-, h⟩ := h
      split at h
      · simp only [bind_eq_ok, pure_eq_ok] at h
        obtain ⟨mid, hmid, rfl⟩ := h
        obtain ⟨⟨tokens, hpaid, hbooks⟩, hframe⟩ := executeCancellation_books hmid
        refine ⟨?_, hframe.settings, hframe.queue⟩
        show Effect env s (.cancelTrade trade.tradeId caller) mid.toBooks
        rw [hbooks]
        exact .refund (.inl ⟨caller, rfl⟩) hstored (.inl hstatus) hpaid
      · cases pure_eq_ok.1 h
        exact ⟨.request hstored hstatus, rfl, rfl⟩
  · cases h

theorem refund_effect {t : Nat} (keyed : ∀ trade, s.trades.get t = some trade → trade.tradeId = t)
    (h : refund env t s = .ok s') : Effect env s (.refund t) s'.toBooks ∧ Framed s s' := by
  simp only [refund, bind_eq_ok, loadTrade_eq_ok, requireAuth_eq_ok, assert_eq_ok,
    exists_const] at h
  obtain ⟨trade, hstored, -, hstatus, h⟩ := h
  obtain rfl := keyed trade hstored
  obtain ⟨⟨tokens, hpaid, hbooks⟩, hframe⟩ := executeCancellation_books h
  rw [hbooks]
  exact ⟨.refund (.inr (.inl rfl)) hstored hstatus hpaid, hframe⟩

theorem claimExpiryRefund_effect {t : Nat} {caller : Address}
    (positive : ∀ trade, s.trades.get t = some trade → trade.status = .funded → 0 < trade.amount)
    (h : claimExpiryRefund env t caller s = .ok s') :
    Effect env s (.claimExpiryRefund t caller) s'.toBooks ∧ Framed s s' := by
  simp only [claimExpiryRefund, bind_eq_ok, loadTrade_eq_ok, requireAuth_eq_ok, assert_eq_ok,
    expect_eq_ok, tokenTransfer_eq_ok, pure_eq_ok, exists_const] at h
  obtain ⟨-, trade, hstored, -, hstatus, _, -, -, _, ⟨tokens, hpaid, rfl⟩, rfl⟩ := h
  have hpay : Token.pay s.tokens ⟨trade.token, currentContract, trade.buyer, trade.amount⟩ =
      some tokens := (if_pos (positive trade hstored hstatus)).trans hpaid
  exact ⟨.refund (.inr (.inr ⟨caller, rfl⟩)) hstored (.inl hstatus) hpay, rfl, rfl⟩

theorem extendDeadline_effect {t newDeadline : Nat}
    (h : extendDeadline env t newDeadline s = .ok s') :
    Effect env s (.extendDeadline t newDeadline) s'.toBooks ∧ Framed s s' := by
  simp only [extendDeadline, bind_eq_ok, loadTrade_eq_ok, requireAuth_eq_ok, assert_eq_ok,
    expect_eq_ok, pure_eq_ok, exists_const] at h
  obtain ⟨trade, hstored, -, -, hstatus, old, hold, hopen, -, hlater, hcount, htotal, rfl⟩ := h
  exact ⟨.extend hstored hstatus hold hopen hlater hcount htotal, rfl, rfl⟩

theorem confirmDelivery_effect {t : Nat} (h : confirmDelivery env t s = .ok s') :
    Effect env s (.confirmDelivery t) s'.toBooks ∧ Framed s s' := by
  simp only [confirmDelivery, bind_eq_ok, loadTrade_eq_ok, requireAuth_eq_ok, assert_eq_ok,
    pure_eq_ok, exists_const] at h
  obtain ⟨trade, hstored, -, hstatus, rfl⟩ := h
  exact ⟨.deliver hstored hstatus, rfl, rfl⟩

theorem releaseFunds_effect {t : Nat} {caller : Address} (range : AmountsInRange s.toBooks)
    (h : releaseFunds env t caller s = .ok s') :
    Effect env s (.releaseFunds t caller) s'.toBooks ∧ Framed s s' := by
  simp only [releaseFunds, bind_eq_ok, assertNotPaused_eq_ok, loadTrade_eq_ok, assert_eq_ok,
    requireAuth_eq_ok, loadAdmin_eq_ok, tokenTransfer_eq_ok, pure_eq_ok, exists_const] at h
  obtain ⟨-, trade, hstored, hstatus, -, _, -, -, fee, hfee, -, hseller, hpos, _,
    ⟨tokens, hpaid, rfl⟩, rfl⟩ := h
  obtain ⟨lo, hi⟩ := range t trade hstored
  obtain ⟨hexact, hle⟩ := release_arithmetic hfee lo hi hseller hpos
  rw [hexact] at hpaid
  exact ⟨.release hstored hstatus ⟨hpos, hle⟩ hpaid, rfl, rfl⟩

theorem initiateDispute_effect {t : Nat} {initiator : Address} {reason : String}
    (h : initiateDispute env t initiator reason s = .ok s') :
    Effect env s (.initiateDispute t initiator reason) s'.toBooks ∧ Framed s s' := by
  simp only [initiateDispute, bind_eq_ok, requireAuth_eq_ok, assert_eq_ok, loadTrade_eq_ok,
    pure_eq_ok, exists_const] at h
  obtain ⟨-, -, -, trade, hstored, hstatus, -, rfl⟩ := h
  exact ⟨.dispute hstored hstatus, rfl, rfl⟩

/-- The books after a settlement. -/
theorem settleDispute_books {t bps : Nat} {mediator : Address} (range : AmountsInRange s.toBooks)
    (h : settleDispute env t bps mediator s = .ok s') :
    (∃ (trade : Trade) (split : Split) (tokens₁ tokens₂ : Token.Ledger Address),
      s.trades.get t = some trade ∧ trade.status = .disputed ∧
      (0 ≤ split.sellerNet ∧ 0 ≤ split.buyerRefund ∧ 0 ≤ split.fee) ∧
      split.sellerNet + split.buyerRefund + split.fee = trade.amount ∧
      Token.pay s.tokens ⟨trade.token, currentContract, trade.seller, split.sellerNet⟩ =
        some tokens₁ ∧
      Token.pay tokens₁ ⟨trade.token, currentContract, trade.buyer, split.buyerRefund⟩ =
        some tokens₂ ∧
      s'.toBooks =
        { s.toBooks with
          trades := s.trades.set t
            { trade with status := .completed, updatedAt := env.timestamp }
          accruedFees := feesWith s.accruedFees split.fee
          tokens := tokens₂ }) ∧ Framed s s' := by
  simp only [settleDispute, bind_eq_ok, loadTrade_eq_ok, assert_eq_ok, payOut_eq_ok, pure_eq_ok,
    exists_const] at h
  obtain ⟨trade, hstored, hstatus, split, hsplit, _, ⟨tokens₁, hpaid₁, rfl⟩, _,
    ⟨tokens₂, hpaid₂, rfl⟩, rfl⟩ := h
  obtain ⟨lo, hi⟩ := range t trade hstored
  obtain ⟨hbounds, hwhole⟩ := disputeSplit_eq_ok hsplit lo hi
  exact ⟨⟨trade, split, tokens₁, tokens₂, hstored, hstatus, hbounds, hwhole, hpaid₁, hpaid₂, rfl⟩,
    rfl, rfl⟩

/-- A settlement decided by any of the three calls.  Before settling, a vote changes the files of
the trade but not the books. -/
theorem settleDispute_effect {c : Call} {t bps : Nat} {mediator : Address} {mid : State}
    (route : c.Settles t)
    (range : AmountsInRange s.toBooks) (books : mid.toBooks = s.toBooks) (frame : Framed s mid)
    (h : settleDispute env t bps mediator mid = .ok s') :
    Effect env s c s'.toBooks ∧ Framed s s' := by
  rw [← books] at range
  obtain ⟨⟨trade, split, tokens₁, tokens₂, hstored, hstatus, hbounds, hwhole, hpaid₁, hpaid₂,
    hbooks⟩, hframe⟩ := settleDispute_books range h
  rw [books] at hstored hpaid₁ hbooks
  rw [hbooks]
  exact ⟨.settle route hstored hstatus hbounds hwhole hpaid₁ hpaid₂,
    hframe.settings.trans frame.settings, hframe.queue.trans frame.queue⟩

theorem resolveDispute_effect {t : Nat} {mediator : Address} {bps : Nat}
    (range : AmountsInRange s.toBooks) (h : resolveDispute env t mediator bps s = .ok s') :
    Effect env s (.resolveDispute t mediator bps) s'.toBooks ∧ Framed s s' := by
  simp only [resolveDispute, bind_eq_ok, assert_eq_ok, exists_const] at h
  obtain ⟨_, -, -, _, -, -, h⟩ := h
  exact settleDispute_effect (.inl ⟨_, _, rfl⟩) range rfl ⟨rfl, rfl⟩ h

theorem finalizeQuorum_effect {c : Call} {t bps weight : Nat} {state : QuorumState}
    {outcome : QuorumOutcome} {mid : State}
    (route : c.Settles t)
    (range : AmountsInRange s.toBooks) (books : mid.toBooks = s.toBooks) (frame : Framed s mid)
    (h : finalizeQuorum env t state bps weight outcome mid = .ok s') :
    Effect env s c s'.toBooks ∧ Framed s s' := by
  simp only [finalizeQuorum, bind_eq_ok, expect_eq_ok, pure_eq_ok] at h
  obtain ⟨_, -, settled, hsettled, rfl⟩ := h
  obtain ⟨heffect, hframe⟩ := settleDispute_effect route range books frame hsettled
  exact ⟨heffect, hframe.settings, hframe.queue⟩

theorem castDisputeVote_effect {t : Nat} {mediator : Address} {bps : Nat} {rationale : String}
    (range : AmountsInRange s.toBooks)
    (h : castDisputeVote env t mediator bps rationale s = .ok s') :
    Effect env s (.castDisputeVote t mediator bps rationale) s'.toBooks ∧ Framed s s' := by
  simp only [castDisputeVote, bind_eq_ok, assert_eq_ok, loadTrade_eq_ok, exists_const] at h
  obtain ⟨_, -, -, -, -, _, -, -, -, -, h⟩ := h
  split at h
  · refine finalizeQuorum_effect (.inr (.inl ⟨_, _, _, rfl⟩)) range ?_ ⟨?_, ?_⟩ h <;> rfl
  · cases pure_eq_ok.1 h
    exact ⟨.idle rfl, rfl, rfl⟩

theorem resolveDisputeByFallback_effect {t : Nat} {caller : Address}
    (range : AmountsInRange s.toBooks) (h : resolveDisputeByFallback env t caller s = .ok s') :
    Effect env s (.resolveDisputeByFallback t caller) s'.toBooks ∧ Framed s s' := by
  simp only [resolveDisputeByFallback, bind_eq_ok, requireAuth_eq_ok, assert_eq_ok,
    loadTrade_eq_ok, expect_eq_ok, exists_const] at h
  obtain ⟨-, _, -, -, -, -, _, -, -, -, -, h⟩ := h
  exact finalizeQuorum_effect (.inr (.inr ⟨_, rfl⟩)) range rfl ⟨rfl, rfl⟩ h

theorem submitEvidence_effect {t : Nat} {caller : Address} {hash description : String}
    (h : submitEvidence env t caller hash description s = .ok s') :
    Effect env s (.submitEvidence t caller hash description) s'.toBooks ∧ Framed s s' := by
  simp only [submitEvidence, bind_eq_ok, requireAuth_eq_ok, assert_eq_ok, loadTrade_eq_ok,
    pure_eq_ok, exists_const] at h
  obtain ⟨-, -, -, -, _, -, -, -, rfl⟩ := h
  exact ⟨.idle rfl, rfl, rfl⟩

theorem submitVideoProof_effect {t : Nat} {submitter : Address} {cid : String}
    (h : submitVideoProof env t submitter cid s = .ok s') :
    Effect env s (.submitVideoProof t submitter cid) s'.toBooks ∧ Framed s s' := by
  simp only [submitVideoProof, bind_eq_ok, requireAuth_eq_ok, assert_eq_ok, loadTrade_eq_ok,
    pure_eq_ok, exists_const] at h
  obtain ⟨-, -, -, _, -, -, -, -, rfl⟩ := h
  exact ⟨.idle rfl, rfl, rfl⟩

theorem submitManifest_effect {t : Nat} {seller : Address} {name id : String}
    (h : submitManifest env t seller name id s = .ok s') :
    Effect env s (.submitManifest t seller name id) s'.toBooks ∧ Framed s s' := by
  simp only [submitManifest, bind_eq_ok, requireAuth_eq_ok, assert_eq_ok, loadTrade_eq_ok,
    pure_eq_ok, exists_const] at h
  obtain ⟨-, -, -, -, -, _, -, -, -, -, rfl⟩ := h
  exact ⟨.idle rfl, rfl, rfl⟩

/-! ## Clawbacks and the queue -/

/-- A clawback of at most a stored amount leaves an exact remainder. -/
theorem sub_clawback {amount total : Int} (hi : total ≤ I128.maxValue) (hpos : 0 < amount)
    (hle : amount ≤ total) : I128.sub total amount = total - amount :=
  I128.sub_of_nonneg (by omega) hi hpos.le (by omega)

/-- What both clawbacks check, with the trade they find and the tokens they leave. -/
structure ClawbackAllowed (env : Env) (s : State) (op : TimelockClawbackOp) (trade : Trade)
    (tokens : Token.Ledger Address) : Prop where
  admin : ∃ a, s.admin = some a ∧ a ∈ env.auths ∧ a ≠ currentContract
  positive : op.clawbackAmount > 0
  stored : s.trades.get op.tradeId = some trade
  status : trade.status = .funded ∨ trade.status = .disputed
  enough : op.clawbackAmount ≤ trade.amount
  paid : Token.transfer s.tokens
    ⟨trade.token, currentContract, op.destination, op.clawbackAmount⟩ = some tokens

/-- The books after a clawback. -/
def clawedBooks (env : Env) (s : State) (op : TimelockClawbackOp) (trade : Trade)
    (tokens : Token.Ledger Address) : Books :=
  { s.toBooks with
    trades := s.trades.set op.tradeId (trade.clawed op.clawbackAmount env.timestamp)
    clawbackTotal := s.clawbackTotal.set op.tradeId
      (I128.add (getClawbackTotal s op.tradeId) op.clawbackAmount)
    tokens := tokens }

theorem ClawbackAllowed.effect {c : Call} {op : TimelockClawbackOp} {trade : Trade}
    {tokens : Token.Ledger Address} (h : ClawbackAllowed env s op trade tokens)
    (route : c.ClawsBack s op.tradeId op.clawbackAmount op.destination) :
    Effect env s c (clawedBooks env s op trade tokens) :=
  .claw route h.stored h.status ⟨h.positive, h.enough⟩ h.paid

/-- What a successful immediate clawback found and did. -/
theorem adminClawback_books {t : Nat} {amount : Int} {destination : Address}
    (range : AmountsInRange s.toBooks) (h : adminClawback env t amount destination s = .ok s') :
    isClawbackEnabled s = true ∧
      (∃ trade tokens, ClawbackAllowed env s ⟨t, amount, destination⟩ trade tokens ∧
        s'.toBooks = clawedBooks env s ⟨t, amount, destination⟩ trade tokens) ∧
      Framed s s' := by
  simp only [adminClawback, bind_eq_ok, requireAdmin_eq_ok, assert_eq_ok, loadTrade_eq_ok,
    tokenTransfer_eq_ok, expect_eq_ok, pure_eq_ok, exists_const, I128.checkedAdd,
    I128.checked_eq_some_iff] at h
  obtain ⟨admin, hadmin, henabled, hpos, trade, hstored, hstatus, hle, _, ⟨tokens, hpaid, rfl⟩, _,
    ⟨htotal, rfl⟩, rfl⟩ := h
  have hsub := sub_clawback (range t trade hstored).2 hpos hle
  have hadd := I128.add_of_mem htotal.1 htotal.2
  refine ⟨henabled, ⟨trade, tokens, ⟨⟨admin, hadmin⟩, hpos, hstored, hstatus, hle, hpaid⟩, ?_⟩, ?_⟩
  · rw [hsub, ← hadd, clawedBooks, Trade.clawed]
    split <;> rfl
  · rw [hsub]
    split <;> exact ⟨rfl, rfl⟩

theorem adminClawback_effect {t : Nat} {amount : Int} {destination : Address}
    (range : AmountsInRange s.toBooks) (h : adminClawback env t amount destination s = .ok s') :
    Effect env s (.adminClawback t amount destination) s'.toBooks ∧ Framed s s' := by
  obtain ⟨-, ⟨trade, tokens, hallowed, hbooks⟩, hframe⟩ := adminClawback_books range h
  rw [hbooks]
  exact ⟨hallowed.effect (.inl rfl), hframe⟩

/-- What the executor of a due operation found. -/
theorem loadDueOperation_eq_ok {id : Nat} {q : QueuedOperation} :
    loadDueOperation env id s = .ok q ↔
      s.timelockOperation.get id = some q ∧ q.executeAfter ≤ env.timestamp ∧
        q.executed = false ∧ q.cancelled = false := by
  simp only [loadDueOperation, bind_eq_ok, expect_eq_ok, assert_eq_ok, pure_eq_ok, exists_const]
  constructor
  · rintro ⟨q', hget, hdue, hexecuted, hcancelled, rfl⟩
    exact ⟨hget, hdue, hexecuted, hcancelled⟩
  · rintro ⟨hget, hdue, hexecuted, hcancelled⟩
    exact ⟨q, hget, hdue, hexecuted, hcancelled, rfl⟩

/-- What a successful queued clawback found and did. -/
theorem executeClawback_books {id : Nat} (range : AmountsInRange s.toBooks)
    (h : executeClawback env id s = .ok s') :
    ∃ q, loadDueOperation env id s = .ok q ∧ s'.toSettings = s.toSettings ∧
      ((∃ op trade tokens, q.payload = .clawback op ∧ ClawbackAllowed env s op trade tokens ∧
          s'.toBooks = clawedBooks env s op trade tokens ∧
          s'.toQueue = (markExecuted s id q).toQueue) ∨
        (∃ op, q.payload = .upgrade op) ∧ s' = s) := by
  simp only [executeClawback, bind_eq_ok, requireAdmin_eq_ok] at h
  obtain ⟨admin, hadmin, q, hq, h⟩ := h
  refine ⟨q, hq, ?_⟩
  split at h
  · next op hpayload =>
    simp only [bind_eq_ok, assert_eq_ok, loadTrade_eq_ok, tokenTransfer_eq_ok, pure_eq_ok,
      exists_const] at h
    obtain ⟨hpos, trade, hstored, hstatus, hle, _, ⟨tokens, hpaid, rfl⟩, rfl⟩ := h
    have hsub := sub_clawback (range op.tradeId trade hstored).2 hpos hle
    refine ⟨rfl, .inl ⟨op, trade, tokens, hpayload,
      ⟨⟨admin, hadmin⟩, hpos, hstored, hstatus, hle, hpaid⟩, ?_, rfl⟩⟩
    rw [hsub]
    rfl
  · next op hpayload =>
    cases pure_eq_ok.1 h
    exact ⟨rfl, .inr ⟨⟨op, hpayload⟩, rfl⟩⟩

theorem executeClawback_effect {id : Nat} (range : AmountsInRange s.toBooks)
    (h : executeClawback env id s = .ok s') :
    Effect env s (.executeClawback id) s'.toBooks ∧ s'.toSettings = s.toSettings := by
  obtain ⟨q, hq, hsettings, ⟨op, trade, tokens, hpayload, hallowed, hbooks, -⟩ | ⟨-, rfl⟩⟩ :=
    executeClawback_books range h
  · rw [hbooks]
    exact ⟨hallowed.effect (.inr ⟨id, q, rfl, (loadDueOperation_eq_ok.1 hq).1, hpayload⟩),
      hsettings⟩
  · exact ⟨.idle rfl, rfl⟩

/-! ## Reading a call off its effect -/

/-- What a finalization found and did. -/
theorem Effect.of_finalize {t : Nat} {caller : Address} {b' : Books}
    (h : Effect env s (.finalizePathPayment t caller) b') :
    ∃ trade intent, s.trades.get t = some trade ∧ trade.status = .created ∧
      s.pathPaymentIntent.get t = some intent ∧
      b' = { s.toBooks with
        trades := s.trades.set t
          { trade with
            amount := s.tokens.balance trade.token currentContract - intent.cngnBalanceBefore
            status := .funded, fundedAt := some env.timestamp, updatedAt := env.timestamp }
        pathPaymentIntent := s.pathPaymentIntent.erase t } := by
  cases h with
  | idle quiet => cases quiet
  | @finalizePath _ _ trade intent stored status pending _ _ =>
    exact ⟨trade, intent, stored, status, pending, rfl⟩
  | drop route => rcases route with ⟨_, e⟩ | e <;> cases e
  | refund route => rcases route with ⟨_, e⟩ | e | ⟨_, e⟩ <;> cases e
  | settle route => rcases route with ⟨_, _, e⟩ | ⟨_, _, _, e⟩ | ⟨_, e⟩ <;> cases e
  | claw route => rcases route with e | ⟨_, _, e, -⟩ <;> cases e

end Amana.Escrow
