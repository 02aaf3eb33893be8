import Amana.Escrow.Records

/-!
# The vault

What the contract owes in its settlement token: the amounts of the trades that hold escrow
(`Books.held`) and the fees it has accrued.  `Books.surplus` is what its balance exceeds that by,
and `Effect.surplus` says how every effect but the finalization of a path payment moves it: it
never falls, and it only rises where tokens come in that no trade is credited with.
-/

namespace Amana.Escrow

open Lib

/-- Whether a trade of this status holds escrow. -/
def TradeStatus.live : TradeStatus → Bool
  | .funded | .delivered | .disputed => true
  | .created | .completed | .cancelled => false

/-- The escrow held for a trade. -/
def Trade.held (t : Trade) : Int := if t.status.live then t.amount else 0

namespace Books

/-- The escrow held for all trades. -/
def held (b : Books) : Int := b.trades.sum Trade.held

/-- The accrued fees. -/
def accrued (b : Books) : Int := b.accruedFees.getD 0

/-- What the contract owes: the escrow it holds and the fees it has accrued. -/
def obligations (b : Books) : Int := b.held + b.accrued

/-- What the contract's balance exceeds its obligations by. -/
def surplus (b : Books) (token : Address) : Int :=
  b.tokens.balance token currentContract - b.obligations

end Books

/-- No settlement token other than `token` is configured. -/
def Settings.Settles (st : Settings) (token : Address) : Prop :=
  ∀ t, st.cngnContract = some t → t = token

/-- Accrued fees are not negative and the obligations are covered, in the token of settlement. -/
structure Backed (st : Settings) (b : Books) : Prop where
  accrued : 0 ≤ b.accrued
  covered : ∀ token, st.Settles token → 0 ≤ b.surplus token

section Held

variable {st : Settings} {b : Books} {k : Nat} {t t' : Trade}

theorem Trade.held_of_live (h : t.status.live = true) : t.held = t.amount := if_pos h

theorem Trade.held_of_not_live (h : t.status.live = false) : t.held = 0 := by simp [Trade.held, h]

theorem Trade.held_nonneg (h : 0 ≤ t.amount) : 0 ≤ t.held := by
  unfold Trade.held
  split <;> omega

theorem WellFormed.held_nonneg (wf : WellFormed st b) : 0 ≤ b.held :=
  b.trades.sum_nonneg fun k t ht => Trade.held_nonneg (wf.trade k t ht).nonneg

theorem WellFormed.held_le (wf : WellFormed st b) (stored : b.trades.get k = some t) :
    t.held ≤ b.held :=
  b.trades.le_sum (fun k t ht => Trade.held_nonneg (wf.trade k t ht).nonneg) stored

theorem WellFormed.token_eq {token : Address} (wf : WellFormed st b) (settles : st.Settles token)
    (stored : b.trades.get k = some t) : t.token = token := settles _ (wf.token k t stored)

/-- A clawback takes its amount out of what is held. -/
theorem Trade.held_clawed {amount : Int} (now : Nat)
    (h : t.status = .funded ∨ t.status = .disputed) :
    (t.clawed amount now).held = t.held - amount := by
  have hlive : t.status.live = true := by rcases h with h | h <;> simp [h, TradeStatus.live]
  rw [Trade.held_of_live hlive]
  by_cases hzero : t.amount - amount = 0
  · rw [Trade.held_of_not_live (by simp [Trade.clawed, hzero, TradeStatus.live])]
    exact hzero.symm
  · exact Trade.held_of_live (by simpa [Trade.clawed, hzero] using hlive)

/-- Adding a fee that the obligations cover is exact. -/
theorem accrued_feesWith {accrued : Option Int} {fee : Int} (hpos : 0 ≤ accrued.getD 0)
    (hfee : 0 ≤ fee) (hle : accrued.getD 0 + fee ≤ I128.maxValue) :
    (feesWith accrued fee).getD 0 = accrued.getD 0 + fee := by
  unfold feesWith
  split
  · have := I128.minValue_eq
    exact I128.add_of_mem (by omega) hle
  · omega

/-- The fee of a live trade fits beside the fees already accrued. -/
theorem Backed.fee_fits {token : Address} {fee : Int} (backed : Backed st b)
    (wf : WellFormed st b) (settles : st.Settles token) (stored : b.trades.get k = some t)
    (hlive : t.status.live = true) (hfee : fee ≤ t.amount) :
    b.accruedFees.getD 0 + fee ≤ I128.maxValue := by
  have hcovered := backed.covered token settles
  have hheld := wf.held_le stored
  have hbalance := b.tokens.balance_le token currentContract
  rw [Trade.held_of_live hlive] at hheld
  unfold Books.surplus Books.obligations Books.accrued at hcovered
  omega

theorem exists_settles (st : Settings) : ∃ token, st.Settles token := by
  cases htoken : st.cngnContract with
  | none => exact ⟨currentContract, fun t ht => by cases htoken.symm.trans ht⟩
  | some token => exact ⟨token, fun t ht => Option.some.inj (ht.symm.trans htoken)⟩

theorem Backed.accrued_le (backed : Backed st b) (wf : WellFormed st b) :
    b.accrued ≤ I128.maxValue := by
  obtain ⟨token, settles⟩ := exists_settles st
  have hcovered := backed.covered token settles
  have hheld := wf.held_nonneg
  have hbalance := b.tokens.balance_le token currentContract
  unfold Books.surplus Books.obligations at hcovered
  omega

/-- The surplus after one record was replaced. -/
theorem surplus_update {b' : Books} (token : Address) (stored : b.trades.get k = some t)
    (htrades : b'.trades = b.trades.set k t') :
    b'.surplus token =
      b'.tokens.balance token currentContract - (b.held - t.held + t'.held) - b'.accrued := by
  have hheld : b'.held = b.held - t.held + t'.held := by
    unfold Books.held
    rw [htrades, Store.sum_set _ _ _ stored]
  unfold Books.surplus Books.obligations
  omega

end Held

/-! ## Effects -/

/-- Whether a call takes part in a path payment. -/
def Call.pathPayment : Call → Bool
  | .depositWithPath .. | .finalizePathPayment .. => true
  | _ => false

/-- No payout between two ledgers went from the contract to itself. -/
def PaysOthers (later earlier : Token.Ledger Address) : Prop :=
  ∀ m ∈ later.since earlier, m.source = currentContract → m.dest ≠ currentContract

/-- What is gained by a payout to `dest`: its amount, if the contract pays itself. -/
def selfPaid (dest : Address) (amount : Int) : Int := if dest = currentContract then amount else 0

theorem selfPaid_nonneg {dest : Address} {amount : Int} (h : 0 ≤ amount) :
    0 ≤ selfPaid dest amount := by
  unfold selfPaid
  split <;> omega

section Payouts

variable {l l' : Token.Ledger Address} {token dest : Address} {amount : Int}

theorem balance_of_payout (h : Token.transfer l ⟨token, currentContract, dest, amount⟩ = some l') :
    l'.balance token currentContract =
      l.balance token currentContract - amount + selfPaid dest amount := by
  rw [Token.source_of_transfer h, selfPaid]
  dsimp only
  split <;> omega

theorem selfPaid_of_payout
    (h : Token.transfer l ⟨token, currentContract, dest, amount⟩ = some l')
    (others : PaysOthers l' l) : selfPaid dest amount = 0 := by
  refine if_neg (others ⟨token, currentContract, dest, amount⟩ ?_ rfl)
  rw [Token.since_of_append (Token.transfers_of_transfer h)]
  exact List.mem_singleton_self _

theorem balance_of_pay (h : Token.pay l ⟨token, currentContract, dest, amount⟩ = some l')
    (hpos : 0 ≤ amount) :
    l'.balance token currentContract =
      l.balance token currentContract - amount + selfPaid dest amount := by
  rw [Token.source_of_pay h hpos, selfPaid]
  dsimp only
  split <;> omega

theorem selfPaid_of_pay {l₁ : Token.Ledger Address} {rest : List (Token.Transfer Address)}
    (h : Token.pay l ⟨token, currentContract, dest, amount⟩ = some l₁) (hpos : 0 ≤ amount)
    (hlog : l'.transfers = l₁.transfers ++ rest) (others : PaysOthers l' l) :
    selfPaid dest amount = 0 := by
  by_cases hzero : amount = 0
  · simp [selfPaid, hzero]
  · refine if_neg (others ⟨token, currentContract, dest, amount⟩ ?_ rfl)
    have hpay := Token.transfers_of_pay h
    rw [if_pos (show amount > 0 by omega)] at hpay
    rw [hpay, List.append_assoc] at hlog
    rw [Token.since_of_append hlog]
    exact List.mem_append_left _ (List.mem_singleton_self _)

end Payouts

variable {env : Env} {s s' : State} {c : Call}

/-- The books after a call: fees stay non-negative and the surplus grew by `gain`, which is nothing
unless the call takes part in a path payment, reissues an identifier or pays the contract itself. -/
structure Keeps (env : Env) (s : State) (c : Call) (b' : Books) (token : Address) (gain : Int) :
    Prop where
  accrued : 0 ≤ b'.accrued
  surplus : b'.surplus token = s.toBooks.surplus token + gain
  nonneg : 0 ≤ gain
  exact : c.pathPayment = false →
    (c.creates = true → s.trades.get (nextIdentifier env s) = none) →
    PaysOthers b'.tokens s.tokens → gain = 0

/-- A record was replaced, `out` was paid and `fee` accrued of what it held. -/
theorem Keeps.of_payout {b' : Books} {k : Nat} {t t' : Trade} {token : Address} {gain : Int}
    (out fee : Int) (backed : Backed s.toSettings s.toBooks)
    (stored : s.trades.get k = some t) (htrades : b'.trades = s.trades.set k t')
    (hheld : t'.held = t.held - out - fee) (hfee : 0 ≤ fee)
    (haccrued : b'.accruedFees.getD 0 = s.accruedFees.getD 0 + fee)
    (hbalance : b'.tokens.balance token currentContract =
      s.tokens.balance token currentContract - out + gain)
    (hgain : 0 ≤ gain)
    (hexact : c.pathPayment = false → PaysOthers b'.tokens s.tokens → gain = 0) :
    Keeps env s c b' token gain := by
  have hpos := backed.accrued
  unfold Books.accrued at hpos
  refine ⟨?_, ?_, hgain, fun hpath _ hothers => hexact hpath hothers⟩
  · rw [Books.accrued, haccrued]
    omega
  · rw [surplus_update token stored htrades, hbalance, hheld, Books.accrued, haccrued]
    unfold Books.surplus Books.obligations Books.accrued
    omega

/-- A record was replaced by one that holds as much. -/
theorem Keeps.of_same_held {b' : Books} {k : Nat} {t t' : Trade} (token : Address)
    (backed : Backed s.toSettings s.toBooks) (stored : s.trades.get k = some t)
    (htrades : b'.trades = s.trades.set k t') (hfees : b'.accruedFees = s.accruedFees)
    (htokens : b'.tokens = s.tokens) (hheld : t'.held = t.held) : Keeps env s c b' token 0 :=
  .of_payout 0 0 backed stored htrades (by omega) le_rfl (by rw [hfees]; omega)
    (by rw [htokens]; omega) le_rfl fun _ _ => rfl

/-- Every effect but the finalization of a path payment keeps the vault. -/
theorem Effect.keeps {token : Address} {b' : Books} (wf : WellFormed s.toSettings s.toBooks)
    (backed : Backed s.toSettings s.toBooks) (settles : s.toSettings.Settles token)
    (h : Effect env s c b') (hfinal : ∀ t caller, c ≠ .finalizePathPayment t caller) :
    ∃ gain, Keeps env s c b' token gain := by
  cases h with
  | idle _ => exact ⟨0, backed.accrued, by simp, le_rfl, fun _ _ _ => rfl⟩
  | @create trade n counter tradeId status _ _ _ _ _ _ _ _ =>
    subst counter
    have hsum := s.trades.sum_set_add trade.tradeId trade Trade.held
    rw [Trade.held_of_not_live (t := trade) (by rw [status]; rfl)] at hsum
    refine ⟨(s.trades.get trade.tradeId).elim 0 Trade.held, backed.accrued, ?_, ?_, ?_⟩
    · unfold Books.surplus Books.obligations Books.held Books.accrued
      dsimp only
      omega
    · cases hold : s.trades.get trade.tradeId with
      | none => exact le_rfl
      | some t => exact Trade.held_nonneg (wf.trade _ _ hold).nonneg
    · intro _ hfresh _
      rw [tradeId, ← nextIdentifier, hfresh rfl]
      rfl
  | @deposit t trade tokens stored status paid =>
    have hbalance := Token.dest_of_transfer paid (wf.trade _ _ stored).buyer
    dsimp only at hbalance
    rw [wf.token_eq settles stored] at hbalance
    refine ⟨0, .of_payout (-trade.amount) 0 backed stored rfl ?_ le_rfl (by simp)
      (by rw [hbalance]; omega) le_rfl fun _ _ => rfl⟩
    simp [Trade.held, status, TradeStatus.live]
  | @openPath t trade source sourceAmount _ _ tokens stored status _ _ paid =>
    have hle := Token.le_of_transfer paid token (Ne.symm (wf.trade _ _ stored).buyer)
    refine ⟨tokens.balance token currentContract - s.tokens.balance token currentContract,
      .of_payout 0 0 backed stored rfl ?_ le_rfl (by simp) ?_ (by omega)
      fun hpath => by cases hpath⟩
    · simp [Trade.held]
    · dsimp only
      omega
  | finalizePath => exact absurd rfl (hfinal _ _)
  | drop _ stored status =>
    refine ⟨0, .of_same_held token backed stored rfl rfl rfl ?_⟩
    simp [Trade.held, status, TradeStatus.live]
  | request stored status => exact ⟨0, .of_same_held token backed stored rfl rfl rfl rfl⟩
  | @refund _ t trade tokens _ stored status paid =>
    have hsound := wf.trade _ _ stored
    have hbalance := balance_of_pay paid hsound.nonneg
    have hself : selfPaid trade.buyer trade.amount = 0 := if_neg hsound.buyer
    rw [wf.token_eq settles stored] at hbalance
    refine ⟨0, .of_payout trade.amount 0 backed stored rfl ?_ le_rfl (by simp)
      (by dsimp only; omega) le_rfl fun _ _ => rfl⟩
    rcases status with status | status <;> simp [Trade.held, status, TradeStatus.live]
  | extend stored status _ _ _ _ _ =>
    exact ⟨0, .of_same_held token backed stored rfl rfl rfl rfl⟩
  | deliver stored status =>
    refine ⟨0, .of_same_held token backed stored rfl rfl rfl ?_⟩
    simp [Trade.held, status, TradeStatus.live]
  | dispute stored status =>
    refine ⟨0, .of_same_held token backed stored rfl rfl rfl ?_⟩
    simp [Trade.held, status, TradeStatus.live]
  | @release t _ trade fee tokens stored status bounds paid =>
    have hbalance := balance_of_payout paid
    rw [wf.token_eq settles stored] at hbalance
    have hfits := backed.fee_fits wf settles stored (by rw [status]; rfl) bounds.2
    refine ⟨selfPaid trade.seller (trade.amount - fee), .of_payout (trade.amount - fee) fee backed
      stored rfl ?_ bounds.1
      (accrued_feesWith backed.accrued bounds.1 hfits) hbalance (selfPaid_nonneg (by omega))
      fun _ hothers => selfPaid_of_payout paid hothers⟩
    simp [Trade.held, status, TradeStatus.live]
  | @settle _ t trade split tokens₁ tokens₂ _ stored status bounds whole paidSeller paidBuyer =>
    have hsound := wf.trade _ _ stored
    have hseller := balance_of_pay paidSeller bounds.1
    have hbuyer := balance_of_pay paidBuyer bounds.2.1
    have hself : selfPaid trade.buyer split.buyerRefund = 0 := if_neg hsound.buyer
    rw [wf.token_eq settles stored] at hseller hbuyer
    have hfee : split.fee ≤ trade.amount := by omega
    have hfits := backed.fee_fits wf settles stored (by rw [status]; rfl) hfee
    refine ⟨selfPaid trade.seller split.sellerNet, .of_payout
      (split.sellerNet + split.buyerRefund) split.fee backed stored rfl ?_ bounds.2.2
      (accrued_feesWith backed.accrued bounds.2.2 hfits) (by dsimp only; omega)
      (selfPaid_nonneg bounds.1) fun _ hothers => ?_⟩
    · rw [Trade.held_of_not_live rfl, Trade.held_of_live (t := trade) (by rw [status]; rfl)]
      omega
    · exact selfPaid_of_pay paidSeller bounds.1 (Token.transfers_of_pay paidBuyer) hothers
  | @claw _ t amount destination trade tokens _ stored status bounds paid =>
    have hbalance := balance_of_payout paid
    rw [wf.token_eq settles stored] at hbalance
    refine ⟨selfPaid destination amount, .of_payout amount 0 backed stored rfl
      ?_ le_rfl (by simp) hbalance (selfPaid_nonneg bounds.1.le)
      fun _ hothers => selfPaid_of_payout paid hothers⟩
    rw [Trade.held_clawed env.timestamp status]
    omega
  | @withdraw amount destination token' tokens bounds settlement paid =>
    have hbalance := balance_of_payout paid
    obtain rfl := settles token' settlement
    have hle : getAccruedFees s ≤ I128.maxValue := backed.accrued_le wf
    have hsub : I128.sub (getAccruedFees s) amount = getAccruedFees s - amount :=
      I128.sub_of_nonneg (by omega) hle (by omega) (by omega)
    refine ⟨selfPaid destination amount, ?_, ?_, selfPaid_nonneg bounds.1.le,
      fun _ _ hothers => selfPaid_of_payout paid hothers⟩
    · show 0 ≤ I128.sub (getAccruedFees s) amount
      omega
    · unfold Books.surplus Books.obligations Books.held Books.accrued
      have haccrued : getAccruedFees s = s.accruedFees.getD 0 := rfl
      dsimp only
      rw [Option.getD_some, hsub]
      omega

end Amana.Escrow
