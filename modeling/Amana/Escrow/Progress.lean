import Amana.Escrow.Governance
import Amana.Lib.Supply

/-!
# Nothing gets stuck

Safety would hold of a contract that never pays anybody.  Here is the other half: in every state of
a run without path payments, over a token of limited supply, each way to end a trade is open to
whoever is entitled to it, for the money is there and no arithmetic fails (`unblocked_run`), and the
admin alone can wind the whole contract down (`exists_windDown`).
-/

namespace Amana.Escrow

open Lib

variable {env : Env} {s s' : State} {c : Call} {k bps : Nat} {t : Trade} {admin : Address}
  {tokens : Token.Ledger Address} {actions : List Action}

/-- The settlement token of the state is of limited supply. -/
def LimitedSupply (s : State) : Prop := ∀ token, s.cngnContract = some token → s.tokens.Fits token

/-- The escrow of every trade is there and can be divided. -/
structure Ready (s : State) : Prop where
  wf : WellFormed s.toSettings s.toBooks
  backed : Backed s.toSettings s.toBooks
  opened : Opened s
  payable : AllPayable s
  founded : Founded s
  supply : LimitedSupply s

theorem opened_run (tokens : Token.Ledger Address) (actions : List Action) :
    Opened (run tokens actions) :=
  (Machine.run_invariant_of_step step actions
    (P := fun s => WellFormed s.toSettings s.toBooks ∧ Opened s)
    ⟨wellFormed_deployed tokens, fun _ _ ht => (by cases ht), fun _ _ ht => (by cases ht)⟩
    fun _ a h => ⟨wellFormed_step h.1 a, opened_step h.1 h.2 a⟩).2

theorem withinLimit_of_pathPayment {a : Action} (h : a.pathPayment = false) : WithinLimit s a := by
  unfold WithinLimit
  split
  · cases h
  · trivial

theorem snapshotCovers_of_pathPayment {a : Action} (h : a.pathPayment = false) :
    SnapshotCovers s a := by
  unfold SnapshotCovers
  split
  · cases h
  · trivial

theorem ready_of_noPathPayment (nopath : NoPathPayment actions)
    (supply : LimitedSupply (run tokens actions)) : Ready (run tokens actions) where
  wf := wellFormed_run tokens actions
  backed := backed_of_noPathPayment tokens nopath
  opened := opened_run tokens actions
  payable := (allPayable_iff_withinLimit tokens actions).2
    (fun _ hp => withinLimit_of_pathPayment (nopath _ (Machine.mem_of_mem_trail step hp)))
    actions ⟨[], List.append_nil _⟩
  founded := founded_run tokens actions
  supply := supply

/-- A call outside the path payments keeps a state ready, if it keeps the supply limited. -/
theorem Ready.step (ready : Ready s) (hpath : c.pathPayment = false)
    (ok : invoke env s c = .ok s') (supply : LimitedSupply s') : Ready s' := by
  obtain rfl := step_call_of_ok ok
  exact
    { wf := wellFormed_step ready.wf _
      backed := backed_step ready.wf ready.backed (snapshotCovers_of_pathPayment hpath)
      opened := opened_step ready.wf ready.opened _
      payable := allPayable_step ready.wf ready.opened ready.payable
        (withinLimit_of_pathPayment hpath)
      founded := founded_step ready.wf ready.founded _
      supply }

/-! ## Supply -/

theorem Effect.fits {b' : Books} {token : Address} (h : Effect env s c b')
    (fits : s.tokens.Fits token) : b'.tokens.Fits token := by
  cases h with
  | deposit _ _ paid | release _ _ _ paid | withdraw _ _ paid => exact Token.fits_transfer paid fits
  | openPath _ _ _ _ paid | claw _ _ _ _ paid => exact Token.fits_transfer paid fits
  | refund _ _ _ paid => exact Token.fits_pay paid fits
  | settle _ _ _ _ _ paidSeller paidBuyer =>
    exact Token.fits_pay paidBuyer (Token.fits_pay paidSeller fits)
  | _ => exact fits

/-- No call creates tokens. -/
theorem invoke_fits {token : Address} (wf : WellFormed s.toSettings s.toBooks)
    (ok : invoke env s c = .ok s') (fits : s.tokens.Fits token) : s'.tokens.Fits token := by
  by_cases hc : c.configures = true
  · rw [(invoke_configured hc ok).books]
    exact fits
  · exact (invoke_effect wf (by simpa using hc) ok).1.fits fits

/-- Whether an action creates tokens. -/
def Action.mints : Action → Bool
  | .mint .. => true
  | _ => false

theorem fits_withTokens {token : Address} {o : Option (Token.Ledger Address)}
    (fits : s.tokens.Fits token) (h : ∀ l, o = some l → l.Fits token) :
    (s.withTokens o).tokens.Fits token := by
  cases o with
  | none => exact fits
  | some l => exact h l rfl

theorem fits_step {token : Address} {a : Action} (wf : WellFormed s.toSettings s.toBooks)
    (hmints : a.mints = false) (fits : s.tokens.Fits token) : (step s a).tokens.Fits token := by
  cases a with
  | call env c =>
    cases h : invoke env s c with
    | error e => rwa [step_call_of_error h]
    | ok s' =>
      rw [step_call_of_ok h]
      exact invoke_fits wf h fits
  | transfer m =>
    simp only [step]
    split
    · exact fits
    · exact fits_withTokens fits fun l hl => Token.fits_transfer hl fits
  | mint => cases hmints
  | burn t source amount =>
    simp only [step]
    split
    · exact fits
    · exact fits_withTokens fits fun l hl => Token.fits_burn hl fits

/-- Where no tokens are created, the supply stays as limited as it was. -/
theorem limitedSupply_run (supply : ∀ token, tokens.Fits token)
    (nomint : ∀ a ∈ actions, a.mints = false) : LimitedSupply (run tokens actions) := by
  intro token _
  exact (Machine.run_invariant step (s := .deployed tokens)
    (P := fun s => WellFormed s.toSettings s.toBooks ∧ s.tokens.Fits token)
    ⟨wellFormed_deployed tokens, supply token⟩ fun p hp h =>
      ⟨wellFormed_step h.1 p.2, fits_step h.1 (nomint _ (Machine.mem_of_mem_trail step hp)) h.2⟩).2

theorem Ready.invoke (ready : Ready s) (hpath : c.pathPayment = false)
    (ok : invoke env s c = .ok s') (token : s'.cngnContract = s.cngnContract) : Ready s' :=
  ready.step hpath ok fun t ht => invoke_fits ready.wf ok (ready.supply t (token ▸ ht))

/-- Alice holds a thousand of every token, and nobody else any. -/
def Sample.scarce : Token.Ledger Address where
  balance := fun _ a => if a = alice then 1000 else 0
  transfers := []
  balance_nonneg := fun _ a => by split <;> decide
  balance_le := fun _ a => by split <;> decide

theorem Sample.fits_scarce (token : Address) : Sample.scarce.Fits token := by
  intro accounts
  show (∑ a ∈ accounts, if a = Sample.alice then (1000 : Int) else 0) ≤ I128.maxValue
  rw [Finset.sum_ite_eq']
  split <;> decide

theorem noPathPayment_funded : NoPathPayment Sample.funded := by
  unfold NoPathPayment
  decide

theorem limitedSupply_funded : LimitedSupply (run Sample.scarce Sample.funded) :=
  limitedSupply_run Sample.fits_scarce (by decide)

/-! ## The money is there -/

theorem Ready.amount_le (ready : Ready s) (stored : s.trades.get k = some t)
    (hlive : t.status.live = true) : t.amount ≤ s.tokens.balance t.token currentContract := by
  have htoken := ready.wf.token k t stored
  have hcovered := ready.backed.covered t.token
    fun _ ht => Option.some.inj (ht.symm.trans htoken)
  have haccrued := ready.backed.accrued
  have hheld := ready.wf.held_le stored
  rw [Trade.held_of_live hlive] at hheld
  unfold Books.surplus Books.obligations at hcovered
  omega

theorem Ready.fits (ready : Ready s) (stored : s.trades.get k = some t) :
    s.tokens.Fits t.token := ready.supply _ (ready.wf.token k t stored)

theorem Ready.amount_nonneg (ready : Ready s) (stored : s.trades.get k = some t) :
    0 ≤ t.amount := (ready.wf.trade k t stored).nonneg

theorem Ready.exists_transfer (ready : Ready s) (stored : s.trades.get k = some t)
    (hlive : t.status.live = true) (dest : Address) {amount : Int}
    (bounds : 0 ≤ amount ∧ amount ≤ t.amount) :
    ∃ l, Token.transfer s.tokens ⟨t.token, currentContract, dest, amount⟩ = some l :=
  Token.exists_transfer (ready.fits stored) bounds.1 (bounds.2.trans (ready.amount_le stored hlive))

theorem Ready.exists_pay (ready : Ready s) (stored : s.trades.get k = some t)
    (hlive : t.status.live = true) (dest : Address) {amount : Int}
    (bounds : 0 ≤ amount ∧ amount ≤ t.amount) :
    ∃ l, Token.pay s.tokens ⟨t.token, currentContract, dest, amount⟩ = some l :=
  Token.exists_pay (ready.fits stored) bounds.1 (bounds.2.trans (ready.amount_le stored hlive))

/-- Every ruling on a disputed trade can be computed and paid. -/
theorem Ready.settlable (ready : Ready s) (stored : s.trades.get k = some t)
    (status : t.status = .disputed) (ruling : bps ≤ 10000) : Settlable s t bps := by
  have hlive : t.status.live = true := by rw [status]; rfl
  have hpay := ready.payable k t stored hlive
  have hsound := ready.wf.trade k t stored
  obtain ⟨split, hsplit⟩ := isOk_iff.1 (hpay.settlement _ _ _ hpay.rates.1 hpay.rates.2 ruling)
  obtain ⟨⟨hnet, hrefund, hfee⟩, hwhole⟩ := disputeSplit_eq_ok hsplit hsound.nonneg hsound.le
  have hpaid : 0 ≤ split.sellerNet ∧ split.sellerNet ≤ t.amount := ⟨hnet, by omega⟩
  obtain ⟨l, hseller⟩ := ready.exists_pay stored hlive t.seller hpaid
  have hbalance := Token.source_of_pay hseller hnet
  have hamount := ready.amount_le stored hlive
  dsimp only at hbalance
  obtain ⟨l', hbuyer⟩ := Token.exists_pay
    (m := ⟨t.token, currentContract, t.buyer, split.buyerRefund⟩)
    (Token.fits_pay hseller (ready.fits stored)) hrefund (by dsimp only; split at hbalance <;> omega)
  exact ⟨split, l, l', hsplit, hseller, hbuyer⟩

/-! ## Every way out -/

/-- Each way to end a trade succeeds exactly for those who are entitled to it, in the states they
are: no balance, no rounding and no act of anybody else stands in the way. -/
structure Unblocked (s : State) : Prop where
  refund : ∀ env k, (refund env k s).isOk = true ↔
    ∃ t, s.trades.get k = some t ∧ env.Signed t.seller ∧
      (t.status = .funded ∨ t.status = .delivered)
  expiry : ∀ env k caller, (claimExpiryRefund env k caller s).isOk = true ↔
    env.Signed caller ∧ ∃ t, s.trades.get k = some t ∧ t.IsParty caller ∧ t.status = .funded ∧
      ∃ deadline, t.expiresAt = some deadline ∧ deadline ≤ env.timestamp
  release : ∀ env k caller, (releaseFunds env k caller s).isOk = true ↔
    isPaused s = false ∧ env.Signed caller ∧ ∃ t, s.trades.get k = some t ∧
      t.status = .delivered ∧ (caller = t.buyer ∨ s.admin = some caller)
  cancel : ∀ env k caller, (cancelTrade env k caller s).isOk = true ↔
    isPaused s = false ∧ env.Signed caller ∧ ∃ t, s.trades.get k = some t ∧
      (t.status = .created ∨ t.status = .funded) ∧ (t.IsParty caller ∨ s.admin = some caller)
  ruling : ∀ env k mediator bps, (resolveDispute env k mediator bps s).isOk = true ↔
    env.Signed mediator ∧ s.Mediates mediator ∧ bps ≤ 10000 ∧ ∃ t, s.trades.get k = some t ∧
      t.status = .disputed ∧ ¬ t.NeedsQuorum s
  withdrawal : ∀ env amount destination,
    (withdrawFees env amount destination s).isOk = true ↔
      (∃ admin, s.admin = some admin ∧ env.Signed admin) ∧ 0 < amount ∧ amount ≤ s.accrued

/-- Where trades are stored, there is an admin. -/
theorem Ready.exists_admin (ready : Ready s) (stored : s.trades.get k = some t) :
    ∃ admin, s.admin = some admin := by
  have hinit := ready.wf.settings.installed (by rw [ready.wf.token k t stored]; rfl)
  obtain ⟨admin, hadmin, -⟩ := ready.founded.admin hinit
  exact ⟨admin, hadmin⟩

/-- `execute_cancellation` pays what the trade holds. -/
theorem Ready.exists_cancellation (ready : Ready s) (stored : s.trades.get k = some t)
    (hlive : t.status.live = true) (env : Env) (caller : Address) :
    ∃ s', executeCancellation env t t.amount caller s = .ok s' := by
  obtain ⟨l, hpaid⟩ := ready.exists_pay stored hlive t.buyer
    ⟨ready.amount_nonneg stored, le_rfl⟩
  simp only [executeCancellation, bind_eq_ok, payOut_eq_ok, pure_eq_ok]
  exact ⟨_, _, ⟨l, hpaid, rfl⟩, rfl⟩

theorem Ready.refund_isOk_iff (ready : Ready s) (env : Env) (k : Nat) :
    (refund env k s).isOk = true ↔ ∃ t, s.trades.get k = some t ∧ env.Signed t.seller ∧
      (t.status = .funded ∨ t.status = .delivered) := by
  rw [isOk_iff]
  simp only [refund, bind_eq_ok, loadTrade_eq_ok, requireAuth_eq_ok, assert_eq_ok, exists_const]
  constructor
  · rintro ⟨s', t, stored, hsigned, hstatus, -⟩
    exact ⟨t, stored, hsigned, hstatus⟩
  · rintro ⟨t, stored, hsigned, hstatus⟩
    have hlive : t.status.live = true := by rcases hstatus with h | h <;> simp [h, TradeStatus.live]
    obtain ⟨s', hok⟩ := ready.exists_cancellation stored hlive env t.seller
    exact ⟨s', t, stored, hsigned, hstatus, hok⟩

theorem Ready.claimExpiryRefund_isOk_iff (ready : Ready s) (env : Env) (k : Nat)
    (caller : Address) : (claimExpiryRefund env k caller s).isOk = true ↔
      env.Signed caller ∧ ∃ t, s.trades.get k = some t ∧ t.IsParty caller ∧ t.status = .funded ∧
        ∃ deadline, t.expiresAt = some deadline ∧ deadline ≤ env.timestamp := by
  rw [isOk_iff]
  simp only [claimExpiryRefund, bind_eq_ok, requireAuth_eq_ok, loadTrade_eq_ok, assert_eq_ok,
    expect_eq_ok, tokenTransfer_eq_ok, pure_eq_ok, exists_const]
  constructor
  · rintro ⟨s', hsigned, t, stored, hparty, hstatus, deadline, hdeadline, hlate, -⟩
    exact ⟨hsigned, t, stored, hparty, hstatus, deadline, hdeadline, hlate⟩
  · rintro ⟨hsigned, t, stored, hparty, hstatus, deadline, hdeadline, hlate⟩
    obtain ⟨l, hpaid⟩ := ready.exists_transfer stored (by rw [hstatus]; rfl) t.buyer
      ⟨ready.amount_nonneg stored, le_rfl⟩
    exact ⟨_, hsigned, t, stored, hparty, hstatus, deadline, hdeadline, hlate, _, ⟨l, hpaid, rfl⟩,
      rfl⟩

theorem Ready.releaseFunds_isOk_iff (ready : Ready s) (env : Env) (k : Nat) (caller : Address) :
    (releaseFunds env k caller s).isOk = true ↔
      isPaused s = false ∧ env.Signed caller ∧ ∃ t, s.trades.get k = some t ∧
        t.status = .delivered ∧ (caller = t.buyer ∨ s.admin = some caller) := by
  rw [isOk_iff]
  simp only [releaseFunds_eq, bind_eq_ok, assertNotPaused_eq_ok, loadTrade_eq_ok, assert_eq_ok,
    requireAuth_eq_ok, loadAdmin_eq_ok, tokenTransfer_eq_ok, pure_eq_ok, exists_const]
  constructor
  · rintro ⟨s', hpaused, t, stored, hstatus, hsigned, admin, hadmin, hrole, -⟩
    refine ⟨hpaused, hsigned, t, stored, hstatus, hrole.imp_right ?_⟩
    rintro rfl
    exact hadmin
  · rintro ⟨hpaused, hsigned, t, stored, hstatus, hrole⟩
    have hlive : t.status.live = true := by rw [hstatus]; rfl
    obtain ⟨admin, hadmin⟩ := ready.exists_admin stored
    have hpay := ready.payable k t stored hlive
    have hsound := ready.wf.trade k t stored
    obtain ⟨⟨sellerAmount, fee⟩, hsplit⟩ := isOk_iff.1 (hpay.release _ hpay.rates.1)
    have hexact := releaseSplit_exact hsplit hsound.nonneg hsound.le
    have hbounds : 0 ≤ sellerAmount ∧ 0 ≤ fee := by
      simp only [releaseSplit, bind_eq_ok, assert_eq_ok, pure_eq_ok, exists_const,
        Prod.mk.injEq] at hsplit
      obtain ⟨_, -, -, hseller, hfee, rfl, rfl⟩ := hsplit
      exact ⟨hseller, hfee⟩
    have hle : 0 ≤ sellerAmount ∧ sellerAmount ≤ t.amount := ⟨hbounds.1, by omega⟩
    obtain ⟨l, hpaid⟩ := ready.exists_transfer stored hlive t.seller hle
    exact ⟨_, hpaused, t, stored, hstatus, hsigned, admin, hadmin,
      hrole.imp_right fun e => Option.some.inj (e.symm.trans hadmin), ⟨sellerAmount, fee⟩, hsplit,
      _, ⟨l, hpaid, rfl⟩, rfl⟩

theorem Ready.resolveDispute_isOk_iff (ready : Ready s) (env : Env) (k : Nat)
    (mediator : Address) (bps : Nat) : (resolveDispute env k mediator bps s).isOk = true ↔
      env.Signed mediator ∧ s.Mediates mediator ∧ bps ≤ 10000 ∧ ∃ t, s.trades.get k = some t ∧
        t.status = .disputed ∧ ¬ t.NeedsQuorum s := by
  constructor
  · intro h
    obtain ⟨s', ok⟩ := isOk_iff.1 h
    obtain ⟨t, t', stored, -, entry⟩ :=
      (invoke_filing (c := .resolveDispute k mediator bps) ready.wf rfl ok).of_subject rfl
    simp only [resolveDispute, bind_eq_ok, requireMediator_eq_ok, assert_eq_ok, exists_const] at ok
    obtain ⟨_, ⟨hsigned, hrole, rfl⟩, hbps, -⟩ := ok
    generalize s'.toFiles.folder k = d' at entry
    cases entry with
    | resolve status _ _ single => exact ⟨hsigned, hrole, hbps, t, stored, status, single⟩
  · rintro ⟨hsigned, hrole, hbps, t, stored, status, single⟩
    have hquorum : requiresQuorum s k = .ok false := by
      unfold requiresQuorum
      dsimp only
      split
      · rfl
      · next henabled =>
        have hsmall : ¬ t.amount ≥ (getQuorumConfig s).valueThreshold :=
          fun hlarge => single ⟨by simpa using henabled, hlarge⟩
        simp [loadTrade, expect, stored, hsmall, bind, Except.bind, pure, Except.pure]
    have hmediator := requireMediator_eq_ok.2 ⟨hsigned, hrole, rfl⟩
    have hsettles : (settleDispute env k bps mediator s).isOk = true :=
      (settleDispute_isOk_iff mediator stored status).2 (ready.settlable stored status hbps)
    obtain ⟨s', ok⟩ := isOk_iff.1 hsettles
    rw [isOk_iff]
    simp only [resolveDispute, bind_eq_ok, assert_eq_ok, exists_const]
    exact ⟨s', mediator, hmediator, hbps, false, hquorum, rfl, ok⟩

theorem Ready.withdrawFees_isOk_iff (ready : Ready s) (env : Env) (amount : Int)
    (destination : Address) : (withdrawFees env amount destination s).isOk = true ↔
      (∃ admin, s.admin = some admin ∧ env.Signed admin) ∧ 0 < amount ∧ amount ≤ s.accrued := by
  rw [isOk_iff]
  simp only [withdrawFees, bind_eq_ok, requireAdmin_eq_ok, assert_eq_ok, expect_eq_ok,
    tokenTransfer_eq_ok, pure_eq_ok, exists_const]
  constructor
  · rintro ⟨s', admin, hsigned, hpos, hle, -⟩
    exact ⟨⟨admin, hsigned⟩, hpos, hle⟩
  · rintro ⟨⟨admin, hadmin, hsigned⟩, hpos, hle⟩
    have hinit := ready.wf.settings.adminInstalled (by rw [hadmin]; rfl)
    obtain ⟨token, htoken⟩ := Option.isSome_iff_exists.1 (ready.founded.settlement hinit)
    have hcovered := ready.backed.covered token fun _ ht => Option.some.inj (ht.symm.trans htoken)
    have hheld := ready.wf.held_nonneg
    unfold Books.surplus Books.obligations at hcovered
    obtain ⟨l, hpaid⟩ := Token.exists_transfer
      (m := ⟨token, currentContract, destination, amount⟩) (ready.supply token htoken) hpos.le
      (by dsimp only; omega)
    exact ⟨_, admin, ⟨hadmin, hsigned⟩, hpos, hle, token, htoken, _, ⟨l, hpaid, rfl⟩, rfl⟩

/-- A party's request goes through whatever it finds on record. -/
theorem Ready.cancelTrade_isOk_iff (ready : Ready s) (env : Env) (k : Nat) (caller : Address) :
    (cancelTrade env k caller s).isOk = true ↔
      isPaused s = false ∧ env.Signed caller ∧ ∃ t, s.trades.get k = some t ∧
        (t.status = .created ∨ t.status = .funded) ∧
        (t.IsParty caller ∨ s.admin = some caller) := by
  rw [isOk_iff]
  simp only [cancelTrade, bind_eq_ok, assertNotPaused_eq_ok, loadTrade_eq_ok, loadAdmin_eq_ok,
    requireAuth_eq_ok, exists_const]
  constructor
  · rintro ⟨s', hpaused, t, stored, admin, hadmin, hsigned, h⟩
    refine ⟨hpaused, hsigned, t, stored, ?_⟩
    split at h
    · next hstatus =>
      simp only [bind_eq_ok, assert_eq_ok, exists_const] at h
      obtain ⟨hrole, -⟩ := h
      refine ⟨.inl hstatus, ?_⟩
      rcases hrole with hrole | hrole | rfl
      · exact .inl (.inl hrole)
      · exact .inl (.inr hrole)
      · exact .inr hadmin
    · next hstatus =>
      refine ⟨.inr hstatus, ?_⟩
      split at h
      · next hrole => exact .inr (hrole ▸ hadmin)
      · simp only [bind_eq_ok, assert_eq_ok, exists_const] at h
        exact .inl h.1
    · cases h
  · rintro ⟨hpaused, hsigned, t, stored, hstatus, hrole⟩
    obtain ⟨admin, hadmin⟩ := ready.exists_admin stored
    have hrole : t.IsParty caller ∨ caller = admin :=
      hrole.imp_right fun e => Option.some.inj (e.symm.trans hadmin)
    have hclaim : caller = t.buyer ∨ caller = t.seller ∨ caller = admin := or_assoc.1 hrole
    rcases hstatus with hstatus | hstatus
    · obtain ⟨s', hok⟩ : ∃ s', executeCancellation env t 0 caller s = .ok s' := by
        simp only [executeCancellation, bind_eq_ok, payOut_eq_ok, pure_eq_ok]
        exact ⟨_, _, ⟨s.tokens, rfl, rfl⟩, rfl⟩
      refine ⟨s', hpaused, t, stored, admin, hadmin, hsigned, ?_⟩
      rw [hstatus]
      simp only [bind_eq_ok, assert_eq_ok, exists_const]
      exact ⟨hclaim, hok⟩
    · have hlive : t.status.live = true := by rw [hstatus]; rfl
      obtain ⟨s', hok⟩ := ready.exists_cancellation stored hlive env caller
      by_cases hadminCall : caller = admin
      · refine ⟨s', hpaused, t, stored, admin, hadmin, hsigned, ?_⟩
        rw [hstatus]
        simp only [if_pos hadminCall]
        rw [← hadminCall]
        exact hok
      · have hparty : t.IsParty caller := hrole.resolve_right hadminCall
        -- either the other party asked before, or the request is only noted
        cases hjoined : (joinCancelRequest t caller
            ((s.cancelRequest.get k).getD (false, false))).1 &&
          (joinCancelRequest t caller ((s.cancelRequest.get k).getD (false, false))).2 with
        | true =>
          refine ⟨{ s' with cancelRequest := s'.cancelRequest.erase k }, hpaused, t, stored, admin,
            hadmin, hsigned, ?_⟩
          rw [hstatus]
          simp only [if_neg hadminCall, hjoined, bind_eq_ok, assert_eq_ok, exists_const, if_true]
          exact ⟨hparty, s', hok, rfl⟩
        | false =>
          refine ⟨saveTrade { s with cancelRequest := s.cancelRequest.set k (joinCancelRequest t
            caller ((s.cancelRequest.get k).getD (false, false))) } k
            { t with updatedAt := env.timestamp }, hpaused, t, stored, admin, hadmin, hsigned, ?_⟩
          rw [hstatus]
          simp only [if_neg hadminCall, hjoined, bind_eq_ok, assert_eq_ok, exists_const,
            Bool.false_eq_true, if_false]
          exact ⟨hparty, rfl⟩

theorem Ready.unblocked (ready : Ready s) : Unblocked s where
  refund := ready.refund_isOk_iff
  expiry := ready.claimExpiryRefund_isOk_iff
  release := ready.releaseFunds_isOk_iff
  cancel := ready.cancelTrade_isOk_iff
  ruling := ready.resolveDispute_isOk_iff
  withdrawal := ready.withdrawFees_isOk_iff

/-- In every state of a run without path payments, over a token of limited supply, nothing but its
own conditions stands in the way of a payout. -/
theorem unblocked_run (nopath : NoPathPayment actions)
    (supply : LimitedSupply (run tokens actions)) : Unblocked (run tokens actions) :=
  (ready_of_noPathPayment nopath supply).unblocked

theorem unblocked_of_funded : Unblocked (run Sample.scarce Sample.funded) :=
  unblocked_run noPathPayment_funded limitedSupply_funded

/-! ## Winding down -/

/-- How many trades hold escrow. -/
def liveCount (s : State) : Nat := s.trades.sum fun t => if t.status.live then 1 else 0

theorem liveCount_eq_zero_iff : liveCount s = 0 ↔
    ∀ k t, s.trades.get k = some t → t.status.live = false := by
  constructor
  · intro h k t stored
    have hle := s.trades.le_sum (f := fun t : Trade => if t.status.live then 1 else 0)
      (fun _ _ _ => Nat.zero_le _) stored
    rw [← liveCount, h] at hle
    by_contra hlive
    simp [hlive] at hle
  · intro h
    refine Finset.sum_eq_zero fun k _ => ?_
    cases stored : s.trades.get k with
    | none => rfl
    | some t => simp [h k t stored]

/-- The admin is set up to close any trade alone. -/
structure Prepared (admin : Address) (s : State) : Prop where
  installed : s.admin = some admin
  unpaused : isPaused s = false
  mediates : s.Mediates admin
  single : (getQuorumConfig s).enabled = false

theorem Prepared.congr (h : Prepared admin s) (same : s'.toSettings = s.toSettings) :
    Prepared admin s' := by
  refine ⟨?_, ?_, ?_, ?_⟩
  · rw [same]
    exact h.installed
  · rw [isPaused, same]
    exact h.unpaused
  · rw [State.Mediates, isMediator, same]
    exact h.mediates
  · rw [getQuorumConfig, same]
    exact h.single

/-- One trade is closed and the settings stay. -/
structure Closes (s s' : State) (k : Nat) : Prop where
  settings : s'.toSettings = s.toSettings
  record : ∃ t', s'.trades = s.trades.set k t' ∧ t'.status.live = false

theorem Closes.liveCount (h : Closes s s' k) (stored : s.trades.get k = some t)
    (hlive : t.status.live = true) : Escrow.liveCount s' + 1 = Escrow.liveCount s := by
  obtain ⟨t', htrades, hclosed⟩ := h.record
  have hsum := s.trades.sum_set_add k t' fun t => if t.status.live then 1 else 0
  rw [stored, Option.elim_some, if_pos hlive, if_neg (by simp [hclosed]), Nat.add_zero] at hsum
  rw [Escrow.liveCount, htrades]
  exact hsum

theorem settleDispute_closes {mediator : Address}
    (ok : settleDispute env k bps mediator s = .ok s') : Closes s s' k := by
  simp only [settleDispute, bind_eq_ok, loadTrade_eq_ok, assert_eq_ok, payOut_eq_ok, pure_eq_ok,
    exists_const] at ok
  obtain ⟨t, -, -, split, -, _, ⟨l, -, rfl⟩, _, ⟨l', -, rfl⟩, rfl⟩ := ok
  exact ⟨rfl, _, rfl, rfl⟩

theorem releaseFunds_closes {caller : Address} (ok : releaseFunds env k caller s = .ok s') :
    Closes s s' k := by
  simp only [releaseFunds_eq, bind_eq_ok, assertNotPaused_eq_ok, loadTrade_eq_ok, assert_eq_ok,
    requireAuth_eq_ok, loadAdmin_eq_ok, tokenTransfer_eq_ok, pure_eq_ok, exists_const] at ok
  obtain ⟨-, t, -, -, -, _, -, -, _, -, _, ⟨l, -, rfl⟩, rfl⟩ := ok
  exact ⟨rfl, _, rfl, rfl⟩

theorem executeCancellation_closes {amount : Int} {caller : Address}
    (ok : executeCancellation env t amount caller s = .ok s') : Closes s s' t.tradeId := by
  simp only [executeCancellation, bind_eq_ok, payOut_eq_ok, pure_eq_ok] at ok
  obtain ⟨_, ⟨l, -, rfl⟩, rfl⟩ := ok
  exact ⟨rfl, _, rfl, rfl⟩

/-- The admin alone closes any trade that holds escrow, with one call. -/
theorem Ready.exists_close (ready : Ready s) (prepared : Prepared admin s)
    (signed : env.Signed admin) (stored : s.trades.get k = some t)
    (hlive : t.status.live = true) :
    ∃ c s', c.pathPayment = false ∧ Escrow.invoke env s c = .ok s' ∧ Closes s s' k := by
  cases hstatus : t.status with
  | created | completed | cancelled =>
    rw [hstatus] at hlive
    cases hlive
  | funded =>
    obtain ⟨s', hok⟩ := ready.exists_cancellation stored hlive env admin
    have hkey := ready.wf.keyed k t stored
    refine ⟨.cancelTrade k admin, s', rfl, ?_, hkey ▸ executeCancellation_closes hok⟩
    simp only [Escrow.invoke, cancelTrade, bind_eq_ok, assertNotPaused_eq_ok, loadTrade_eq_ok,
      loadAdmin_eq_ok, requireAuth_eq_ok, exists_const]
    refine ⟨prepared.unpaused, t, stored, admin, prepared.installed, signed, ?_⟩
    rw [hstatus]
    simp only [if_pos]
    exact hok
  | delivered =>
    obtain ⟨s', ok⟩ := isOk_iff.1 ((ready.releaseFunds_isOk_iff env k admin).2
      ⟨prepared.unpaused, signed, t, stored, hstatus, .inr prepared.installed⟩)
    exact ⟨.releaseFunds k admin, s', rfl, ok, releaseFunds_closes ok⟩
  | disputed =>
    have hsingle : ¬ t.NeedsQuorum s := fun h => by
      rw [Trade.NeedsQuorum, prepared.single] at h
      exact absurd h.1 (by decide)
    obtain ⟨s', ok⟩ := isOk_iff.1 ((ready.resolveDispute_isOk_iff env k admin 10000).2
      ⟨signed, prepared.mediates, le_rfl, t, stored, hstatus, hsingle⟩)
    refine ⟨.resolveDispute k admin 10000, s', rfl, ok, ?_⟩
    simp only [resolveDispute, bind_eq_ok, assert_eq_ok, requireMediator_eq_ok,
      exists_const] at ok
    obtain ⟨_, ⟨-, -, rfl⟩, -, _, -, -, hsettled⟩ := ok
    exact settleDispute_closes hsettled

/-- What the admin has to arrange first. -/
def arrangements (admin : Address) : List Call :=
  [.addGuardian admin, .unpause admin, .addMediator admin, .setQuorumConfig ⟨false, 0, 1, 1, 1⟩]

/-- The admin can always set himself up to close every trade. -/
theorem Ready.arranged (ready : Ready s) (installed : s.admin = some admin)
    (signed : env.Signed admin) :
    Ready (Machine.run Escrow.step s ((arrangements admin).map (.call env))) ∧
      Prepared admin (Machine.run Escrow.step s ((arrangements admin).map (.call env))) := by
  obtain ⟨s₁, ok₁, hs₁⟩ : ∃ s₁, Escrow.invoke env s (.addGuardian admin) = .ok s₁ ∧
      s₁ = { s with guardianRegistry := s.guardianRegistry.set admin true } :=
    ⟨_, bind_eq_ok.2 ⟨admin, requireAdmin_eq_ok.2 ⟨installed, signed⟩, rfl⟩, rfl⟩
  obtain ⟨s₂, ok₂, hs₂⟩ : ∃ s₂, Escrow.invoke env s₁ (.unpause admin) = .ok s₂ ∧
      s₂ = { s₁ with paused := some false } :=
    ⟨_, bind_eq_ok.2 ⟨(), requireAuth_eq_ok.2 signed, bind_eq_ok.2
      ⟨(), assert_eq_ok.2 (by simp [isGuardian, hs₁]), rfl⟩⟩, rfl⟩
  have installed₂ : s₂.admin = some admin := by
    rw [hs₂, hs₁]
    exact installed
  obtain ⟨s₃, ok₃, hs₃⟩ : ∃ s₃, Escrow.invoke env s₂ (.addMediator admin) = .ok s₃ ∧
      s₃.toSettings =
        { s₂.toSettings with mediatorRegistry := s₂.mediatorRegistry.set admin true } :=
    ⟨_, bind_eq_ok.2 ⟨admin, requireAdmin_eq_ok.2 ⟨installed₂, signed⟩, rfl⟩, rfl⟩
  have installed₃ : s₃.admin = some admin := by
    rw [hs₃]
    exact installed₂
  obtain ⟨s₄, ok₄, hs₄⟩ : ∃ s₄, Escrow.invoke env s₃ (.setQuorumConfig ⟨false, 0, 1, 1, 1⟩) =
      .ok s₄ ∧
      s₄.toSettings = { s₃.toSettings with quorumConfig := some ⟨false, 0, 1, 1, 1⟩ } :=
    ⟨_, bind_eq_ok.2 ⟨admin, requireAdmin_eq_ok.2 ⟨installed₃, signed⟩, rfl⟩, rfl⟩
  have hrun : Machine.run Escrow.step s ((arrangements admin).map (.call env)) = s₄ := by
    simp only [arrangements, List.map_cons, List.map_nil, Machine.run_cons, Machine.run_nil,
      step_call_of_ok ok₁, step_call_of_ok ok₂, step_call_of_ok ok₃, step_call_of_ok ok₄]
  rw [hrun]
  refine ⟨?_, ?_, ?_, .inl ?_, ?_⟩
  · refine (((ready.invoke rfl ok₁ ?_).invoke rfl ok₂ ?_).invoke rfl ok₃ ?_).invoke rfl ok₄ ?_
    · rw [hs₁]
    · rw [hs₂]
    · rw [hs₃]
    · rw [hs₄]
  · rw [hs₄]
    exact installed₃
  · rw [isPaused, hs₄, hs₃, hs₂]
    rfl
  · rw [isMediator, hs₄, hs₃, Store.get_set_self]
    rfl
  · rw [getQuorumConfig, hs₄]
    rfl

/-- All trades are closed one after the other. -/
theorem Ready.exists_closeAll (ready : Ready s) (prepared : Prepared admin s)
    (signed : env.Signed admin) : ∃ calls : List Call,
      Ready (Machine.run Escrow.step s (calls.map (.call env))) ∧
        Prepared admin (Machine.run Escrow.step s (calls.map (.call env))) ∧
        liveCount (Machine.run Escrow.step s (calls.map (.call env))) = 0 := by
  induction hn : liveCount s generalizing s with
  | zero => exact ⟨[], ready, prepared, hn⟩
  | succ n ih =>
    obtain ⟨k, t, stored, hlive⟩ : ∃ k t, s.trades.get k = some t ∧ t.status.live = true := by
      by_contra hnone
      have hzero : liveCount s = 0 := liveCount_eq_zero_iff.2 fun k t stored => by
        by_contra hlive
        exact hnone ⟨k, t, stored, by simpa using hlive⟩
      omega
    obtain ⟨c, s', hpath, ok, hcloses⟩ := ready.exists_close prepared signed stored hlive
    have hcount := hcloses.liveCount stored hlive
    obtain ⟨calls, hrest⟩ := ih (ready.invoke hpath ok (by rw [hcloses.settings]))
      (prepared.congr hcloses.settings) (by omega)
    refine ⟨c :: calls, ?_⟩
    rw [List.map_cons, Machine.run_cons, step_call_of_ok ok]
    exact hrest

/-- Once no trade holds escrow, the accrued fees are all the contract owes, and the admin can have
them. -/
theorem Ready.exists_settled (ready : Ready s) (prepared : Prepared admin s)
    (signed : env.Signed admin) (hzero : liveCount s = 0) : ∃ calls : List Call,
      liveCount (Machine.run Escrow.step s (calls.map (.call env))) = 0 ∧
        (Machine.run Escrow.step s (calls.map (.call env))).accrued = 0 := by
  by_cases hnone : s.accrued = 0
  · exact ⟨[], hzero, hnone⟩
  · have hpos := ready.backed.accrued
    obtain ⟨s', ok⟩ := isOk_iff.1 ((ready.withdrawFees_isOk_iff env s.accrued admin).2
      ⟨⟨admin, prepared.installed, signed⟩, by omega, le_rfl⟩)
    refine ⟨[.withdrawFees s.accrued admin], ?_⟩
    rw [List.map_cons, List.map_nil, Machine.run_cons, Machine.run_nil,
      step_call_of_ok (c := .withdrawFees s.accrued admin) ok]
    refine ⟨by rw [liveCount, (trades_of_withdrawFees ok).1]; exact hzero, ?_⟩
    simp only [withdrawFees, bind_eq_ok, requireAdmin_eq_ok, assert_eq_ok, expect_eq_ok,
      tokenTransfer_eq_ok, pure_eq_ok, exists_const] at ok
    obtain ⟨_, -, -, -, _, -, _, ⟨_, -, rfl⟩, rfl⟩ := ok
    exact sub_self s.accrued

/-- The contract owes nothing and no trade holds escrow. -/
structure WoundDown (s : State) : Prop where
  closed : ∀ k t, s.trades.get k = some t → t.status.live = false
  owes : s.obligations = 0

theorem WoundDown.of_settled (hzero : liveCount s = 0) (haccrued : s.accrued = 0) :
    WoundDown s := by
  have hclosed := liveCount_eq_zero_iff.1 hzero
  have hheld : s.held = 0 := Finset.sum_eq_zero fun k _ => by
    cases stored : s.trades.get k with
    | none => rfl
    | some t => exact Trade.held_of_not_live (hclosed k t stored)
  refine ⟨hclosed, ?_⟩
  rw [Books.obligations, hheld, haccrued]
  rfl

/-- From every state of a run without path payments, over a token of limited supply, the admin
alone can close all trades and settle all fees, at any time. -/
theorem exists_windDown (nopath : NoPathPayment actions)
    (supply : LimitedSupply (run tokens actions))
    (installed : (run tokens actions).admin = some admin) (now sequence : Nat) :
    ∃ calls : List Call,
      WoundDown (run tokens (actions ++ calls.map (.call ⟨now, sequence, [admin]⟩))) := by
  have ready := ready_of_noPathPayment nopath supply
  have hinit := ready.wf.settings.adminInstalled (by rw [installed]; rfl)
  obtain ⟨admin', hadmin', hne⟩ := ready.founded.admin hinit
  obtain rfl := Option.some.inj (hadmin'.symm.trans installed)
  have signed : Env.Signed ⟨now, sequence, [admin']⟩ admin' := ⟨List.mem_singleton_self _, hne⟩
  obtain ⟨ready₁, prepared₁⟩ := ready.arranged installed signed
  obtain ⟨closing, ready₂, prepared₂, hzero⟩ := ready₁.exists_closeAll prepared₁ signed
  obtain ⟨settling, hlive, haccrued⟩ := ready₂.exists_settled prepared₂ signed hzero
  refine ⟨arrangements admin' ++ closing ++ settling, ?_⟩
  rw [run, Machine.run_append, ← run, List.map_append, List.map_append, Machine.run_append,
    Machine.run_append]
  exact .of_settled hlive haccrued

theorem exists_windDown_of_funded : (run Sample.scarce Sample.funded).held = 100 ∧
    ∃ calls : List Call, WoundDown (run Sample.scarce
      (Sample.funded ++ calls.map (.call ⟨9, 1, [Sample.admin]⟩))) :=
  ⟨by decide, exists_windDown noPathPayment_funded limitedSupply_funded (by decide) 9 1⟩

end Amana.Escrow
