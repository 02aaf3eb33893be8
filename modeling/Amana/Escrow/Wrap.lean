import Amana.Escrow.Folder

/-!
# A trade under a reissued identifier

When an identifier is issued again, `create_trade` overwrites the record and the release sequence
that are there and leaves the rest of the folder, so the new trade takes over the cancel requests
and the votes of the old one (`created_at_wrap`, `funded_at_wrap`).
-/

namespace Amana.Escrow

open Lib

variable {env : Env} {s : State}

/-- Counting on leaves every folder whose identifier is not issued. -/
theorem run_creations_folder {buyer seller token : Address} {amount : Int}
    {buyerLoss sellerLoss : Nat} {expiresAt : Option Nat} {n k : Nat} (m : Nat)
    (wf : WellFormed s.toSettings s.toBooks) (hpaused : s.paused.getD false = false)
    (htoken : s.cngnContract = some token) (hauth : buyer ∈ env.auths ∧ buyer ≠ currentContract)
    (hamount : 0 < amount ∧ amount ≤ maxTradeValue) (hne : buyer ≠ seller)
    (hloss : buyerLoss + sellerLoss = 10000) (hdeadline : ∀ d ∈ expiresAt, d > env.timestamp)
    (hcounter : s.nextTradeId.getD 1 = n) (hm : n + m < 2 ^ 64)
    (hk : ∀ i, n ≤ i → i < n + m → k % 2 ^ 32 ≠ i % 2 ^ 32) :
    (Machine.run step s (List.replicate m (.call env
        (.createTrade buyer seller amount buyerLoss sellerLoss expiresAt)))).toFiles.folder k =
      s.toFiles.folder k := by
  induction m with
  | zero => rfl
  | succ m ih =>
    have hbefore := ih (by omega) fun i hlo hhi => hk i hlo (by omega)
    obtain ⟨mid, hrun, -, hcount, -, -⟩ :=
      run_creations m hpaused htoken hauth hamount hne hloss hdeadline hcounter (by omega)
    have wf' : WellFormed mid.toSettings mid.toBooks := by
      rw [← hrun]
      exact Machine.run_invariant_of_step step (P := fun s => WellFormed s.toSettings s.toBooks) _
        wf fun _ a h => wellFormed_step h a
    rw [List.replicate_succ', Machine.run_snoc, hrun]
    rw [hrun] at hbefore
    have hchange := step_at wf' (.call env
      (.createTrade buyer seller amount buyerLoss sellerLoss expiresAt)) k
    generalize step mid _ = s' at hchange
    cases hchange with
    | same _ _ folder => exact folder.trans hbefore
    | create _ _ _ _ issued _ _ _ _ =>
      refine absurd ?_ (hk (n + m) (by omega) (by omega))
      rw [issued, nextIdentifier, tradeIdOf_mod, hcount]
    | write _ _ _ subject _ _ _ => cases subject

/-- All in ledger 1, what was kept beside the first trade is still there when its identifier comes
up again. -/
theorem reissue_folder (tokens : Token.Ledger Address) (start : List Action)
    (expiresAt : Option Nat) (hpaused : (run tokens start).paused.getD false = false)
    (htoken : (run tokens start).cngnContract = some Sample.cngn)
    (hdeadline : ∀ d ∈ expiresAt, d > 2) (hcounter : (run tokens start).nextTradeId.getD 1 = 2) :
    (run tokens (Sample.countUp start expiresAt)).toFiles.folder Sample.first =
      (run tokens start).toFiles.folder Sample.first := by
  rw [Sample.countUp, run, Machine.run_append]
  refine run_creations_folder (2 ^ 32 - 1) (wellFormed_run tokens start) hpaused htoken (by decide)
    (by decide) (by decide) rfl hdeadline hcounter (by decide) fun i hlo hhi => ?_
  show (2 ^ 32 + 1) % 2 ^ 32 ≠ i % 2 ^ 32
  omega

/-- The state after the creation that issues the first identifier again. -/
theorem created_at_wrap (tokens : Token.Ledger Address) (start : List Action)
    (hpaused : (run tokens start).paused.getD false = false)
    (htoken : (run tokens start).cngnContract = some Sample.cngn)
    (hcounter : (run tokens start).nextTradeId.getD 1 = 2) :
    ∃ s t, run tokens (Sample.countUp start none ++ [Sample.create none]) = s ∧
      s.trades.get Sample.first = some t ∧
      (t.status = .created ∧ t.buyer = Sample.alice ∧ t.seller = Sample.bob ∧ t.amount = 100) ∧
      s.toSettings = (run tokens start).toSettings ∧ s.tokens = (run tokens start).tokens ∧
      (s.toFiles.folder Sample.first).votes =
        ((run tokens start).toFiles.folder Sample.first).votes ∧
      (s.toFiles.folder Sample.first).cancelRequest =
        ((run tokens start).toFiles.folder Sample.first).cancelRequest := by
  have hfolder := reissue_folder tokens start none hpaused htoken (by simp) hcounter
  have hissues := issues_at_wrap tokens start none hpaused htoken (by simp) hcounter
  have wf := wellFormed_run tokens (Sample.countUp start none)
  obtain ⟨s₁, s, trade, hrun₁, hrun, hbooks₁, -, -, -, hbooks, hsettings⟩ :=
    reissue_at_wrap tokens start none hpaused htoken (by simp) hcounter
  rw [run_snoc] at hrun
  rw [hrun₁] at hfolder hissues wf hrun
  have hfiling := step_filing wf (Sample.create none)
  rw [hrun] at hfiling
  obtain ⟨hquiet, -, -⟩ | ⟨env, c, hcall, -, hfiling⟩ := hfiling
  · exact absurd hissues (not_issues_of_creates hquiet)
  rw [hcall] at hissues
  cases hfiling with
  | idle creates _ _ _ => cases creates.symm.trans hissues.1
  | create t call tradeId status _ record folder _ _ _ _ =>
    obtain hid : t.tradeId = Sample.first := tradeId.trans hissues.2.2
    rw [hid] at record folder
    rw [hfolder] at folder
    simp only [Sample.create, Sample.call, call, Action.call.injEq, Call.createTrade.injEq]
      at hcall
    obtain ⟨-, hbuyer, hseller, hamount, -⟩ := hcall
    have htokens : s.tokens = (run tokens start).tokens := by rw [hbooks, hbooks₁]
    refine ⟨s, t, by rw [run_snoc, hrun₁, hrun], record, ⟨status, hbuyer.symm, hseller.symm,
      hamount.symm⟩, hsettings, htokens, ?_, ?_⟩
    · rw [folder]
      rfl
    · rw [folder]
      rfl
  | write _ _ _ _ subject _ _ _ _ _ _ _ _ =>
    cases (creates_of_subject subject).symm.trans hissues.1

/-- `deposit` succeeds on a created trade whose buyer can pay. -/
theorem deposit_isOk {k : Nat} {t : Trade} (stored : s.trades.get k = some t)
    (status : t.status = .created) (hpaused : s.paused.getD false = false)
    (hauth : t.buyer ∈ env.auths ∧ t.buyer ≠ currentContract)
    (hcovered : Token.Covered s.tokens.balance ⟨t.token, t.buyer, currentContract, t.amount⟩) :
    ∃ s', invoke env s (.deposit k) = .ok s' := by
  simp only [invoke, deposit, bind_eq_ok, assertNotPaused_eq_ok, loadTrade_eq_ok, assert_eq_ok,
    requireAuth_eq_ok, tokenTransfer_eq_ok, pure_eq_ok, exists_const]
  exact ⟨_, hpaused, t, stored, status, hauth, _, ⟨_, dif_pos hcovered, rfl⟩, rfl⟩

/-- The payment a deposit made. -/
theorem deposit_paid {k : Nat} {t : Trade} {s' : State} (stored : s.trades.get k = some t)
    (h : invoke env s (.deposit k) = .ok s') :
    Token.transfer s.tokens ⟨t.token, t.buyer, currentContract, t.amount⟩ = some s'.tokens := by
  simp only [invoke, deposit, bind_eq_ok, assertNotPaused_eq_ok, loadTrade_eq_ok, assert_eq_ok,
    requireAuth_eq_ok, tokenTransfer_eq_ok, pure_eq_ok, exists_const] at h
  obtain ⟨-, t₀, stored₀, -, -, _, ⟨ledger, hpaid, rfl⟩, rfl⟩ := h
  obtain rfl := Option.some.inj (stored.symm.trans stored₀)
  exact hpaid

/-- The new trade can be funded, and the funding leaves what it took over. -/
theorem funded_at_wrap (tokens : Token.Ledger Address) (start : List Action)
    (hpaused : (run tokens start).paused.getD false = false)
    (htoken : (run tokens start).cngnContract = some Sample.cngn)
    (hcounter : (run tokens start).nextTradeId.getD 1 = 2)
    (hbalance : 100 ≤ (run tokens start).tokens.balance Sample.cngn Sample.alice)
    (hroom : (run tokens start).tokens.balance Sample.cngn currentContract + 100 ≤
      I128.maxValue) :
    ∃ s t, run tokens (Sample.countUp start none ++ [Sample.create none, Sample.fund]) = s ∧
      s.trades.get Sample.first = some t ∧
      (t.status = .funded ∧ t.buyer = Sample.alice ∧ t.seller = Sample.bob ∧ t.amount = 100) ∧
      s.toSettings = (run tokens start).toSettings ∧
      (100 ≤ s.tokens.balance Sample.cngn currentContract ∧
        s.tokens.balance Sample.cngn Sample.alice + 100 =
          (run tokens start).tokens.balance Sample.cngn Sample.alice) ∧
      (s.toFiles.folder Sample.first).votes =
        ((run tokens start).toFiles.folder Sample.first).votes ∧
      (s.toFiles.folder Sample.first).cancelRequest =
        ((run tokens start).toFiles.folder Sample.first).cancelRequest := by
  obtain ⟨s₂, t, hrun, stored, ⟨status, hbuyer, hseller, hamount⟩, hsettings, htokens, hvotes,
    hrequests⟩ := created_at_wrap tokens start hpaused htoken hcounter
  have wf : WellFormed s₂.toSettings s₂.toBooks := hrun ▸ wellFormed_run tokens _
  have hcngn : t.token = Sample.cngn := by
    have hboth := wf.token _ t stored
    rw [hsettings, htoken] at hboth
    exact (Option.some.inj hboth).symm
  have hcovered : Token.Covered s₂.tokens.balance
      ⟨t.token, t.buyer, currentContract, t.amount⟩ := by
    rw [hcngn, hbuyer, hamount, htokens]
    exact ⟨by decide, hbalance, .inr hroom⟩
  obtain ⟨s₃, hok⟩ : ∃ s₃, invoke ⟨3, 1, [Sample.alice]⟩ s₂ (.deposit Sample.first) = .ok s₃ :=
    deposit_isOk stored status (by rw [hsettings]; exact hpaused) (by rw [hbuyer]; decide) hcovered
  have hrun₃ : run tokens
      (Sample.countUp start none ++ [Sample.create none, Sample.fund]) = s₃ := by
    have happ : Sample.countUp start none ++ [Sample.create none, Sample.fund] =
        Sample.countUp start none ++ [Sample.create none] ++ [Sample.fund] := by simp
    rw [happ, run_snoc, hrun]
    exact step_call_of_ok hok
  obtain ⟨t₀, t', stored₀, record, entry⟩ := (invoke_filing wf rfl hok).of_subject rfl
  obtain rfl := Option.some.inj (stored.symm.trans stored₀)
  have hframe := (invoke_effect wf rfl hok).2.1
  have hpaid := deposit_paid stored hok
  rw [hcngn, hbuyer, hamount] at hpaid
  have hreceived := Token.dest_of_transfer hpaid (by decide)
  have hspent := Token.source_of_transfer hpaid
  rw [if_neg (by decide), htokens] at hspent
  have hnonneg := s₂.tokens.balance_nonneg Sample.cngn currentContract
  dsimp only at hreceived hspent
  generalize hd : s₃.toFiles.folder Sample.first = d' at entry
  cases entry with
  | deposit _ _ ht =>
    subst ht
    refine ⟨s₃, _, hrun₃, record, ⟨rfl, hbuyer, hseller, hamount⟩, hframe.trans hsettings,
      ⟨by omega, by omega⟩, ?_, ?_⟩
    · rw [hd, ← hvotes]
      rfl
    · rw [hd, ← hrequests]
      rfl

end Amana.Escrow
