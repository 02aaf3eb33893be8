import Amana.Escrow.Conservation
import Amana.Escrow.Solvency

/-!
# Exact accounts

Without path payments, the accrued fees are the fees taken less the fees withdrawn; and without
payouts to the contract itself and reissued identifiers, the balance is always the escrow held, the
accrued fees and what came in from outside, to the last unit (`exactAccounts_of_noReissue`).
-/

namespace Amana.Escrow

open Lib

variable {s : State} {a : Action} {tokens : Token.Ledger Address} {actions : List Action}
  {token : Address}

/-- What an action brings into the contract from outside it. -/
def received (token : Address) (s : State) : Action → Int
  | .transfer m =>
    if m.token = token ∧ m.dest = currentContract ∧ m.source ≠ currentContract ∧
        Token.Covered s.tokens.balance m then m.amount
    else 0
  | .mint t dest amount =>
    if t = token ∧ dest = currentContract ∧ (Token.mint s.tokens t dest amount).isSome then amount
    else 0
  | .burn .. | .call .. => 0

/-- The fee a step takes: what the trade it completes held and did not pay out. -/
def feeTaken (s : State) (a : Action) : Int :=
  match a.subject s with
  | none => 0
  | some k =>
    match s.trades.get k, (step s a).trades.get k with
    | some t, some t' =>
      if t.status.live = true ∧ t'.status = .completed then t.amount - total (logged s a) else 0
    | _, _ => 0

/-- The fees a step withdraws. -/
def withdrawn (s : State) : Action → Int
  | .call env (.withdrawFees amount destination) =>
    if (withdrawFees env amount destination s).isOk then amount else 0
  | _ => 0

/-- The fees of a run. -/
structure FeeAccounts (tokens : Token.Ledger Address) (actions : List Action) : Prop where
  /-- The accrued fees are the fees taken less the fees withdrawn. -/
  fees : (run tokens actions).accrued =
    Machine.tally step feeTaken (.deployed tokens) actions -
      Machine.tally step withdrawn (.deployed tokens) actions
  nonneg : 0 ≤ (run tokens actions).accrued
  /-- A withdrawal leaves the trades as they are, and the balance above the escrow held. -/
  principal : ∀ p ∈ trail tokens actions, ∀ env amount destination,
    p.2 = .call env (.withdrawFees amount destination) → ∀ s',
      withdrawFees env amount destination p.1 = .ok s' → ∀ token, p.1.cngnContract = some token →
        s'.trades = p.1.trades ∧ s'.held ≤ s'.tokens.balance token currentContract

/-- The accounts of a run. -/
structure ExactAccounts (tokens : Token.Ledger Address) (actions : List Action) : Prop
    extends FeeAccounts tokens actions where
  /-- The balance is the escrow held, the accrued fees and what came in from outside. -/
  balance : ∀ token, (run tokens actions).cngnContract = some token →
    (run tokens actions).tokens.balance token currentContract =
      (run tokens actions).held + (run tokens actions).accrued +
        (tokens.balance token currentContract +
          Machine.tally step (received token) (.deployed tokens) actions)

/-! ## What comes in -/

theorem balance_of_outside (token : Address) (call : ∀ env c, a ≠ .call env c) :
    (step s a).tokens.balance token currentContract =
      s.tokens.balance token currentContract + received token s a := by
  cases a with
  | call env c => exact absurd rfl (call env c)
  | transfer m =>
    simp only [step, received]
    by_cases hsource : m.source = currentContract
    · simp [hsource]
    · rw [if_neg hsource]
      by_cases hcovered : Token.Covered s.tokens.balance m
      · obtain ⟨l, hl⟩ : ∃ l, Token.transfer s.tokens m = some l := ⟨_, dif_pos hcovered⟩
        rw [hl, State.withTokens]
        dsimp only
        rw [Token.balance_of_transfer hl, Token.moved, if_neg (Ne.symm hsource)]
        by_cases htoken : m.token = token
        · by_cases hdest : m.dest = currentContract
          · simp [htoken, hdest, hsource, hcovered]
          · simp [htoken, hdest, Ne.symm hdest]
        · simp [htoken, Ne.symm htoken]
      · have hnone : Token.transfer s.tokens m = none := dif_neg hcovered
        rw [hnone, State.withTokens, if_neg fun h => hcovered h.2.2.2]
        omega
  | mint t dest amount =>
    simp only [step, received]
    cases hmint : Token.mint s.tokens t dest amount with
    | none => simp [State.withTokens]
    | some l =>
      rw [State.withTokens]
      dsimp only
      rw [Token.balance_of_mint hmint]
      simp [eq_comm]
  | burn t source amount =>
    simp only [step, received]
    by_cases hsource : source = currentContract
    · simp [hsource]
    · rw [if_neg hsource]
      cases hburn : Token.burn s.tokens t source amount with
      | none => simp [State.withTokens]
      | some l =>
        rw [State.withTokens]
        dsimp only
        rw [Token.balance_of_burn hburn _ (Ne.symm hsource)]
        omega

theorem received_of_call (env : Env) (c : Call) : received token s (.call env c) = 0 := rfl

/-! ## Fees -/

theorem feeTaken_eq_zero (h : ∀ k t t', a.subject s = some k → s.trades.get k = some t →
    (step s a).trades.get k = some t' → t.status.live = true → t'.status ≠ .completed) :
    feeTaken s a = 0 := by
  unfold feeTaken
  split
  · rfl
  · next k hsubject =>
    split
    · next t t' ht ht' => exact if_neg fun hboth => h k t t' hsubject ht ht' hboth.1 hboth.2
    · rfl

/-- A step that writes no trade takes no fee. -/
theorem feeTaken_of_same_trades (h : (step s a).trades = s.trades) : feeTaken s a = 0 := by
  refine feeTaken_eq_zero fun k t t' _ ht ht' hlive hcompleted => ?_
  rw [h, ht] at ht'
  obtain rfl := Option.some.inj ht'
  rw [hcompleted] at hlive
  cases hlive

/-- A call takes no fee if the trade it works on is not completed out of escrow. -/
theorem feeTaken_of_record {env : Env} {c : Call} {k : Nat} {t t' : Trade}
    (subject : c.subject s = some k) (stored : s.trades.get k = some t)
    (stored' : (step s (.call env c)).trades.get k = some t')
    (h : t.status.live = true → t'.status ≠ .completed) : feeTaken s (.call env c) = 0 := by
  refine feeTaken_eq_zero fun k₀ t₀ t₀' hsubject ht ht' hlive => ?_
  obtain rfl := Option.some.inj (subject.symm.trans hsubject)
  obtain rfl := Option.some.inj (stored.symm.trans ht)
  obtain rfl := Option.some.inj (stored'.symm.trans ht')
  exact h hlive

theorem withdrawn_of_not_withdraws {env : Env} {c : Call} (h : c.withdraws = false) :
    withdrawn s (.call env c) = 0 := by
  cases c <;> first | rfl | cases h

theorem withdraws_of_subject {c : Call} {k : Nat} (h : c.subject s = some k) :
    c.withdraws = false := by
  cases c <;> first | rfl | cases h

theorem feeTaken_of_payout {env : Env} {c : Call} {k : Nat} {t t' : Trade} {fee : Int}
    (subject : c.subject s = some k) (stored : s.trades.get k = some t)
    (stored' : (step s (.call env c)).trades.get k = some t') (live : t.status.live = true)
    (whole : total (logged s (.call env c)) + fee = t.amount)
    (free : t'.status ≠ .completed → fee = 0) : feeTaken s (.call env c) = fee := by
  unfold feeTaken
  rw [show Action.subject s (.call env c) = some k from subject]
  dsimp only
  rw [stored, stored']
  dsimp only
  split
  · omega
  · next h => exact (free fun e => h ⟨live, e⟩).symm

theorem withdrawn_of_failed (failed : ∀ env c, a = .call env c → (invoke env s c).isOk = false) :
    withdrawn s a = 0 := by
  unfold withdrawn
  split
  · next env amount destination =>
    have hfailed : (withdrawFees env amount destination s).isOk = false := failed env _ rfl
    rw [hfailed]
    rfl
  · rfl

theorem withdrawn_of_not_call (call : ∀ env c, a ≠ .call env c) : withdrawn s a = 0 := by
  cases a with
  | call env c => exact absurd rfl (call env c)
  | transfer | mint | burn => rfl

/-- A step that touches neither fees nor withdrawals. -/
theorem accrued_of_same (hfees : (step s a).accruedFees = s.accruedFees)
    (hfee : feeTaken s a = 0) (hwithdrawn : withdrawn s a = 0) :
    (step s a).accrued = s.accrued + feeTaken s a - withdrawn s a := by
  have haccrued : (step s a).accrued = s.accrued := by
    rw [Books.accrued, hfees]
    rfl
  omega

/-- The accrued fees change by the fee taken and the fees withdrawn. -/
theorem accrued_step (wf : WellFormed s.toSettings s.toBooks)
    (backed : Backed s.toSettings s.toBooks) :
    (step s a).accrued = s.accrued + feeTaken s a - withdrawn s a := by
  have hchange := step_change wf a
  generalize hs' : step s a = s' at hchange
  cases hchange with
  | stay failed =>
    have hsame := accrued_of_same (a := a) (s := s) (by rw [hs'])
      (feeTaken_of_same_trades (by rw [hs'])) (withdrawn_of_failed failed)
    rwa [hs'] at hsame
  | @configure env c _ _ configures conf =>
    subst hs'
    exact accrued_of_same (by rw [conf.books]) (feeTaken_of_same_trades (by rw [conf.books]))
      (withdrawn_of_not_withdraws (by cases c <;> first | rfl | cases configures))
  | outside call _ =>
    have hsame := accrued_of_same (a := a) (s := s) (by rw [hs'])
      (feeTaken_of_same_trades (by rw [hs'])) (withdrawn_of_not_call call)
    rwa [hs'] at hsame
  | @effect env c _ ok effect _ =>
    subst hs'
    cases effect.flow wf with
    | idle trades _ withdraws quiet =>
      exact accrued_of_same quiet.fees (feeTaken_of_same_trades trades)
        (withdrawn_of_not_withdraws withdraws)
    | create trade _ call _ _ quiet =>
      subst call
      refine accrued_of_same quiet.fees (feeTaken_eq_zero fun k _ _ hsubject => ?_) rfl
      cases hsubject
    | early k t t' trades subject stored _ unpaid _ quiet =>
      exact accrued_of_same quiet.fees
        (feeTaken_of_record subject stored (by rw [trades, Store.get_set_self]) fun _ => unpaid)
        (withdrawn_of_not_withdraws (withdraws_of_subject subject))
    | hold k t t' trades subject stored _ live' _ quiet =>
      refine accrued_of_same quiet.fees
        (feeTaken_of_record subject stored (by rw [trades, Store.get_set_self]) fun _ e => ?_)
        (withdrawn_of_not_withdraws (withdraws_of_subject subject))
      rw [e] at live'
      cases live'
    | payout k t t' fee trades subject mode stored live _ _ _ whole bounds free fees _ =>
      obtain ⟨settlement, settles⟩ := exists_settles s.toSettings
      have hfee : feeTaken s (.call env c) = fee := feeTaken_of_payout subject stored
        (by rw [trades, Store.get_set_self]) live whole free
      have hwithdrawn : withdrawn s (.call env c) = 0 :=
        withdrawn_of_not_withdraws (withdraws_of_subject subject)
      have hfits := backed.fee_fits wf settles stored live bounds.2
      have haccrued : (step s (.call env c)).accrued = s.accrued + fee := by
        rw [Books.accrued, fees, accrued_feesWith backed.accrued bounds.1 hfits]
        rfl
      omega
    | clawback k t amount destination trades subject _ stored status _ _ fees _ =>
      refine accrued_of_same fees
        (feeTaken_of_record subject stored (by rw [trades, Store.get_set_self]) fun _ e => ?_)
        (withdrawn_of_not_withdraws (withdraws_of_subject subject))
      unfold Trade.clawed at e
      rcases status with h | h <;> simp only [h] at e <;> split at e <;> cases e
    | withdraw amount destination call trades bounds fees _ =>
      subst call
      have hfee : feeTaken s (.call env (.withdrawFees amount destination)) = 0 :=
        feeTaken_of_same_trades trades
      have hwithdrawn : withdrawn s (.call env (.withdrawFees amount destination)) = amount :=
        if_pos (by rw [show withdrawFees env amount destination s = .ok _ from ok]; rfl)
      have hle : getAccruedFees s ≤ I128.maxValue := backed.accrued_le wf
      have hsub : I128.sub (getAccruedFees s) amount = getAccruedFees s - amount :=
        I128.sub_of_nonneg (by omega) hle (by omega) (by omega)
      have haccrued : (step s (.call env (.withdrawFees amount destination))).accrued =
          I128.sub (getAccruedFees s) amount := by
        rw [Books.accrued, fees]
        rfl
      have hsame : s.accrued = getAccruedFees s := rfl
      omega

/-! ## Runs -/

/-- Whether an action takes part in a path payment. -/
def Action.pathPayment : Action → Bool
  | .call _ c => c.pathPayment
  | _ => false

/-- No action of the run takes part in a path payment. -/
def NoPathPayment (actions : List Action) : Prop := ∀ a ∈ actions, a.pathPayment = false

/-- No payout of the run goes to the contract itself. -/
def NoSelfPayout (tokens : Token.Ledger Address) (actions : List Action) : Prop :=
  ∀ p ∈ trail tokens actions, PaysOthers (step p.1 p.2).tokens p.1.tokens

theorem backed_of_noPathPayment (tokens : Token.Ledger Address) (h : NoPathPayment actions) :
    Backed (run tokens actions).toSettings (run tokens actions).toBooks := by
  refine backed_run ?_
  rintro ⟨s, a⟩ hp
  obtain ⟨before, later, rfl, rfl⟩ := Machine.exists_append_of_mem_trail step hp
  unfold SnapshotCovers
  split
  · next env t caller e =>
    cases e
    cases h (.call env (.finalizePathPayment t caller)) (by simp)
  · trivial

/-- A step adds to the surplus what comes in from outside. -/
theorem surplus_step (wf : WellFormed s.toSettings s.toBooks)
    (backed : Backed s.toSettings s.toBooks) (fresh : ¬ Reissues s a)
    (nopath : a.pathPayment = false)
    (others : PaysOthers (step s a).tokens s.tokens) (settles : s.toSettings.Settles token) :
    (step s a).surplus token = s.surplus token + received token s a := by
  have hchange := step_change wf a
  generalize hs' : step s a = s' at hchange
  cases hchange with
  | stay _ =>
    have hnone : received token s a = 0 := by
      by_cases call : ∃ env c, a = .call env c
      · obtain ⟨env, c, rfl⟩ := call
        rfl
      · have hbalance := balance_of_outside (s := s) (a := a) token
          fun env c e => call ⟨env, c, e⟩
        rw [hs'] at hbalance
        omega
    omega
  | configure _ _ conf =>
    rw [conf.books, received_of_call]
    omega
  | outside call _ =>
    have hbalance := balance_of_outside (s := s) token call
    rw [hs'] at hbalance
    unfold Books.surplus Books.obligations Books.held Books.accrued at *
    dsimp only at *
    omega
  | @effect env c _ ok effect _ =>
    have hpath : c.pathPayment = false := nopath
    have hfinal : ∀ t caller, c ≠ .finalizePathPayment t caller := by
      rintro t caller rfl
      cases hpath
    obtain ⟨gain, hkeeps⟩ := effect.keeps wf backed settles hfinal
    have hgain : gain = 0 := by
      refine hkeeps.exact hpath (fun hcreates => ?_) (by rw [hs'] at others; exact others)
      by_contra hne
      exact fresh ⟨hcreates, by rw [ok]; rfl, Option.isSome_iff_ne_none.2 hne⟩
    rw [hkeeps.surplus, hgain, received_of_call]

theorem NoPathPayment.of_append {later : List Action} (h : NoPathPayment (actions ++ later)) :
    NoPathPayment actions := fun a ha => h a (List.mem_append_left _ ha)

theorem surplus_run (fresh : NoReissue tokens actions) (nopath : NoPathPayment actions)
    (others : NoSelfPayout tokens actions)
    (settles : (run tokens actions).toSettings.Settles token) :
    (run tokens actions).surplus token = tokens.balance token currentContract +
      Machine.tally step (received token) (.deployed tokens) actions := by
  induction actions using List.reverseRecOn with
  | nil =>
    show tokens.balance token currentContract - (0 + 0) = tokens.balance token currentContract + 0
    omega
  | append_singleton actions a ih =>
    have wf := wellFormed_run tokens actions
    rw [run_snoc] at settles
    have settles' := settles_of_step wf settles
    have others' : NoSelfPayout tokens actions := fun p hp => others p (by
      rw [trail, Machine.trail_append]
      exact List.mem_append_left _ hp)
    have hstep := surplus_step wf (backed_of_noPathPayment tokens nopath.of_append) fresh.last
      (nopath a (by simp))
      (others _ (Machine.mem_trail_append step _ actions [] a)) settles'
    rw [run_snoc, Machine.tally_snoc, ← run, hstep,
      ih fresh.of_append nopath.of_append others' settles']
    omega

theorem accrued_run (nopath : NoPathPayment actions) :
    (run tokens actions).accrued = Machine.tally step feeTaken (.deployed tokens) actions -
      Machine.tally step withdrawn (.deployed tokens) actions := by
  induction actions using List.reverseRecOn with
  | nil => rfl
  | append_singleton actions a ih =>
    have hstep := accrued_step (a := a) (wellFormed_run tokens actions)
      (backed_of_noPathPayment tokens nopath.of_append)
    rw [run_snoc, Machine.tally_snoc, Machine.tally_snoc, ← run, hstep,
      ih nopath.of_append]
    omega

/-- A withdrawal leaves every trade as it was. -/
theorem trades_of_withdrawFees {s' : State} {env : Env} {amount : Int} {destination : Address}
    (h : withdrawFees env amount destination s = .ok s') :
    s'.trades = s.trades ∧ s'.toSettings = s.toSettings := by
  simp only [withdrawFees, bind_eq_ok, requireAdmin_eq_ok, assert_eq_ok, expect_eq_ok,
    tokenTransfer_eq_ok, pure_eq_ok, exists_const] at h
  obtain ⟨_, -, -, -, _, -, _, ⟨_, -, rfl⟩, rfl⟩ := h
  exact ⟨rfl, rfl⟩

theorem feeAccounts_of_noPathPayment (nopath : NoPathPayment actions) :
    FeeAccounts tokens actions where
  fees := accrued_run nopath
  nonneg := (backed_of_noPathPayment tokens nopath).accrued
  principal := by
    rintro ⟨s, a⟩ hp env amount destination rfl s' hok token htoken
    obtain ⟨before, later, rfl, rfl⟩ := Machine.exists_append_of_mem_trail step hp
    have happ : before ++ .call env (.withdrawFees amount destination) :: later =
        before ++ [.call env (.withdrawFees amount destination)] ++ later := by simp
    rw [happ] at nopath
    have backed := backed_of_noPathPayment tokens nopath.of_append
    rw [run, Machine.run_snoc, step_call_of_ok (c := .withdrawFees amount destination) hok]
      at backed
    obtain ⟨htrades, hsettings⟩ := trades_of_withdrawFees hok
    have hcovered := backed.covered token fun t ht => by
      rw [hsettings] at ht
      exact Option.some.inj (ht.symm.trans htoken)
    have haccrued := backed.accrued
    unfold Books.surplus Books.obligations at hcovered
    exact ⟨htrades, by omega⟩

/-- Without path payments the fees are accounted for, and without self-payments and reissued
identifiers the accounts are exact. -/
theorem exactAccounts_of_noReissue (nopath : NoPathPayment actions) :
    FeeAccounts tokens actions ∧
      (NoSelfPayout tokens actions → NoReissue tokens actions → ExactAccounts tokens actions) := by
  have hfees : FeeAccounts tokens actions := feeAccounts_of_noPathPayment nopath
  refine ⟨hfees, fun others fresh => ⟨hfees, fun token htoken => ?_⟩⟩
  have hsurplus := surplus_run fresh nopath others
    fun t ht => Option.some.inj (ht.symm.trans htoken)
  unfold Books.surplus Books.obligations at hsurplus
  omega

theorem exactAccounts_of_release_and_withdrawal :
    ExactAccounts Sample.tokens
      [Sample.setup, Sample.create none, Sample.fund,
        Sample.call 4 Sample.alice (.confirmDelivery Sample.first),
        Sample.call 5 Sample.alice (.releaseFunds Sample.first Sample.alice),
        .transfer ⟨Sample.cngn, Sample.carol, currentContract, 7⟩,
        Sample.call 6 Sample.admin (.withdrawFees 1 Sample.admin)] := by
  refine (exactAccounts_of_noReissue ?_).2 ?_ (noReissue_of_creations_le (by decide))
  · unfold NoPathPayment
    decide
  · unfold NoSelfPayout PaysOthers
    decide

/-! ## A reissued identifier -/

/-- A creation moves no tokens and adds nothing to the escrow held. -/
theorem step_create (wf : WellFormed s.toSettings s.toBooks) (expiresAt : Option Nat) :
    (step s (Sample.create expiresAt)).tokens = s.tokens ∧
      (step s (Sample.create expiresAt)).held ≤ s.held := by
  let env : Env := ⟨2, 1, [Sample.alice]⟩
  cases hok : invoke env s (.createTrade Sample.alice Sample.bob 100 5000 5000 expiresAt) with
  | error e =>
    have hstep : step s (Sample.create expiresAt) = s := step_call_of_error hok
    rw [hstep]
    exact ⟨rfl, le_rfl⟩
  | ok s' =>
    have hstep : step s (Sample.create expiresAt) = s' := step_call_of_ok hok
    obtain ⟨trade, hstatus, -, hbooks, -⟩ := creation_books hok
    have hsum := s.trades.sum_set_add (nextIdentifier env s) trade Trade.held
    rw [Trade.held_of_not_live (t := trade) (by rw [hstatus]; rfl)] at hsum
    have hold : 0 ≤ (s.trades.get (nextIdentifier env s)).elim 0 Trade.held := by
      cases hget : s.trades.get (nextIdentifier env s) with
      | none => exact le_rfl
      | some t => exact Trade.held_nonneg (wf.trade _ _ hget).nonneg
    rw [hstep, hbooks]
    refine ⟨rfl, ?_⟩
    unfold Books.held
    dsimp only
    omega

theorem held_countUp (tokens : Token.Ledger Address) (start : List Action)
    (expiresAt : Option Nat) :
    (run tokens (Sample.countUp start expiresAt)).held ≤ (run tokens start).held := by
  rw [run, Sample.countUp, Machine.run_append, ← run]
  refine (Machine.run_invariant step
    (P := fun s => WellFormed s.toSettings s.toBooks ∧ s.held ≤ (run tokens start).held)
    ⟨wellFormed_run tokens start, le_rfl⟩ ?_).2
  rintro ⟨s, a⟩ hp ⟨wf, hle⟩
  obtain ⟨bs, cs, hsplit, -⟩ := Machine.exists_append_of_mem_trail step hp
  obtain rfl : a = Sample.create expiresAt :=
    List.eq_of_mem_replicate (hsplit ▸ List.mem_append_right bs (List.mem_cons_self ..))
  exact ⟨wellFormed_step wf _, (step_create wf expiresAt).2.trans hle⟩

/-- Alice funds a trade, and its identifier is issued again. -/
def Sample.overwritten : List Action := Sample.countUp Sample.funded none ++ [Sample.create none]

/-- After the funding, the run only creates trades. -/
theorem Sample.overwritten_eq : ∃ rest, Sample.overwritten = Sample.funded ++ rest ∧
    ∀ a ∈ rest, a = Sample.create none :=
  ⟨_, List.append_assoc .., fun _ ha =>
    (List.mem_append.1 ha).elim List.eq_of_mem_replicate List.mem_singleton.1⟩

theorem noPathPayment_overwritten : NoPathPayment Sample.overwritten := by
  obtain ⟨rest, hsplit, hrest⟩ := Sample.overwritten_eq
  intro a ha
  rw [hsplit, List.mem_append] at ha
  rcases ha with ha | ha
  · exact (show ∀ a ∈ Sample.funded, a.pathPayment = false by decide) a ha
  · rw [hrest a ha]
    rfl

theorem noSelfPayout_overwritten : NoSelfPayout Sample.tokens Sample.overwritten := by
  obtain ⟨rest, hsplit, hrest⟩ := Sample.overwritten_eq
  rintro ⟨s, a⟩ hp
  rw [hsplit, trail, Machine.trail_append, List.mem_append] at hp
  rcases hp with hp | hp
  · have hstart : ∀ p ∈ trail Sample.tokens Sample.funded,
        PaysOthers (step p.1 p.2).tokens p.1.tokens := by
      unfold PaysOthers
      decide
    exact hstart _ hp
  · obtain ⟨before, later, rfl, rfl⟩ := Machine.exists_append_of_mem_trail step hp
    obtain rfl := hrest a (by simp)
    rw [← Machine.run_append, ← run]
    have htokens := (step_create (wellFormed_run Sample.tokens (Sample.funded ++ before)) none).1
    unfold PaysOthers
    rw [htokens, Token.since_self]
    intro m hm
    cases hm

/-- No path payment and no payment of the contract to itself takes place, but the escrow of the
first trade is no longer on the books. -/
theorem not_exactAccounts_of_overwritten :
    NoPathPayment Sample.overwritten ∧ NoSelfPayout Sample.tokens Sample.overwritten ∧
      ¬ ExactAccounts Sample.tokens Sample.overwritten := by
  refine ⟨noPathPayment_overwritten, noSelfPayout_overwritten, fun h => ?_⟩
  obtain ⟨s₁, s₂, trade, hrun₁, hrun₂, hbooks₁, hkeep, hcreated, -, hbooks₂, hsettings⟩ :=
    reissue_at_wrap Sample.tokens Sample.funded none (by decide) (by decide) (by simp) (by decide)
  obtain ⟨t, hget, hheld⟩ : ∃ t,
      (run Sample.tokens Sample.funded).trades.get Sample.first = some t ∧ t.held = 100 :=
    Option.map_eq_some_iff.1 (by decide)
  have hle := held_countUp Sample.tokens Sample.funded none
  rw [hrun₁, show (run Sample.tokens Sample.funded).held = 100 by decide] at hle
  have hheld₂ : s₂.held = s₁.held - 100 := by
    have hsum := Store.sum_set s₁.trades trade Trade.held (hkeep.trans hget)
    rw [Trade.held_of_not_live (t := trade) (by rw [hcreated]; rfl), hheld, add_zero] at hsum
    rw [Books.held, hbooks₂]
    exact hsum
  have hbalance₂ : s₂.tokens.balance Sample.cngn currentContract = 100 := by
    rw [hbooks₂, hbooks₁]
    exact (show (run Sample.tokens Sample.funded).tokens.balance Sample.cngn currentContract = 100
      by decide)
  have haccrued₂ : s₂.accrued = 0 := by
    rw [hbooks₂, hbooks₁]
    exact (show (run Sample.tokens Sample.funded).accrued = 0 by decide)
  have hreceived : Machine.tally step (received Sample.cngn) (.deployed Sample.tokens)
      Sample.overwritten = 0 := by
    obtain ⟨rest, hsplit, hrest⟩ := Sample.overwritten_eq
    refine Machine.tally_eq_zero step (fun s a ha => ?_) _
    rw [hsplit, List.mem_append] at ha
    rcases ha with ha | ha
    · simp only [Sample.funded, List.mem_cons, List.not_mem_nil, or_false] at ha
      rcases ha with rfl | rfl | rfl <;> rfl
    · rw [hrest a ha]
      rfl
  have hbalance := h.balance Sample.cngn
  rw [show run Sample.tokens Sample.overwritten = s₂ from hrun₂, hreceived, hbalance₂, haccrued₂,
    hheld₂, hsettings] at hbalance
  have hexact := hbalance (by decide)
  have hzero : Sample.tokens.balance Sample.cngn currentContract = 0 := rfl
  omega

end Amana.Escrow
