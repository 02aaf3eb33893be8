import Amana.Escrow.Conservation

/-!
# The stream accounting of a trade

`Account` is what the accounts of a trade should say, kept beside a run from the creation of the
trade on: the amount it was funded with, what was released to the parties and the fees, and what
was clawed back.  Whatever the run, the amount funded is the amount on record plus the clawbacks
(`exact_step`).

`get_stream_accounting` reports the amount on record as the original amount, and
`get_claimed_amount` subtracts from it the clawbacks that are already subtracted.  So the reports on
a trade are right as long as nothing is clawed back from it, and wrong from the first clawback on
(`reportsAgree_iff_not_claws`).
-/

namespace Amana.Escrow

open Lib

variable {s : State} {a : Action} {k : Nat} {t t' : Trade} {tokens : Token.Ledger Address}
  {actions : List Action}

/-- What happened to the money of a trade since it was created. -/
structure Account where
  /-- The amount recorded when it was funded. -/
  funded : Option Int
  /-- What left it for the parties and the fees. -/
  released : Int
  /-- What was clawed back. -/
  clawed : Int
  deriving DecidableEq, Repr

/-- The account of a trade that was just created. -/
def Account.empty : Account := ⟨none, 0, 0⟩

instance (k : Nat) (s : State) : (a : Action) → Decidable (Issues k s a)
  | .call _ _ => inferInstanceAs (Decidable (_ ∧ _ ∧ _))
  | .transfer _ | .mint .. | .burn .. => inferInstanceAs (Decidable False)

/-- The amount trade `k` is funded with in a step. -/
def fundedWith (k : Nat) (s : State) (a : Action) : Option Int :=
  match s.trades.get k, (step s a).trades.get k with
  | some t, some t' => if t.status = .created ∧ t'.status = .funded then some t'.amount else none
  | _, _ => none

/-- The account of trade `k` after a step; a creation opens a new one. -/
def Account.next (k : Nat) (s : State) (a : Action) (acc : Account) : Account :=
  if Issues k s a then .empty
  else
    { funded := (fundedWith k s a).or acc.funded
      released := acc.released + Amana.Escrow.released k s a
      clawed := acc.clawed + clawedBack k s a }

/-- The account of trade `k` after a run. -/
def account (tokens : Token.Ledger Address) (actions : List Action) (k : Nat) : Account :=
  (Machine.run (Machine.shadow step (Account.next k)) (.deployed tokens, .empty) actions).2

/-- What the views report on trade `k` agrees with its account. -/
structure Reports (s : State) (k : Nat) (acc : Account) : Prop where
  /-- The original amount is the one the trade was funded with. -/
  original : ∀ amount, acc.funded = some amount → (getStreamAccounting s k).1 = amount
  clawed : (getStreamAccounting s k).2.2 = acc.clawed
  /-- For a completed trade, what was claimed and what was clawed back make up the original. -/
  whole : ∀ t, s.trades.get k = some t → t.status = .completed →
    (getStreamAccounting s k).2.1 + (getStreamAccounting s k).2.2 = (getStreamAccounting s k).1
  nonneg : 0 ≤ getClaimedAmount s k
  /-- What is reported as claimed of a completed trade is what left it. -/
  claimed : ∀ t, s.trades.get k = some t → t.status = .completed →
    getClaimedAmount s k = acc.released

/-! ## The account is exact -/

/-- The account of a trade with the record `t`. -/
inductive Trade.Tracked (t : Trade) : Account → Prop
  /-- It was never funded. -/
  | unfunded (status : t.status = .created ∨ t.status = .cancelled) : t.Tracked .empty
  /-- What it was funded with is still held, was released or was clawed back. -/
  | funded {released clawed : Int} (status : t.status ≠ .created) (nonneg : 0 ≤ clawed)
      (whole : released + t.held = t.amount) :
      t.Tracked ⟨some (t.amount + clawed), released, clawed⟩

/-- The account belongs to trade `k`. -/
structure Exact (k : Nat) (s : State) (acc : Account) : Prop where
  absent : s.trades.get k = none → s.clawbackTotal.get k = none ∧ acc = .empty
  tracked : ∀ t, s.trades.get k = some t → t.Tracked acc

/-- A step that is not a creation and funds nothing. -/
theorem Account.next_of_quiet {acc : Account} (quiet : ¬ Issues k s a)
    (unfunded : fundedWith k s a = none) :
    acc.next k s a =
      ⟨acc.funded, acc.released + Amana.Escrow.released k s a, acc.clawed + clawedBack k s a⟩ := by
  rw [Account.next, if_neg quiet, unfunded]
  rfl

theorem Account.next_of_still {acc : Account} (quiet : ¬ Issues k s a)
    (unfunded : fundedWith k s a = none) (still : Still s a k) : acc.next k s a = acc := by
  rw [Account.next_of_quiet quiet unfunded, still.released, still.clawed, add_zero, add_zero]

theorem fundedWith_of_stored (stored : s.trades.get k = some t)
    (record : (step s a).trades.get k = some t') :
    fundedWith k s a =
      if t.status = .created ∧ t'.status = .funded then some t'.amount else none := by
  rw [fundedWith, stored, record]

theorem fundedWith_of_same (record : (step s a).trades.get k = s.trades.get k) :
    fundedWith k s a = none := by
  unfold fundedWith
  rw [record]
  cases s.trades.get k with
  | none => rfl
  | some t =>
    refine if_neg fun h => ?_
    cases h.1.symm.trans h.2

/-- An open trade holds its escrow and is tracked as funded. -/
theorem Trade.Tracked.of_live {acc : Account} (h : t.Tracked acc) (live : t.status.live = true) :
    ∃ clawed, 0 ≤ clawed ∧ acc = ⟨some (t.amount + clawed), 0, clawed⟩ := by
  cases h with
  | unfunded status => rcases status with e | e <;> rw [e] at live <;> cases live
  | @funded released clawed _ nonneg whole =>
    rw [Trade.held_of_live live] at whole
    obtain rfl : released = 0 := by omega
    exact ⟨clawed, nonneg, rfl⟩

/-- What is written to an open trade is not another funding. -/
theorem fundedWith_of_live (stored : s.trades.get k = some t) (live : t.status.live = true)
    (record : (step s a).trades.get k = some t') : fundedWith k s a = none := by
  rw [fundedWith_of_stored stored record]
  refine if_neg fun h => ?_
  rw [h.1] at live
  cases live

/-- A step keeps the account exact. -/
theorem exact_step {acc : Account} (wf : WellFormed s.toSettings s.toBooks) (h : Exact k s acc) :
    Exact k (step s a) (acc.next k s a) := by
  have hstored {t' : Trade} (record : (step s a).trades.get k = some t')
      (tracked : t'.Tracked (acc.next k s a)) : Exact k (step s a) (acc.next k s a) := by
    refine ⟨fun hnone => ?_, fun t ht => ?_⟩
    · cases record.symm.trans hnone
    · obtain rfl := Option.some.inj (record.symm.trans ht)
      exact tracked
  cases step_flow wf a k with
  | rest quiet record still =>
    rw [Account.next_of_still quiet (fundedWith_of_same record) still]
    refine ⟨fun hnone => ?_, fun t ht => h.tracked t (record ▸ ht)⟩
    rw [still.totals]
    exact h.absent (record ▸ hnone)
  | create t' issues record status _ =>
    apply hstored record
    rw [Account.next, if_pos issues]
    exact .unfunded (.inl status)
  | early t t' quiet stored record status moved still =>
    apply hstored record
    obtain rfl : acc = .empty := by
      cases h.tracked t stored with
      | unfunded => rfl
      | funded hne => exact absurd status hne
    by_cases hfunded : t'.status = .funded
    · have hnext : Account.next k s a .empty = ⟨some (t'.amount + 0), 0, 0⟩ := by
        rw [Account.next, if_neg quiet, fundedWith_of_stored stored record,
          if_pos ⟨status, hfunded⟩, still.released, still.clawed]
        simp [Account.empty]
      rw [hnext]
      refine .funded (by simp [hfunded]) le_rfl ?_
      rw [Trade.held_of_live (by rw [hfunded]; rfl)]
      omega
    · have hnone : fundedWith k s a = none := by
        rw [fundedWith_of_stored stored record]
        exact if_neg fun e => hfunded e.2
      rw [Account.next_of_still quiet hnone still]
      refine .unfunded ?_
      rcases moved with e | e
      · exact .inl e
      · simp only [TradeStatus.next, List.mem_cons, List.not_mem_nil, or_false] at e
        exact .inr (e.resolve_left hfunded)
  | hold t t' quiet stored record live live' amount still =>
    apply hstored record
    obtain ⟨clawed, nonneg, rfl⟩ := (h.tracked t stored).of_live live
    rw [Account.next_of_still quiet (fundedWith_of_live stored live record) still, ← amount]
    refine .funded (fun e => ?_) nonneg ?_
    · rw [e] at live'
      cases live'
    · rw [Trade.held_of_live live']
      omega
  | payout t t' quiet stored record live closed amount released clawed _ =>
    apply hstored record
    obtain ⟨x, nonneg, rfl⟩ := (h.tracked t stored).of_live live
    rw [Account.next_of_quiet quiet (fundedWith_of_live stored live record), released, clawed,
      add_zero, zero_add, ← amount]
    refine .funded (fun e => ?_) nonneg ?_
    · rw [e] at closed
      cases closed
    · rw [Trade.held_of_closed closed]
      omega
  | clawback t amount now _ quiet stored record status bounds released clawed _ =>
    apply hstored record
    have live : t.status.live = true := by rcases status with e | e <;> rw [e] <;> rfl
    obtain ⟨x, nonneg, rfl⟩ := (h.tracked t stored).of_live live
    have hamount : (t.clawed amount now).amount = t.amount - amount := rfl
    have hwhole : t.amount + x = (t.clawed amount now).amount + (x + amount) := by omega
    rw [Account.next_of_quiet quiet (fundedWith_of_live stored live record), released, clawed,
      hwhole]
    refine .funded (Trade.clawed_not_created status) (by omega) ?_
    rw [Trade.held_clawed _ status, Trade.held_of_live live]
    exact zero_add _

/-! ## The reports -/

theorem getStreamAccounting_of_stored (stored : s.trades.get k = some t) :
    getStreamAccounting s k = (t.amount, getClaimedAmount s k, getClawbackTotal s k) := by
  rw [getStreamAccounting, stored]

/-- Without clawbacks, all of a completed trade was claimed. -/
theorem getClaimedAmount_of_stored (wf : WellFormed s.toSettings s.toBooks)
    (stored : s.trades.get k = some t) (none : getClawbackTotal s k = 0) :
    getClaimedAmount s k = if t.status = .completed then t.amount else 0 := by
  have hsound := wf.trade k t stored
  have hmin := I128.minValue_eq
  have hnonneg := hsound.nonneg
  have hle := hsound.le
  rw [getClaimedAmount, stored]
  dsimp only
  rw [none, I128.saturatingSub_zero (by omega) hle]

theorem reports_of_not_stored (stored : s.trades.get k = none) : Reports s k .empty := by
  refine ⟨fun _ e => ?_, ?_, fun _ ht => ?_, ?_, fun _ ht => ?_⟩
  · cases e
  · rw [getStreamAccounting, stored]
    rfl
  · cases stored.symm.trans ht
  · rw [getClaimedAmount, stored]
  · cases stored.symm.trans ht

/-- The reports on a trade are right when nothing was clawed back from it. -/
theorem reports_of_unclawed {acc : Account} (wf : WellFormed s.toSettings s.toBooks)
    (stored : s.trades.get k = some t) (tracked : t.Tracked acc)
    (total : getClawbackTotal s k = 0) (none : acc.clawed = 0) : Reports s k acc := by
  have hclaimed := getClaimedAmount_of_stored wf stored total
  have hnonneg := (wf.trade k t stored).nonneg
  constructor
  · intro amount hfunded
    rw [getStreamAccounting_of_stored stored]
    cases tracked with
    | unfunded => cases hfunded
    | funded _ _ _ =>
      have hamount := Option.some.inj hfunded
      dsimp only at none hamount ⊢
      omega
  · rw [getStreamAccounting_of_stored stored, none]
    exact total
  · intro t₀ stored₀ hcompleted
    obtain rfl := Option.some.inj (stored.symm.trans stored₀)
    rw [getStreamAccounting_of_stored stored]
    dsimp only
    rw [hclaimed, if_pos hcompleted, total, add_zero]
  · rw [hclaimed]
    split
    · exact hnonneg
    · exact le_rfl
  · intro t₀ stored₀ hcompleted
    obtain rfl := Option.some.inj (stored.symm.trans stored₀)
    rw [hclaimed, if_pos hcompleted]
    cases tracked with
    | unfunded status => rcases status with e | e <;> cases e.symm.trans hcompleted
    | funded _ _ whole =>
      rw [Trade.held_of_closed (by rw [hcompleted]; rfl), add_zero] at whole
      exact whole.symm

/-- The reports on a trade are right when nothing was clawed back from it, and only then. -/
theorem Exact.reports_iff {acc : Account} (wf : WellFormed s.toSettings s.toBooks)
    (h : Exact k s acc) : Reports s k acc ↔ getClawbackTotal s k = 0 ∧ acc.clawed = 0 := by
  cases stored : s.trades.get k with
  | none =>
    obtain ⟨htotal, rfl⟩ := h.absent stored
    have hzero : getClawbackTotal s k = 0 := by
      rw [getClawbackTotal, htotal]
      rfl
    exact ⟨fun _ => ⟨hzero, rfl⟩, fun _ => reports_of_not_stored stored⟩
  | some t =>
    refine ⟨fun hreports => ?_, fun hnone =>
      reports_of_unclawed wf stored (h.tracked t stored) hnone.1 hnone.2⟩
    have hclawed := hreports.clawed
    have horiginal := hreports.original
    rw [getStreamAccounting_of_stored stored] at hclawed horiginal
    cases h.tracked t stored with
    | unfunded => exact ⟨hclawed, rfl⟩
    | @funded released clawed _ _ _ =>
      have hsame := horiginal _ rfl
      dsimp only at hsame hclawed ⊢
      omega

/-! ## Clawbacks -/

/-- A step that is no clawback from the trade leaves its clawback total. -/
theorem unclawed_of_not_claws (wf : WellFormed s.toSettings s.toBooks) (h : ¬ Claws k s a) :
    clawedBack k s a = 0 ∧ getClawbackTotal (step s a) k = getClawbackTotal s k := by
  cases step_flow wf a k with
  | rest _ _ still | create _ _ _ _ still | early _ _ _ _ _ _ _ still
  | hold _ _ _ _ _ _ _ _ still => exact ⟨still.clawed, still.total⟩
  | payout _ _ _ _ _ _ _ _ _ clawed totals => exact ⟨clawed, congrArg (Option.getD · 0) totals⟩
  | clawback _ _ _ claws _ _ _ _ _ _ _ _ => exact absurd claws h

/-- A successful clawback lowers the amount on record. -/
theorem record_of_claws (wf : WellFormed s.toSettings s.toBooks) (h : Claws k s a) :
    ∃ t amount now, s.trades.get k = some t ∧ (t.status = .funded ∨ t.status = .disputed) ∧
      0 < amount ∧ (step s a).trades.get k = some (t.clawed amount now) := by
  cases a with
  | transfer | mint | burn => exact h.elim
  | call env c =>
    obtain ⟨mode, subject, hok⟩ := h
    obtain ⟨s', ok⟩ := isOk_iff.1 hok
    rw [step_call_of_ok ok]
    have hclawed {op : TimelockClawbackOp} {t : Trade} {ledger : Token.Ledger Address}
        (allowed : ClawbackAllowed env s op t ledger) (hk : op.tradeId = k)
        (books : s'.toBooks = clawedBooks env s op t ledger) :
        ∃ t amount now, s.trades.get k = some t ∧ (t.status = .funded ∨ t.status = .disputed) ∧
          0 < amount ∧ s'.trades.get k = some (t.clawed amount now) := by
      subst hk
      refine ⟨t, op.clawbackAmount, env.timestamp, allowed.stored, allowed.status,
        allowed.positive, ?_⟩
      rw [books, clawedBooks, Store.get_set_self]
    cases c with
    | adminClawback t amount destination =>
      obtain ⟨-, ⟨trade, ledger, allowed, books⟩, -⟩ := adminClawback_books wf.amountsInRange ok
      exact hclawed allowed (Option.some.inj subject) books
    | executeClawback id =>
      obtain ⟨q, hq, -, hcases⟩ := executeClawback_books wf.amountsInRange ok
      have hqueued := (loadDueOperation_eq_ok.1 hq).1
      obtain ⟨op, trade, ledger, hpayload, allowed, books, -⟩ | ⟨⟨op, hpayload⟩, -⟩ := hcases
      · refine hclawed allowed ?_ books
        simpa [Call.subject, hqueued, QueuedOperation.target, hpayload] using subject
      · simp [Call.subject, hqueued, QueuedOperation.target, hpayload] at subject
    | _ => cases mode

theorem clawedBack_pos_of_claws (wf : WellFormed s.toSettings s.toBooks) (h : Claws k s a) :
    0 < clawedBack k s a := by
  obtain ⟨t, amount, now, stored, status, positive, hrecord⟩ := record_of_claws wf h
  have hamount : (t.clawed amount now).amount = t.amount - amount := rfl
  -- Any other step would have left the amount on record.
  cases step_flow wf a k with
  | rest _ record _ =>
    have hsame := Option.some.inj ((record.trans stored).symm.trans hrecord)
    have := congrArg Trade.amount hsame
    omega
  | create t' _ record created _ =>
    obtain rfl := Option.some.inj (record.symm.trans hrecord)
    exact absurd created (Trade.clawed_not_created status)
  | early t₀ _ _ stored₀ _ created _ _ =>
    obtain rfl := Option.some.inj (stored.symm.trans stored₀)
    rw [created] at status
    rcases status with e | e <;> cases e
  | hold t₀ t' _ stored₀ record _ _ same _ =>
    obtain rfl := Option.some.inj (stored.symm.trans stored₀)
    obtain rfl := Option.some.inj (record.symm.trans hrecord)
    omega
  | payout t₀ t' _ stored₀ record _ _ same _ _ _ =>
    obtain rfl := Option.some.inj (stored.symm.trans stored₀)
    obtain rfl := Option.some.inj (record.symm.trans hrecord)
    omega
  | clawback _ _ _ _ _ _ _ _ bounds _ clawed _ => omega

theorem not_issues_of_claws (h : Claws k s a) : ¬ Issues k s a := by
  cases a with
  | transfer | mint | burn => exact h.elim
  | call env c => exact fun issues => by cases (creates_of_subject h.2.1).symm.trans issues.1

/-! ## Whole runs -/

/-- In every state of a run, the reports on trade `k` agree with its account. -/
def ReportsAgree (tokens : Token.Ledger Address) (actions : List Action) (k : Nat) : Prop :=
  ∀ before, before <+: actions → Reports (run tokens before) k (account tokens before k)

/-- The reports on a trade are right in every state of a run exactly when the run claws nothing back
from the trade. -/
theorem reportsAgree_iff_not_claws (tokens : Token.Ledger Address) (actions : List Action)
    (k : Nat) :
    ReportsAgree tokens actions k ↔ ∀ p ∈ trail tokens actions, ¬ Claws k p.1 p.2 := by
  refine Machine.always_shadow_iff step (P := fun s acc => Reports s k acc)
    (W := fun s acc => WellFormed s.toSettings s.toBooks ∧ Exact k s acc)
    (C := fun s a => ¬ Claws k s a) actions
    ⟨wellFormed_deployed tokens, fun _ => ⟨rfl, rfl⟩, fun _ ht => (by cases ht)⟩
    (reports_of_not_stored rfl) ?_ ?_ ?_
  · rintro s a acc ⟨wf, hexact⟩
    exact ⟨wellFormed_step wf a, exact_step wf hexact⟩
  · rintro s a acc ⟨wf, hexact⟩ hreports hclean
    obtain ⟨htotal, hzero⟩ := (hexact.reports_iff wf).1 hreports
    obtain ⟨hnone, hsame⟩ := unclawed_of_not_claws wf hclean
    refine ((exact_step wf hexact).reports_iff (wellFormed_step wf a)).2 ⟨hsame.trans htotal, ?_⟩
    unfold Account.next
    split
    · rfl
    · dsimp only
      omega
  · rintro s a acc ⟨wf, hexact⟩ hreports hafter hclaws
    have hzero := ((hexact.reports_iff wf).1 hreports).2
    have hnext := (((exact_step wf hexact).reports_iff (wellFormed_step wf a)).1 hafter).2
    have hpos := clawedBack_pos_of_claws wf hclaws
    rw [Account.next, if_neg (not_issues_of_claws hclaws)] at hnext
    dsimp only at hnext
    omega

/-- A trade of 100 of which 60 are clawed back before the rest is released. -/
def Sample.clawedAndReleased : List Action :=
  Sample.funded ++ [Sample.call 4 Sample.admin (.adminClawback Sample.first 60 Sample.carol),
    Sample.call 5 Sample.alice (.confirmDelivery Sample.first),
    Sample.call 6 Sample.alice (.releaseFunds Sample.first Sample.alice)]

/-- The reports give the 40 that were left as the original amount, and claim that -20 were
released. -/
theorem not_reportsAgree_of_clawback :
    account Sample.tokens Sample.clawedAndReleased Sample.first = ⟨some 100, 40, 60⟩ ∧
      getStreamAccounting (run Sample.tokens Sample.clawedAndReleased) Sample.first =
        (40, -20, 60) ∧
      ¬ ReportsAgree Sample.tokens Sample.clawedAndReleased Sample.first := by
  have haccount : account Sample.tokens Sample.clawedAndReleased Sample.first =
      ⟨some 100, 40, 60⟩ := by decide
  have hreport : getStreamAccounting (run Sample.tokens Sample.clawedAndReleased) Sample.first =
      (40, -20, 60) := by decide
  refine ⟨haccount, hreport, fun h => ?_⟩
  have horiginal := (h _ List.prefix_rfl).original 100 (by rw [haccount])
  rw [hreport] at horiginal
  cases horiginal

end Amana.Escrow
