import Amana.Escrow.Conservation

/-!
# Queued and immediate clawbacks

`admin_clawback` and `execute_clawback` are two bodies for one operation.  They make the same checks
on the trade and leave the same books; the first also looks at the `ClawbackEnabled` switch.  The
immediate one adds to the clawback total with a check for overflow, the queued one without; no
reachable total is near the limit as long as identifiers are not reissued.
-/

namespace Amana.Escrow

open Lib

variable {env : Env} {s s' : State} {op : TimelockClawbackOp}

/-- A queued clawback that is due and still pending. -/
structure Matured (env : Env) (s : State) (id : Nat) (op : TimelockClawbackOp) : Prop where
  queued : ∃ q, s.timelockOperation.get id = some q ∧ q.payload = .clawback op ∧
    q.executed = false ∧ q.cancelled = false ∧ q.executeAfter ≤ env.timestamp

/-- The clawback total of the trade can take the amount. -/
def TotalFits (s : State) (op : TimelockClawbackOp) : Prop :=
  I128.minValue ≤ getClawbackTotal s op.tradeId + op.clawbackAmount ∧
    getClawbackTotal s op.tradeId + op.clawbackAmount ≤ I128.maxValue

/-- The immediate counterpart of a queued clawback. -/
def immediately (env : Env) (op : TimelockClawbackOp) (s : State) : Outcome State :=
  adminClawback env op.tradeId op.clawbackAmount op.destination s

/-- The state with the clawback feature switched on. -/
def switchedOn (s : State) : State := { s with clawbackEnabled := some true }

/-! ## When the two succeed -/

/-- When an immediate clawback succeeds. -/
theorem immediately_isOk (range : AmountsInRange s.toBooks) :
    (immediately env op s).isOk = true ↔
      isClawbackEnabled s = true ∧ TotalFits s op ∧
        ∃ trade tokens, ClawbackAllowed env s op trade tokens := by
  rw [isOk_iff]
  constructor
  · rintro ⟨s', h⟩
    obtain ⟨enabled, ⟨trade, tokens, hallowed, -⟩, -⟩ := adminClawback_books range h
    refine ⟨enabled, ?_, trade, tokens, hallowed⟩
    simp only [immediately, adminClawback, bind_eq_ok, tokenTransfer_eq_ok, expect_eq_ok,
      I128.checkedAdd, I128.checked_eq_some_iff] at h
    obtain ⟨_, -, _, -, _, -, _, -, _, -, _, -, _, ⟨_, -, rfl⟩, _, ⟨htotal, -⟩, -⟩ := h
    exact htotal
  · rintro ⟨enabled, htotal, trade, tokens, h⟩
    obtain ⟨a, hadmin⟩ := h.admin
    simp only [immediately, adminClawback, bind_eq_ok, requireAdmin_eq_ok, assert_eq_ok,
      loadTrade_eq_ok, tokenTransfer_eq_ok, expect_eq_ok, pure_eq_ok, exists_const,
      I128.checkedAdd, I128.checked_eq_some_iff]
    exact ⟨_, a, hadmin, enabled, h.positive, trade, h.stored, h.status, h.enough, _,
      ⟨tokens, h.paid, rfl⟩, _, ⟨htotal, rfl⟩, rfl⟩

/-- No check on the trade reads the switch. -/
theorem clawbackAllowed_switchedOn {trade : Trade} {tokens : Token.Ledger Address} :
    ClawbackAllowed env (switchedOn s) op trade tokens ↔ ClawbackAllowed env s op trade tokens :=
  ⟨fun h => ⟨h.admin, h.positive, h.stored, h.status, h.enough, h.paid⟩,
    fun h => ⟨h.admin, h.positive, h.stored, h.status, h.enough, h.paid⟩⟩

theorem immediately_switchedOn_isOk (range : AmountsInRange s.toBooks) :
    (immediately env op (switchedOn s)).isOk = true ↔
      TotalFits s op ∧ ∃ trade tokens, ClawbackAllowed env s op trade tokens := by
  have hon : isClawbackEnabled (switchedOn s) = true := rfl
  have hfits : TotalFits (switchedOn s) op ↔ TotalFits s op := Iff.rfl
  rw [immediately_isOk (s := switchedOn s) range]
  simp only [hon, hfits, clawbackAllowed_switchedOn, true_and]

/-- What a successful queued clawback found and did. -/
theorem executeClawback_of_matured {id : Nat} (range : AmountsInRange s.toBooks)
    (matured : Matured env s id op) (h : executeClawback env id s = .ok s') :
    ∃ trade tokens, ClawbackAllowed env s op trade tokens ∧
      s'.toBooks = clawedBooks env s op trade tokens := by
  obtain ⟨q, hget, hpayload, -⟩ := matured.queued
  obtain ⟨q', hq', -, hcase⟩ := executeClawback_books range h
  obtain rfl := Option.some.inj (hget.symm.trans (loadDueOperation_eq_ok.1 hq').1)
  rcases hcase with ⟨op', trade, tokens, hpayload', hallowed, hbooks, -⟩ | ⟨⟨_, hupgrade⟩, -⟩
  · obtain rfl := TimelockOpPayload.clawback.inj (hpayload.symm.trans hpayload')
    exact ⟨trade, tokens, hallowed, hbooks⟩
  · cases hpayload.symm.trans hupgrade

/-- When a queued clawback that is due succeeds. -/
theorem executeClawback_isOk {id : Nat} (range : AmountsInRange s.toBooks)
    (matured : Matured env s id op) :
    (executeClawback env id s).isOk = true ↔
      ∃ trade tokens, ClawbackAllowed env s op trade tokens := by
  obtain ⟨q, hget, hpayload, hexecuted, hcancelled, hdue⟩ := matured.queued
  have hq : loadDueOperation env id s = .ok q :=
    loadDueOperation_eq_ok.2 ⟨hget, hdue, hexecuted, hcancelled⟩
  rw [isOk_iff]
  constructor
  · rintro ⟨s', h⟩
    obtain ⟨trade, tokens, hallowed, -⟩ := executeClawback_of_matured range matured h
    exact ⟨trade, tokens, hallowed⟩
  · rintro ⟨trade, tokens, h⟩
    obtain ⟨a, hadmin⟩ := h.admin
    have hadm : requireAdmin env s "Not initialized" = .ok a := requireAdmin_eq_ok.2 hadmin
    simp only [executeClawback, bind_eq_ok, hadm, hq, Except.ok.injEq, exists_eq_left', hpayload,
      assert_eq_ok, loadTrade_eq_ok, tokenTransfer_eq_ok, pure_eq_ok, exists_const]
    exact ⟨_, h.positive, trade, h.stored, h.status, h.enough, _, ⟨tokens, h.paid, rfl⟩, rfl⟩

/-- In a run that reissues no identifier the clawback totals stay below the limit. -/
theorem ClawbackAllowed.totalFits {trade : Trade} {tokens : Token.Ledger Address}
    (h : ClawbackAllowed env s op trade tokens) (bounds : ClawbackBounds s.toBooks) :
    TotalFits s op := by
  obtain ⟨hpos, hmax⟩ := bounds.bounded _ _ h.stored
  have henough := h.enough
  have hpositive := h.positive
  have hmin := I128.minValue_eq
  unfold TotalFits getClawbackTotal
  omega

/-- What a successful immediate clawback found and did, with the switch as it is or turned on. -/
theorem immediately_books (range : AmountsInRange s.toBooks)
    (h : immediately env op s = .ok s' ∨ immediately env op (switchedOn s) = .ok s') :
    ∃ trade tokens, ClawbackAllowed env s op trade tokens ∧
      s'.toBooks = clawedBooks env s op trade tokens := by
  rcases h with h | h
  · obtain ⟨-, ⟨trade, tokens, hallowed, hbooks⟩, -⟩ := adminClawback_books range h
    exact ⟨trade, tokens, hallowed, hbooks⟩
  · obtain ⟨-, ⟨trade, tokens, hallowed, hbooks⟩, -⟩ :=
      adminClawback_books (s := switchedOn s) range h
    exact ⟨trade, tokens, clawbackAllowed_switchedOn.1 hallowed, hbooks⟩

/-- A clawback is paid from the trade as it is stored, so what it leaves is determined. -/
theorem ClawbackAllowed.books_unique {trade trade' : Trade} {tokens tokens' : Token.Ledger Address}
    (h : ClawbackAllowed env s op trade tokens) (h' : ClawbackAllowed env s op trade' tokens') :
    clawedBooks env s op trade tokens = clawedBooks env s op trade' tokens' := by
  obtain rfl := Option.some.inj (h.stored.symm.trans h'.stored)
  obtain rfl := Option.some.inj (h.paid.symm.trans h'.paid)
  rfl

/-- An immediate clawback of a part leaves the release sequences as they are. -/
theorem immediately_sequence {trade : Trade} (range : AmountsInRange s.toBooks)
    (stored : s.trades.get op.tradeId = some trade) (part : op.clawbackAmount < trade.amount)
    (h : immediately env op s = .ok s') : s'.releaseSequence = s.releaseSequence := by
  simp only [immediately, adminClawback, bind_eq_ok, requireAdmin_eq_ok, assert_eq_ok,
    loadTrade_eq_ok, tokenTransfer_eq_ok, expect_eq_ok, pure_eq_ok, exists_const] at h
  obtain ⟨_, -, -, hpositive, found, hfound, -, -, _, ⟨tokens, -, rfl⟩, _, -, rfl⟩ := h
  obtain rfl := Option.some.inj (stored.symm.trans hfound)
  have hleft : I128.sub trade.amount op.clawbackAmount ≠ 0 := by
    rw [sub_clawback (range _ _ stored).2 hpositive part.le]
    omega
  rw [if_neg hleft]
  rfl

/-- A queued clawback never touches them. -/
theorem executeClawback_sequence {id : Nat} (h : executeClawback env id s = .ok s') :
    s'.releaseSequence = s.releaseSequence := by
  simp only [executeClawback, bind_eq_ok] at h
  obtain ⟨_, -, q, -, h⟩ := h
  split at h
  · simp only [bind_eq_ok, assert_eq_ok, loadTrade_eq_ok, tokenTransfer_eq_ok, pure_eq_ok,
      exists_const] at h
    obtain ⟨-, _, -, -, -, _, ⟨tokens, -, rfl⟩, rfl⟩ := h
    rfl
  · cases pure_eq_ok.1 h
    rfl

/-! ## Agreement over runs -/

/-- The two clawbacks match: they succeed together, and then leave the same records. -/
def ClawbacksMatch (env : Env) (s : State) (id : Nat) (op : TimelockClawbackOp) : Prop :=
  ((executeClawback env id s).isOk = true ↔ (immediately env op s).isOk = true) ∧
    ∀ s₁ s₂, immediately env op s = .ok s₁ → executeClawback env id s = .ok s₂ →
      s₁.trades.get op.tradeId = s₂.trades.get op.tradeId ∧
      s₁.clawbackTotal.get op.tradeId = s₂.clawbackTotal.get op.tradeId ∧
      s₁.releaseSequence.get op.tradeId = s₂.releaseSequence.get op.tradeId ∧
      s₁.tradeHistory.get op.tradeId = s₂.tradeHistory.get op.tradeId

/-- The two clawbacks agree up to the feature switch, which only the immediate one reads, and up to
the overflow check on the clawback total, which only the immediate one makes. -/
structure ClawbacksAgree (env : Env) (s : State) (id : Nat) (op : TimelockClawbackOp) : Prop where
  checks : (immediately env op (switchedOn s)).isOk = true ↔
    TotalFits s op ∧ (executeClawback env id s).isOk = true
  switch : (immediately env op s).isOk = true ↔
    isClawbackEnabled s = true ∧ (immediately env op (switchedOn s)).isOk = true
  books : ∀ s₁ s₂, immediately env op s = .ok s₁ ∨ immediately env op (switchedOn s) = .ok s₁ →
    executeClawback env id s = .ok s₂ → s₁.toBooks = s₂.toBooks
  /-- A clawback of a part. -/
  sequence : ∀ s₁ s₂ trade, s.trades.get op.tradeId = some trade →
    op.clawbackAmount < trade.amount →
    immediately env op s = .ok s₁ ∨ immediately env op (switchedOn s) = .ok s₁ →
    executeClawback env id s = .ok s₂ → s₁.releaseSequence = s₂.releaseSequence

/-- In every reachable state the two clawbacks agree.  The overflow check can only fail in a run
that reissued an identifier. -/
theorem clawbacksAgree_of_matured {tokens : Token.Ledger Address} {actions : List Action} {id : Nat}
    (matured : Matured env (run tokens actions) id op) :
    ClawbacksAgree env (run tokens actions) id op ∧
      (NoReissue tokens actions → (executeClawback env id (run tokens actions)).isOk = true →
        TotalFits (run tokens actions) op) := by
  have range := (wellFormed_run tokens actions).amountsInRange
  have hqueued := executeClawback_isOk range matured
  have hon : (immediately env op (switchedOn (run tokens actions))).isOk = true ↔ _ :=
    immediately_switchedOn_isOk range
  refine ⟨⟨?_, ?_, ?_, ?_⟩, ?_⟩
  · rw [hqueued, hon]
  · rw [immediately_isOk range, hon]
  · intro s₁ s₂ h₁ h₂
    obtain ⟨trade, tokens₁, hallowed, hbooks⟩ := immediately_books range h₁
    obtain ⟨trade', tokens₂, hallowed', hbooks'⟩ := executeClawback_of_matured range matured h₂
    rw [hbooks, hbooks', hallowed.books_unique hallowed']
  · intro s₁ s₂ trade stored part h₁ h₂
    rw [executeClawback_sequence h₂]
    rcases h₁ with h₁ | h₁
    · exact immediately_sequence range stored part h₁
    · exact immediately_sequence (s := switchedOn (run tokens actions)) range stored part h₁
  · intro fresh hok
    obtain ⟨_, _, hallowed⟩ := hqueued.1 hok
    exact hallowed.totalFits (clawbackBounds_run fresh)

namespace Sample

/-- A clawback of 40 from the first trade. -/
def clawback : TimelockClawbackOp := ⟨first, 40, carol⟩

/-- The clawback is queued at time 4. -/
def queued : List Action := funded ++ [call 4 admin (.queueClawback first 40 carol)]

/-- The clawback is queued, and then the feature is switched off. -/
def switchedOff : List Action := queued ++ [call 5 admin (.setClawbackEnabled false)]

/-- A clawback of the whole escrow. -/
def wholeClawback : TimelockClawbackOp := ⟨first, 100, carol⟩

def queuedWhole : List Action := funded ++ [call 4 admin (.queueClawback first 100 carol)]

/-- The admin, a day after the clawback was queued. -/
def nextDay : Env := ⟨86404, 1, [admin]⟩

theorem queued_matured : Matured nextDay (run tokens queued) 0 clawback :=
  ⟨_, rfl, rfl, rfl, rfl, by decide⟩

theorem switchedOff_matured : Matured nextDay (run tokens switchedOff) 0 clawback :=
  ⟨_, rfl, rfl, rfl, rfl, by decide⟩

theorem queuedWhole_matured : Matured nextDay (run tokens queuedWhole) 0 wholeClawback :=
  ⟨_, rfl, rfl, rfl, rfl, by decide⟩

end Sample

theorem clawbacksAgree_of_queued :
    ClawbacksAgree Sample.nextDay (run Sample.tokens Sample.queued) 0 Sample.clawback ∧
      (executeClawback Sample.nextDay 0 (run Sample.tokens Sample.queued)).isOk = true ∧
      TotalFits (run Sample.tokens Sample.queued) Sample.clawback := by
  have hagree := clawbacksAgree_of_matured Sample.queued_matured
  have hok : (executeClawback Sample.nextDay 0 (run Sample.tokens Sample.queued)).isOk = true := by
    decide
  exact ⟨hagree.1, hok, hagree.2 (noReissue_of_creations_le (by decide)) hok⟩

/-- With the feature switched off the queued clawback still goes through, and the immediate one
does not.  With the feature on only the immediate one writes to the trade's history, and where it
takes the whole escrow, only the immediate one stamps the cancellation on the release sequence. -/
theorem not_clawbacksMatch_of_switchedOff :
    (Matured Sample.nextDay (run Sample.tokens Sample.switchedOff) 0 Sample.clawback ∧
      ¬ ClawbacksMatch Sample.nextDay (run Sample.tokens Sample.switchedOff) 0 Sample.clawback) ∧
    (Matured Sample.nextDay (run Sample.tokens Sample.queued) 0 Sample.clawback ∧
      ¬ ClawbacksMatch Sample.nextDay (run Sample.tokens Sample.queued) 0 Sample.clawback) ∧
    Matured Sample.nextDay (run Sample.tokens Sample.queuedWhole) 0 Sample.wholeClawback ∧
      ¬ ClawbacksMatch Sample.nextDay (run Sample.tokens Sample.queuedWhole) 0
        Sample.wholeClawback := by
  refine ⟨⟨Sample.switchedOff_matured, fun h => ?_⟩, ⟨Sample.queued_matured, fun h => ?_⟩,
    Sample.queuedWhole_matured, fun h => ?_⟩
  · exact absurd (h.1.1 (by decide)) (by decide)
  · obtain ⟨-, -, -, hhistory⟩ := h.2 _ _ rfl rfl
    exact absurd hhistory (by decide)
  · obtain ⟨-, -, hsequence, -⟩ := h.2 _ _ rfl rfl
    exact absurd hsequence (by decide)

end Amana.Escrow
