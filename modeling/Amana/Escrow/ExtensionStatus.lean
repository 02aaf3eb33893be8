import Amana.Escrow.Deadlines
import Amana.Escrow.Wrap
import Mathlib.Order.Bounds.Basic

/-!
# The extension budget of a trade

`get_extension_status` measures the budget that is left from the current deadline, `extend_deadline`
the one that is used up from the new deadline.  The two agree as long as the recorded origin is not
later than the deadline, which only a stale origin at a reissued identifier is
(`originalDeadline_le_run`).  The status reports what the policy leaves over: near the end of the
range of `u64` there are fewer deadlines than that.
-/

namespace Amana.Escrow

open Lib

variable {env : Env} {s s' : State} {a : Action} {k : Nat} {t : Trade}
  {tokens : Token.Ledger Address} {actions : List Action}

/-! ## The parts of `extend_deadline` -/

/-- The deadline and budget assertions of `extend_deadline`.  The result is the deadline that is
extended. -/
def checkExtension (now : Nat) (policy : ExtensionPolicy) (used : Nat)
    (original current : Option Nat) (newDeadline : Nat) : Outcome Nat := do
  let oldDeadline ← expect current (.panic "Trade has no deadline to extend")
  assert (now < oldDeadline) "Cannot extend a deadline that has already passed"
  assert (newDeadline > now) "New deadline must be in the future"
  assert (newDeadline > oldDeadline) "New deadline must be later than the current deadline"
  assert (used < policy.maxExtensions) "Trade has exhausted its deadline extension allowance"
  assert (newDeadline - original.getD oldDeadline ≤ policy.maxTotalExtensionSecs)
    "New deadline exceeds the maximum total extension for this trade"
  return oldDeadline

/-- What `extend_deadline` does once its assertions have passed. -/
def applyExtension (env : Env) (tradeId newDeadline : Nat) (trade : Trade) (oldDeadline : Nat)
    (s : State) : State :=
  let policy := getExtensionPolicy s
  let used := getExtensionCount s tradeId
  let originalDeadline := (s.originalDeadline.get tradeId).getD oldDeadline
  let extendedBy := newDeadline - originalDeadline
  let s :=
    { s with
      originalDeadline :=
        if used = 0 then s.originalDeadline.set tradeId originalDeadline else s.originalDeadline }
  let s := { s with extensionCount := s.extensionCount.set tradeId (U32.add used 1) }
  let s := saveTrade s tradeId
    { trade with expiresAt := some newDeadline, updatedAt := env.timestamp }
  let s := recordTradeEvent env s tradeId "deadline_extended" trade.buyer
    "delivery deadline extended"
  let s := publish s
    (.deadlineExtensionBudget tradeId (U32.add used 1) (policy.maxExtensions - U32.add used 1)
      originalDeadline extendedBy (policy.maxTotalExtensionSecs - extendedBy) eventSchemaVersion)
  publish s (.deadlineExtended tradeId oldDeadline newDeadline)

theorem extendDeadline_eq (env : Env) (k newDeadline : Nat) (s : State) :
    extendDeadline env k newDeadline s = (do
      let trade ← loadTrade s k
      requireAuth env trade.buyer
      requireAuth env trade.seller
      assert (trade.status = .funded) "Trade must be Funded to extend deadline"
      let oldDeadline ← checkExtension env.timestamp (getExtensionPolicy s)
        (getExtensionCount s k) (s.originalDeadline.get k) trade.expiresAt newDeadline
      return applyExtension env k newDeadline trade oldDeadline s) := by
  simp only [extendDeadline, checkExtension, bind_assoc, pure_bind]
  rfl

/-- A funded trade, and a call on it that both parties sign. -/
structure CoSigned (env : Env) (s : State) (k : Nat) (t : Trade) : Prop where
  stored : s.trades.get k = some t
  funded : t.status = .funded
  buyer : t.buyer ∈ env.auths ∧ t.buyer ≠ currentContract
  seller : t.seller ∈ env.auths ∧ t.seller ≠ currentContract

/-- With both signatures an extension stops at the first of its assertions that fails. -/
theorem CoSigned.extendDeadline_eq (h : CoSigned env s k t) (newDeadline : Nat) :
    extendDeadline env k newDeadline s =
      (checkExtension env.timestamp (getExtensionPolicy s) (getExtensionCount s k)
        (s.originalDeadline.get k) t.expiresAt newDeadline).map
          (applyExtension env k newDeadline t · s) := by
  rw [Escrow.extendDeadline_eq, loadTrade_eq_ok.2 h.stored]
  show (do
    requireAuth env t.buyer
    requireAuth env t.seller
    assert (t.status = TradeStatus.funded) "Trade must be Funded to extend deadline"
    let oldDeadline ← checkExtension env.timestamp (getExtensionPolicy s)
      (getExtensionCount s k) (s.originalDeadline.get k) t.expiresAt newDeadline
    return applyExtension env k newDeadline t oldDeadline s) = _
  rw [requireAuth_eq_ok (u := ()).2 h.buyer, requireAuth_eq_ok (u := ()).2 h.seller,
    assert_eq_ok (u := ()).2 h.funded]
  cases checkExtension env.timestamp (getExtensionPolicy s) (getExtensionCount s k)
    (s.originalDeadline.get k) t.expiresAt newDeadline <;> rfl

theorem checkExtension_eq_ok {now used newDeadline d : Nat} {policy : ExtensionPolicy}
    {original current : Option Nat} :
    checkExtension now policy used original current newDeadline = .ok d ↔
      current = some d ∧ now < d ∧ d < newDeadline ∧ used < policy.maxExtensions ∧
        newDeadline - original.getD d ≤ policy.maxTotalExtensionSecs := by
  simp only [checkExtension, bind_eq_ok, expect_eq_ok, assert_eq_ok, pure_eq_ok, exists_const]
  constructor
  · rintro ⟨d, hcurrent, hnow, -, hlater, hcount, htotal, rfl⟩
    exact ⟨hcurrent, hnow, hlater, hcount, htotal⟩
  · rintro ⟨hcurrent, hnow, hlater, hcount, htotal⟩
    exact ⟨d, hcurrent, hnow, by omega, hlater, hcount, htotal, rfl⟩

/-! ## The budget -/

/-- What `get_extension_status` reports. -/
def extensionStatus (tradeId : Nat) (policy : ExtensionPolicy) (used : Nat)
    (original current : Option Nat) : ExtensionStatus :=
  let originalDeadline := original.or current
  let extendedBy :=
    match originalDeadline, current with
    | some original, some current => current - original
    | _, _ => 0
  let secsRemaining := policy.maxTotalExtensionSecs - extendedBy
  let countRemaining := policy.maxExtensions - used
  { tradeId
    extensionsUsed := used
    extensionsRemaining := countRemaining
    originalDeadline
    extendedBySecs := extendedBy
    extensionSecsRemaining := secsRemaining
    isFinalExtension := countRemaining == 1
    isExhausted := countRemaining == 0 || secsRemaining == 0 }

theorem getExtensionStatus_eq (stored : s.trades.get k = some t) :
    getExtensionStatus s k = .ok (extensionStatus k (getExtensionPolicy s) (getExtensionCount s k)
      (s.originalDeadline.get k) t.expiresAt) := by
  rw [getExtensionStatus, loadTrade_eq_ok.2 stored]
  rfl

/-- By how much the deadline `d` can be moved on now. -/
def increases (env : Env) (s : State) (k d : Nat) : Set Nat :=
  {i | ∃ newDeadline ≤ U64.maxValue,
    (extendDeadline env k newDeadline s).isOk = true ∧ i = newDeadline - d}

/-- The status says whether the deadline `d` can be moved on at all, and `largest` is the most. -/
structure StatusExact (env : Env) (s : State) (k d : Nat) (status : ExtensionStatus)
    (largest : Nat) : Prop where
  open_iff : status.isExhausted = false ↔ (increases env s k d).Nonempty
  greatest : status.isExhausted = false → IsGreatest (increases env s k d) largest

theorem mem_increases_iff {d i : Nat} (signed : CoSigned env s k t)
    (deadline : t.expiresAt = some d) (unexpired : env.timestamp < d) :
    i ∈ increases env s k d ↔
      0 < i ∧ d + i ≤ U64.maxValue ∧ getExtensionCount s k < (getExtensionPolicy s).maxExtensions ∧
        d + i - (s.originalDeadline.get k).getD d ≤
          (getExtensionPolicy s).maxTotalExtensionSecs := by
  have haccepted : ∀ newDeadline, (extendDeadline env k newDeadline s).isOk = true ↔
      d < newDeadline ∧ getExtensionCount s k < (getExtensionPolicy s).maxExtensions ∧
        newDeadline - (s.originalDeadline.get k).getD d ≤
          (getExtensionPolicy s).maxTotalExtensionSecs := by
    intro newDeadline
    rw [signed.extendDeadline_eq, isOk_iff]
    simp only [map_eq_ok, checkExtension_eq_ok, deadline, Option.some.injEq]
    constructor
    · rintro ⟨_, _, ⟨rfl, -, hlater, hcount, htotal⟩, -⟩
      exact ⟨hlater, hcount, htotal⟩
    · rintro ⟨hlater, hcount, htotal⟩
      exact ⟨_, d, ⟨rfl, unexpired, hlater, hcount, htotal⟩, rfl⟩
  simp only [increases, Set.mem_ofPred_eq, haccepted]
  constructor
  · rintro ⟨newDeadline, hrange, ⟨hlater, hcount, htotal⟩, rfl⟩
    rw [Nat.add_sub_cancel' hlater.le]
    exact ⟨by omega, hrange, hcount, htotal⟩
  · rintro ⟨hpos, hrange, hcount, htotal⟩
    exact ⟨d + i, hrange, ⟨by omega, hcount, htotal⟩, by omega⟩

/-- When the recorded origin is not later than the deadline, the status is exact up to the end of
the range of `u64`. -/
theorem statusExact_of_le {d : Nat} (signed : CoSigned env s k t)
    (deadline : t.expiresAt = some d) (unexpired : env.timestamp < d)
    (range : d < U64.maxValue) (origin : ∀ o ∈ s.originalDeadline.get k, o ≤ d) :
    ∃ status, getExtensionStatus s k = .ok status ∧
      StatusExact env s k d status (min status.extensionSecsRemaining (U64.maxValue - d)) := by
  refine ⟨_, getExtensionStatus_eq signed.stored, ?_⟩
  obtain ⟨o, ho⟩ : ∃ o, (s.originalDeadline.get k).getD d = o := ⟨_, rfl⟩
  have hle : o ≤ d := by
    rw [← ho]
    cases h : s.originalDeadline.get k with
    | none => exact le_rfl
    | some o => exact origin o h
  have hsecs : (extensionStatus k (getExtensionPolicy s) (getExtensionCount s k)
      (s.originalDeadline.get k) t.expiresAt).extensionSecsRemaining =
      (getExtensionPolicy s).maxTotalExtensionSecs - (d - o) := by
    rw [← ho, deadline]
    cases s.originalDeadline.get k <;> rfl
  have hopen : (extensionStatus k (getExtensionPolicy s) (getExtensionCount s k)
      (s.originalDeadline.get k) t.expiresAt).isExhausted = false ↔
      getExtensionCount s k < (getExtensionPolicy s).maxExtensions ∧
        d - o < (getExtensionPolicy s).maxTotalExtensionSecs := by
    show (_ - _ == 0 || (extensionStatus k (getExtensionPolicy s) (getExtensionCount s k)
      (s.originalDeadline.get k) t.expiresAt).extensionSecsRemaining == 0) = false ↔ _
    rw [hsecs, Bool.or_eq_false_iff, beq_eq_false_iff_ne, beq_eq_false_iff_ne]
    omega
  have hmem := fun i => mem_increases_iff (i := i) signed deadline unexpired
  rw [ho] at hmem
  rw [hsecs]
  constructor
  · rw [hopen]
    constructor
    · rintro ⟨hcount, hleft⟩
      exact ⟨1, (hmem 1).2 ⟨by omega, by omega, hcount, by omega⟩⟩
    · rintro ⟨i, hi⟩
      obtain ⟨hpos, -, hcount, htotal⟩ := (hmem i).1 hi
      exact ⟨hcount, by omega⟩
  · intro h
    obtain ⟨hcount, hleft⟩ := hopen.1 h
    refine ⟨(hmem _).2 ⟨by omega, by omega, hcount, by omega⟩, fun i hi => ?_⟩
    obtain ⟨-, hrange, -, htotal⟩ := (hmem i).1 hi
    omega

/-- The budget an extension announces is the one reported right after it. -/
def BudgetAnnounced (s s' : State) (k : Nat) : Prop :=
  ∃ status original oldDeadline newDeadline, getExtensionStatus s' k = .ok status ∧
    status.originalDeadline = some original ∧
    s'.events = s.events ++
      [.deadlineExtensionBudget status.tradeId status.extensionsUsed status.extensionsRemaining
        original status.extendedBySecs status.extensionSecsRemaining eventSchemaVersion,
        .deadlineExtended k oldDeadline newDeadline]

theorem budgetAnnounced_of_recorded {newDeadline : Nat}
    (recorded : getExtensionCount s k = 0 ∨ (s.originalDeadline.get k).isSome = true)
    (h : extendDeadline env k newDeadline s = .ok s') : BudgetAnnounced s s' k := by
  simp only [extendDeadline_eq, bind_eq_ok, loadTrade_eq_ok, pure_eq_ok] at h
  obtain ⟨t, -, _, -, _, -, _, -, oldDeadline, -, rfl⟩ := h
  have horigin : (applyExtension env k newDeadline t oldDeadline s).originalDeadline.get k =
      some ((s.originalDeadline.get k).getD oldDeadline) := by
    show Store.get (if getExtensionCount s k = 0 then _ else _) k = _
    split
    · exact Store.get_set_self _ _ _
    · next used =>
      obtain ⟨o, ho⟩ := Option.isSome_iff_exists.1 (recorded.resolve_left used)
      rw [ho]
      rfl
  have hcount : getExtensionCount (applyExtension env k newDeadline t oldDeadline s) k =
      U32.add (getExtensionCount s k) 1 := by
    show (Store.get (Store.set _ _ _) k).getD 0 = _
    rw [Store.get_set_self, Option.getD_some]
  have hstored : (applyExtension env k newDeadline t oldDeadline s).trades.get k =
      some { t with expiresAt := some newDeadline, updatedAt := env.timestamp } :=
    Store.get_set_self _ _ _
  have hstatus := getExtensionStatus_eq hstored
  rw [horigin, hcount] at hstatus
  refine ⟨_, (s.originalDeadline.get k).getD oldDeadline, oldDeadline, newDeadline, hstatus, rfl, ?_⟩
  show (s.events ++ [_]) ++ [_] = _
  rw [List.append_assoc]
  rfl

/-! ## Runs -/

/-- Once an extension is counted its origin is recorded. -/
theorem originalDeadline_isSome_run (tokens : Token.Ledger Address) (actions : List Action)
    (k : Nat) : getExtensionCount (run tokens actions) k = 0 ∨
      ((run tokens actions).originalDeadline.get k).isSome = true := by
  induction actions using List.reverseRecOn with
  | nil => exact .inl rfl
  | append_singleton actions a ih =>
    rw [run_snoc]
    cases step_deadline (wellFormed_run tokens actions) a k with
    | keep _ _ count original => rwa [getExtensionCount, count, original]
    | create _ _ _ _ count original => rwa [getExtensionCount, count, original]
    | extend _ _ _ _ _ _ _ _ _ original =>
      refine .inr ?_
      rw [original]
      split
      · rfl
      · next used => exact ih.resolve_left used

/-- In a run that issues no identifier twice, the recorded origin is not later than the deadline. -/
theorem originalDeadline_le_run (fresh : NoReissue tokens actions) {o d : Nat}
    (origin : (run tokens actions).originalDeadline.get k = some o)
    (deadline : (run tokens actions).toBooks.deadline k = some (some d)) : o ≤ d := by
  induction actions using List.reverseRecOn generalizing o d with
  | nil => cases origin
  | append_singleton actions a ih =>
    rw [run_snoc] at origin deadline
    have before := consistent_run fresh.of_append k
    cases step_deadline (wellFormed_run tokens actions) a k with
    | keep _ same _ original =>
      exact ih fresh.of_append (original.symm.trans origin) (same.symm.trans deadline)
    | create _ _ free _ _ original =>
      -- The identifier was free, so nothing was recorded under it.
      cases hoffer : offer tokens actions k with
      | some o =>
        rw [hoffer] at before
        exact absurd (free fresh.last) (Dated.stored before)
      | none =>
        rw [hoffer] at before
        cases (original.symm.trans origin).symm.trans before.2.2
    | extend old new _ hold hnew later _ _ _ original =>
      obtain rfl := Option.some.inj (Option.some.inj (hnew.symm.trans deadline))
      rw [original] at origin
      have hle : ∀ o, (run tokens actions).originalDeadline.get k = some o → o ≤ old :=
        fun o ho => ih fresh.of_append ho hold
      split at origin
      · cases hprev : (run tokens actions).originalDeadline.get k with
        | none =>
          rw [hprev] at origin
          obtain rfl := Option.some.inj origin
          exact later.le
        | some o' =>
          rw [hprev] at origin
          obtain rfl := Option.some.inj origin
          exact (hle _ hprev).trans later.le
      · exact (hle _ origin).trans later.le

/-- What holds of the reported budget in a run. -/
structure StatusReported (tokens : Token.Ledger Address) (actions : List Action) : Prop where
  /-- The status is exact up to the end of the range of `u64`, unless a stale origin is recorded. -/
  exact : ∀ env k t d, CoSigned env (run tokens actions) k t → t.expiresAt = some d →
    env.timestamp < d → d < U64.maxValue →
    (∀ o ∈ (run tokens actions).originalDeadline.get k, o ≤ d) →
    ∃ status, getExtensionStatus (run tokens actions) k = .ok status ∧
      StatusExact env (run tokens actions) k d status
        (min status.extensionSecsRemaining (U64.maxValue - d))
  /-- Only an identifier that is issued twice comes with a stale origin. -/
  origin : NoReissue tokens actions → ∀ k o d,
    (run tokens actions).originalDeadline.get k = some o →
      (run tokens actions).toBooks.deadline k = some (some d) → o ≤ d
  /-- An extension announces the budget that is reported right after it. -/
  announced : ∀ env k newDeadline s',
    extendDeadline env k newDeadline (run tokens actions) = .ok s' →
      BudgetAnnounced (run tokens actions) s' k

/-- In every run the reported budget is exact. -/
theorem statusReported_run (tokens : Token.Ledger Address) (actions : List Action) :
    StatusReported tokens actions where
  exact := fun _ _ _ _ signed deadline unexpired range origin =>
    statusExact_of_le signed deadline unexpired range origin
  origin := fun fresh _ _ _ => originalDeadline_le_run fresh
  announced := fun _ k _ _ h =>
    budgetAnnounced_of_recorded (originalDeadline_isSome_run tokens actions k) h

/-- After one extension by 100 seconds. -/
theorem statusReported_of_extension :
    ∃ status, getExtensionStatus (run Sample.tokens Sample.extended) Sample.first = .ok status ∧
      StatusExact ⟨20, 1, [Sample.alice, Sample.bob]⟩ (run Sample.tokens Sample.extended)
        Sample.first 200 status (min status.extensionSecsRemaining (U64.maxValue - 200)) :=
  (statusReported_run Sample.tokens Sample.extended).exact _ _ _ 200
    ⟨rfl, by decide, by decide, by decide⟩ rfl (by decide) (by decide) (by decide)

namespace Sample

/-- A trade whose deadline is the last but one of the range. -/
def distant : List Action := [setup, create (some (U64.maxValue - 1)), fund]

/-- A trade under the identifier of one that was extended, with an earlier deadline. -/
def stale : List Action := countUp extended (some 50) ++ [create (some 50)] ++ [fund]

end Sample

/-- The record a creation makes, and what it leaves alone. -/
theorem creation_record {buyer seller : Address} {amount : Int} {buyerLoss sellerLoss : Nat}
    {expiresAt : Option Nat}
    (h : invoke env s (.createTrade buyer seller amount buyerLoss sellerLoss expiresAt) = .ok s') :
    ∃ token, s.cngnContract = some token ∧
      s'.trades.get (nextIdentifier env s) = some ⟨nextIdentifier env s, buyer, seller, token,
        amount, .created, env.timestamp, env.timestamp, none, none, buyerLoss, sellerLoss,
        expiresAt⟩ ∧
      s'.toSettings = s.toSettings ∧ s'.tokens = s.tokens ∧
      s'.extensionCount = s.extensionCount ∧ s'.originalDeadline = s.originalDeadline := by
  obtain ⟨⟨id, s'⟩, hcreate, rfl⟩ := map_eq_ok.1 h
  simp only [createTrade, bind_eq_ok, assertNotPaused_eq_ok, requireAuth_eq_ok, assert_eq_ok,
    expect_eq_ok, pure_eq_ok, exists_const, Prod.mk.injEq] at hcreate
  obtain ⟨-, -, -, -, -, -, -, -, -, token, htoken, -, rfl⟩ := hcreate
  exact ⟨token, htoken, Store.get_set_self _ _ _, rfl, rfl, rfl, rfl⟩

/-- The record a deposit makes, and what it leaves alone. -/
theorem deposit_record (stored : s.trades.get k = some t)
    (h : invoke env s (.deposit k) = .ok s') :
    s'.trades.get k =
        some { t with status := .funded, fundedAt := some env.timestamp
                      updatedAt := env.timestamp } ∧
      s'.toSettings = s.toSettings ∧ s'.extensionCount = s.extensionCount ∧
      s'.originalDeadline = s.originalDeadline := by
  simp only [invoke, deposit, bind_eq_ok, assertNotPaused_eq_ok, loadTrade_eq_ok, assert_eq_ok,
    requireAuth_eq_ok, tokenTransfer_eq_ok, pure_eq_ok, exists_const] at h
  obtain ⟨-, t₀, stored₀, -, -, _, ⟨ledger, -, rfl⟩, rfl⟩ := h
  obtain rfl := Option.some.inj (stored.symm.trans stored₀)
  exact ⟨Store.get_set_self _ _ _, rfl, rfl, rfl⟩

/-- The funded trade at a reissued identifier, and the origin and count it takes over. -/
theorem stale_at_wrap :
    ∃ s t, run Sample.tokens Sample.stale = s ∧
      CoSigned ⟨10, 1, [Sample.alice, Sample.bob]⟩ s Sample.first t ∧ t.expiresAt = some 50 ∧
      s.originalDeadline.get Sample.first = some 100 ∧ getExtensionCount s Sample.first = 1 ∧
      getExtensionPolicy s = ⟨defaultMaxDeadlineExtensions, defaultMaxTotalExtensionSecs⟩ := by
  obtain ⟨s₁, s₂, hrun, hsettings, hbooks, -, hid, hok⟩ :=
    countUp_at_wrap Sample.tokens Sample.extended (some 50) (by decide) (by decide) (by simp)
      (by decide)
  have hrun₂ : run Sample.tokens (Sample.countUp Sample.extended (some 50) ++
      [Sample.create (some 50)]) = s₂ := by
    rw [run_snoc, hrun]
    exact step_call_of_ok hok
  obtain ⟨token, htoken, hrecord, hsettings₂, hledger, hcount, horigin⟩ := creation_record hok
  rw [hid] at hrecord
  obtain rfl : Sample.cngn = token := by
    rw [hsettings] at htoken
    exact Option.some.inj htoken
  have hcovered : Token.Covered s₂.tokens.balance
      ⟨Sample.cngn, Sample.alice, currentContract, 100⟩ := by
    rw [hledger, hbooks]
    dsimp only
    decide
  have hpaused : s₂.paused.getD false = false := by
    rw [hsettings₂, hsettings]
    decide
  obtain ⟨s₃, hok₃⟩ : ∃ s₃, invoke ⟨3, 1, [Sample.alice]⟩ s₂ (.deposit Sample.first) = .ok s₃ :=
    deposit_isOk hrecord rfl hpaused (by decide) hcovered
  obtain ⟨hrecord₃, hsettings₃, hcount₃, horigin₃⟩ := deposit_record hrecord hok₃
  have hrun₃ : run Sample.tokens Sample.stale = s₃ := by
    rw [Sample.stale, run_snoc, hrun₂]
    exact step_call_of_ok hok₃
  refine ⟨s₃, _, hrun₃, ⟨hrecord₃, rfl, by decide, by decide⟩, rfl, ?_, ?_, ?_⟩
  · rw [horigin₃, horigin, hbooks]
    dsimp only
    decide
  · rw [getExtensionCount, hcount₃, hcount, hbooks]
    dsimp only
    decide
  · rw [getExtensionPolicy, hsettings₃, hsettings₂, hsettings]
    decide

/-- The status reports more than is left of the range of `u64`, and less than a stale origin
leaves. -/
theorem not_statusExact :
    (∃ t, CoSigned ⟨10, 1, [Sample.alice, Sample.bob]⟩ (run Sample.tokens Sample.distant)
        Sample.first t ∧ t.expiresAt = some (U64.maxValue - 1) ∧
      ∀ status, getExtensionStatus (run Sample.tokens Sample.distant) Sample.first = .ok status →
        ¬ StatusExact ⟨10, 1, [Sample.alice, Sample.bob]⟩ (run Sample.tokens Sample.distant)
          Sample.first (U64.maxValue - 1) status status.extensionSecsRemaining) ∧
    ∃ t, CoSigned ⟨10, 1, [Sample.alice, Sample.bob]⟩ (run Sample.tokens Sample.stale)
        Sample.first t ∧ t.expiresAt = some 50 ∧
      ∀ status, getExtensionStatus (run Sample.tokens Sample.stale) Sample.first = .ok status →
        ¬ StatusExact ⟨10, 1, [Sample.alice, Sample.bob]⟩ (run Sample.tokens Sample.stale)
          Sample.first 50 status status.extensionSecsRemaining := by
  constructor
  · refine ⟨_, ⟨rfl, by decide, by decide, by decide⟩, rfl, fun status hstatus exact => ?_⟩
    rw [getExtensionStatus_eq rfl] at hstatus
    obtain rfl := Except.ok.inj hstatus
    obtain ⟨newDeadline, hrange, -, hlargest⟩ := (exact.greatest (by decide)).1
    have hsecs : 2592000 = newDeadline - (U64.maxValue - 1) := hlargest
    have hmax : U64.maxValue = 2 ^ 64 - 1 := rfl
    omega
  · obtain ⟨s, t, hrun, signed, deadline, origin, count, policy⟩ := stale_at_wrap
    rw [hrun]
    refine ⟨t, signed, deadline, fun status hstatus exact => ?_⟩
    rw [getExtensionStatus_eq signed.stored, origin, count, policy, deadline] at hstatus
    obtain rfl := Except.ok.inj hstatus
    -- 100 seconds after the origin are 150 after the deadline.
    have hmore : 2592001 ∈ increases ⟨10, 1, [Sample.alice, Sample.bob]⟩ s Sample.first 50 := by
      rw [mem_increases_iff signed deadline (by decide), origin, count, policy]
      decide
    have hleast := (exact.greatest (by decide)).2 hmore
    exact absurd hleast (by decide)

end Amana.Escrow
