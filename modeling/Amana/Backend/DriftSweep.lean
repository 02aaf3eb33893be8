import Amana.Backend.ClawbackMirror
import Amana.Backend.Numbers
import Amana.Backend.Schema
import Mathlib.Tactic.Linarith

/-!
# The daily reconciliation

A sweep compares what each active account has on the chain with the amounts of its active trades.
The amounts are read with `BigInt`, which throws at a point; an account whose check throws is counted
like the others.  The drift is classified in whole basis points of what is expected, and as none
where nothing is.  So a sweep misses no drift just when all of its amounts are whole, nothing is held
where nothing is expected, and no drift is less than a basis point above the threshold
(`sweep_misses_none_iff`).
-/

namespace Amana.Backend

inductive DriftSeverity where
  | none
  | warning
  | critical
  deriving DecidableEq, Repr

structure AccountDriftReport where
  accountAddress : String
  assetCode : String
  dbBalance : String
  onChainBalance : String
  drift : String
  driftBps : WithTop Nat
  severity : DriftSeverity

structure ReconciliationSweepResult where
  accountsChecked : Nat
  driftsDetected : Nat
  warnings : Nat
  criticals : Nat
  reports : List AccountDriftReport

/-- The columns of a stream that are read. -/
structure ReconciledStream where
  recipient : String
  status : StreamStatus
  deriving DecidableEq, Repr

/-- The thresholds of the environment, in basis points: safe integers. -/
structure DriftThresholds where
  warning : Nat
  critical : Nat
  warning_safe : warning < 2 ^ 53
  critical_safe : critical < 2 ^ 53

/-- The defaults of the environment. -/
def defaultThresholds : DriftThresholds := ⟨100, 1000, by decide, by decide⟩

section Sweep

-- The balances are those of the Stellar service, which may throw (`none`).
variable (thresholds : DriftThresholds) (getAccountBalance : String → String → Option String)
variable (trades : List TradeRow) (streams : List ReconciledStream)

/-- `FUNDED`, `DELIVERED` and `DISPUTED` trades. -/
def TradeRow.isActive (trade : TradeRow) : Bool :=
  trade.status == .funded || trade.status == .delivered || trade.status == .disputed

def ReconciledStream.isActive (stream : ReconciledStream) : Bool :=
  stream.status == .active || stream.status == .suspended

/-- Each address once, where it came first. -/
def collectActiveAddresses : List (String × String) :=
  ((trades.filter TradeRow.isActive).flatMap (fun trade =>
      [trade.buyerAddress, trade.sellerAddress]) ++
    (streams.filter ReconciledStream.isActive).map ReconciledStream.recipient).eraseDups.map
    fun address => (address, "USDC")

def classifyDriftSeverity (driftBps : WithTop Nat) : DriftSeverity :=
  if (thresholds.critical : WithTop Nat) < driftBps then .critical
  else if (thresholds.warning : WithTop Nat) < driftBps then .warning
  else .none

/-- The active trades an address is a party of. -/
def activeTradesOf (address : String) : List TradeRow :=
  trades.filter fun trade =>
    (trade.buyerAddress == address || trade.sellerAddress == address) && trade.isActive

/-- What is expected of an address: the sum of the amounts. -/
def expectedBalanceOf (rows : List TradeRow) : Option Int :=
  rows.foldlM (fun sum trade => do
    let amount ← bigInt trade.amountUsdc
    some (sum + amount)) 0

/-- `none` where the check throws, and `some none` where there is nothing to report. -/
def checkAccountDrift (address assetCode : String) : Option (Option AccountDriftReport) := do
  let onChainBalanceStr ← getAccountBalance address assetCode
  let onChainBalance ← bigInt onChainBalanceStr
  let expectedBalance ← expectedBalanceOf (activeTradesOf trades address)
  let drift := onChainBalance - expectedBalance
  let driftAbs := drift.natAbs
  let driftBps : WithTop Nat :=
    if 0 < expectedBalance then toNumber (driftAbs * 10000 / expectedBalance.toNat) else 0
  let severity := classifyDriftSeverity thresholds driftBps
  if severity = .none ∧ driftAbs = 0 then some none
  else some (some ⟨address, assetCode, toString expectedBalance, onChainBalanceStr, toString drift,
    driftBps, severity⟩)

/-- The loop over the accounts: a check that throws is logged, and the loop goes on. -/
def checkAccounts : List (String × String) → List AccountDriftReport
  | [] => []
  | (address, assetCode) :: rest =>
    match checkAccountDrift thresholds getAccountBalance trades address assetCode with
    | some (some report) => report :: checkAccounts rest
    | some none | none => checkAccounts rest

/-- The kind and the message of the alert, if there is one. -/
def ReconciliationSweepResult.alert (result : ReconciliationSweepResult) : Option (String × String) :=
  if 0 < result.criticals then
    some ("reconciliation_drift_critical",
      s!"Critical drift detected in {result.criticals} accounts")
  else if 0 < result.warnings then
    some ("reconciliation_drift_warning", s!"Drift detected in {result.warnings} accounts")
  else none

def sweep : ReconciliationSweepResult :=
  let addresses := collectActiveAddresses trades streams
  let reports := checkAccounts thresholds getAccountBalance trades addresses
  { accountsChecked := addresses.length
    driftsDetected := reports.countP fun report => report.severity ≠ .none
    warnings := reports.countP fun report => report.severity = .warning
    criticals := reports.countP fun report => report.severity = .critical
    reports := reports }

/-- The amounts of the active trades of an address. -/
def expectedOf (address : String) : ℚ :=
  ((activeTradesOf trades address).map fun trade => decimalValue trade.amountUsdc).sum

/-- The balance differs from what is expected by more than the warning threshold, or at all where
nothing is expected. -/
def Drifts (address balance : String) : Prop :=
  if expectedOf trades address = 0 then decimalValue balance ≠ 0
  else thresholds.warning * expectedOf trades address <
    |decimalValue balance - expectedOf trades address| * 10000

/-- An account that drifts is reported, and what could not be checked is not counted. -/
def MissesNone : Prop :=
  let result := sweep thresholds getAccountBalance trades streams
  (∀ account ∈ collectActiveAddresses trades streams,
    ∀ balance ∈ getAccountBalance account.1 account.2, Drifts thresholds trades account.1 balance →
      ∃ report ∈ result.reports, report.accountAddress = account.1 ∧
        (report.severity = .warning ∨ report.severity = .critical)) ∧
  result.accountsChecked = (collectActiveAddresses trades streams).countP fun account =>
    (checkAccountDrift thresholds getAccountBalance trades account.1 account.2).isSome

/-- The drift is above the warning threshold by less than one basis point. -/
def BarelyDrifts (address balance : String) : Prop :=
  thresholds.warning * expectedOf trades address <
      |decimalValue balance - expectedOf trades address| * 10000 ∧
    |decimalValue balance - expectedOf trades address| * 10000 <
      (thresholds.warning + 1) * expectedOf trades address

/-- An account the sweep gets right: its balance is there, and it and the amounts are whole; nothing
is held where nothing is expected; and the drift is not barely above the threshold. -/
def SoundAccount (account : String × String) : Prop :=
  ∃ balance ∈ getAccountBalance account.1 account.2,
    '.' ∉ balance.toList ∧
    (∀ trade ∈ activeTradesOf trades account.1, '.' ∉ trade.amountUsdc.toList) ∧
    (expectedOf trades account.1 = 0 → decimalValue balance = 0) ∧
    ¬ (BarelyDrifts thresholds trades account.1 balance ∧ thresholds.warning ≤ thresholds.critical)

/-- The texts are those of decimal numbers, and those of the trades are not negative. -/
structure WellWritten : Prop where
  balance : ∀ address assetCode, ∀ text ∈ getAccountBalance address assetCode, IsDecimal 7 text
  amount : ∀ trade ∈ trades, IsDecimal 7 trade.amountUsdc ∧ 0 ≤ decimalValue trade.amountUsdc

variable {thresholds getAccountBalance trades streams}

/-! ## The check of one account -/

/-- Whole amounts are added up. -/
theorem foldlM_bigInt : ∀ (rows : List TradeRow) (start : Int),
    (∀ trade ∈ rows, IsDecimal 7 trade.amountUsdc ∧ '.' ∉ trade.amountUsdc.toList) →
    ∃ total : Int, rows.foldlM (fun sum trade => do
        let amount ← bigInt trade.amountUsdc
        some (sum + amount)) start = some total ∧
      (total : ℚ) = start + (rows.map fun trade => decimalValue trade.amountUsdc).sum
  | [], start, _ => ⟨start, by simp, by simp⟩
  | trade :: rows, start, h => by
    obtain ⟨hdecimal, hwhole⟩ := h trade List.mem_cons_self
    obtain ⟨amount, hamount, hvalue⟩ := bigInt_of_isDecimal hdecimal hwhole
    obtain ⟨total, htotal, hsum⟩ := foldlM_bigInt rows (start + amount) fun t ht =>
      h t (List.mem_cons_of_mem _ ht)
    refine ⟨total, ?_, ?_⟩
    · rw [List.foldlM_cons, hamount]
      exact htotal
    · rw [hsum, List.map_cons, List.sum_cons, ← hvalue, Int.cast_add, add_assoc]

/-- Where the amounts are added up, they are whole. -/
theorem whole_of_foldlM : ∀ (rows : List TradeRow) (start total : Int),
    (∀ trade ∈ rows, IsDecimal 7 trade.amountUsdc) →
    rows.foldlM (fun sum trade => do
        let amount ← bigInt trade.amountUsdc
        some (sum + amount)) start = some total →
    ∀ trade ∈ rows, '.' ∉ trade.amountUsdc.toList
  | [], _, _, _, _ => by simp
  | trade :: rows, start, total, hdecimal, h => by
    simp only [List.foldlM_cons, Option.bind_eq_bind, Option.bind_eq_some_iff] at h
    obtain ⟨next, ⟨amount, hamount, -⟩, hrest⟩ := h
    rintro other (_ | ⟨_, hother⟩)
    · exact (bigInt_isSome_iff (hdecimal trade List.mem_cons_self)).1 (by rw [hamount]; rfl)
    · exact whole_of_foldlM rows next total
        (fun t ht => hdecimal t (List.mem_cons_of_mem _ ht)) hrest other hother

theorem mem_trades_of_active {address : String} {trade : TradeRow}
    (mem : trade ∈ activeTradesOf trades address) : trade ∈ trades := (List.mem_filter.1 mem).1

theorem expectedOf_nonneg (written : WellWritten getAccountBalance trades) (address : String) :
    0 ≤ expectedOf trades address := by
  apply List.sum_nonneg
  intro value hvalue
  obtain ⟨trade, htrade, rfl⟩ := List.mem_map.1 hvalue
  exact (written.amount trade (mem_trades_of_active htrade)).2

/-- The basis points of a drift, for a balance and what is expected. -/
def driftBpsOf (balance expected : Int) : WithTop Nat :=
  if 0 < expected then toNumber ((balance - expected).natAbs * 10000 / expected.toNat) else 0

/-- What is reported of an account. -/
structure ReportedDrift (thresholds : DriftThresholds) (address : String) (balance expected : Int)
    (report : Option AccountDriftReport) : Prop where
  unreported : report = none →
    classifyDriftSeverity thresholds (driftBpsOf balance expected) = .none
  reported : ∀ r ∈ report, r.accountAddress = address ∧
    r.severity = classifyDriftSeverity thresholds (driftBpsOf balance expected)

variable (thresholds) in
/-- The check of an account with whole amounts. -/
theorem check_of_whole (written : WellWritten getAccountBalance trades)
    {address assetCode balance : String} (hbalance : balance ∈ getAccountBalance address assetCode)
    (whole : '.' ∉ balance.toList)
    (amounts : ∀ trade ∈ activeTradesOf trades address, '.' ∉ trade.amountUsdc.toList) :
    ∃ (b e : Int) (report : Option AccountDriftReport), (b : ℚ) = decimalValue balance ∧
      (e : ℚ) = expectedOf trades address ∧
      checkAccountDrift thresholds getAccountBalance trades address assetCode = some report ∧
      ReportedDrift thresholds address b e report := by
  obtain ⟨b, hb, hvalue⟩ :=
    bigInt_of_isDecimal (written.balance address assetCode balance hbalance) whole
  obtain ⟨e, he, hsum⟩ := foldlM_bigInt (activeTradesOf trades address) 0 fun trade htrade =>
    ⟨(written.amount trade (mem_trades_of_active htrade)).1, amounts trade htrade⟩
  have hread : expectedBalanceOf (activeTradesOf trades address) = some e := he
  have hgiven : getAccountBalance address assetCode = some balance := hbalance
  have hexpected : (e : ℚ) = expectedOf trades address := by simpa [expectedOf] using hsum
  by_cases hnone : classifyDriftSeverity thresholds (driftBpsOf b e) = .none ∧
      (b - e).natAbs = 0
  · refine ⟨b, e, none, hvalue, hexpected, ?_, fun _ => hnone.1, by simp⟩
    simp only [checkAccountDrift, hgiven, hb, hread, Option.bind_eq_bind, Option.bind_some]
    exact if_pos hnone
  · refine ⟨b, e, some ⟨address, assetCode, toString e, balance, toString (b - e), driftBpsOf b e,
      classifyDriftSeverity thresholds (driftBpsOf b e)⟩, hvalue, hexpected, ?_, by simp, ?_⟩
    · simp only [checkAccountDrift, hgiven, hb, hread, Option.bind_eq_bind, Option.bind_some]
      exact if_neg hnone
    · rintro r ⟨⟩
      exact ⟨rfl, rfl⟩

/-- A check that does not throw has read whole amounts. -/
theorem whole_of_check (written : WellWritten getAccountBalance trades)
    {address assetCode : String}
    (h : (checkAccountDrift thresholds getAccountBalance trades address assetCode).isSome = true) :
    ∃ balance ∈ getAccountBalance address assetCode, '.' ∉ balance.toList ∧
      ∀ trade ∈ activeTradesOf trades address, '.' ∉ trade.amountUsdc.toList := by
  obtain ⟨report, hreport⟩ := Option.isSome_iff_exists.1 h
  simp only [checkAccountDrift, Option.bind_eq_bind, Option.bind_eq_some_iff] at hreport
  obtain ⟨balance, hbalance, b, hb, e, he, -⟩ := hreport
  refine ⟨balance, hbalance, ?_, ?_⟩
  · exact (bigInt_isSome_iff (written.balance _ _ balance hbalance)).1 (by rw [hb]; rfl)
  · exact whole_of_foldlM _ 0 e
      (fun trade htrade => (written.amount trade (mem_trades_of_active htrade)).1) he

/-- The severity is none if the drift is less than one basis point above both thresholds. -/
theorem severity_eq_none_iff (b : Int) {e : Int} (nonneg : 0 ≤ e) :
    classifyDriftSeverity thresholds (driftBpsOf b e) = .none ↔
      e = 0 ∨ (b - e).natAbs * 10000 < (thresholds.warning + 1) * e ∧
        (b - e).natAbs * 10000 < (thresholds.critical + 1) * e := by
  have hzero : ∀ w : Nat, ¬ (w : WithTop Nat) < 0 := fun w => not_lt_bot
  by_cases he : e = 0
  · simp [he, driftBpsOf, classifyDriftSeverity, hzero]
  · have hpositive : 0 < e := by omega
    have hbelow : ∀ w : Nat, w < 2 ^ 53 → ((w : WithTop Nat) < driftBpsOf b e ↔
        ¬ (b - e).natAbs * 10000 < (w + 1) * e) := by
      intro w hw
      have hcast : (e.toNat : Int) = e := Int.toNat_of_nonneg nonneg
      rw [driftBpsOf, if_pos hpositive, lt_toNumber_iff hw, ← Nat.succ_le_iff,
        Nat.le_div_iff_mul_le (by omega), not_lt]
      zify
      rw [hcast]
    have hwarning := hbelow thresholds.warning thresholds.warning_safe
    have hcritical := hbelow thresholds.critical thresholds.critical_safe
    have hnone : classifyDriftSeverity thresholds (driftBpsOf b e) = .none ↔
        ¬ (thresholds.warning : WithTop Nat) < driftBpsOf b e ∧
          ¬ (thresholds.critical : WithTop Nat) < driftBpsOf b e := by
      unfold classifyDriftSeverity
      by_cases hc : (thresholds.critical : WithTop Nat) < driftBpsOf b e
      · simp [hc]
      · by_cases hw : (thresholds.warning : WithTop Nat) < driftBpsOf b e <;> simp [hc, hw]
    rw [hnone, hwarning, hcritical, not_not, not_not]
    exact ⟨.inr, fun h => h.resolve_left he⟩

/-! ## The sweep -/

theorem mem_checkAccounts {report : AccountDriftReport} : ∀ {accounts : List (String × String)},
    report ∈ checkAccounts thresholds getAccountBalance trades accounts ↔
      ∃ account ∈ accounts, checkAccountDrift thresholds getAccountBalance trades account.1
        account.2 = some (some report)
  | [] => by simp [checkAccounts]
  | (address, assetCode) :: rest => by
    have hrest : report ∈ checkAccounts thresholds getAccountBalance trades rest ↔
        ∃ account ∈ rest, checkAccountDrift thresholds getAccountBalance trades account.1
          account.2 = some (some report) := mem_checkAccounts
    rw [checkAccounts]
    cases hcheck : checkAccountDrift thresholds getAccountBalance trades address assetCode with
    | none => simp [hcheck, hrest]
    | some found =>
      cases found with
      | none => simp [hcheck, hrest]
      | some r => simp [hcheck, hrest, eq_comm]

theorem address_of_check {address assetCode : String} {report : AccountDriftReport}
    (h : checkAccountDrift thresholds getAccountBalance trades address assetCode =
      some (some report)) : report.accountAddress = address := by
  simp only [checkAccountDrift, Option.bind_eq_bind, Option.bind_eq_some_iff] at h
  obtain ⟨balance, -, b, -, e, -, h⟩ := h
  obtain ⟨-, h⟩ | ⟨-, h⟩ := ite_eq_iff.1 h
  · cases Option.some.inj h
  · rw [← Option.some.inj (Option.some.inj h)]

theorem assetCode_of_mem {account : String × String}
    (mem : account ∈ collectActiveAddresses trades streams) : account.2 = "USDC" := by
  obtain ⟨address, -, rfl⟩ := List.mem_map.1 mem
  rfl

theorem cast_drift {b e : Int} {balance expected : ℚ} (hb : (b : ℚ) = balance)
    (he : (e : ℚ) = expected) : (((b - e).natAbs * 10000 : Int) : ℚ) = |balance - expected| * 10000 := by
  rw [← hb, ← he]
  push_cast
  rw [← Int.cast_sub, ← Int.cast_abs, Int.abs_eq_natAbs]

/-- Nothing but the report of its own check is about an account. -/
theorem reports_of_check {account : String × String} {b e : Int}
    {found : Option AccountDriftReport} (mem : account ∈ collectActiveAddresses trades streams)
    (check : checkAccountDrift thresholds getAccountBalance trades account.1 account.2 = some found)
    (reported : ReportedDrift thresholds account.1 b e found) :
    (∃ report ∈ (sweep thresholds getAccountBalance trades streams).reports,
      report.accountAddress = account.1 ∧
        (report.severity = .warning ∨ report.severity = .critical)) ↔
      classifyDriftSeverity thresholds (driftBpsOf b e) ≠ .none := by
  constructor
  · rintro ⟨report, hreport, haddress, hseverity⟩ hnone
    obtain ⟨other, hother, hcheck⟩ := mem_checkAccounts.1 hreport
    obtain ⟨address, assetCode⟩ := other
    have hcode : assetCode = account.2 :=
      (assetCode_of_mem hother).trans (assetCode_of_mem mem).symm
    have hsame : address = account.1 := by rw [← haddress, address_of_check hcheck]
    subst hcode hsame
    have hfound : found = some report := Option.some.inj (check.symm.trans hcheck)
    rw [(reported.reported report hfound).2, hnone] at hseverity
    simp at hseverity
  · intro hsome
    cases found with
    | none => exact absurd (reported.unreported rfl) hsome
    | some report =>
      obtain ⟨haddress, hseverity⟩ := reported.reported report rfl
      refine ⟨report, mem_checkAccounts.2 ⟨account, mem, check⟩, haddress, ?_⟩
      rw [hseverity]
      revert hsome
      cases classifyDriftSeverity thresholds (driftBpsOf b e) <;> simp

/-- A drift is classified as none just where nothing is expected, or where it is barely above the
warning threshold and not above the critical one. -/
theorem severity_of_drift (written : WellWritten getAccountBalance trades) {address balance : String}
    {b e : Int} (hb : (b : ℚ) = decimalValue balance) (he : (e : ℚ) = expectedOf trades address) :
    (Drifts thresholds trades address balance →
      classifyDriftSeverity thresholds (driftBpsOf b e) ≠ .none) ↔
      (expectedOf trades address = 0 → decimalValue balance = 0) ∧
        ¬ (BarelyDrifts thresholds trades address balance ∧
          thresholds.warning ≤ thresholds.critical) := by
  have hnonneg := expectedOf_nonneg written address
  have heNonneg : 0 ≤ e := by
    rw [← he] at hnonneg
    exact_mod_cast hnonneg
  have hdrift := cast_drift hb he
  have hbelow : ∀ w : Nat, (b - e).natAbs * 10000 < (w + 1) * e ↔
      |decimalValue balance - expectedOf trades address| * 10000 <
        (w + 1) * expectedOf trades address := by
    intro w
    rw [← hdrift, ← he]
    exact_mod_cast Iff.rfl
  rw [Ne, severity_eq_none_iff b heNonneg, hbelow, hbelow, Drifts, BarelyDrifts]
  by_cases hzero : expectedOf trades address = 0
  · have hzeroInt : e = 0 := by
      rw [hzero] at he
      exact_mod_cast he
    have habs : ¬ |decimalValue balance| * 10000 < 0 := not_lt.2 (by positivity)
    simp [hzero, hzeroInt, habs]
  · have hpositive : 0 < expectedOf trades address := lt_of_le_of_ne hnonneg (Ne.symm hzero)
    have hne : e ≠ 0 := by
      rintro rfl
      exact hzero (by simpa using he.symm)
    have hscale : ∀ m n : Nat, m ≤ n →
        (m : ℚ) * expectedOf trades address ≤ n * expectedOf trades address := fun m n hmn =>
      mul_le_mul_of_nonneg_right (by exact_mod_cast hmn) hnonneg
    simp only [hzero, hne, if_false, false_or, false_imp_iff, true_and]
    constructor
    · rintro himp ⟨⟨hover, hunder⟩, hle⟩
      have hcritical := hscale (thresholds.warning + 1) (thresholds.critical + 1) (by omega)
      push_cast at hcritical
      exact himp hover ⟨hunder, hunder.trans_le hcritical⟩
    · rintro hbarely hover ⟨hunder, hcritical⟩
      refine hbarely ⟨⟨hover, hunder⟩, ?_⟩
      by_contra hlt
      have hwarning := hscale (thresholds.critical + 1) thresholds.warning (by omega)
      push_cast at hwarning
      linarith

/-- In a sweep over amounts as they are written, no drift is missed and nothing unchecked is counted
just when every account is one it gets right. -/
theorem sweep_misses_none_iff (written : WellWritten getAccountBalance trades) :
    MissesNone thresholds getAccountBalance trades streams ↔
      ∀ account ∈ collectActiveAddresses trades streams,
        SoundAccount thresholds getAccountBalance trades account := by
  constructor
  · rintro ⟨hdrifts, hcounted⟩ account hmem
    have hall := List.countP_eq_length.1 hcounted.symm
    obtain ⟨balance, hbalance, hwhole, hamounts⟩ := whole_of_check written (hall account hmem)
    obtain ⟨b, e, found, hb, he, hcheck, hreported⟩ :=
      check_of_whole thresholds written hbalance hwhole hamounts
    refine ⟨balance, hbalance, hwhole, hamounts, (severity_of_drift written hb he).1 fun hdrift => ?_⟩
    exact (reports_of_check hmem hcheck hreported).1 (hdrifts account hmem balance hbalance hdrift)
  · intro hsound
    constructor
    · intro account hmem other hother hdrift
      obtain ⟨balance, hbalance, hwhole, hamounts, hzero⟩ := hsound account hmem
      obtain rfl : other = balance := Option.some.inj (hother.symm.trans hbalance)
      obtain ⟨b, e, found, hb, he, hcheck, hreported⟩ :=
        check_of_whole thresholds written hbalance hwhole hamounts
      exact (reports_of_check hmem hcheck hreported).2
        ((severity_of_drift written hb he).2 hzero hdrift)
    · refine (List.countP_eq_length.2 fun account hmem => ?_).symm
      obtain ⟨balance, hbalance, hwhole, hamounts, -⟩ := hsound account hmem
      obtain ⟨b, e, found, -, -, hcheck, -⟩ :=
        check_of_whole thresholds written hbalance hwhole hamounts
      rw [hcheck]
      rfl

/-- A single trade of 1000 whole units, of which both parties hold 900. -/
theorem sweep_misses_none_iff_whole :
    MissesNone defaultThresholds (fun _ _ => some "900")
        [⟨"GA", "GB", "1000", 0, .funded, none, none⟩] [] ↔
      ∀ account ∈ collectActiveAddresses [⟨"GA", "GB", "1000", 0, .funded, none, none⟩] [],
        SoundAccount defaultThresholds (fun _ _ => some "900")
          [⟨"GA", "GB", "1000", 0, .funded, none, none⟩] account := by
  apply sweep_misses_none_iff
  constructor
  · rintro address assetCode text ⟨⟩
    decide
  · rintro trade htrade
    obtain rfl := List.mem_singleton.1 htrade
    decide +kernel

/-- An account that holds nothing of what is expected, by a balance with a point. -/
theorem point_missed :
    ¬ ∀ (thresholds : DriftThresholds) (getAccountBalance : String → String → Option String)
      (trades : List TradeRow) (streams : List ReconciledStream),
      WellWritten getAccountBalance trades →
        MissesNone thresholds getAccountBalance trades streams := by
  intro h
  have hwritten : WellWritten (fun _ _ => some "0.0000000")
      [⟨"GA", "GB", "1000", 0, .funded, none, none⟩] := by
    constructor
    · rintro address assetCode text ⟨⟩
      decide
    · rintro trade htrade
      obtain rfl := List.mem_singleton.1 htrade
      decide +kernel
  obtain ⟨-, hcounted⟩ := h defaultThresholds _ _ [] hwritten
  revert hcounted
  decide +kernel

end Sweep

end Amana.Backend
