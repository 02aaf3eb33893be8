import Amana.Escrow.Freshness
import Amana.Escrow.Wrap

/-!
# The aggregate counters

`TotalTrades`, `TotalDisputes` and `TotalResolved` are incremented where a trade is created,
disputed and settled.  A trade is disputed at most once after it is created and settled only after
that, so the counters are in order, and over a run that issues every identifier once they count
distinct trades (`countsTrades_of_noReissue`).
-/

namespace Amana.Escrow

open Lib

variable {env : Env} {s s' : State} {a : Action} {c : Call} {k : Nat} {t t' : Trade}
  {d d' : Folder} {tokens : Token.Ledger Address} {actions : List Action}

/-- `get_contract_metrics`. -/
def getContractMetrics (s : State) : Nat × Nat × Nat :=
  (s.totalTrades.getD 0, s.totalDisputes.getD 0, s.totalResolved.getD 0)

/-- Whether there is a dispute record. -/
def Folder.isDisputed (d : Folder) : Bool := d.dispute.isSome

/-- Whether the release sequence is stamped resolved. -/
def Folder.isResolved (d : Folder) : Bool := (d.sequence.bind ReleaseSequence.resolvedAt).isSome

/-- The number of trades whose folder has property `p`. -/
def tradesWith (s : State) (p : Folder → Bool) : Nat :=
  s.trades.count fun k => p (s.toFiles.folder k)

/-- The metrics of any run. -/
structure MetricsOrdered (tokens : Token.Ledger Address) (actions : List Action) : Prop where
  created : (getContractMetrics (run tokens actions)).1 = creations tokens actions
  ordered : (getContractMetrics (run tokens actions)).2.2 ≤
      (getContractMetrics (run tokens actions)).2.1 ∧
    (getContractMetrics (run tokens actions)).2.1 ≤ (getContractMetrics (run tokens actions)).1

/-- The metrics count the trades. -/
structure CountsTrades (tokens : Token.Ledger Address) (actions : List Action) : Prop
    extends MetricsOrdered tokens actions where
  disputed : (getContractMetrics (run tokens actions)).2.1 =
    tradesWith (run tokens actions) Folder.isDisputed
  resolved : (getContractMetrics (run tokens actions)).2.2 =
    tradesWith (run tokens actions) Folder.isResolved

/-! ## Disputed and resolved at most once -/

/-- An open trade has a dispute record exactly while it is disputed, and only a completed one that
had a dispute is stamped resolved. -/
structure Docketed (t : Trade) (d : Folder) : Prop where
  disputed : t.status.closed = false → (d.isDisputed = true ↔ t.status = .disputed)
  unresolved : t.status ≠ .completed → d.isResolved = false
  resolved : d.isResolved = true → d.isDisputed = true

section Flags

variable {updater : ReleaseSequence → Nat → ReleaseSequence} {eventType data : String}
  {actor : Address}

@[simp] theorem Folder.isDisputed_log :
    (d.log env eventType actor data).isDisputed = d.isDisputed := rfl

@[simp] theorem Folder.isDisputed_stamp : (d.stamp env t updater).isDisputed = d.isDisputed := rfl

@[simp] theorem Folder.isResolved_log :
    (d.log env eventType actor data).isResolved = d.isResolved := rfl

/-- A stamp that is not the one of a settlement. -/
theorem Folder.isResolved_stamp (h : ∀ q now, (updater q now).resolvedAt = q.resolvedAt) :
    (d.stamp env t updater).isResolved = d.isResolved := by
  cases hq : d.sequence with
  | none => simp [Folder.isResolved, Folder.stamp, hq, h, defaultReleaseSequence]
  | some q => simp [Folder.isResolved, Folder.stamp, hq, h]

end Flags

/-- A call opens a dispute or settles one exactly where the counters say so. -/
theorem Entry.flags (h : Entry env s k t d c t' d') :
    d'.isDisputed = (d.isDisputed || t.opensDispute t') ∧
      d'.isResolved = (d.isResolved || t.settles t') := by
  cases h with
  | openPath status | request status | extend status | vote status | evidence status
  | finalizePath status =>
    simp [Trade.opensDispute, Trade.settles, status, Folder.isDisputed, Folder.isResolved,
      Folder.log]
  | video status =>
    rcases status with e | e <;>
      simp [Trade.opensDispute, Trade.settles, e, Folder.isDisputed, Folder.isResolved]
  | manifest status =>
    rw [Folder.isDisputed_stamp, Folder.isResolved_stamp (by intros; rfl)]
    simp [Trade.opensDispute, Trade.settles, status, Folder.isDisputed, Folder.isResolved]
  | deposit status _ record | deliver status _ record =>
    rw [Folder.isDisputed_log, Folder.isDisputed_stamp, Folder.isResolved_log,
      Folder.isResolved_stamp (by intros; rfl)]
    simp [Trade.opensDispute, Trade.settles, status, record]
  | dispute status _ _ record =>
    rw [Folder.isDisputed_log, Folder.isDisputed_stamp, Folder.isResolved_log,
      Folder.isResolved_stamp (by intros; rfl)]
    simp [Trade.opensDispute, Trade.settles, status, record, Folder.isDisputed, Folder.isResolved]
  | drop | override | refund =>
    rw [Folder.cancelled, Folder.isDisputed_log, Folder.isDisputed_stamp, Folder.isResolved_log,
      Folder.isResolved_stamp (by intros; rfl)]
    simp [Trade.opensDispute, Trade.settles, Trade.cancel]
  | @agree caller =>
    show (d.cancelled env t caller).isDisputed = _ ∧ (d.cancelled env t caller).isResolved = _
    rw [Folder.cancelled, Folder.isDisputed_log, Folder.isDisputed_stamp, Folder.isResolved_log,
      Folder.isResolved_stamp (by intros; rfl)]
    simp [Trade.opensDispute, Trade.settles, Trade.cancel]
  | cancelByBuyer | expire =>
    rw [Folder.isDisputed_stamp, Folder.isResolved_stamp (by intros; rfl)]
    simp [Trade.opensDispute, Trade.settles, Trade.cancel]
  | release status =>
    rw [Folder.isDisputed_log, Folder.isDisputed_stamp, Folder.isResolved_log,
      Folder.isResolved_stamp (by intros; rfl)]
    simp [Trade.opensDispute, Trade.settles, status]
  | resolve status | decide status | fallback status =>
    simp [Trade.opensDispute, Trade.settles, status, Trade.complete, Folder.isDisputed,
      Folder.isResolved, Folder.resolved, Folder.stamp, Folder.log]
  | clawPart status | clawQueued status =>
    rw [(t.clawed_counts _ _ status).1, (t.clawed_counts _ _ status).2, Bool.or_false,
      Bool.or_false]
    exact ⟨rfl, rfl⟩
  | clawAll status =>
    rw [(t.clawed_counts _ _ status).1, (t.clawed_counts _ _ status).2, Bool.or_false,
      Bool.or_false, Folder.isResolved_log, Folder.isResolved_stamp (by intros; rfl)]
    exact ⟨rfl, rfl⟩

/-- Where the table leads to a dispute or away from one. -/
theorem TradeStatus.disputed_iff {status status' : TradeStatus}
    (h : status' = status ∨ status' ∈ status.next) (hopen : status'.closed = false) :
    status' = .disputed ↔ status = .disputed ∨ status = .funded ∧ status' = .disputed := by
  revert h hopen
  cases status <;> cases status' <;> decide

/-- A call keeps the docket, and counts nothing twice. -/
theorem Entry.docketed (h : Entry env s k t d c t' d') (docketed : Docketed t d) :
    Docketed t' d' ∧ d'.isDisputed.toNat = d.isDisputed.toNat + (t.opensDispute t').toNat ∧
      d'.isResolved.toNat = d.isResolved.toNat + (t.settles t').toNat := by
  obtain ⟨hdisputed, hresolved⟩ := h.flags
  have hopen := h.wasOpen
  have hpending := docketed.disputed hopen
  have hunresolved : d.isResolved = false := docketed.unresolved fun e => by
    rw [e] at hopen
    cases hopen
  have hopens : t.opensDispute t' = true ↔ t.status = .funded ∧ t'.status = .disputed := by
    simp [Trade.opensDispute]
  have hsettles : t.settles t' = true ↔ t.status = .disputed ∧ t'.status = .completed := by
    simp [Trade.settles]
  rw [hunresolved, Bool.false_or] at hresolved
  refine ⟨⟨fun hopen' => ?_, fun hne => ?_, fun hyes => ?_⟩, ?_, ?_⟩
  · rw [hdisputed, Bool.or_eq_true, hpending, hopens]
    exact (TradeStatus.disputed_iff h.status hopen').symm
  · rw [hresolved, Bool.eq_false_iff]
    exact fun e => hne (hsettles.1 e).2
  · rw [hresolved] at hyes
    rw [hdisputed, hpending.2 (hsettles.1 hyes).1, Bool.true_or]
  · -- A dispute is opened on a funded trade, which has no dispute record.
    cases hyes : t.opensDispute t' with
    | false => rw [hdisputed, hyes, Bool.or_false]; rfl
    | true =>
      have hno : d.isDisputed = false := Bool.eq_false_iff.2 fun e => by
        cases (hpending.1 e).symm.trans (hopens.1 hyes).1
      rw [hdisputed, hyes, hno]
      rfl
  · rw [hresolved, hunresolved]
    exact (Nat.zero_add _).symm

/-! ## Steps -/

/-- The state after `n` creations: the counters, and the docket they rest on. -/
structure Counted (s : State) (n : Nat) : Prop where
  created : s.totalTrades.getD 0 = n
  stored : s.trades.count (fun _ => true) = n
  disputed : s.totalDisputes.getD 0 = tradesWith s Folder.isDisputed
  resolved : s.totalResolved.getD 0 = tradesWith s Folder.isResolved
  docketed : ∀ k t, s.trades.get k = some t → Docketed t (s.toFiles.folder k)

theorem countIf_getD {counted : Bool} {counter : Option Nat}
    (h : counter.getD 0 + counted.toNat < 2 ^ 64) :
    (countIf counted counter).getD 0 = counter.getD 0 + counted.toNat := by
  cases counted with
  | false => rfl
  | true => exact U64.add_of_lt h

/-- Where one trade is written, the number of trades with a property changes by that trade. -/
theorem tradesWith_update {p : Folder → Bool} (record : s'.trades.get k = some t)
    (elsewhere : Elsewhere s s' k) :
    tradesWith s' p + (s.trades.has k && p (s.toFiles.folder k)).toNat =
      tradesWith s p + (p (s'.toFiles.folder k)).toNat := by
  have hsame : ∀ k', k' ≠ k → p (s'.toFiles.folder k') = p (s.toFiles.folder k') :=
    fun k' hk => by rw [(elsewhere k' hk).2]
  unfold tradesWith
  exact Store.count_update (p := fun k => p (s.toFiles.folder k)) record
    (fun k' hk => (elsewhere k' hk).1) hsame

/-- A new trade is counted as created only. -/
theorem Counted.create {n : Nat} {trade : Trade} (h : Counted s n) (hn : n + 1 < 2 ^ 64)
    (unused : s.trades.get trade.tradeId = none) (empty : s.toFiles.folder trade.tradeId = .empty)
    (status : trade.status = .created) (record : s'.trades.get trade.tradeId = some trade)
    (folder : s'.toFiles.folder trade.tradeId =
      { s.toFiles.folder trade.tradeId with
        sequence := some (defaultReleaseSequence trade) }.log env "created" trade.buyer
          "trade created")
    (elsewhere : Elsewhere s s' trade.tradeId)
    (created : s'.totalTrades = countIf true s.totalTrades)
    (disputes : s'.totalDisputes = s.totalDisputes)
    (resolved : s'.totalResolved = s.totalResolved) : Counted s' (n + 1) := by
  have hhas : s.trades.has trade.tradeId = false := (Store.has_eq_false_iff ..).2 unused
  have hdisputed : (s'.toFiles.folder trade.tradeId).isDisputed = false := by
    rw [folder, empty]
    rfl
  have hresolved : (s'.toFiles.folder trade.tradeId).isResolved = false := by
    rw [folder]
    rfl
  refine ⟨?_, ?_, ?_, ?_, fun k t ht => ?_⟩
  · rw [created, countIf_getD (by rw [h.created]; exact hn), h.created]
    rfl
  · have hcount := Store.count_update (p := fun _ => true) record (fun k' hk => (elsewhere k' hk).1)
      fun _ _ => rfl
    rw [hhas, Bool.false_and, h.stored] at hcount
    exact hcount
  · have hcount := tradesWith_update (p := Folder.isDisputed) record elsewhere
    rw [hhas, Bool.false_and, hdisputed] at hcount
    rw [disputes, h.disputed]
    exact hcount.symm
  · have hcount := tradesWith_update (p := Folder.isResolved) record elsewhere
    rw [hhas, Bool.false_and, hresolved] at hcount
    rw [resolved, h.resolved]
    exact hcount.symm
  · by_cases hk : k = trade.tradeId
    · subst hk
      obtain rfl := Option.some.inj (record.symm.trans ht)
      refine ⟨fun _ => ?_, fun _ => hresolved, fun e => ?_⟩
      · simp [hdisputed, status]
      · cases hresolved.symm.trans e
    · rw [(elsewhere k hk).1] at ht
      rw [(elsewhere k hk).2]
      exact h.docketed k t ht

/-- A call on a trade is counted where it opens or settles a dispute. -/
theorem Counted.write {n : Nat} (h : Counted s n) (hn : n < 2 ^ 64)
    (stored : s.trades.get k = some t) (record : s'.trades.get k = some t')
    (entry : Entry env s k t (s.toFiles.folder k) c t' (s'.toFiles.folder k))
    (elsewhere : Elsewhere s s' k) (created : s'.totalTrades = s.totalTrades)
    (disputes : s'.totalDisputes = countIf (t.opensDispute t') s.totalDisputes)
    (resolved : s'.totalResolved = countIf (t.settles t') s.totalResolved) : Counted s' n := by
  have hhas : s.trades.has k = true := by simp [Store.has, stored]
  obtain ⟨hdocketed, hdisputed, hresolved⟩ := entry.docketed (h.docketed k t stored)
  have hstored : s'.trades.count (fun _ => true) = n := by
    have hcount := Store.count_update (p := fun _ => true) record (fun k' hk => (elsewhere k' hk).1)
      fun _ _ => rfl
    rw [hhas, h.stored] at hcount
    exact Nat.add_right_cancel hcount
  have hdisputes : tradesWith s' Folder.isDisputed =
      tradesWith s Folder.isDisputed + (t.opensDispute t').toNat := by
    have hcount := tradesWith_update (p := Folder.isDisputed) record elsewhere
    rw [hhas, Bool.true_and] at hcount
    omega
  have hresolutions : tradesWith s' Folder.isResolved =
      tradesWith s Folder.isResolved + (t.settles t').toNat := by
    have hcount := tradesWith_update (p := Folder.isResolved) record elsewhere
    rw [hhas, Bool.true_and] at hcount
    omega
  have hdocket : ∀ k t, s'.trades.get k = some t → Docketed t (s'.toFiles.folder k) := by
    intro k' t'' ht
    by_cases hk : k' = k
    · subst hk
      obtain rfl := Option.some.inj (record.symm.trans ht)
      exact hdocketed
    · rw [(elsewhere k' hk).1] at ht
      rw [(elsewhere k' hk).2]
      exact h.docketed k' t'' ht
  -- No counter passes the number of trades, so none wraps.
  have hle (p : Folder → Bool) : tradesWith s' p < 2 ^ 64 := by
    refine lt_of_le_of_lt ?_ hn
    rw [← hstored]
    exact s'.trades.count_le_count fun _ _ _ _ => rfl
  refine ⟨by rw [created]; exact h.created, hstored, ?_, ?_, hdocket⟩
  · rw [disputes, countIf_getD (by rw [h.disputed, ← hdisputes]; exact hle _), h.disputed,
      hdisputes]
  · rw [resolved, countIf_getD (by rw [h.resolved, ← hresolutions]; exact hle _), h.resolved,
      hresolutions]

theorem Counted.of_same {n : Nat} (h : Counted s n) (htrades : s'.trades = s.trades)
    (hfiles : s'.toFiles = s.toFiles) : Counted s' n := by
  have hcount (p : Folder → Bool) : tradesWith s' p = tradesWith s p := by
    rw [tradesWith, htrades, hfiles]
    rfl
  refine ⟨?_, ?_, ?_, ?_, ?_⟩
  · rw [hfiles]
    exact h.created
  · rw [htrades]
    exact h.stored
  · rw [hfiles, hcount]
    exact h.disputed
  · rw [hfiles, hcount]
    exact h.resolved
  · rw [htrades, hfiles]
    exact h.docketed

theorem counted_step {n : Nat} (wf : WellFormed s.toSettings s.toBooks)
    (unused : ∀ k, s.trades.get k = none → s.toFiles.folder k = .empty) (fresh : ¬ Reissues s a)
    (h : Counted s n) (hn : n + (if Creates s a then 1 else 0) < 2 ^ 64) :
    Counted (step s a) (n + if Creates s a then 1 else 0) := by
  have hfiling := step_filing wf a
  generalize step s a = s' at hfiling
  obtain ⟨hquiet, htrades, hfiles⟩ | ⟨env, c, rfl, ok, hfiling⟩ := hfiling
  · rw [if_neg hquiet]
    exact h.of_same htrades hfiles
  cases hfiling with
  | idle creates _ trades files =>
    rw [if_neg fun hcreates => absurd (creates.symm.trans hcreates.1) (by decide)]
    exact h.of_same trades files
  | create trade call tradeId status _ record folder elsewhere created disputes resolved =>
    have hcreates : Creates s (.call env c) := ⟨by rw [call]; rfl, by rw [ok]; rfl⟩
    have hissues : Issues trade.tradeId s (.call env c) :=
      ⟨hcreates.1, hcreates.2, tradeId.symm⟩
    rw [if_pos hcreates] at hn ⊢
    have hnone := NoReissue.not_stored fresh hissues
    exact h.create hn hnone (unused _ hnone) status record folder elsewhere created disputes
      resolved
  | write k t t' d' subject stored record folder entry elsewhere created disputes resolved =>
    subst folder
    have hquiet : ¬ Creates s (.call env c) := fun hcreates => by
      cases (creates_of_subject subject).symm.trans hcreates.1
    rw [if_neg hquiet] at hn ⊢
    exact h.write hn stored record entry elsewhere created disputes resolved

/-- The counters of a run that issues every identifier once. -/
theorem counted_run (fresh : NoReissue tokens actions) (few : creations tokens actions < 2 ^ 64) :
    Counted (run tokens actions) (creations tokens actions) := by
  induction actions using List.reverseRecOn with
  | nil => exact ⟨rfl, rfl, rfl, rfl, fun _ _ ht => by cases ht⟩
  | append_singleton actions a ih =>
    rw [creations_snoc] at few ⊢
    rw [run_snoc]
    exact counted_step (wellFormed_run tokens actions)
      (fun k hk => (unused_of_not_stored tokens actions hk).folder) fresh.last
      (ih fresh.of_append (by omega)) few

/-! ## The order of the counters -/

/-- A dispute may yet be opened. -/
def TradeStatus.beforeDispute : TradeStatus → Bool
  | .created | .funded => true
  | _ => false

def tradesAt (s : State) (p : TradeStatus → Bool) : Nat :=
  s.trades.count fun k => (s.trades.get k).any fun t => p t.status

/-- The counters after `n` creations, with the trades that may yet add to them. -/
structure Paced (s : State) (n : Nat) : Prop where
  created : s.totalTrades.getD 0 = n
  disputes : s.totalDisputes.getD 0 + tradesAt s TradeStatus.beforeDispute ≤ n
  resolved : s.totalResolved.getD 0 + tradesAt s (· == .disputed) ≤ s.totalDisputes.getD 0

theorem tradesAt_update {p : TradeStatus → Bool} (record : s'.trades.get k = some t')
    (elsewhere : Elsewhere s s' k) :
    tradesAt s' p + ((s.trades.get k).any fun t => p t.status).toNat =
      tradesAt s p + (p t'.status).toNat := by
  have hupdate := Store.count_update (p := fun k => (s.trades.get k).any fun t => p t.status)
    (q := fun k => (s'.trades.get k).any fun t => p t.status) record
    (fun k' hk => (elsewhere k' hk).1) fun k' hk => by rw [(elsewhere k' hk).1]
  have hhas : (s.trades.has k && (s.trades.get k).any fun t => p t.status) =
      (s.trades.get k).any fun t => p t.status := by
    cases hget : s.trades.get k <;> simp [Store.has, hget]
  rw [hhas, record] at hupdate
  exact hupdate

/-- A trade adds to a counter once, when it leaves the ones that may. -/
theorem Trade.counts_once (h : t'.status = t.status ∨ t'.status ∈ t.status.next) :
    (t.opensDispute t').toNat + t'.status.beforeDispute.toNat ≤ t.status.beforeDispute.toNat ∧
      (t.settles t').toNat + (t'.status == .disputed).toNat ≤
        (t.status == .disputed).toNat + (t.opensDispute t').toNat := by
  unfold Trade.opensDispute Trade.settles
  revert h
  generalize t.status = status
  generalize t'.status = status'
  cases status <;> cases status' <;> decide

theorem paced_step {n : Nat} (wf : WellFormed s.toSettings s.toBooks) (h : Paced s n)
    (hn : n + (if Creates s a then 1 else 0) < 2 ^ 64) :
    Paced (step s a) (n + if Creates s a then 1 else 0) := by
  have hsame : ∀ s' : State, s'.trades = s.trades → s'.toFiles = s.toFiles → Paced s' n := by
    intro s' htrades hfiles
    have hat : ∀ p, tradesAt s' p = tradesAt s p := fun p => by rw [tradesAt, htrades, tradesAt]
    exact ⟨by rw [hfiles]; exact h.created, by rw [hfiles, hat]; exact h.disputes,
      by rw [hfiles, hat]; exact h.resolved⟩
  have hfiling := step_filing wf a
  generalize step s a = s' at hfiling
  obtain ⟨hquiet, htrades, hfiles⟩ | ⟨env, c, rfl, ok, hfiling⟩ := hfiling
  · rw [if_neg hquiet]
    exact hsame s' htrades hfiles
  have hdisputes := h.disputes
  have hresolved := h.resolved
  cases hfiling with
  | idle creates _ trades files =>
    rw [if_neg fun hcreates => absurd (creates.symm.trans hcreates.1) (by decide)]
    exact hsame s' trades files
  | create trade call _ status _ record _ elsewhere created disputes resolved =>
    have hcreates : Creates s (.call env c) := ⟨by rw [call]; rfl, by rw [ok]; rfl⟩
    rw [if_pos hcreates] at hn ⊢
    have hundisputed := tradesAt_update (p := TradeStatus.beforeDispute) record elsewhere
    have hpending := tradesAt_update (p := (· == .disputed)) record elsewhere
    rw [status] at hundisputed hpending
    refine ⟨?_, ?_, ?_⟩
    · rw [created, countIf_getD (by rw [h.created]; exact hn), h.created]
      rfl
    · rw [disputes]
      have hone : TradeStatus.created.beforeDispute.toNat = 1 := rfl
      omega
    · rw [resolved, disputes]
      have hnone : (TradeStatus.created == .disputed).toNat = 0 := rfl
      omega
  | write k t t' d' subject stored record _ entry elsewhere created disputes resolved =>
    have hquiet : ¬ Creates s (.call env c) := fun hcreates => by
      cases (creates_of_subject subject).symm.trans hcreates.1
    rw [if_neg hquiet] at hn ⊢
    have hundisputed := tradesAt_update (p := TradeStatus.beforeDispute) record elsewhere
    have hpending := tradesAt_update (p := (· == .disputed)) record elsewhere
    rw [stored, Option.any_some] at hundisputed hpending
    obtain ⟨hopens, hsettles⟩ := Trade.counts_once entry.status
    refine ⟨by rw [created]; exact h.created, ?_, ?_⟩
    · rw [disputes, countIf_getD (by omega)]
      omega
    · rw [resolved, disputes, countIf_getD (by omega), countIf_getD (by omega)]
      omega

theorem paced_run (few : creations tokens actions < 2 ^ 64) :
    Paced (run tokens actions) (creations tokens actions) := by
  induction actions using List.reverseRecOn with
  | nil => exact ⟨rfl, le_rfl, le_rfl⟩
  | append_singleton actions a ih =>
    rw [creations_snoc] at few ⊢
    rw [run_snoc]
    exact paced_step (wellFormed_run tokens actions) (ih (by omega)) few

/-- In a run of fewer than `2 ^ 64` creations the metrics are in order and the first one counts
them; if the run issues every identifier once, the metrics are the numbers of trades created,
disputed and resolved. -/
theorem countsTrades_of_noReissue (few : creations tokens actions < 2 ^ 64) :
    MetricsOrdered tokens actions ∧ (NoReissue tokens actions → CountsTrades tokens actions) := by
  have hpaced := paced_run few
  have hordered : MetricsOrdered tokens actions :=
    ⟨hpaced.created, Nat.le_of_add_right_le hpaced.resolved,
      (Nat.le_of_add_right_le hpaced.disputes).trans hpaced.created.ge⟩
  refine ⟨hordered, fun fresh => ?_⟩
  have h := counted_run fresh few
  exact ⟨hordered, h.disputed, h.resolved⟩

/-- Alice disputes a trade and the admin, as mediator, settles it. -/
def Sample.settled : List Action :=
  Sample.funded ++
    [Sample.call 4 Sample.admin (.setMediator Sample.admin),
      Sample.call 5 Sample.alice (.initiateDispute Sample.first Sample.alice "spoiled"),
      Sample.call 6 Sample.admin (.resolveDispute Sample.first Sample.admin 5000)]

theorem countsTrades_of_settlement :
    CountsTrades Sample.tokens Sample.settled ∧
      getContractMetrics (run Sample.tokens Sample.settled) = (1, 1, 1) :=
  ⟨(countsTrades_of_noReissue (by decide)).2 (noReissue_of_creations_le (by decide)), by decide⟩

/-! ## At the wrap -/

theorem creations_append_le (tokens : Token.Ledger Address) (start later : List Action) :
    creations tokens (start ++ later) ≤ creations tokens start + later.length := by
  induction later using List.reverseRecOn with
  | nil => simp
  | append_singleton later a ih =>
    rw [← List.append_assoc, creations_snoc, List.length_append, List.length_singleton]
    split <;> omega

/-- A creation under the identifier of a resolved trade takes it from the count and leaves the
counter. -/
theorem tradesWith_reissue (wf : WellFormed s.toSettings s.toBooks) (issues : Issues k s a)
    (stored : s.trades.has k = true) (resolved : (s.toFiles.folder k).isResolved = true) :
    tradesWith (step s a) Folder.isResolved + 1 = tradesWith s Folder.isResolved ∧
      (step s a).totalResolved = s.totalResolved := by
  have hfiling := step_filing wf a
  generalize step s a = s' at hfiling
  obtain ⟨hquiet, -, -⟩ | ⟨env, c, rfl, -, hfiling⟩ := hfiling
  · exact absurd issues (not_issues_of_creates hquiet)
  cases hfiling with
  | idle creates _ _ _ => cases creates.symm.trans issues.1
  | create trade _ tradeId _ _ record folder elsewhere _ _ hresolved =>
    obtain rfl : trade.tradeId = k := tradeId.trans issues.2.2
    have hcount := tradesWith_update (p := Folder.isResolved) record elsewhere
    rw [stored, resolved, folder] at hcount
    exact ⟨hcount, hresolved⟩
  | write _ _ _ _ subject _ _ _ _ _ _ _ _ =>
    cases (creates_of_subject subject).symm.trans issues.1

/-- A settled trade is no longer counted among the trades when its identifier is issued again. -/
theorem not_countsTrades_at_wrap :
    ¬ CountsTrades Sample.tokens
      (Sample.countUp Sample.settled none ++ [Sample.create none]) := by
  intro h
  have hle : creations Sample.tokens (Sample.countUp Sample.settled none) ≤ 2 ^ 32 := by
    apply (creations_append_le _ _ _).trans
    rw [List.length_replicate]
    have hone : creations Sample.tokens Sample.settled = 1 := by decide
    omega
  have hbefore := (counted_run (noReissue_of_creations_le hle) (by omega)).resolved
  have hissues := issues_at_wrap Sample.tokens Sample.settled none (by decide) (by decide)
    (by simp) (by decide)
  have hresolved : ((run Sample.tokens (Sample.countUp Sample.settled none)).toFiles.folder
      Sample.first).isResolved = true := by
    rw [reissue_folder Sample.tokens Sample.settled none (by decide) (by decide) (by simp)
      (by decide)]
    decide
  have hstored : (run Sample.tokens (Sample.countUp Sample.settled none)).trades.has
      Sample.first = true := by
    by_contra hnone
    rw [Bool.not_eq_true, Store.has_eq_false_iff] at hnone
    rw [(unused_of_not_stored _ _ hnone).folder] at hresolved
    cases hresolved
  obtain ⟨hcount, hcounter⟩ :=
    tradesWith_reissue (wellFormed_run _ _) hissues hstored hresolved
  have hafter := h.resolved
  rw [run_snoc] at hafter
  generalize run Sample.tokens (Sample.countUp Sample.settled none) = s₁ at *
  generalize step s₁ (Sample.create none) = s₂ at *
  rw [getContractMetrics, hcounter, hbefore] at hafter
  dsimp only at hafter
  omega

end Amana.Escrow
