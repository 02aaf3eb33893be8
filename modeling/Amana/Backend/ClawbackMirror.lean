import Amana.Backend.Numbers
import Amana.Backend.Reordering
import Amana.Escrow.StreamAccounting
import Amana.Lib.Text
import Amana.Lib.Timeline

/-!
# The mirror of the clawbacks

The backend keeps a row for each clawback event, and `streamReconciliation.service.ts` adds them up.
The handler looks for the amount under a name that the event does not have, and writes zero; a
clawback that was queued has no such event at all.  So what is added up is always zero, and it is
what was clawed back as long as nothing was (`clawbacks_mirrored_iff`).
-/

namespace Amana.Backend

open Lib Lib.Database Lib.Timeline
open Escrow (Action Event)

/-! ## The reconciliation -/

inductive StreamStatus where
  | active
  | suspended
  | terminated
  | completed
  deriving DecidableEq, Repr

def StreamStatus.name : StreamStatus → String
  | .active => "ACTIVE"
  | .suspended => "SUSPENDED"
  | .terminated => "TERMINATED"
  | .completed => "COMPLETED"

/-- `Stream`. -/
structure StreamRow where
  totalVested : String
  claimed : String
  unclaimed : String
  pendingClawback : String
  status : StreamStatus
  deriving DecidableEq, Repr

inductive MismatchSource where
  | onChain
  | backend
  | computed
  deriving DecidableEq, Repr

structure ReconciliationMismatch where
  field : String
  expected : String
  actual : String
  source : MismatchSource
  description : String
  deriving DecidableEq, Repr

structure ReconciliationResult where
  streamId : String
  reconciledAt : Nat
  consistent : Bool
  mismatches : List ReconciliationMismatch
  streamSnapshot : StreamRow
  clawbackEventCount : Nat
  totalClawedBackOnChain : String
  adminActionCount : Nat
  deriving DecidableEq, Repr

inductive ReconciliationError where
  /-- With the message and the status. -/
  | notFound (message : String) (status : Nat) (streamId : String)
  /-- `BigInt` of something else than a number. -/
  | syntaxError (text : String)
  deriving DecidableEq, Repr

def parseBigInt (text : String) : Except ReconciliationError Int :=
  match bigInt text with
  | some n => .ok n
  | none => .error (.syntaxError text)

/-- The sum of the amounts of the clawback events. -/
def totalClawedBackOnChain (clawbackEvents : List ClawbackRow) : Except ReconciliationError Int :=
  clawbackEvents.foldlM (fun sum ev => do return sum + (← parseBigInt ev.amount)) 0

def pendingClawbackMismatches (stream : StreamRow) (totalClawedBackOnChain : String) :
    List ReconciliationMismatch :=
  if stream.pendingClawback ≠ totalClawedBackOnChain then
    [{ field := "pendingClawback"
       expected := totalClawedBackOnChain
       actual := stream.pendingClawback
       source := .onChain
       description :=
        "Sum of StreamClawbackEvent amounts does not match the stream's pendingClawback field" }]
  else []

def unclaimedMismatches (stream : StreamRow) (expectedUnclaimed : String) :
    List ReconciliationMismatch :=
  if stream.unclaimed ≠ expectedUnclaimed then
    [{ field := "unclaimed"
       expected := expectedUnclaimed
       actual := stream.unclaimed
       source := .computed
       description := "Computed unclaimed (totalVested - claimed - onChainClawbacks) differs from " ++
        "stored unclaimed" }]
  else []

def statusMismatches (stream : StreamRow) (hasTerminateAction : Bool) :
    List ReconciliationMismatch :=
  if hasTerminateAction = true ∧ stream.status ≠ .terminated then
    [{ field := "status"
       expected := "TERMINATED"
       actual := stream.status.name
       source := .backend
       description := "An admin terminate audit record exists but the stream status is not " ++
        "TERMINATED" }]
  else if stream.status = .terminated ∧ hasTerminateAction = false then
    [{ field := "status"
       expected := "ACTIVE or SUSPENDED (no terminate audit record found)"
       actual := stream.status.name
       source := .backend
       description := "Stream is TERMINATED but no STREAM_TERMINATE admin audit record exists — " ++
        "the termination may not have been recorded properly" }]
  else []

/-- `adminActions` are the actions of the audit records about the stream. -/
def StreamReconciliationService.reconcile (now : Nat) (streamId : String) (stream : Option StreamRow)
    (clawbackEvents : List ClawbackRow) (adminActions : List String) :
    Except ReconciliationError ReconciliationResult := do
  match stream with
  | none => throw (.notFound ("Stream " ++ streamId ++ " not found") 404 streamId)
  | some stream =>
    let total ← totalClawedBackOnChain clawbackEvents
    let totalVested ← parseBigInt stream.totalVested
    let claimed ← parseBigInt stream.claimed
    let mismatches := pendingClawbackMismatches stream (toString total) ++
      unclaimedMismatches stream (toString (totalVested - claimed - total)) ++
        statusMismatches stream (adminActions.contains "STREAM_TERMINATE")
    return {
      streamId := streamId
      reconciledAt := now
      consistent := mismatches.isEmpty
      mismatches := mismatches
      streamSnapshot := stream
      clawbackEventCount := clawbackEvents.length
      totalClawedBackOnChain := toString total
      adminActionCount := adminActions.length }

/-- What is reported is the sum of the amounts. -/
theorem total_of_reconcile {now : Nat} {streamId : String} {stream : StreamRow}
    {clawbackEvents : List ClawbackRow} {adminActions : List String} {result : ReconciliationResult}
    (h : StreamReconciliationService.reconcile now streamId (some stream) clawbackEvents
      adminActions = .ok result) :
    ∃ total, totalClawedBackOnChain clawbackEvents = .ok total ∧
      result.totalClawedBackOnChain = toString total := by
  simp only [StreamReconciliationService.reconcile, bind_eq_ok, pure_eq_ok] at h
  obtain ⟨total, htotal, _, -, _, -, rfl⟩ := h
  exact ⟨total, htotal, rfl⟩

/-- Amounts of zero add up to zero. -/
theorem total_of_zeros {rows : List ClawbackRow} (h : ∀ row ∈ rows, row.amount = "0") :
    totalClawedBackOnChain rows = .ok 0 := by
  unfold totalClawedBackOnChain
  induction rows with
  | nil => rfl
  | cons row rows ih =>
    have hzero : parseBigInt row.amount = .ok 0 := by
      rw [h row (List.mem_cons_self ..)]
      decide
    rw [List.foldlM_cons, hzero]
    exact ih fun row hrow => h row (List.mem_cons_of_mem _ hrow)

/-! ## The deliveries -/

/-- The event reaches the backend with its trade and its data. -/
def Carries (sdk : Sdk) (e : Event) (d : Delivery) : Prop :=
  relay sdk e d.event.ledgerSequence d.event.contractId d.event.eventId = some d.event

/-- Every event the backend handles is delivered once, in any order, and each has its own
identifier. -/
def Delivers (sdk : Sdk) (events : List Event) (ds : List Delivery) : Prop :=
  (ds.map fun d => d.event.eventId).Nodup ∧ ∃ inOrder, ds.Perm inOrder ∧
    List.Forall₂ (Carries sdk) (events.filter fun e => (handled e).isSome) inOrder

/-- `findMany` of the clawback events of a stream, the earliest first. -/
def FindsMany (db : Db Row) (streamId : String) (rows : List ClawbackRow) : Prop :=
  ∃ hashes : List String, hashes.Nodup ∧
    (∀ h, db (.streamClawbackEvent streamId h) ≠ none → h ∈ hashes) ∧
      rows = chronological ClawbackRow.timestamp
        (hashes.filterMap fun h => db (.streamClawbackEvent streamId h))

/-- Once all events are processed, in a database that had no clawback events of the stream, their
amounts add up to what was clawed back on the chain, and so a reconciliation reports it. -/
def Mirrors (sdk : Sdk) (s : Escrow.State) (k : Nat) : Prop :=
  ∀ refs (db : Db Row) ds rows, Delivers sdk s.events ds →
    (∀ h, db (.streamClawbackEvent (toString k) h) = none) → Commits refs db ds →
      FindsMany (processAll refs db ds) (toString k) rows →
        totalClawedBackOnChain rows = .ok (Escrow.getClawbackTotal s k) ∧
          ∀ now stream adminActions result,
            StreamReconciliationService.reconcile now (toString k) (some stream) rows
              adminActions = .ok result →
              result.totalClawedBackOnChain = toString (Escrow.getClawbackTotal s k)

/-! ## What is mirrored -/

section Mirrored

variable {sdk : Sdk} {refs : References} {db : Db Row} {e : Event} {d : Delivery}
  {ds : List Delivery} {streamId h : String} {row : ClawbackRow}

/-- The event of a clawback has no field called `amount`. -/
theorem amount_of_carries (carries : Carries sdk e d)
    (clawback : d.event.eventType = .streamClawback) : d.event.data.text "amount" = none := by
  obtain ⟨p, hhandled, hevent⟩ := Option.map_eq_some_iff.1 carries
  rw [← hevent] at clawback ⊢
  cases e with
  | clawbackExecuted => rfl
  | _ =>
    cases hhandled
    try cases clawback

/-- An event adds at most one clawback event, under its own identifier. -/
theorem process_streamClawbackEvent
    (found : process refs db d (.streamClawbackEvent streamId h) = some row) :
    db (.streamClawbackEvent streamId h) = some row ∨
      h = d.event.eventId ∧ d.event.eventType = .streamClawback ∧
        row.amount = (d.event.data.text "amount").getD "0" := by
  by_cases clawback : d.event.eventType = .streamClawback
  · have hprogram : dispatchEvent d.now d.event = handleStreamClawback d.now d.event := by
      rw [dispatchEvent, clawback]
    rw [process, Program.commit, hprogram] at found
    cases hexec : (handleStreamClawback d.now d.event).exec refs.valid db with
    | error fault =>
      rw [hexec] at found
      exact .inl found
    | ok r =>
      rw [hexec] at found
      obtain ⟨streamId', written, hwritten, hnew⟩ := exec_handleStreamClawback hexec
      change r.2 (.streamClawbackEvent streamId h) = some row at found
      rw [hwritten] at found
      by_cases hkey :
          Key.streamClawbackEvent streamId h = .streamClawbackEvent streamId' d.event.eventId
      · obtain ⟨rfl, rfl⟩ := Key.streamClawbackEvent.inj hkey
        cases written with
        | none => exact .inl found
        | some new =>
          rw [Db.write_same] at found
          obtain rfl := Option.some.inj found
          exact (hnew new rfl).imp id fun hamount => ⟨rfl, clawback, hamount⟩
      · rw [Db.write_of_ne _ _ hkey] at found
        exact .inl found
  · left
    rw [← found]
    by_cases hrejected : rejected refs db d.event = true
    · rw [process_of_rejected clawback hrejected]
    · rw [process_of_accepted clawback (by simpa using hrejected)]
      cases type : d.event.eventType <;>
        simp [withSynced, type, withMoved, withDispute, withResolved]

/-- Every clawback event of the stream has amount zero, and comes from one of the deliveries. -/
theorem zero_of_processAll (carried : ∀ d ∈ ds, ∃ e, Carries sdk e d)
    (found : processAll refs db ds (.streamClawbackEvent streamId h) = some row) :
    db (.streamClawbackEvent streamId h) = some row ∨
      row.amount = "0" ∧ h ∈ ds.map fun d => d.event.eventId := by
  induction ds generalizing db with
  | nil => exact .inl found
  | cons d ds ih =>
    obtain hbefore | ⟨hzero, hmem⟩ := ih (fun d hd => carried d (List.mem_cons_of_mem _ hd)) found
    · obtain hold | ⟨rfl, hclawback, hamount⟩ := process_streamClawbackEvent hbefore
      · exact .inl hold
      · obtain ⟨e, he⟩ := carried d (List.mem_cons_self ..)
        rw [amount_of_carries he hclawback] at hamount
        exact .inr ⟨hamount, List.mem_cons_self ..⟩
    · exact .inr ⟨hzero, List.mem_cons_of_mem _ hmem⟩

end Mirrored

section Deliveries

variable {sdk : Sdk} {refs : References} {db : Db Row} {events : List Event} {ds : List Delivery}

theorem Delivers.carried (delivers : Delivers sdk events ds) : ∀ d ∈ ds, ∃ e, Carries sdk e d := by
  obtain ⟨-, inOrder, hperm, hcarries⟩ := delivers
  intro d hd
  obtain ⟨i, hi, rfl⟩ := List.getElem_of_mem (hperm.subset hd)
  exact ⟨_, hcarries.get (hcarries.length_eq ▸ hi) hi⟩

/-- What is added up is zero. -/
theorem total_of_delivers {k : Nat} {rows : List ClawbackRow} (delivers : Delivers sdk events ds)
    (start : ∀ h, db (.streamClawbackEvent (toString k) h) = none)
    (finds : FindsMany (processAll refs db ds) (toString k) rows) :
    totalClawedBackOnChain rows = .ok 0 := by
  obtain ⟨hashes, -, -, rfl⟩ := finds
  apply total_of_zeros
  intro row hrow
  obtain ⟨h, -, hfound⟩ := List.mem_filterMap.1 ((List.mem_insertionSort _).1 hrow)
  obtain hold | ⟨hzero, -⟩ := zero_of_processAll delivers.carried hfound
  · cases (start h).symm.trans hold
  · exact hzero

/-- Where all users and streams are registered, every event goes through. -/
theorem commits_of_registered (ds : List Delivery) (db : Db Row) :
    Commits ⟨fun _ => true, fun _ => true⟩ db ds := by
  induction ds generalizing db with
  | nil => trivial
  | cons d ds ih =>
    refine ⟨?_, ih _⟩
    by_cases clawback : d.event.eventType = .streamClawback
    · rw [dispatchEvent, clawback]
      simp only [handleStreamClawback]
      split
      · generalize ((d.event.data.text "stream_id").or _).getD _ = streamId
        refine (congrArg Except.isOk (exec_upsert_bind ..)).trans ?_
        cases db (.streamClawbackEvent streamId d.event.eventId) with
        | none => rfl
        | some row => rfl
      · rfl
    · rw [exec_dispatchEvent clawback, if_neg]
      · rfl
      · simp [rejected, refused, unsigned, References.valid]

/-- The events of a list, delivered with their numbers from `n` on for identifiers. -/
theorem exists_carries (sdk : Sdk) (n : Nat) (events : List Event)
    (handles : ∀ e ∈ events, (handled e).isSome = true) :
    ∃ ds, List.Forall₂ (Carries sdk) events ds ∧
      (ds.map fun d => d.event.eventId) = (List.range' n events.length).map toString := by
  induction events generalizing n with
  | nil => exact ⟨[], .nil, rfl⟩
  | cons e events ih =>
    obtain ⟨ds, hcarries, hids⟩ := ih (n + 1) fun e he => handles e (List.mem_cons_of_mem _ he)
    obtain ⟨p, hp⟩ := Option.isSome_iff_exists.1 (handles e (List.mem_cons_self ..))
    refine ⟨⟨0, ⟨p.1, toString p.2, 0, "", toString n, payload sdk e⟩⟩ :: ds, .cons ?_ hcarries, ?_⟩
    · simp [Carries, relay, hp]
    · simp [hids, List.range'_succ]

theorem exists_delivers (sdk : Sdk) (events : List Event) : ∃ ds, Delivers sdk events ds := by
  obtain ⟨ds, hcarries, hids⟩ := exists_carries sdk 0
    (events.filter fun e => (handled e).isSome) fun e he => (List.mem_filter.1 he).2
  refine ⟨ds, ?_, ds, .refl _, hcarries⟩
  rw [hids]
  exact (List.nodup_range' ..).map fun _ _ => toString_inj

theorem exists_findsMany (refs : References) (db : Db Row)
    (carried : ∀ d ∈ ds, ∃ e, Carries sdk e d) {streamId : String}
    (start : ∀ h, db (.streamClawbackEvent streamId h) = none) :
    ∃ rows, FindsMany (processAll refs db ds) streamId rows := by
  refine ⟨_, (ds.map fun d => d.event.eventId).dedup, List.nodup_dedup _, fun h hfound => ?_, rfl⟩
  obtain ⟨row, hrow⟩ := Option.ne_none_iff_exists'.1 hfound
  obtain hold | ⟨-, hmem⟩ := zero_of_processAll carried hrow
  · cases (start h).symm.trans hold
  · exact List.mem_dedup.2 hmem

end Deliveries

/-! ## Whole runs -/

section Runs

variable {sdk : Sdk} {s : Escrow.State} {k : Nat}

/-- The clawbacks of a trade are mirrored as long as there are none. -/
theorem mirrors_iff : Mirrors sdk s k ↔ Escrow.getClawbackTotal s k = 0 := by
  constructor
  · intro hmirrors
    obtain ⟨ds, hdelivers⟩ := exists_delivers sdk s.events
    obtain ⟨rows, hfinds⟩ := exists_findsMany ⟨fun _ => true, fun _ => true⟩ (fun _ => none)
      hdelivers.carried fun _ => rfl
    obtain ⟨htotal, -⟩ := hmirrors _ _ ds rows hdelivers (fun _ => rfl)
      (commits_of_registered ds _) hfinds
    rw [total_of_delivers hdelivers (fun _ => rfl) hfinds] at htotal
    exact (Except.ok.inj htotal).symm
  · intro hzero refs db ds rows hdelivers hempty _ hfinds
    have htotal := total_of_delivers hdelivers hempty hfinds
    rw [hzero]
    refine ⟨htotal, fun now stream adminActions result hreconcile => ?_⟩
    obtain ⟨total, hsum, hresult⟩ := total_of_reconcile hreconcile
    rw [hresult, Except.ok.inj (hsum.symm.trans htotal)]

end Runs

/-- In every state of a run, the clawbacks of the trade are mirrored. -/
def ClawbacksMirrored (sdk : Sdk) (tokens : Token.Ledger Escrow.Address) (actions : List Action)
    (k : Nat) : Prop :=
  ∀ before, before <+: actions → Mirrors sdk (Escrow.run tokens before) k

/-- The clawbacks of a trade are mirrored in every state of a run exactly when the run claws nothing
back from the trade, be it at once or by a queued operation. -/
theorem clawbacks_mirrored_iff (sdk : Sdk) (tokens : Token.Ledger Escrow.Address)
    (actions : List Action) (k : Nat) :
    ClawbacksMirrored sdk tokens actions k ↔
      ∀ p ∈ Escrow.trail tokens actions, ¬ Escrow.Claws k p.1 p.2 := by
  refine Machine.always_iff Escrow.step (P := fun s => Mirrors sdk s k)
    (W := fun s => Escrow.WellFormed s.toSettings s.toBooks) (C := fun s a => ¬ Escrow.Claws k s a)
    actions (Escrow.wellFormed_deployed tokens) (mirrors_iff.2 rfl)
    (fun s a wf => Escrow.wellFormed_step wf a) ?_ ?_
  · intro s a wf hmirrors hclean
    obtain ⟨-, hsame⟩ := Escrow.unclawed_of_not_claws wf hclean
    rw [mirrors_iff, hsame]
    exact mirrors_iff.1 hmirrors
  · intro s a wf hmirrors hafter hclaws
    have hpos := Escrow.clawedBack_pos_of_claws wf hclaws
    rw [mirrors_iff] at hmirrors hafter
    cases Escrow.step_flow wf a k with
    | rest _ _ still | create _ _ _ _ still | early _ _ _ _ _ _ _ still
    | hold _ _ _ _ _ _ _ _ still =>
      have hnone := still.clawed
      omega
    | payout _ _ _ _ _ _ _ _ _ hnone _ => omega
    | clawback t amount _ _ _ stored _ _ bounds _ _ totals =>
      have hle := (wf.trade k t stored).le
      have hmin := I128.minValue_eq
      rw [Escrow.getClawbackTotal, totals, hmirrors] at hafter
      have hsum : I128.add 0 amount = 0 + amount := I128.add_of_mem (by omega) (by omega)
      rw [Option.getD_some, hsum] at hafter
      omega

/-- A trade of 100 of which 60 are clawed back. -/
def Sample.clawedBack : List Action :=
  Escrow.Sample.funded ++ [Escrow.Sample.call 4 Escrow.Sample.admin
    (.adminClawback Escrow.Sample.first 60 Escrow.Sample.carol)]

/-- 60 are clawed back, and none are mirrored. -/
theorem not_clawbacksMirrored :
    Escrow.getClawbackTotal (Escrow.run Escrow.Sample.tokens Sample.clawedBack)
        Escrow.Sample.first = 60 ∧
      ¬ ClawbacksMirrored (Sample.stellar fun _ => "G") Escrow.Sample.tokens Sample.clawedBack
        Escrow.Sample.first := by
  have htotal : Escrow.getClawbackTotal (Escrow.run Escrow.Sample.tokens Sample.clawedBack)
      Escrow.Sample.first = 60 := by decide
  refine ⟨htotal, fun h => ?_⟩
  have hzero := mirrors_iff.1 (h _ List.prefix_rfl)
  rw [htotal] at hzero
  cases hzero

end Amana.Backend
