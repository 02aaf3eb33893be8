import Amana.Backend.ChainStatus

/-!
# The dispute workflow

Disputes are opened by a party or by the chain, moved forward by mediators, and closed by a mediator
or by the chain.  Every writer dates a dispute it closes (`sound_run`).  The handler of
`DisputeResolved` closes open disputes only: one that a mediator has taken under review stays under
review (`closed_iff_not_underReview`).
-/

namespace Amana.Backend

open Lib Lib.Database

/-! ## Transitions -/

def DisputeStatus.name : DisputeStatus → String
  | .opened => "OPEN"
  | .underReview => "UNDER_REVIEW"
  | .resolved => "RESOLVED"
  | .closed => "CLOSED"

/-- `COMPLETED_DISPUTE_STATUSES`. -/
def completedDisputeStatuses : List DisputeStatus := [.resolved, .closed]

/-- `VALID_TRANSITIONS`. -/
def getAllowedTransitions : DisputeStatus → List DisputeStatus
  | .opened => [.underReview, .closed]
  | .underReview => [.resolved, .closed]
  | .resolved => []
  | .closed => []

def isTerminalDisputeStatus (status : DisputeStatus) : Bool :=
  completedDisputeStatuses.contains status

def resolvedAtForStatus (now : Nat) (status : DisputeStatus) : Option Nat :=
  if status = .resolved ∨ status = .closed then some now else none

def applyDisputeStatusTransition (now : Nat) (tradeId : String) (dispute : DisputeRow)
    (newStatus : DisputeStatus) : Program Row Bool := do
  let resolvedAt := resolvedAtForStatus now newStatus
  let count ← updateMany (Key.dispute tradeId)
    (fun row : DisputeRow => row.status = dispute.status && row.version = dispute.version)
    fun row : DisputeRow =>
      { row with
        status := newStatus
        version := row.version + 1
        resolvedAt := resolvedAt.or row.resolvedAt }
  return count > 0

def assertValidTransition (currentStatus requestedStatus : DisputeStatus) : Program Row Unit :=
  if requestedStatus ∈ getAllowedTransitions currentStatus then .done ()
  else .raise (.raised ("Cannot transition dispute from " ++ currentStatus.name ++ " to " ++
    requestedStatus.name))

def assertTransitionApplied (applied : Bool) : Program Row Unit :=
  if applied then .done ()
  else .raise (.raised "Dispute status changed concurrently; retry the transition")

/-- The transaction of `transitionDisputeStatus`; `mediators` is the allowlist. -/
def transitionDisputeStatus (mediators : String → Bool) (now : Nat)
    (tradeId mediatorAddress : String) (newStatus : DisputeStatus) : Program Row DisputeRow := do
  if !mediators mediatorAddress then .raise (.raised "Unauthorized: Not a mediator")
  let found : Option DisputeRow ← findUnique (Key.dispute tradeId)
  match found with
  | none => .raise (.raised ("No dispute found for trade: " ++ tradeId))
  | some dispute =>
    if dispute.status = newStatus then return dispute
    assertValidTransition dispute.status newStatus
    let applied ← applyDisputeStatusTransition now tradeId dispute newStatus
    assertTransitionApplied applied
    let updated : Option DisputeRow ← findUnique (Key.dispute tradeId)
    match updated with
    | none => .raise .missing
    | some updated => return updated

def syncDisputeResolvedFromChain (now : Nat) (tradeId : String) : Program Row Unit := do
  let dispute : Option DisputeRow ← findUnique (Key.dispute tradeId)
  match dispute with
  | none => return
  | some dispute =>
    if isTerminalDisputeStatus dispute.status then return
    let count ← updateMany (Key.dispute tradeId)
      (fun row : DisputeRow =>
        (row.status = .opened || row.status = .underReview) && row.version = dispute.version)
      fun row : DisputeRow => row.resolve now
    if count = 0 then .raise (.raised "Dispute concurrency conflict during chain sync")

def syncDisputeInitiatedFromChain (tradeId initiator : String) : Program Row Unit := do
  let existing : Option DisputeRow ← findUnique (Key.dispute tradeId)
  if existing.isNone then
    create (Key.dispute tradeId)
      (⟨if initiator = "" then "unknown" else initiator, "On-chain dispute initiation", .opened, 0,
        none, none⟩ : DisputeRow)

/-! ## Opening and purging -/

def TradeStatus.name : TradeStatus → String
  | .pendingSignature => "PENDING_SIGNATURE"
  | .created => "CREATED"
  | .funded => "FUNDED"
  | .delivered => "DELIVERED"
  | .completed => "COMPLETED"
  | .disputed => "DISPUTED"
  | .cancelled => "CANCELLED"
  | .expired => "EXPIRED"

/-- A party's request to open a dispute.  `categoryId` is the active category it names, if there is
one, and `builds` whether the contract service builds the transaction. -/
structure DisputeRequest where
  tradeId : String
  callerAddress : String
  reason : String
  category : String
  categoryId : Option Nat
  builds : Bool

def initiateDispute (request : DisputeRequest) : Program Row Unit := do
  let found : Option TradeRow ← findUnique (Key.trade request.tradeId)
  match found with
  | none => .raise (.raised "Trade not found")
  | some trade =>
    -- `getTradeById` also lets admins pass, who are refused here with the same error.
    if trade.buyerAddress ≠ request.callerAddress ∧ trade.sellerAddress ≠ request.callerAddress then
      .raise (.raised "Forbidden")
    if trade.status ≠ .funded ∧ trade.status ≠ .delivered then
      .raise (.raised
        ("Trade must be in FUNDED or DELIVERED status to initiate a dispute (current: " ++
          trade.status.name ++ ")"))
    match request.categoryId with
    | none => .raise (.raised ("Invalid dispute category: " ++ request.category))
    | some categoryId =>
      if !request.builds then .raise .lost
      create (Key.dispute request.tradeId)
        (⟨request.callerAddress, request.reason, .opened, 0, none, some categoryId⟩ : DisputeRow)

/-- `purgeCompletedDisputeData`, for one dispute. -/
def purgeCompletedDisputeData (mediators : String → Bool) (mediatorAddress : String) (cutoff : Nat)
    (tradeId : String) : Program Row Unit := do
  if !mediators mediatorAddress then .raise (.raised "Unauthorized: Not a mediator")
  let found : Option DisputeRow ← findUnique (Key.dispute tradeId)
  match found with
  | none => return
  | some dispute =>
    if isTerminalDisputeStatus dispute.status ∧ (∃ at' ∈ dispute.resolvedAt, at' ≤ cutoff) ∧
        dispute.reason ≠ "" then
      discard <| updateMany (Key.dispute tradeId) (fun _ : DisputeRow => true)
        fun row : DisputeRow => { row with reason := "" }

/-! ## Closed disputes are dated -/

/-- A dispute with a terminal status has the time it was closed at. -/
def Dated : (k : Key) → Row k → Prop
  | .dispute _, row => isTerminalDisputeStatus row.status = true → row.resolvedAt ≠ none
  | _, _ => True

theorem keeps_applyStatusTransition (event : ParsedEvent) (payload : TradeRow) :
    (applyStatusTransition event payload).Keeps Dated := by
  refine .bind (keeps_ask trivial) fun existing => ?_
  cases existing with
  | none => exact .bind (keeps_ask ⟨trivial, fun _ _ => trivial⟩) fun _ => keeps_done _
  | some row =>
    refine keeps_ite (.bind (keeps_ask fun _ _ _ => trivial) fun count => ?_) (keeps_done _)
    exact keeps_ite (keeps_raise _) (keeps_done _)

theorem keeps_syncDisputeFromEvent (now : Nat) (event : ParsedEvent) (resolved : Bool) :
    (syncDisputeFromEvent now event resolved).Keeps Dated := by
  refine .bind (keeps_ask trivial) fun existing => ?_
  refine keeps_ite (keeps_ite ?_ (keeps_done _)) (keeps_ite ?_ (keeps_done _))
  · exact .bind (keeps_ask fun _ _ _ _ => by simp [DisputeRow.resolve]) fun _ => keeps_done _
  · exact keeps_ask fun h => by cases h

theorem keeps_dispatchEvent (now : Nat) (event : ParsedEvent) :
    (dispatchEvent now event).Keeps Dated := by
  unfold dispatchEvent
  cases event.eventType with
  | disputeInitiated | disputeResolved =>
    exact .bind (keeps_applyStatusTransition ..) fun _ => keeps_syncDisputeFromEvent ..
  | streamClawback =>
    refine keeps_ite (.bind (keeps_ask ⟨trivial, fun _ _ => trivial⟩) fun _ => keeps_done _)
      (keeps_done _)
  | _ => exact keeps_applyStatusTransition ..

theorem keeps_transitionDisputeStatus (mediators : String → Bool) (now : Nat)
    (tradeId mediatorAddress : String) (newStatus : DisputeStatus) :
    (transitionDisputeStatus mediators now tradeId mediatorAddress newStatus).Keeps Dated := by
  refine keeps_ite (keeps_raise _) (.bind (keeps_ask trivial) fun found => ?_)
  cases found with
  | none => exact keeps_raise _
  | some dispute =>
    refine keeps_ite (keeps_done _) (.bind (keeps_ite (keeps_done _) (keeps_raise _)) fun _ => ?_)
    refine .bind (.bind (keeps_ask ?_) fun count => keeps_done _) fun applied => ?_
    · -- A terminal status comes with the time.
      intro row _ _ terminal
      cases newStatus with
      | opened | underReview => cases terminal
      | resolved | closed => simp [resolvedAtForStatus]
    · refine .bind (keeps_ite (keeps_done _) (keeps_raise _)) fun _ => ?_
      refine .bind (keeps_ask trivial) fun updated => ?_
      cases updated with
      | none => exact keeps_raise _
      | some updated => exact keeps_done _

theorem keeps_syncDisputeResolvedFromChain (now : Nat) (tradeId : String) :
    (syncDisputeResolvedFromChain now tradeId).Keeps Dated := by
  refine .bind (keeps_ask trivial) fun dispute => ?_
  cases dispute with
  | none => exact keeps_done _
  | some dispute =>
    refine keeps_ite (keeps_done _) (.bind (keeps_ask ?_) fun count => ?_)
    · intro row _ _ _
      simp [DisputeRow.resolve]
    · exact keeps_ite (keeps_raise _) (keeps_done _)

theorem keeps_syncDisputeInitiatedFromChain (tradeId initiator : String) :
    (syncDisputeInitiatedFromChain tradeId initiator).Keeps Dated := by
  refine .bind (keeps_ask trivial) fun existing => keeps_ite (keeps_ask ?_) (keeps_done _)
  intro terminal
  cases terminal

theorem keeps_initiateDispute (request : DisputeRequest) :
    (initiateDispute request).Keeps Dated := by
  refine .bind (keeps_ask trivial) fun found => ?_
  cases found with
  | none => exact keeps_raise _
  | some trade =>
    refine keeps_ite (keeps_raise _) (keeps_ite (keeps_raise _) ?_)
    cases request.categoryId with
    | none => exact keeps_raise _
    | some categoryId =>
      refine keeps_ite (keeps_raise _) (keeps_ask ?_)
      intro terminal
      cases terminal

theorem keeps_purgeCompletedDisputeData (mediators : String → Bool) (mediatorAddress : String)
    (cutoff : Nat) (tradeId : String) :
    (purgeCompletedDisputeData mediators mediatorAddress cutoff tradeId).Keeps Dated := by
  refine keeps_ite (keeps_raise _) (.bind (keeps_ask trivial) fun found => ?_)
  cases found with
  | none => exact keeps_done _
  | some dispute =>
    refine keeps_ite (.bind (keeps_ask ?_) fun _ => keeps_done _) (keeps_done _)
    exact fun row dated _ => dated

/-! ## Runs -/

/-- What can happen to disputes. -/
inductive DisputeAction where
  | transition (now : Nat) (tradeId mediatorAddress : String) (newStatus : DisputeStatus)
  | dispatch (now : Nat) (event : ParsedEvent)
  | resolvedFromChain (now : Nat) (tradeId : String)
  | initiatedFromChain (tradeId initiator : String)
  | initiate (request : DisputeRequest)
  | purge (mediatorAddress : String) (cutoff : Nat) (tradeId : String)

/-- The database after an action; one that fails changes nothing. -/
def disputeStep (refs : References) (mediators : String → Bool) (db : Db Row) :
    DisputeAction → Db Row
  | .transition now tradeId mediatorAddress newStatus =>
    (transitionDisputeStatus mediators now tradeId mediatorAddress newStatus).commit refs.valid db
  | .dispatch now event => (dispatchEvent now event).commit refs.valid db
  | .resolvedFromChain now tradeId =>
    (syncDisputeResolvedFromChain now tradeId).commit refs.valid db
  | .initiatedFromChain tradeId initiator =>
    (syncDisputeInitiatedFromChain tradeId initiator).commit refs.valid db
  | .initiate request => (initiateDispute request).commit refs.valid db
  | .purge mediatorAddress cutoff tradeId =>
    (purgeCompletedDisputeData mediators mediatorAddress cutoff tradeId).commit refs.valid db

variable {refs : References} {mediators : String → Bool} {start db db' : Db Row}
  {event : ParsedEvent} {now : Nat}

theorem dated_disputeStep (db : Db Row) (a : DisputeAction)
    (dated : ∀ k, ∀ row ∈ db k, Dated k row) :
    ∀ k, ∀ row ∈ disputeStep refs mediators db a k, Dated k row := by
  cases a with
  | transition => exact (keeps_transitionDisputeStatus ..).commit dated
  | dispatch => exact (keeps_dispatchEvent ..).commit dated
  | resolvedFromChain => exact (keeps_syncDisputeResolvedFromChain ..).commit dated
  | initiatedFromChain => exact (keeps_syncDisputeInitiatedFromChain ..).commit dated
  | initiate => exact (keeps_initiateDispute ..).commit dated
  | purge => exact (keeps_purgeCompletedDisputeData ..).commit dated

/-- In every run from a database without disputes all closed disputes are dated. -/
theorem dated_run (new : ∀ tradeId, start (.dispute tradeId) = none)
    (actions : List DisputeAction) (k : Key) :
    ∀ row ∈ Machine.run (disputeStep refs mediators) start actions k, Dated k row := by
  refine Machine.run_invariant_of_step (disputeStep refs mediators)
    (P := fun db => ∀ k, ∀ row ∈ db k, Dated k row) actions ?_ dated_disputeStep k
  intro k row hrow
  cases k with
  | dispute tradeId => cases (new tradeId).symm.trans hrow
  | _ => trivial

/-! ## Resolution on the chain -/

/-- The dispute of the trade is closed and dated. -/
def Closed (db : Db Row) (tradeId : String) : Prop :=
  ∃ row : DisputeRow, db (.dispute tradeId) = some row ∧
    isTerminalDisputeStatus row.status = true ∧ row.resolvedAt ≠ none

theorem dispute_of_resolved (type : event.eventType = .disputeResolved)
    (commits : (dispatchEvent now event).exec refs.valid db = .ok ((), db')) :
    db' (.dispute event.tradeId) = syncedDispute now event (db (.dispute event.tradeId)) := by
  have htype : event.eventType ≠ .streamClawback := by
    rw [type]
    decide
  obtain ⟨haccepted, rfl⟩ := (exec_eq_ok_iff htype).1 commits
  exact process_dispute htype haccepted

/-- In every reachable state, the handler of `DisputeResolved` leaves the dispute of its trade
closed and dated exactly when it was not under review. -/
theorem closed_iff_not_underReview (new : ∀ tradeId, start (.dispute tradeId) = none)
    (actions : List DisputeAction) {row : DisputeRow}
    (dispute : Machine.run (disputeStep refs mediators) start actions (.dispute event.tradeId) =
      some row)
    (type : event.eventType = .disputeResolved)
    (commits : (dispatchEvent now event).exec refs.valid
      (Machine.run (disputeStep refs mediators) start actions) = .ok ((), db')) :
    Closed db' event.tradeId ↔ row.status ≠ .underReview := by
  have hafter := dispute_of_resolved type commits
  rw [dispute, syncedDispute, type] at hafter
  have hdated := dated_run new actions (.dispute event.tradeId) row dispute
  unfold Closed
  rw [hafter]
  by_cases hopen : row.status = .opened
  · simp [hopen, DisputeRow.resolve, isTerminalDisputeStatus, completedDisputeStatuses]
  · cases hstatus : row.status with
    | opened => exact absurd hstatus hopen
    | underReview => simp [hstatus, isTerminalDisputeStatus, completedDisputeStatuses]
    | resolved | closed =>
      have hterminal : isTerminalDisputeStatus row.status = true := by
        rw [hstatus]
        decide
      simp [hstatus, hdated hterminal, isTerminalDisputeStatus, completedDisputeStatuses]

/-- A funded trade without a dispute. -/
def Sample.fundedTrade : Db Row :=
  Function.update (fun _ => none) (.trade (toString Escrow.Sample.first))
    (some ⟨"GALICE", "GBOB", "100", 1, .funded, none, none⟩)

/-- Bob's dispute comes in from the chain. -/
def Sample.dispatchDispute : DisputeAction :=
  .dispatch 0 (Sample.delivery .disputeInitiated).event

/-- A mediator takes the dispute under review. -/
def Sample.review : DisputeAction :=
  .transition 0 (toString Escrow.Sample.first) "GMED" .underReview

theorem Sample.fundedTrade_dispute (tradeId : String) :
    Sample.fundedTrade (.dispute tradeId) = none := rfl

/-- An open dispute is closed. -/
theorem closed_of_open :
    Closed (process Sample.users (Machine.run (disputeStep Sample.users (· = "GMED"))
      Sample.fundedTrade [Sample.dispatchDispute]) (Sample.delivery .disputeResolved))
      (toString Escrow.Sample.first) :=
  (closed_iff_not_underReview Sample.fundedTrade_dispute [Sample.dispatchDispute] rfl rfl
    ((exec_eq_ok_iff (by decide)).2 ⟨by decide, rfl⟩)).2 (by decide)

/-- A dispute that a mediator has taken under review is still under review when the chain has
resolved it. -/
theorem not_closed_of_review :
    ((dispatchEvent 0 (Sample.delivery .disputeResolved).event).exec Sample.users.valid
      (Machine.run (disputeStep Sample.users (· = "GMED")) Sample.fundedTrade
        [Sample.dispatchDispute, Sample.review])).isOk = true ∧
    ¬ Closed (process Sample.users (Machine.run (disputeStep Sample.users (· = "GMED"))
      Sample.fundedTrade [Sample.dispatchDispute, Sample.review])
      (Sample.delivery .disputeResolved)) (toString Escrow.Sample.first) := by
  refine ⟨by decide, ?_⟩
  rintro ⟨row, hrow, hterminal, -⟩
  have hstatus : (process Sample.users (Machine.run (disputeStep Sample.users (· = "GMED"))
      Sample.fundedTrade [Sample.dispatchDispute, Sample.review])
      (Sample.delivery .disputeResolved) (.dispute (toString Escrow.Sample.first))).map
        DisputeRow.status = some .underReview := by decide
  rw [hrow] at hstatus
  rw [Option.some.inj hstatus] at hterminal
  cases hterminal

end Amana.Backend
