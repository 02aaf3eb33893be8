import Amana.Backend.Reordering
import Amana.Backend.Workers
import Amana.Lib.Text
import Amana.Escrow.Counters
import Amana.Lib.Timeline

/-!
# The history of a trade

`auditTrail.service.ts` makes up the history of a trade from what its rows are now: the status and
its last change stand for all the changes before.  The history of a trade that was funded and
delivered comes out right; it does not where a resolution or a cancellation hides what came before
it, and where the row has not followed the events (`history_tells_iff`).
-/

namespace Amana.Backend

open Lib Lib.Database Lib.Timeline
open Escrow (Address Milestone Action IssuedOnce milestonesOf courses)

variable {refs : References} {d : Delivery} {ds : List Delivery} {k : String}

inductive TradeEventType where
  | created
  | funded
  | manifestSubmitted
  | videoSubmitted
  | deliveryConfirmed
  | disputeInitiated
  | evidenceSubmitted
  | resolved
  | completed
  deriving DecidableEq, Repr

inductive MetadataValue where
  | text (s : String)
  | time (t : Nat)
  | flag (b : Bool)
  deriving DecidableEq, Repr

structure TradeEvent where
  eventType : TradeEventType
  timestamp : Nat
  actor : String
  metadata : List (String × MetadataValue)
  deriving DecidableEq, Repr

structure AuditTrailError where
  name : String
  message : String
  status : Nat
  deriving DecidableEq, Repr

def auditTrailAccessDeniedError : AuditTrailError :=
  ⟨"AuditTrailAccessDeniedError", "Access denied: you are not a party to this trade", 403⟩

def auditTrailTradeNotFoundError : AuditTrailError :=
  ⟨"AuditTrailTradeNotFoundError", "Trade not found", 404⟩

/-! ## What is read -/

structure AuditTrade where
  buyerAddress : String
  sellerAddress : String
  amountUsdc : String
  status : TradeStatus
  createdAt : Nat
  updatedAt : Nat
  fundedAt : Option Nat
  deliveredAt : Option Nat
  completedAt : Option Nat
  deriving DecidableEq, Repr

structure AuditDispute where
  initiator : String
  reason : String
  status : DisputeStatus
  createdAt : Nat
  resolvedAt : Option Nat
  deriving DecidableEq, Repr

structure DeliveryManifest where
  vehicleRegistration : String
  expectedDeliveryAt : Nat
  createdAt : Nat
  deriving DecidableEq, Repr

structure TradeEvidence where
  cid : String
  filename : String
  mimeType : String
  uploadedBy : String
  createdAt : Nat
  deriving DecidableEq, Repr

/-- The rows of one trade; the evidence in the order it was created. -/
structure AuditDatabase where
  trade : Option AuditTrade
  dispute : Option AuditDispute
  manifest : Option DeliveryManifest
  evidence : List TradeEvidence

/-- What the service is run with. -/
structure AuditConfig where
  /-- The entries of `ADMIN_STELLAR_PUBKEYS`. -/
  adminPubkeys : List String
  evidenceMetadataRetentionDays : Nat
  symbol : String

/-- Addresses are of ASCII characters. -/
def AuditConfig.adminAllowlistLowercase (config : AuditConfig) : List String :=
  (config.adminPubkeys.map fun entry => Text.toLowerCase (Text.trim entry)).filter (· ≠ "")

def AuditConfig.isEvidenceMetadataExpired (config : AuditConfig) (now createdAt : Nat) : Bool :=
  createdAt + config.evidenceMetadataRetentionDays * (24 * 60 * 60 * 1000) < now

def maskVehicleRegistration (value : String) : String :=
  let trimmed := Text.trim value
  if Text.utf16Length trimmed ≤ 3 then "***" else Text.slice trimmed 3 ++ "***"

/-! ## The entries -/

def createdEntry (config : AuditConfig) (trade : AuditTrade) : TradeEvent where
  eventType := .created
  timestamp := trade.createdAt
  actor := trade.buyerAddress
  metadata :=
    [("amount", .text trade.amountUsdc), ("symbol", .text config.symbol),
      ("amountUsdc", .text trade.amountUsdc)]

/-- The statuses of a trade that is taken to have been funded. -/
def fundedStatuses : List TradeStatus := [.funded, .delivered, .completed, .disputed, .cancelled]

def fundedEntries (trade : AuditTrade) : List TradeEvent :=
  if trade.status ∈ fundedStatuses then
    [⟨.funded, trade.fundedAt.getD trade.updatedAt, trade.buyerAddress, []⟩]
  else []

def manifestEntries (isAdmin : Bool) (trade : AuditTrade) (manifest : Option DeliveryManifest) :
    List TradeEvent :=
  manifest.toList.map fun manifest =>
    { eventType := .manifestSubmitted
      timestamp := manifest.createdAt
      actor := trade.sellerAddress
      metadata :=
        [("vehicleRegistration", .text (if isAdmin then manifest.vehicleRegistration
          else maskVehicleRegistration manifest.vehicleRegistration)),
          ("expectedDeliveryAt", .time manifest.expectedDeliveryAt)] }

def evidenceEntry (config : AuditConfig) (now : Nat) (isAdmin : Bool) (ev : TradeEvidence) :
    TradeEvent :=
  let expired := config.isEvidenceMetadataExpired now ev.createdAt
  { eventType :=
      if "video/".toList.isPrefixOf ev.mimeType.toList then .videoSubmitted else .evidenceSubmitted
    timestamp := ev.createdAt
    actor := if expired && !isAdmin then "redacted" else ev.uploadedBy
    metadata :=
      [("mimeType", .text ev.mimeType), ("cid", .text (if expired then "redacted" else ev.cid)),
        ("filename", .text (if expired then "redacted" else ev.filename)),
        ("retentionExpired", .flag expired)] }

/-- The statuses of a trade that is taken to have been delivered. -/
def deliveredStatuses : List TradeStatus := [.delivered, .completed]

def deliveryEntries (trade : AuditTrade) : List TradeEvent :=
  if trade.status ∈ deliveredStatuses then
    [⟨.deliveryConfirmed, trade.deliveredAt.getD trade.updatedAt, trade.buyerAddress, []⟩]
  else []

def disputeEntries : Option AuditDispute → List TradeEvent
  | none => []
  | some dispute =>
    ⟨.disputeInitiated, dispute.createdAt, dispute.initiator, [("reason", .text dispute.reason)]⟩ ::
      dispute.resolvedAt.toList.map fun resolvedAt =>
        ⟨.resolved, resolvedAt, dispute.initiator,
          [("disputeStatus", .text dispute.status.name)]⟩

def completedEntries (trade : AuditTrade) : List TradeEvent :=
  if trade.status = .completed then
    [⟨.completed, trade.completedAt.getD trade.updatedAt, trade.sellerAddress, []⟩]
  else []

/-- All entries, before they are sorted. -/
def tradeEntries (config : AuditConfig) (now : Nat) (isAdmin : Bool) (db : AuditDatabase)
    (trade : AuditTrade) : List TradeEvent :=
  createdEntry config trade :: fundedEntries trade ++ manifestEntries isAdmin trade db.manifest ++
    db.evidence.map (evidenceEntry config now isAdmin) ++ deliveryEntries trade ++
      disputeEntries db.dispute ++ completedEntries trade

def getTradeHistory (config : AuditConfig) (now : Nat) (db : AuditDatabase)
    (callerAddress : String) : Except AuditTrailError (List TradeEvent) :=
  match db.trade with
  | none => .error auditTrailTradeNotFoundError
  | some trade =>
    let caller := Text.toLowerCase callerAddress
    let isBuyer := decide (Text.toLowerCase trade.buyerAddress = caller)
    let isSeller := decide (Text.toLowerCase trade.sellerAddress = caller)
    let isAdmin := config.adminAllowlistLowercase.contains caller
    let isMediator := !isBuyer && !isSeller && db.dispute.isSome
    if isBuyer || isSeller || isMediator || isAdmin then
      .ok (chronological TradeEvent.timestamp (tradeEntries config now isAdmin db trade))
    else .error auditTrailAccessDeniedError

/-! ## Rows with their times -/

instance : (k : Key) → DecidableEq (Row k)
  | .trade _ => inferInstanceAs (DecidableEq TradeRow)
  | .dispute _ => inferInstanceAs (DecidableEq DisputeRow)
  | .processedEvent _ => inferInstanceAs (DecidableEq Unit)
  | .chainEventOutbox _ => inferInstanceAs (DecidableEq OutboxRow)
  | .streamClawbackEvent _ _ => inferInstanceAs (DecidableEq ClawbackRow)

/-- The transactions of some events. -/
def processAllAt (refs : References) (t : Stamped Row) (ds : List Delivery) : Stamped Row :=
  ds.foldl (fun t d => t.commit d.now (process refs t.rows d)) t

/-- The admin cancels a trade. -/
def adminCancel (refs : References) (t : Stamped Row) (now : Nat) (k : String) : Stamped Row :=
  t.commit now ((batchStatus [(k, .cancelled)]).alone refs.valid t.rows)

/-- The events of a trade, and a cancellation after them. -/
def past (refs : References) (t : Stamped Row) (k : String) (ds : List Delivery) :
    Option Nat → Stamped Row
  | none => processAllAt refs t ds
  | some now => adminCancel refs (processAllAt refs t ds) now k

/-- What the service reads about a trade.  The columns `fundedAt`, `deliveredAt` and `completedAt`
are never written. -/
def auditDatabase (t : Stamped Row) (k : String) (manifest : Option DeliveryManifest)
    (evidence : List TradeEvidence) : AuditDatabase where
  trade := (t.rows (.trade k)).map fun row : TradeRow =>
    { buyerAddress := row.buyerAddress
      sellerAddress := row.sellerAddress
      amountUsdc := row.amountUsdc
      status := row.status
      createdAt := t.createdAt (.trade k)
      updatedAt := t.updatedAt (.trade k)
      fundedAt := none
      deliveredAt := none
      completedAt := none }
  dispute := (t.rows (.dispute k)).map fun row : DisputeRow =>
    { initiator := row.initiator
      reason := row.reason
      status := row.status
      createdAt := t.createdAt (.dispute k)
      resolvedAt := row.resolvedAt }
  manifest := manifest
  evidence := evidence

/-! ## What is left of the past -/

/-- The entry for an event. -/
def told : EventType → Option TradeEventType
  | .tradeFunded => some .funded
  | .deliveryConfirmed => some .deliveryConfirmed
  | .disputeInitiated => some .disputeInitiated
  | .disputeResolved => some .resolved
  | _ => none

/-- The entry is one for an event. -/
def TradeEventType.tells : TradeEventType → Bool
  | .funded | .deliveryConfirmed | .disputeInitiated | .resolved => true
  | _ => false

/-- The history has the entries for these events, each of them once, in the order of the events. -/
def TellsWhatHappened (history : List TradeEvent) (types : List EventType) : Prop :=
  (history.map TradeEvent.eventType).filter TradeEventType.tells = types.filterMap told

/-- What the history is made of: the status of the trade and its last change, and of the dispute
when it was created, its status and when it was resolved. -/
@[ext] structure Traces where
  trade : Option (TradeStatus × Nat)
  dispute : Option (Nat × DisputeStatus × Option Nat)

def traces (t : Stamped Row) (k : String) : Traces where
  trade := (t.rows (.trade k)).map fun row : TradeRow => (row.status, t.updatedAt (.trade k))
  dispute := (t.rows (.dispute k)).map fun row : DisputeRow =>
    (t.createdAt (.dispute k), row.status, row.resolvedAt)

/-- The trade after an event. -/
def nextTrade (eventType : EventType) (now : Nat) :
    Option (TradeStatus × Nat) → Option (TradeStatus × Nat)
  | none => (eventToStatus eventType).map fun status => (status, now)
  | some (status, updatedAt) =>
    if status ∈ (validPredecessors eventType).getD [] then
      some ((eventToStatus eventType).getD status, now)
    else some (status, updatedAt)

/-- The dispute after an event. -/
def nextDispute (eventType : EventType) (now : Nat)
    (dispute : Option (Nat × DisputeStatus × Option Nat)) :
    Option (Nat × DisputeStatus × Option Nat) :=
  match eventType with
  | .disputeInitiated => some (dispute.getD (now, .opened, none))
  | .disputeResolved => dispute.map fun p => if p.2.1 = .opened then (p.1, .resolved, some now) else p
  | _ => dispute

/-- The traces after an event. -/
def Traces.next (p : Traces) (eventType : EventType) (now : Nat) : Traces where
  trade := nextTrade eventType now p.trade
  dispute := nextDispute eventType now p.dispute

/-- The traces after a cancellation. -/
def Traces.cancelled (p : Traces) (now : Nat) : Traces where
  trade := p.trade.map fun _ => (.cancelled, now)
  dispute := p.dispute

/-- A trade that is moved is not the trade it was. -/
theorem TradeRow.moveTo_ne (row : TradeRow) (status : TradeStatus) : row.moveTo status ≠ row := by
  intro h
  have hversion : row.version + 1 = row.version := congrArg TradeRow.version h
  omega

/-- A row that is written is stamped. -/
theorem traces_trade_of_ne {t : Stamped Row} {rows : Db Row} {now : Nat} {row : TradeRow}
    (h : rows (.trade k) = some row) (changed : t.rows (.trade k) ≠ some row) :
    (traces (t.commit now rows) k).trade = some (row.status, now) := by
  have hne : ¬ rows (.trade k) = t.rows (.trade k) := fun hsame => changed (hsame.symm.trans h)
  simp only [traces, Stamped.commit, if_neg hne]
  rw [h]
  rfl

theorem traces_trade_of_eq {t : Stamped Row} {rows : Db Row} {now : Nat}
    (same : rows (.trade k) = t.rows (.trade k)) :
    (traces (t.commit now rows) k).trade = (traces t k).trade := by
  simp only [traces, Stamped.commit, same, if_true]

theorem traces_process {t : Stamped Row} (type : d.event.eventType ≠ .streamClawback)
    (accepted : rejected refs t.rows d.event = false) :
    traces (t.commit d.now (process refs t.rows d)) d.event.tradeId =
      (traces t d.event.tradeId).next d.event.eventType d.now := by
  obtain ⟨new, hnew⟩ := eventToStatus_isSome type
  have htrade := process_trade type accepted
  have hdispute := process_dispute type accepted
  apply Traces.ext
  · cases hrow : t.rows (.trade d.event.tradeId) with
    | none =>
      rw [traces_trade_of_ne htrade (by rw [hrow]; rintro ⟨⟩)]
      simp [Traces.next, traces, nextTrade, movedTrade, hrow, hnew, payload_status new hnew]
    | some row =>
      by_cases hmoves : row.status ∈ (validPredecessors d.event.eventType).getD []
      · have hmoved : movedTrade d.event d.event.payload (t.rows (.trade d.event.tradeId)) =
            row.moveTo new := by
          simp [hrow, movedTrade, hmoves, hnew]
        rw [hmoved] at htrade
        rw [traces_trade_of_ne htrade (by rw [hrow]; simpa using (row.moveTo_ne new).symm)]
        simp [Traces.next, traces, nextTrade, hrow, hmoves, hnew, TradeRow.moveTo]
      · have hmoved : movedTrade d.event d.event.payload (t.rows (.trade d.event.tradeId)) = row := by
          simp [hrow, movedTrade, hmoves]
        rw [traces_trade_of_eq (by rw [htrade, hmoved, hrow])]
        simp [Traces.next, traces, nextTrade, hrow, hmoves]
  · show (process refs t.rows d (.dispute d.event.tradeId)).map _ =
      nextDispute d.event.eventType d.now (traces t d.event.tradeId).dispute
    rw [hdispute]
    cases hrow : t.rows (.dispute d.event.tradeId) with
    | none =>
      cases htype : d.event.eventType <;>
        simp [syncedDispute, nextDispute, traces, Stamped.commit, htype, hrow, disputeOf]
    | some row =>
      cases htype : d.event.eventType with
      | disputeResolved =>
        by_cases hopen : row.status = .opened <;>
          simp [syncedDispute, nextDispute, traces, Stamped.commit, htype, hrow, hopen,
            DisputeRow.resolve]
      | _ => simp [syncedDispute, nextDispute, traces, Stamped.commit, htype, hrow]

theorem traces_processAllAt {t : Stamped Row} (about : About k ds) (commits : Commits refs t.rows ds) :
    traces (processAllAt refs t ds) k =
      ds.foldl (fun p d => p.next d.event.eventType d.now) (traces t k) := by
  induction ds generalizing t with
  | nil => rfl
  | cons d ds ih =>
    obtain ⟨rfl, type⟩ := about d (List.mem_cons_self ..)
    have hrest := ih (t := t.commit d.now (process refs t.rows d))
      (fun d hd => about d (List.mem_cons_of_mem _ hd)) commits.2
    rw [traces_process type (rejected_of_isOk type commits.1)] at hrest
    exact hrest

/-- The cancellation goes through. -/
def CanCancel (t : Stamped Row) (k : String) : Prop :=
  ∃ row ∈ t.rows (.trade k), TradeStatus.cancelled ∈ batchTransitions row.status

theorem traces_adminCancel {t : Stamped Row} {now : Nat} (can : CanCancel t k) :
    traces (adminCancel refs t now k) k = (traces t k).cancelled now := by
  obtain ⟨row, hrow, hallowed⟩ := can
  have hrow : t.rows (.trade k) = some row := hrow
  have halone : (batchStatus [(k, .cancelled)]).alone refs.valid t.rows =
      t.rows.write (.trade k) (some (row.moveTo .cancelled)) := by
    simp [batchStatus, ReadCommitted.Task.alone, Statement.run, hrow, hallowed]
  apply Traces.ext
  · rw [adminCancel, halone, traces_trade_of_ne (Db.write_same ..)]
    · simp [traces, Traces.cancelled, hrow, TradeRow.moveTo]
    · rw [hrow]
      simpa using (row.moveTo_ne .cancelled).symm
  · rw [adminCancel, halone]
    simp only [traces, Stamped.commit, Traces.cancelled]
    rw [Db.write_of_ne _ _ (by simp)]
    cases hdispute : t.rows (.dispute k) <;> simp

/-! ## The entries for events -/

/-- The entries for events, before they are sorted. -/
def Traces.entries (p : Traces) : List (TradeEventType × Nat) :=
  (p.trade.toList.flatMap fun (status, updatedAt) =>
    (if status ∈ fundedStatuses then [(.funded, updatedAt)] else []) ++
      if status ∈ deliveredStatuses then [(.deliveryConfirmed, updatedAt)] else []) ++
  p.dispute.toList.flatMap fun (createdAt, _, resolvedAt) =>
    (.disputeInitiated, createdAt) :: resolvedAt.toList.map fun at' => (.resolved, at')

section Histories

variable {config : AuditConfig} {now : Nat} {t : Stamped Row} {manifest : Option DeliveryManifest}
  {evidence : List TradeEvidence} {caller : String} {history : List TradeEvent}

/-- What an entry says about an event, and when. -/
def TradeEvent.entry (event : TradeEvent) : TradeEventType × Nat :=
  (event.eventType, event.timestamp)

/-- What a list of entries says about events. -/
def tellings (events : List TradeEvent) : List (TradeEventType × Nat) :=
  (events.filter fun event => event.eventType.tells).map TradeEvent.entry

theorem tellings_append (events events' : List TradeEvent) :
    tellings (events ++ events') = tellings events ++ tellings events' := by
  simp [tellings]

theorem tellings_eq_nil {events : List TradeEvent}
    (h : ∀ event ∈ events, event.eventType.tells = false) : tellings events = [] := by
  have hnone : events.filter (fun event => event.eventType.tells) = [] := by
    rw [List.filter_eq_nil_iff]
    exact fun event hevent => by simp [h event hevent]
  rw [tellings, hnone]
  rfl

/-- The other entries are left out. -/
theorem tellings_tradeEntries {isAdmin : Bool} {db : AuditDatabase} {trade : AuditTrade} :
    tellings (tradeEntries config now isAdmin db trade) =
      tellings (fundedEntries trade) ++ tellings (deliveryEntries trade) ++
        tellings (disputeEntries db.dispute) := by
  have hcreated : tellings [createdEntry config trade] = [] := rfl
  have hmanifest : tellings (manifestEntries isAdmin trade db.manifest) = [] := by
    cases hmanifest : db.manifest <;> rfl
  have hevidence : tellings (db.evidence.map (evidenceEntry config now isAdmin)) = [] := by
    apply tellings_eq_nil
    intro event hevent
    obtain ⟨ev, -, rfl⟩ := List.mem_map.1 hevent
    unfold evidenceEntry
    dsimp only
    split <;> rfl
  have hcompleted : tellings (completedEntries trade) = [] := by
    unfold completedEntries
    split <;> rfl
  rw [tradeEntries, ← List.singleton_append]
  simp only [tellings_append, hcreated, hmanifest, hevidence, hcompleted, List.nil_append,
    List.append_nil]

theorem tellings_auditDatabase {isAdmin : Bool} {trade : AuditTrade}
    (found : (auditDatabase t k manifest evidence).trade = some trade) :
    tellings (tradeEntries config now isAdmin (auditDatabase t k manifest evidence) trade) =
      (traces t k).entries := by
  rw [tellings_tradeEntries, Traces.entries]
  obtain ⟨row, hrow, rfl⟩ := Option.map_eq_some_iff.1 found
  congr 1
  · simp only [traces, hrow, Option.map_some, Option.toList_some, List.flatMap_singleton]
    unfold fundedEntries deliveryEntries
    congr 1 <;> split <;> rfl
  · simp only [traces, auditDatabase]
    cases t.rows (.dispute k) with
    | none => rfl
    | some dispute =>
      obtain ⟨_, _, _, _, _ | resolvedAt, _⟩ := dispute <;> rfl

/-- The history is the same for all who may see it, as far as the events go. -/
theorem tells_of_getTradeHistory
    (found : getTradeHistory config now (auditDatabase t k manifest evidence) caller = .ok history) :
    (history.map TradeEvent.eventType).filter TradeEventType.tells =
      (chronological Prod.snd (traces t k).entries).map Prod.fst := by
  unfold getTradeHistory at found
  cases htrade : (auditDatabase t k manifest evidence).trade with
  | none =>
    rw [htrade] at found
    cases found
  | some trade =>
    rw [htrade] at found
    dsimp only at found
    split at found
    · cases found
      have htellings : tellings (tradeEntries config now
          (config.adminAllowlistLowercase.contains (Text.toLowerCase caller))
          (auditDatabase t k manifest evidence) trade) = (traces t k).entries :=
        tellings_auditDatabase htrade
      rw [← htellings, tellings, ← map_chronological TradeEvent.entry fun _ _ _ _ => Iff.rfl,
        ← filter_chronological, List.map_map, List.filter_map]
      rfl
    · cases found

end Histories

/-- Where the history tells what happened: nothing of it is hidden by a resolution or a
cancellation, and the row has followed the events. -/
def Traceable (types : List EventType) : Option Nat → Prop
  | none => (.deliveryConfirmed ∈ types → .tradeFunded ∈ types) ∧
    ¬ (.tradeFunded ∈ types ∧ .disputeResolved ∈ types)
  | some _ => types.getLast? = some .tradeFunded

instance (types : List EventType) : (admin : Option Nat) → Decidable (Traceable types admin)
  | none => inferInstanceAs (Decidable (_ ∧ _))
  | some _ => inferInstanceAs (Decidable (_ = _))

/-- The traces of events that happened at these times. -/
def Traces.after (ps : List (EventType × Nat)) : Traces :=
  ps.foldl (fun p x => p.next x.1 x.2) ⟨none, none⟩

/-- The traces of events, and of a cancellation after them. -/
def Traces.past (ps : List (EventType × Nat)) : Option Nat → Traces
  | none => Traces.after ps
  | some now => (Traces.after ps).cancelled now

/-- The admin may cancel a trade with these traces. -/
def Traces.canCancel (p : Traces) : Bool :=
  p.trade.any fun x => TradeStatus.cancelled ∈ batchTransitions x.1

theorem CanCancel.canCancel {t : Stamped Row} (h : CanCancel t k) : (traces t k).canCancel = true := by
  obtain ⟨row, hrow, hallowed⟩ := h
  have hrow : t.rows (.trade k) = some row := hrow
  simp [Traces.canCancel, traces, hrow, hallowed]

/-! Only the order of the times matters. -/

/-- The traces with other times. -/
def Traces.map (f : Nat → Nat) (p : Traces) : Traces where
  trade := p.trade.map (Prod.map id f)
  dispute := p.dispute.map (Prod.map f (Prod.map id (Option.map f)))

theorem Traces.map_next (f : Nat → Nat) (p : Traces) (eventType : EventType) (now : Nat) :
    (p.map f).next eventType (f now) = (p.next eventType now).map f := by
  obtain ⟨trade, dispute⟩ := p
  apply Traces.ext
  · cases trade with
    | none => cases eventType <;> rfl
    | some x =>
      simp only [Traces.next, Traces.map, nextTrade, Option.map_some, Prod.map, id_eq]
      split <;> rfl
  · cases eventType with
    | disputeInitiated => cases dispute <;> rfl
    | disputeResolved =>
      cases dispute with
      | none => rfl
      | some x =>
        by_cases hopen : x.2.1 = .opened <;>
          simp [Traces.next, Traces.map, nextDispute, Prod.map, hopen]
    | _ => rfl

theorem Traces.map_after (f : Nat → Nat) (ps : List (EventType × Nat)) :
    Traces.after (ps.map (Prod.map id f)) = (Traces.after ps).map f := by
  have hfold : ∀ p : Traces, (ps.map (Prod.map id f)).foldl (fun p x => p.next x.1 x.2) (p.map f) =
      (ps.foldl (fun p x => p.next x.1 x.2) p).map f := by
    induction ps with
    | nil => exact fun p => rfl
    | cons x ps ih =>
      intro p
      rw [List.map_cons, List.foldl_cons, List.foldl_cons, ← ih, ← map_next]
      rfl
  exact hfold ⟨none, none⟩

theorem Traces.map_past (f : Nat → Nat) (ps : List (EventType × Nat)) (admin : Option Nat) :
    Traces.past (ps.map (Prod.map id f)) (admin.map f) = (Traces.past ps admin).map f := by
  cases admin with
  | none => exact Traces.map_after f ps
  | some now =>
    show (Traces.after _).cancelled (f now) = _
    rw [Traces.map_after]
    apply Traces.ext
    · show Option.map _ (Option.map _ (Traces.after ps).trade) =
        Option.map _ (Option.map _ (Traces.after ps).trade)
      rw [Option.map_map, Option.map_map]
      rfl
    · rfl

theorem Traces.canCancel_map (f : Nat → Nat) (p : Traces) : (p.map f).canCancel = p.canCancel := by
  obtain ⟨_ | x, dispute⟩ := p <;> rfl

theorem Traces.map_entries (f : Nat → Nat) (p : Traces) :
    (p.map f).entries = p.entries.map (Prod.map id f) := by
  obtain ⟨_ | ⟨status, updatedAt⟩, _ | ⟨createdAt, _, _ | resolvedAt⟩⟩ := p <;>
    simp [Traces.map, Traces.entries] <;> split <;> split <;> simp

/-- What the courses of the contract leave behind, where the time of an event is its number. -/
theorem tells_iff_of_course {ms : List Milestone} (h : ms ∈ courses) {admin : Option Nat}
    (last : ∀ now ∈ admin, now = ms.length)
    (can : admin.isSome = true → (Traces.after (ms.map milestoneType).zipIdx).canCancel = true) :
    (∀ e ∈ (Traces.past (ms.map milestoneType).zipIdx admin).entries,
      e.2 < ms.length + admin.toList.length) ∧
      ((chronological Prod.snd (Traces.past (ms.map milestoneType).zipIdx admin).entries).map
        Prod.fst = (ms.map milestoneType).filterMap told ↔
          Traceable (ms.map milestoneType) admin) := by
  cases admin with
  | none =>
    have hall : ∀ ms ∈ courses,
        (∀ e ∈ (Traces.past (ms.map milestoneType).zipIdx none).entries, e.2 < ms.length + 0) ∧
          ((chronological Prod.snd (Traces.past (ms.map milestoneType).zipIdx none).entries).map
            Prod.fst = (ms.map milestoneType).filterMap told ↔
              Traceable (ms.map milestoneType) none) := by
      decide
    exact hall ms h
  | some now =>
    have hall : ∀ ms ∈ courses, (Traces.after (ms.map milestoneType).zipIdx).canCancel = true →
        (∀ e ∈ (Traces.past (ms.map milestoneType).zipIdx (some ms.length)).entries,
          e.2 < ms.length + 1) ∧
          ((chronological Prod.snd
            (Traces.past (ms.map milestoneType).zipIdx (some ms.length)).entries).map
            Prod.fst = (ms.map milestoneType).filterMap told ↔
              Traceable (ms.map milestoneType) (some ms.length)) := by
      decide
    rw [last now rfl]
    exact hall ms h (can rfl)

/-- Events at increasing times, and a cancellation after them. -/
theorem tells_iff_of_increasing {ms : List Milestone} (h : ms ∈ courses)
    {ps : List (EventType × Nat)} {admin : Option Nat}
    (types : ps.map Prod.fst = ms.map milestoneType)
    (increasing : (ps.map Prod.snd ++ admin.toList).SortedLT)
    (can : admin.isSome = true → (Traces.after ps).canCancel = true) :
    (chronological Prod.snd (Traces.past ps admin).entries).map Prod.fst =
      (ps.map Prod.fst).filterMap told ↔ Traceable (ps.map Prod.fst) admin := by
  have hlength : ps.length = ms.length := by simpa using congrArg List.length types
  -- The times are those of the numbers of the events.
  let f (i : Nat) : Nat := (ps.map Prod.snd ++ admin.toList).getD i 0
  have hps : ps = (ms.map milestoneType).zipIdx.map (Prod.map id f) := by
    rw [← types]
    apply List.ext_getElem
    · simp
    · intro i hi _
      have htime : f i = ps[i].2 := by
        simp [f, List.getElem?_append_left, hi]
      simp [Prod.map, htime]
  have hadmin : admin = (admin.map fun _ => ms.length).map f := by
    cases admin with
    | none => rfl
    | some now => simp [f, ← hlength]
  have htraces : Traces.past ps admin =
      (Traces.past (ms.map milestoneType).zipIdx (admin.map fun _ => ms.length)).map f := by
    rw [← Traces.map_past, ← hps, ← hadmin]
  have hcan : (admin.map fun _ => ms.length).isSome = true →
      (Traces.after (ms.map milestoneType).zipIdx).canCancel = true := by
    intro hsome
    rw [hps, Traces.map_after, Traces.canCancel_map] at can
    exact can (by simpa using hsome)
  have hlast : ∀ now ∈ admin.map fun _ => ms.length, now = ms.length := by
    cases admin <;> simp
  obtain ⟨hbound, htells⟩ := tells_iff_of_course h hlast hcan
  rw [htraces, Traces.map_entries, fst_chronological, types, htells]
  · cases admin <;> rfl
  · intro a ha b hb
    have hle : (ps.map Prod.snd ++ admin.toList).length =
        ms.length + (admin.map fun _ => ms.length).toList.length := by
      cases admin <;> simp [hlength]
    have ha := hbound a ha
    have hb := hbound b hb
    rw [← hle] at ha hb
    show _ ↔ (ps.map Prod.snd ++ admin.toList).getD a.2 0 ≤
      (ps.map Prod.snd ++ admin.toList).getD b.2 0
    rw [List.getD_eq_getElem?_getD, List.getD_eq_getElem?_getD, List.getElem?_eq_getElem ha,
      List.getElem?_eq_getElem hb, Option.getD_some, Option.getD_some,
      increasing.getElem_le_getElem_iff]

/-- For every contract run and trade, the history tells what happened exactly when neither a
resolution nor a cancellation hides what came before, and the row has followed the events. -/
theorem history_tells_iff {k : Nat} {tokens : Token.Ledger Address} {actions : List Action}
    {t : Stamped Row} {admin : Option Nat} {config : AuditConfig} {now : Nat}
    {manifest : Option DeliveryManifest} {evidence : List TradeEvidence} {caller : String}
    {history : List TradeEvent} (once : IssuedOnce tokens actions k)
    (relays : Relays k (milestonesOf k (Escrow.run tokens actions).events) ds)
    (noTrade : t.rows (.trade (toString k)) = none)
    (noDispute : t.rows (.dispute (toString k)) = none) (commits : Commits refs t.rows ds)
    (increasing : (ds.map (·.now) ++ admin.toList).SortedLT)
    (can : admin.isSome = true → CanCancel (processAllAt refs t ds) (toString k))
    (found : getTradeHistory config now
      (auditDatabase (past refs t (toString k) ds admin) (toString k) manifest evidence) caller =
        .ok history) :
    TellsWhatHappened history (ds.map (·.event.eventType)) ↔
      Traceable (ds.map (·.event.eventType)) admin := by
  have hstart : traces t (toString k) = ⟨none, none⟩ := by
    simp [traces, noTrade, noDispute]
  have hafter : traces (processAllAt refs t ds) (toString k) =
      Traces.after (ds.map fun d => (d.event.eventType, d.now)) := by
    rw [traces_processAllAt relays.about commits, hstart, Traces.after, List.foldl_map]
  have hpast : traces (past refs t (toString k) ds admin) (toString k) =
      Traces.past (ds.map fun d => (d.event.eventType, d.now)) admin := by
    cases admin with
    | none => exact hafter
    | some now => exact (traces_adminCancel (can rfl)).trans (by rw [hafter]; rfl)
  have hcourse := (Escrow.course_run once).mem_courses
  have htypes : (ds.map fun d => (d.event.eventType, d.now)).map Prod.fst =
      (milestonesOf k (Escrow.run tokens actions).events).map milestoneType := by
    simpa [Function.comp_def] using relays.types
  have hincreasing : ((ds.map fun d => (d.event.eventType, d.now)).map Prod.snd ++
      admin.toList).SortedLT := by
    simpa [Function.comp_def] using increasing
  have htells := tells_iff_of_increasing hcourse htypes hincreasing fun hsome => by
    rw [← hafter]
    exact (can hsome).canCancel
  rw [TellsWhatHappened, tells_of_getTradeHistory found, hpast]
  simpa [Function.comp_def] using htells

/-! The first trade, with an event each second. -/

def Sample.auditConfig : AuditConfig := ⟨[], 365, "cNGN"⟩

/-- No rows yet. -/
def Sample.noRows : Stamped Row := ⟨fun _ => none, fun _ => 0, fun _ => 0⟩

/-- Events of the first trade, one each second. -/
def Sample.eachSecond (types : List EventType) : List Delivery :=
  types.zipIdx.map fun x => { Sample.delivery x.1 with now := 1000 * x.2 }

/-- What Alice is told about her trade. -/
def Sample.historyOf (types : List EventType) (admin : Option Nat) :
    Except AuditTrailError (List TradeEvent) :=
  getTradeHistory Sample.auditConfig 10000
    (auditDatabase (past Sample.users Sample.noRows (toString Escrow.Sample.first)
      (Sample.eachSecond types) admin) (toString Escrow.Sample.first) none []) "GALICE"

/-- The trade is disputed and resolved: the history says that it was delivered, and funded after it
was disputed. -/
theorem not_tells_of_resolution :
    (Relays Escrow.Sample.first (milestonesOf Escrow.Sample.first
        (Escrow.run Escrow.Sample.tokens Escrow.Sample.settled).events)
      (Sample.eachSecond [.tradeCreated, .tradeFunded, .disputeInitiated, .disputeResolved]) ∧
      Commits Sample.users Sample.noRows.rows
        (Sample.eachSecond [.tradeCreated, .tradeFunded, .disputeInitiated, .disputeResolved])) ∧
      ∃ history, Sample.historyOf [.tradeCreated, .tradeFunded, .disputeInitiated, .disputeResolved]
          none = .ok history ∧
        history.map TradeEvent.eventType =
          [.created, .disputeInitiated, .funded, .deliveryConfirmed, .resolved, .completed] ∧
        ¬ TellsWhatHappened history
          [.tradeCreated, .tradeFunded, .disputeInitiated, .disputeResolved] := by
  refine ⟨⟨⟨by decide, by simp [Sample.eachSecond, Sample.delivery]⟩, ?_⟩, ?_⟩
  · exact ⟨by decide, by decide, by decide, by decide, trivial⟩
  · exact ⟨_, rfl, by decide +kernel, by unfold TellsWhatHappened; decide +kernel⟩

/-- The trade is funded and delivered. -/
theorem history_tells_of_delivery :
    ∃ history, Sample.historyOf [.tradeCreated, .tradeFunded, .deliveryConfirmed] none =
        .ok history ∧
      TellsWhatHappened history [.tradeCreated, .tradeFunded, .deliveryConfirmed] := by
  have honce : IssuedOnce Escrow.Sample.tokens Sample.deliveredRun Escrow.Sample.first :=
    (Escrow.noReissue_of_creations_le (by decide)).issuedOnce _
  have hrelays : Relays Escrow.Sample.first (milestonesOf Escrow.Sample.first
      (Escrow.run Escrow.Sample.tokens Sample.deliveredRun).events)
      (Sample.eachSecond [.tradeCreated, .tradeFunded, .deliveryConfirmed]) :=
    ⟨by decide, by simp [Sample.eachSecond, Sample.delivery]⟩
  have hcommits : Commits Sample.users Sample.noRows.rows
      (Sample.eachSecond [.tradeCreated, .tradeFunded, .deliveryConfirmed]) :=
    ⟨by decide, by decide, by decide, trivial⟩
  have hincreasing : ((Sample.eachSecond [.tradeCreated, .tradeFunded, .deliveryConfirmed]).map
      (·.now) ++ (none : Option Nat).toList).SortedLT :=
    List.Pairwise.sortedLT (by decide)
  obtain ⟨history, hhistory⟩ : ∃ history, Sample.historyOf
      [.tradeCreated, .tradeFunded, .deliveryConfirmed] none = .ok history := ⟨_, rfl⟩
  exact ⟨history, hhistory, (history_tells_iff honce hrelays rfl rfl hcommits hincreasing
    (by rintro ⟨⟩) hhistory).2 (by decide)⟩

end Amana.Backend
