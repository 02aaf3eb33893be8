import Amana.Backend.Workers
import Mathlib.Data.List.MinMax

/-!
# The listener

The listener polls the RPC server for the events of the contract, from the ledger after its cursor
`lastLedger` on and at most a hundred at a time, and processes the events of a page one after the
other.  What it keeps in memory is gone after a restart; the tables of markers and of the outbox
stay.  Of the handlers only matters here whether they fail; the rows they write are left out.
-/

namespace Amana.Backend

open Lib.Database

/-- The configuration of a listener, and whether its database client has the outbox. -/
structure Settings extends ListenerConfig where
  contractId : String
  processedLedgersCacheSize : Nat
  supportsOutboxPersistence : Bool

structure Listener where
  /-- The table `ProcessedEvent`. -/
  markers : List EventKey
  /-- The table `ChainEventOutbox`. -/
  outbox : EventKey → Option OutboxRow
  lastLedger : Nat
  /-- The cache of processed events. -/
  processedEvents : List EventKey
  /-- The events of the poll that is going on, as far as they have not been processed. -/
  page : List RawEvent

/-- A listener that starts on empty tables. -/
def Listener.new : Listener := ⟨[], fun _ => none, 0, [], []⟩

/-- What happens to the attempt at one event: when it is made, what its handler comes to, and
whether the statements after a failed transaction go through. -/
structure Attempt where
  now : Nat
  handler : Except Fault Unit
  answered : Bool

def parseEvent (sdk : Sdk) (config : Settings) (rawEvent : RawEvent) : Option ParsedEvent :=
  decodeContractEvent sdk rawEvent config.contractId

namespace Listener

/-! ## One event -/

/-- Add an event to the cache. -/
def remember (s : Listener) (key : EventKey) : Listener :=
  { s with
    processedEvents :=
      if key ∈ s.processedEvents then s.processedEvents else s.processedEvents ++ [key] }

def evictOldEvents (s : Listener) (config : Settings) : Listener :=
  if s.processedEvents.length ≤ config.processedLedgersCacheSize then s
  else
    let sorted := s.processedEvents.mergeSort fun a b => a.ledgerSequence ≤ b.ledgerSequence
    let toRemove := sorted.length - config.processedLedgersCacheSize
    { s with processedEvents := s.processedEvents.filter (· ∉ sorted.take toRemove) }

/-- What follows a successful attempt. -/
def succeed (s : Listener) (config : Settings) (event : ParsedEvent) : Listener :=
  let s := (s.remember event.key).evictOldEvents config
  { s with
    lastLedger :=
      if event.ledgerSequence > s.lastLedger then event.ledgerSequence else s.lastLedger }

theorem mem_remember {s : Listener} {key key' : EventKey}
    (h : key ∈ (s.remember key').processedEvents) : key ∈ s.processedEvents ∨ key = key' := by
  by_cases hmem : key' ∈ s.processedEvents
  · exact .inl (by simpa [remember, hmem] using h)
  · simpa [remember, hmem] using h

/-- Only the cache loses something. -/
theorem evictOldEvents_eq (s : Listener) (config : Settings) :
    ∃ cache, s.evictOldEvents config = { s with processedEvents := cache } ∧
      ∀ key ∈ cache, key ∈ s.processedEvents := by
  by_cases h : s.processedEvents.length ≤ config.processedLedgersCacheSize
  · exact ⟨s.processedEvents, by simp [evictOldEvents, h], fun _ => id⟩
  · exact ⟨_, by rw [evictOldEvents, if_neg h], fun _ hkey => (List.mem_filter.1 hkey).1⟩

theorem succeed_eq (s : Listener) (config : Settings) (event : ParsedEvent) :
    ∃ cache, s.succeed config event =
        { s with lastLedger := max s.lastLedger event.ledgerSequence, processedEvents := cache } ∧
      ∀ key ∈ cache, key ∈ s.processedEvents ∨ key = event.key := by
  have hmax : ∀ m n : Nat, (if n > m then n else m) = max m n := by
    intro m n
    by_cases hlater : n > m
    · rw [if_pos hlater]
      omega
    · rw [if_neg hlater]
      omega
  obtain ⟨cache, hevict, hcache⟩ := (s.remember event.key).evictOldEvents_eq config
  refine ⟨cache, ?_, fun key h => mem_remember (hcache key h)⟩
  rw [succeed, hevict, hmax]
  rfl

def updateOutbox (s : Listener) (key : EventKey) (data : OutboxRow → OutboxRow) : Listener :=
  { s with outbox := Function.update s.outbox key ((s.outbox key).map data) }

@[simp] theorem updateOutbox_self (s : Listener) (key : EventKey) (data : OutboxRow → OutboxRow) :
    (s.updateOutbox key data).outbox key = (s.outbox key).map data := by
  simp [updateOutbox]

theorem updateOutbox_of_ne (s : Listener) {key key' : EventKey} (data : OutboxRow → OutboxRow)
    (h : key' ≠ key) : (s.updateOutbox key data).outbox key' = s.outbox key' := by
  simp [updateOutbox, h]

def ensureOutboxRecord (s : Listener) (now : Nat) (event : ParsedEvent) : OutboxRow × Listener :=
  let record := (s.outbox event.key).getD (newOutboxRecord now event)
  (record, { s with outbox := Function.update s.outbox event.key (some record) })

/-- The transaction of `processEventAtomically`, and what becomes of its errors. -/
def processEventAtomically (s : Listener) (a : Attempt) (event : ParsedEvent) :
    Except Fault Unit × Listener :=
  match a.handler with
  | .error .unique => (.ok (), s)
  | .error fault => (.error fault, s)
  | .ok () =>
    if event.key ∈ s.markers then (.ok (), s)
    else (.ok (), { s with markers := s.markers ++ [event.key] })

/-- The transaction of `processOutboxEventAtomically`. -/
def outboxTransaction (s : Listener) (a : Attempt) (event : ParsedEvent) :
    Except Fault Unit × Listener :=
  match s.outbox event.key with
  | none => (.error .missing, s)
  | some current =>
    if current.status = .processed then (.ok (), s)
    else
      match a.handler with
      | .error fault => (.error fault, s)
      | .ok () =>
        if event.key ∈ s.markers then (.error .unique, s)
        else
          (.ok (), { s with markers := s.markers ++ [event.key] }.updateOutbox event.key fun row =>
            { row.markProcessed a.now with attempts := row.attempts + 1 })

def processOutboxEventAtomically (s : Listener) (a : Attempt) (event : ParsedEvent) :
    Except Fault Unit × Listener :=
  match s.outboxTransaction a event with
  | (.error .unique, s) =>
    if a.answered then (.ok (), s.updateOutbox event.key (·.markProcessed a.now))
    else (.error .lost, s)
  | result => result

/-- Whether it returns, and the listener then. -/
def processEvent (sdk : Sdk) (config : Settings) (a : Attempt) (rawEvent : RawEvent)
    (s : Listener) : Bool × Listener :=
  match parseEvent sdk config rawEvent with
  | none => (true, s)
  | some event =>
    if event.key ∈ s.processedEvents then (true, s)
    else if event.key ∈ s.markers then (true, s.remember event.key)
    else if !config.supportsOutboxPersistence then
      match s.processEventAtomically a event with
      | (.ok (), s) => (true, s.succeed config event)
      | (.error _, s) => (false, s)
    else
      let (outbox, s) := s.ensureOutboxRecord a.now event
      if !isOutboxReadyForAttempt a.now outbox then (true, s)
      else
        match s.processOutboxEventAtomically a event with
        | (.ok (), s) => (true, s.succeed config event)
        | (.error fault, s) =>
          if a.answered then
            (true, s.updateOutbox event.key
              (·.recordFailure config.toListenerConfig a.now outbox fault))
          else (false, s)

/-! ## Polls and restarts -/

/-- The first ledger the next poll asks for, if it asks for one. -/
def startLedger (s : Listener) : Option Nat :=
  if s.lastLedger > 0 then some (s.lastLedger + 1) else none

end Listener

/-- The limit of `getEvents`. -/
def pageLimit : Nat := 100

/-- The events from a ledger on, up to the latest ledger. -/
def eventsFrom (stream : List RawEvent) (startLedger latest : Nat) : List RawEvent :=
  stream.filter fun rawEvent => startLedger ≤ rawEvent.ledger && rawEvent.ledger ≤ latest

namespace Listener

/-- The events the next poll is about.  Where it names no ledger to start with the server starts
with `first`. -/
def pending (s : Listener) (stream : List RawEvent) (latest first : Nat) : List RawEvent :=
  eventsFrom stream (s.startLedger.getD first) latest

/-- A poll that gets an answer. -/
def pollEvents (s : Listener) (stream : List RawEvent) (latest first : Nat) : Listener :=
  { s with page := (s.pending stream latest first).take pageLimit }

/-- `start`, in a new process. -/
def start (s : Listener) : Listener :=
  match s.markers.argmax EventKey.ledgerSequence with
  | none => { s with lastLedger := 0, processedEvents := [], page := [] }
  | some latestEvent =>
    { s with
      lastLedger := latestEvent.ledgerSequence
      processedEvents := [latestEvent]
      page := [] }

def warmProcessedEventCache (s : Listener) (config : Settings) : Listener :=
  let sorted := s.markers.mergeSort fun a b => b.ledgerSequence ≤ a.ledgerSequence
  (sorted.take config.processedLedgersCacheSize).foldl remember s

theorem foldl_remember_eq (ks : List EventKey) (s : Listener) :
    ∃ cache, ks.foldl remember s = { s with processedEvents := cache } ∧
      ∀ key ∈ cache, key ∈ s.processedEvents ∨ key ∈ ks := by
  induction ks generalizing s with
  | nil => exact ⟨s.processedEvents, rfl, fun _ => .inl⟩
  | cons key ks ih =>
    obtain ⟨cache, hfold, hcache⟩ := ih (s.remember key)
    refine ⟨cache, hfold, fun key' h => ?_⟩
    rcases hcache key' h with h | h
    · rcases mem_remember h with h | rfl
      · exact .inl h
      · exact .inr (List.mem_cons_self ..)
    · exact .inr (List.mem_cons_of_mem _ h)

/-- The cache gets markers only. -/
theorem warm_eq (s : Listener) (config : Settings) :
    ∃ cache, s.warmProcessedEventCache config = { s with processedEvents := cache } ∧
      ∀ key ∈ cache, key ∈ s.processedEvents ∨ key ∈ s.markers := by
  obtain ⟨cache, hwarm, hcache⟩ := foldl_remember_eq
    ((s.markers.mergeSort fun a b => b.ledgerSequence ≤ a.ledgerSequence).take
      config.processedLedgersCacheSize) s
  refine ⟨cache, hwarm, fun key h => ?_⟩
  rcases hcache key h with h | h
  · exact .inl h
  · exact .inr (List.mem_mergeSort.1 (List.mem_of_mem_take h))

end Listener

/-- What can happen to a listener.  A poll that gets no answer changes nothing. -/
inductive ListenerAction where
  | poll (latest first : Nat)
  /-- The next event of the page is processed. -/
  | process (a : Attempt)
  /-- An error ends the poll. -/
  | throw
  | restart
  | warm
  /-- The admin replays a row of the outbox. -/
  | replay (now : Nat) (key : EventKey)

namespace Listener

variable (sdk : Sdk) (config : Settings) (stream : List RawEvent)

def step (s : Listener) : ListenerAction → Listener
  | .poll latest first => if s.page.isEmpty then s.pollEvents stream latest first else s
  | .process a =>
    match s.page with
    | [] => s
    | rawEvent :: rest =>
      let result := processEvent sdk config a rawEvent s
      { result.2 with page := if result.1 then rest else [] }
  | .throw => { s with page := [] }
  | .restart => s.start
  | .warm => s.warmProcessedEventCache config
  | .replay now key => s.updateOutbox key fun row =>
    { row with status := .pending, attempts := 0, nextAttemptAt := now, lastError := none }

end Listener

end Amana.Backend
