import Amana.Backend.Listener

/-!
# Attempts at events

What an attempt at an event comes to is decided by the row of the outbox, the handler and the
database (`outcome`); `Attempted` says what it has changed.  An event that was done stays done, and
one that waits for another attempt waits or is done.
-/

namespace Amana.Backend.Listener

open Lib.Database

/-! ## Events and the cursor -/

def DeadLettered (s : Listener) (key : EventKey) : Prop :=
  ∃ row ∈ s.outbox key, row.status = .deadLetter

/-- The event is processed or given up. -/
def Done (s : Listener) (key : EventKey) : Prop := key ∈ s.markers ∨ s.DeadLettered key

/-- The event waits in the outbox for another attempt. -/
def Waiting (s : Listener) (key : EventKey) : Prop :=
  ∃ row ∈ s.outbox key, row.status = .pending ∨ row.status = .retrying

/-- The cursor has reached the ledger, or will have after a restart. -/
def Passed (s : Listener) (ledger : Nat) : Prop :=
  ledger ≤ s.lastLedger ∨ ∃ key ∈ s.markers, ledger ≤ key.ledgerSequence

/-! ## Outcomes -/

/-- What an attempt at an event without a marker comes to. -/
inductive Outcome where
  | commits
  /-- The unique key of some row is violated. -/
  | mistaken
  | postponed
  | retried
  | gaveUp
  | thrown
  deriving DecidableEq

/-- The row of the outbox an attempt goes by. -/
def record (s : Listener) (a : Attempt) (event : ParsedEvent) : OutboxRow :=
  (s.outbox event.key).getD (newOutboxRecord a.now event)

def outcome (config : Settings) (s : Listener) (a : Attempt) (event : ParsedEvent) : Outcome :=
  if config.supportsOutboxPersistence && !isOutboxReadyForAttempt a.now (s.record a event) then
    .postponed
  else
    match a.handler with
    | .ok () => .commits
    | .error .unique => .mistaken
    | .error _ =>
      if !config.supportsOutboxPersistence || !a.answered then .thrown
      else if (s.record a event).attempts + 1 < config.outboxMaxAttempts then .retried
      else .gaveUp

variable {sdk : Sdk} {config : Settings} {stream : List RawEvent} {s s' : Listener}
  {key : EventKey} {event : ParsedEvent} {rawEvent : RawEvent} {rest : List RawEvent} {a : Attempt}

/-- What an attempt comes to whose transaction has failed. -/
theorem outcome_of_error {fault : Fault} (handler : a.handler = .error fault)
    (other : fault ≠ .unique) (tried : (config.supportsOutboxPersistence &&
      !isOutboxReadyForAttempt a.now (s.record a event)) = false) :
    s.outcome config a event =
      if !config.supportsOutboxPersistence || !a.answered then .thrown
      else if (s.record a event).attempts + 1 < config.outboxMaxAttempts then .retried
      else .gaveUp := by
  rw [outcome, tried, handler]
  cases fault with
  | unique => exact absurd rfl other
  | _ => rfl

/-! ## What an attempt changes -/

/-- The row of the outbox after an attempt. -/
def Recorded (record : OutboxRow) (before after : Option OutboxRow) : Outcome → Prop
  | .commits | .mistaken => True
  | .postponed => after = some record
  | .retried => ∃ row ∈ after, row.status = .retrying
  | .gaveUp => ∃ row ∈ after, row.status = .deadLetter
  | .thrown => after = some record ∨ after = before

/-- What an attempt has done. -/
structure Attempted (config : Settings) (s : Listener) (a : Attempt) (event : ParsedEvent)
    (rest : List RawEvent) (s' : Listener) : Prop where
  markers : s'.markers =
    if s.outcome config a event = .commits then s.markers ++ [event.key] else s.markers
  lastLedger : s'.lastLedger =
    if s.outcome config a event = .commits then max s.lastLedger event.ledgerSequence
    else s.lastLedger
  page : s'.page = if s.outcome config a event = .thrown then [] else rest
  cached : ∀ key ∈ s'.processedEvents,
    key ∈ s.processedEvents ∨ s.outcome config a event = .commits ∧ key = event.key
  elsewhere : ∀ key, key ≠ event.key → s'.outbox key = s.outbox key
  row : Recorded (s.record a event) (s.outbox event.key) (s'.outbox event.key)
    (s.outcome config a event)

theorem Attempted.commit {t : Listener} (commits : s.outcome config a event = .commits)
    (markers : t.markers = s.markers ++ [event.key]) (lastLedger : t.lastLedger = s.lastLedger)
    (cache : t.processedEvents = s.processedEvents)
    (elsewhere : ∀ key, key ≠ event.key → t.outbox key = s.outbox key) :
    Attempted config s a event rest { t.succeed config event with page := rest } := by
  obtain ⟨cache', hsucceed, hcache'⟩ := t.succeed_eq config event
  rw [hsucceed]
  refine ⟨?_, ?_, ?_, ?_, elsewhere, ?_⟩
  · rw [if_pos commits, markers]
  · rw [if_pos commits, lastLedger]
  · rw [commits]
    rfl
  · intro key h
    rcases hcache' key h with h | h
    · exact .inl (cache ▸ h)
    · exact .inr ⟨commits, h⟩
  · rw [commits]
    trivial

/-- The attempt has written the row of the outbox at most. -/
theorem Attempted.uncommitted {t : Listener} (commits : s.outcome config a event ≠ .commits)
    (markers : t.markers = s.markers) (lastLedger : t.lastLedger = s.lastLedger)
    (cache : t.processedEvents = s.processedEvents)
    (page : t.page = if s.outcome config a event = .thrown then [] else rest)
    (elsewhere : ∀ key, key ≠ event.key → t.outbox key = s.outbox key)
    (row : Recorded (s.record a event) (s.outbox event.key) (t.outbox event.key)
      (s.outcome config a event)) :
    Attempted config s a event rest t := by
  refine ⟨?_, ?_, page, ?_, elsewhere, row⟩
  · rw [if_neg commits, markers]
  · rw [if_neg commits, lastLedger]
  · exact fun key h => .inl (cache ▸ h)

theorem step_process {returns : Bool} {t : Listener} (page : s.page = rawEvent :: rest)
    (result : processEvent sdk config a rawEvent s = (returns, t)) :
    step sdk config stream s (.process a) =
      { t with page := if returns then rest else [] } := by
  rw [step, page]
  simp only [result]

/-- Without an outbox. -/
theorem attempted_atomically (outbox : config.supportsOutboxPersistence = false)
    (page : s.page = rawEvent :: rest) (parsed : parseEvent sdk config rawEvent = some event)
    (uncached : event.key ∉ s.processedEvents) (unmarked : event.key ∉ s.markers)
    (correct : s.outcome config a event ≠ .mistaken) :
    Attempted config s a event rest (step sdk config stream s (.process a)) := by
  cases hhandler : a.handler with
  | ok u =>
    have hresult : processEvent sdk config a rawEvent s =
        (true, { s with markers := s.markers ++ [event.key] }.succeed config event) := by
      simp [processEvent, parsed, uncached, unmarked, outbox, processEventAtomically, hhandler]
    rw [step_process page hresult]
    exact Attempted.commit (by simp [outcome, outbox, hhandler]) rfl rfl rfl fun _ _ => rfl
  | error fault =>
    have hunique : fault ≠ .unique := by
      rintro rfl
      simp [outcome, outbox, hhandler] at correct
    have hthrown : s.outcome config a event = .thrown := by
      rw [outcome_of_error hhandler hunique (by simp [outbox])]
      simp [outbox]
    have hresult : processEvent sdk config a rawEvent s = (false, s) := by
      simp only [processEvent, parsed, uncached, unmarked, outbox, processEventAtomically, hhandler]
      cases fault with
      | unique => exact absurd rfl hunique
      | _ => rfl
    rw [step_process page hresult]
    refine Attempted.uncommitted (by simp [hthrown]) (by rfl) (by rfl) (by rfl)
      (by simp [hthrown]) (fun _ _ => by rfl) ?_
    rw [hthrown]
    exact .inr rfl

/-- The listener once the outbox has a row for the event. -/
def ensured (s : Listener) (a : Attempt) (event : ParsedEvent) : Listener :=
  { s with outbox := Function.update s.outbox event.key (some (s.record a event)) }

theorem ensured_self : (s.ensured a event).outbox event.key = some (s.record a event) :=
  Function.update_self ..

theorem ensured_of_ne (h : key ≠ event.key) : (s.ensured a event).outbox key = s.outbox key :=
  Function.update_of_ne h ..

theorem processEvent_of_outbox (outbox : config.supportsOutboxPersistence = true)
    (parsed : parseEvent sdk config rawEvent = some event)
    (uncached : event.key ∉ s.processedEvents) (unmarked : event.key ∉ s.markers) :
    processEvent sdk config a rawEvent s =
      if !isOutboxReadyForAttempt a.now (s.record a event) then (true, s.ensured a event)
      else
        match (s.ensured a event).processOutboxEventAtomically a event with
        | (.ok (), s) => (true, s.succeed config event)
        | (.error fault, s') =>
          if a.answered then
            (true, s'.updateOutbox event.key
              (·.recordFailure config.toListenerConfig a.now (s.record a event) fault))
          else (false, s') := by
  simp only [processEvent, parsed, uncached, unmarked, if_false, outbox, Bool.not_true,
    Bool.false_eq_true]
  rfl

theorem transaction_of_ready (ready : isOutboxReadyForAttempt a.now (s.record a event) = true)
    (unmarked : event.key ∉ s.markers) :
    (s.ensured a event).outboxTransaction a event =
      match a.handler with
      | .error fault => (.error fault, s.ensured a event)
      | .ok () =>
        (.ok (), { s.ensured a event with markers := s.markers ++ [event.key] }.updateOutbox
          event.key fun row => { row.markProcessed a.now with attempts := row.attempts + 1 }) := by
  have hnew : (s.record a event).status ≠ .processed := by
    simp only [isOutboxReadyForAttempt, Bool.and_eq_true, decide_eq_true_eq] at ready
    exact ready.1.1
  have hunmarked : event.key ∉ (s.ensured a event).markers := unmarked
  rw [outboxTransaction, ensured_self]
  simp only [hnew, hunmarked, if_false]
  rfl

/-- A failure that is written down. -/
theorem Attempted.failure {fault : Fault}
    (outcome : s.outcome config a event =
      if (s.record a event).attempts + 1 < config.outboxMaxAttempts then .retried else .gaveUp) :
    Attempted config s a event rest
      { (s.ensured a event).updateOutbox event.key
          (·.recordFailure config.toListenerConfig a.now (s.record a event) fault) with
        page := rest } := by
  have hrow : ((s.ensured a event).updateOutbox event.key
      (·.recordFailure config.toListenerConfig a.now (s.record a event) fault)).outbox event.key =
        some ((s.record a event).recordFailure config.toListenerConfig a.now (s.record a event)
          fault) := by
    rw [updateOutbox_self, ensured_self]
    rfl
  have helsewhere : ∀ key, key ≠ event.key → ((s.ensured a event).updateOutbox event.key
      (·.recordFailure config.toListenerConfig a.now (s.record a event) fault)).outbox key =
        s.outbox key :=
    fun key h => (updateOutbox_of_ne _ _ h).trans (ensured_of_ne h)
  have hreturns : s.outcome config a event ≠ .commits ∧ s.outcome config a event ≠ .thrown := by
    rw [outcome]
    split <;> decide
  refine Attempted.uncommitted hreturns.1 (by rfl) (by rfl) (by rfl) (if_neg hreturns.2).symm
    helsewhere ?_
  rw [outcome]
  by_cases hretry : (s.record a event).attempts + 1 < config.outboxMaxAttempts
  · rw [if_pos hretry]
    exact ⟨_, hrow, by simp [OutboxRow.recordFailure, hretry]⟩
  · rw [if_neg hretry]
    exact ⟨_, hrow, by simp [OutboxRow.recordFailure, hretry]⟩

/-- With the outbox. -/
theorem attempted_outbox (outbox : config.supportsOutboxPersistence = true)
    (page : s.page = rawEvent :: rest) (parsed : parseEvent sdk config rawEvent = some event)
    (uncached : event.key ∉ s.processedEvents) (unmarked : event.key ∉ s.markers)
    (correct : s.outcome config a event ≠ .mistaken) :
    Attempted config s a event rest (step sdk config stream s (.process a)) := by
  have hprocess := processEvent_of_outbox (a := a) outbox parsed uncached unmarked
  by_cases hready : isOutboxReadyForAttempt a.now (s.record a event) = true
  · have htransaction := transaction_of_ready hready unmarked
    simp only [hready, Bool.not_true, Bool.false_eq_true, if_false, processOutboxEventAtomically,
      htransaction] at hprocess
    cases hhandler : a.handler with
    | ok u =>
      simp only [hhandler] at hprocess
      rw [step_process page hprocess]
      exact Attempted.commit (by simp [outcome, outbox, hready, hhandler]) rfl rfl rfl
        fun key h => (updateOutbox_of_ne _ _ h).trans (ensured_of_ne h)
    | error fault =>
      have hunique : fault ≠ .unique := by
        rintro rfl
        simp [outcome, outbox, hready, hhandler] at correct
      replace hprocess : processEvent sdk config a rawEvent s = if a.answered then
          (true, (s.ensured a event).updateOutbox event.key
            (·.recordFailure config.toListenerConfig a.now (s.record a event) fault))
          else (false, s.ensured a event) := by
        rw [hprocess, hhandler]
        cases fault <;> first | exact absurd rfl hunique | rfl
      have htried : (config.supportsOutboxPersistence &&
          !isOutboxReadyForAttempt a.now (s.record a event)) = false := by simp [hready]
      have houtcome := outcome_of_error hhandler hunique htried
      by_cases hanswered : a.answered = true
      · rw [if_pos hanswered] at hprocess
        rw [step_process page hprocess]
        apply Attempted.failure
        simpa [outbox, hanswered] using houtcome
      · have hthrown : s.outcome config a event = .thrown := by
          simpa [outbox, hanswered] using houtcome
        rw [if_neg hanswered] at hprocess
        rw [step_process page hprocess]
        refine Attempted.uncommitted (by simp [hthrown]) (by rfl) (by rfl) (by rfl)
          (by simp [hthrown]) (fun _ => ensured_of_ne) ?_
        rw [hthrown]
        exact .inl ensured_self
  · have hpostponed : s.outcome config a event = .postponed := by simp [outcome, outbox, hready]
    simp only [hready, Bool.not_false, if_true] at hprocess
    rw [step_process page hprocess]
    refine Attempted.uncommitted (by simp [hpostponed]) (by rfl) (by rfl) (by rfl)
      (by simp [hpostponed]) (fun _ => ensured_of_ne) ?_
    rw [hpostponed]
    exact ensured_self

theorem record_of_some (a : Attempt) {row : OutboxRow} (h : s.outbox event.key = some row) :
    s.record a event = row := by
  rw [record, h, Option.getD_some]

theorem marked_of_record
    (credited : ∀ key, ∀ row ∈ s.outbox key, row.status = .processed → key ∈ s.markers)
    (processed : (s.record a event).status = .processed) : event.key ∈ s.markers := by
  cases hrow : s.outbox event.key with
  | none =>
    rw [record, hrow] at processed
    cases processed
  | some row =>
    rw [record_of_some a hrow] at processed
    exact credited event.key row hrow processed

/-- An event that is given up is not attempted again. -/
theorem record_of_outcome
    (h : s.outcome config a event = .retried ∨ s.outcome config a event = .gaveUp) :
    (s.record a event).status ≠ .deadLetter := by
  intro hdead
  have hready : isOutboxReadyForAttempt a.now (s.record a event) = false := by
    simp [isOutboxReadyForAttempt, hdead]
  cases houtbox : config.supportsOutboxPersistence with
  | true => simp [outcome, houtbox, hready] at h
  | false =>
    simp only [outcome, houtbox, Bool.false_and, Bool.false_eq_true, if_false, Bool.not_false,
      Bool.true_or, if_true] at h
    split at h <;> simp at h

/-! ## What it means for events -/

section Attempted

variable (attempted : Attempted config s a event rest s')

include attempted

theorem Attempted.mem_markers (h : key ∈ s.markers) : key ∈ s'.markers := by
  rw [attempted.markers]
  split
  · exact List.mem_append_left _ h
  · exact h

theorem Attempted.marked (commits : s.outcome config a event = .commits) :
    event.key ∈ s'.markers := by
  rw [attempted.markers, if_pos commits]
  simp

/-- The cursor moves to the event it has committed at most. -/
theorem Attempted.passed {n : Nat} (h : s'.Passed n) :
    s.Passed n ∨ s.outcome config a event = .commits ∧ n ≤ event.key.ledgerSequence := by
  by_cases hcommits : s.outcome config a event = .commits
  · rcases h with h | ⟨key, hkey, h⟩
    · rw [attempted.lastLedger, if_pos hcommits] at h
      rcases le_max_iff.1 h with h | h
      · exact .inl (.inl h)
      · exact .inr ⟨hcommits, h⟩
    · rw [attempted.markers, if_pos hcommits] at hkey
      rcases List.mem_append.1 hkey with hkey | hkey
      · exact .inl (.inr ⟨key, hkey, h⟩)
      · obtain rfl := List.mem_singleton.1 hkey
        exact .inr ⟨hcommits, h⟩
  · rcases h with h | ⟨key, hkey, h⟩
    · rw [attempted.lastLedger, if_neg hcommits] at h
      exact .inl (.inl h)
    · rw [attempted.markers, if_neg hcommits] at hkey
      exact .inl (.inr ⟨key, hkey, h⟩)

variable (correct : s.outcome config a event ≠ .mistaken)

include correct

/-- Without a commit the row of the event is the one the attempt went by, or says that the attempt
has failed; an error can leave it alone altogether. -/
theorem Attempted.after :
    event.key ∈ s'.markers ∨ s'.outbox event.key = some (s.record a event) ∨
      (s.outcome config a event = .thrown ∧ s'.outbox event.key = s.outbox event.key) ∨
      ((s.record a event).status ≠ .deadLetter ∧
        ∃ row ∈ s'.outbox event.key, row.status = .retrying ∨ row.status = .deadLetter) := by
  have hafter := attempted.row
  cases houtcome : s.outcome config a event with
  | commits => exact .inl (attempted.marked houtcome)
  | mistaken => exact absurd houtcome correct
  | postponed =>
    rw [houtcome] at hafter
    exact .inr (.inl hafter)
  | retried =>
    rw [houtcome] at hafter
    obtain ⟨row, hrow, hretrying⟩ := hafter
    exact .inr (.inr (.inr ⟨record_of_outcome (.inl houtcome), row, hrow, .inl hretrying⟩))
  | gaveUp =>
    rw [houtcome] at hafter
    obtain ⟨row, hrow, hdead⟩ := hafter
    exact .inr (.inr (.inr ⟨record_of_outcome (.inr houtcome), row, hrow, .inr hdead⟩))
  | thrown =>
    rw [houtcome] at hafter
    rcases hafter with hrecord | hsame
    · exact .inr (.inl hrecord)
    · exact .inr (.inr (.inl ⟨rfl, hsame⟩))

theorem Attempted.done (h : s.Done key) : s'.Done key := by
  rcases h with h | ⟨row, hrow, hdead⟩
  · exact .inl (attempted.mem_markers h)
  by_cases hkey : key = event.key
  · subst hkey
    have hrecord := record_of_some a hrow
    rcases attempted.after correct with h | h | ⟨-, h⟩ | ⟨halive, -⟩
    · exact .inl h
    · exact .inr ⟨row, h.trans (congrArg some hrecord), hdead⟩
    · exact .inr ⟨row, h.trans hrow, hdead⟩
    · exact absurd (hrecord ▸ hdead) halive
  · exact .inr ⟨row, (attempted.elsewhere key hkey).trans hrow, hdead⟩

theorem Attempted.waiting (h : s.Waiting key) : s'.Done key ∨ s'.Waiting key := by
  obtain ⟨row, hrow, hstatus⟩ := h
  by_cases hkey : key = event.key
  · subst hkey
    have hrecord := record_of_some a hrow
    rcases attempted.after correct with h | h | ⟨-, h⟩ | ⟨-, new, hnew, hretrying | hdead⟩
    · exact .inl (.inl h)
    · exact .inr ⟨row, h.trans (congrArg some hrecord), hstatus⟩
    · exact .inr ⟨row, h.trans hrow, hstatus⟩
    · exact .inr ⟨new, hnew, .inr hretrying⟩
    · exact .inl (.inr ⟨new, hnew, hdead⟩)
  · exact .inr ⟨row, (attempted.elsewhere key hkey).trans hrow, hstatus⟩

variable (sound : ∀ key, ∀ row ∈ s.outbox key, row.status = .processed → key ∈ s.markers)

include sound

theorem Attempted.settled (unmarked : event.key ∉ s.markers)
    (returns : s.outcome config a event ≠ .thrown) : s'.Done event.key ∨ s'.Waiting event.key := by
  rcases attempted.after correct with h | h | ⟨hthrown, -⟩ | ⟨-, row, hrow, hretrying | hdead⟩
  · exact .inl (.inl h)
  · cases hstatus : (s.record a event).status with
    | pending => exact .inr ⟨_, h, .inl hstatus⟩
    | retrying => exact .inr ⟨_, h, .inr hstatus⟩
    | processed => exact absurd (marked_of_record sound hstatus) unmarked
    | deadLetter => exact .inl (.inr ⟨_, h, hstatus⟩)
  · exact absurd hthrown returns
  · exact .inr ⟨row, hrow, .inr hretrying⟩
  · exact .inl (.inr ⟨row, hrow, hdead⟩)

theorem Attempted.credited (row : OutboxRow) (hrow : s'.outbox key = some row)
    (processed : row.status = .processed) : key ∈ s'.markers := by
  by_cases hkey : key = event.key
  · subst hkey
    rcases attempted.after correct with h | h | ⟨-, h⟩ | ⟨-, new, hnew, hstatus⟩
    · exact h
    · obtain rfl := Option.some.inj (h.symm.trans hrow)
      exact attempted.mem_markers (marked_of_record sound processed)
    · exact attempted.mem_markers (sound _ row (h.symm.trans hrow) processed)
    · obtain rfl := Option.some.inj (Option.mem_def.1 hnew |>.symm.trans hrow)
      rw [processed] at hstatus
      exact absurd hstatus (by decide)
  · rw [attempted.elsewhere key hkey] at hrow
    exact attempted.mem_markers (sound key row hrow processed)

end Attempted

/-! ## The cursor goes forward -/

theorem lastLedger_atomically : (s.processEventAtomically a event).2.lastLedger = s.lastLedger := by
  rw [processEventAtomically]
  split
  · rfl
  · rfl
  · split <;> rfl

theorem lastLedger_transaction : (s.outboxTransaction a event).2.lastLedger = s.lastLedger := by
  rw [outboxTransaction]
  split
  · rfl
  · split
    · rfl
    · split
      · rfl
      · split <;> rfl

theorem lastLedger_outbox :
    (s.processOutboxEventAtomically a event).2.lastLedger = s.lastLedger := by
  rw [processOutboxEventAtomically]
  have htransaction : (s.outboxTransaction a event).2.lastLedger = s.lastLedger :=
    lastLedger_transaction
  split
  · next heq =>
    rw [heq] at htransaction
    split
    · exact htransaction
    · exact htransaction
  · exact htransaction

theorem le_lastLedger_succeed : s.lastLedger ≤ (s.succeed config event).lastLedger := by
  obtain ⟨cache, hsucceed, -⟩ := s.succeed_eq config event
  rw [hsucceed]
  exact le_max_left ..

/-- The cursor of a running listener does not go back. -/
theorem le_lastLedger_processEvent :
    s.lastLedger ≤ (processEvent sdk config a rawEvent s).2.lastLedger := by
  cases hparsed : parseEvent sdk config rawEvent with
  | none => simp [processEvent, hparsed]
  | some event =>
    by_cases hcached : event.key ∈ s.processedEvents
    · simp [processEvent, hparsed, hcached]
    by_cases hmarked : event.key ∈ s.markers
    · simp [processEvent, hparsed, hcached, hmarked, remember]
    cases houtbox : config.supportsOutboxPersistence with
    | false =>
      have hlast : (s.processEventAtomically a event).2.lastLedger = s.lastLedger :=
        lastLedger_atomically
      simp only [processEvent, hparsed, hcached, hmarked, houtbox, if_false, Bool.not_false,
        if_true]
      split
      · next heq =>
        rw [heq] at hlast
        exact hlast.ge.trans le_lastLedger_succeed
      · next heq =>
        rw [heq] at hlast
        exact hlast.ge
    | true =>
      have hlast : ((s.ensured a event).processOutboxEventAtomically a event).2.lastLedger =
          s.lastLedger := lastLedger_outbox
      rw [processEvent_of_outbox houtbox hparsed hcached hmarked]
      split
      · exact le_refl s.lastLedger
      · split
        · next heq =>
          rw [heq] at hlast
          exact hlast.ge.trans le_lastLedger_succeed
        · next heq =>
          rw [heq] at hlast
          split
          · exact hlast.ge
          · exact hlast.ge

end Amana.Backend.Listener
