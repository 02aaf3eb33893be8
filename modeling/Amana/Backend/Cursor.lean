import Amana.Backend.Attempts
import Amana.Lib.Machine

/-!
# The cursor of the listener

Polls start after the ledger of the last event that was processed, so an event that is left behind
at or below the cursor is not fetched again (`never_fetched`).  Events are left behind by a failed
attempt that is followed by a successful one, by a page that ends inside of a ledger, and by a poll
or a process that ends inside of a ledger.  A run without these skips no event
(`noneSkipped_run`).
-/

namespace Amana.Backend.Listener

open Lib Lib.Database

section Definitions

variable (sdk : Sdk) (config : Settings) (stream : List RawEvent)

/-- The keys of the events that can be decoded. -/
def keys (rawEvents : List RawEvent) : List EventKey :=
  rawEvents.filterMap fun rawEvent => (parseEvent sdk config rawEvent).map ParsedEvent.key

/-- An event of the stream that can be decoded.  Ledgers are numbered from one. -/
def Published (key : EventKey) : Prop := key ∈ keys sdk config stream ∧ 0 < key.ledgerSequence

/-- Every event up to the cursor is processed, dead-lettered, or still on the page of the running
poll. -/
def NoneSkipped (s : Listener) : Prop :=
  ∀ key, Published sdk config stream key → key.ledgerSequence ≤ s.lastLedger →
    key ∈ s.markers ∨ s.DeadLettered key ∨ key ∈ keys sdk config s.page

/-! ## Smooth runs -/

/-- These events can be taken off the page. -/
def Expendable (s : Listener) (left : List EventKey) : Prop :=
  ∀ key ∈ left, s.Done key ∨ ¬ s.Passed key.ledgerSequence

/-- Nothing is left behind by an attempt. -/
def SmoothAttempt (s : Listener) (a : Attempt) (event : ParsedEvent) (rest : List EventKey) :
    Prop :=
  match s.outcome config a event with
  | .commits =>
    ∀ key, s.Waiting key → key ≠ event.key → key.ledgerSequence ≤ event.ledgerSequence → key ∈ rest
  | .mistaken => False
  | .postponed | .retried => s.Expendable [event.key]
  | .gaveUp => True
  | .thrown => s.Expendable (event.key :: rest)

/-- Nothing is left behind by an action. -/
def Smooth (s : Listener) : ListenerAction → Prop
  | .poll latest first => s.page = [] →
    (∀ key ∈ keys sdk config ((s.pending stream latest first).take pageLimit),
      ∀ key' ∈ keys sdk config ((s.pending stream latest first).drop pageLimit),
        key.ledgerSequence < key'.ledgerSequence) ∧
    (s.lastLedger = 0 → ∀ key, Published sdk config stream key →
      s.Done key ∨ first ≤ key.ledgerSequence)
  | .process a => ∀ rawEvent rest event, s.page = rawEvent :: rest →
    parseEvent sdk config rawEvent = some event → event.key ∉ s.processedEvents →
    event.key ∉ s.markers → s.SmoothAttempt config a event (keys sdk config rest)
  | .throw | .restart => s.Expendable (keys sdk config s.page)
  | .warm => True
  | .replay _ key => s.DeadLettered key → key ∈ s.markers ∨ ¬ s.Passed key.ledgerSequence

/-- What smooth runs keep. -/
structure Inv (s : Listener) : Prop where
  /-- Nothing is left behind. -/
  covered : ∀ key, Published sdk config stream key → s.Passed key.ledgerSequence →
    s.Done key ∨ key ∈ keys sdk config s.page
  /-- What comes before an event on the page has been attempted, or is on the page too. -/
  seen : ∀ key, Published sdk config stream key →
    (∃ key' ∈ keys sdk config s.page, key.ledgerSequence ≤ key'.ledgerSequence) →
      s.Done key ∨ key ∈ keys sdk config s.page ∨ s.Waiting key
  cached : ∀ key ∈ s.processedEvents, key ∈ s.markers
  credited : ∀ key, ∀ row ∈ s.outbox key, row.status = .processed → key ∈ s.markers

end Definitions

variable {sdk : Sdk} {config : Settings} {stream : List RawEvent} {s s' : Listener}
  {key : EventKey} {event : ParsedEvent} {rawEvent : RawEvent} {rest : List RawEvent} {a : Attempt}

/-! ## Keys -/

theorem ledger_of_parse (h : parseEvent sdk config rawEvent = some event) :
    event.key.ledgerSequence = rawEvent.ledger := by
  simp only [parseEvent, decodeContractEvent, Option.bind_eq_bind, Option.bind_eq_some_iff] at h
  obtain ⟨first, -, symbol, -, -, -, eventType, -, hevent⟩ := h
  obtain rfl := Option.some.inj hevent
  rfl

theorem mem_keys {rawEvents : List RawEvent} : key ∈ keys sdk config rawEvents ↔
    ∃ rawEvent ∈ rawEvents, ∃ event, parseEvent sdk config rawEvent = some event ∧
      event.key = key := by
  simp [keys, List.mem_filterMap, Option.map_eq_some_iff]

theorem keys_cons_of_some (h : parseEvent sdk config rawEvent = some event) :
    keys sdk config (rawEvent :: rest) = event.key :: keys sdk config rest := by
  simp [keys, h]

theorem mem_keys_eventsFrom {startLedger latest : Nat} :
    key ∈ keys sdk config (eventsFrom stream startLedger latest) ↔
      key ∈ keys sdk config stream ∧ startLedger ≤ key.ledgerSequence ∧
        key.ledgerSequence ≤ latest := by
  simp only [mem_keys, eventsFrom, List.mem_filter, Bool.and_eq_true, decide_eq_true_eq]
  constructor
  · rintro ⟨rawEvent, ⟨hmem, hledger⟩, event, hparse, rfl⟩
    rw [ledger_of_parse hparse]
    exact ⟨⟨rawEvent, hmem, event, hparse, rfl⟩, hledger⟩
  · rintro ⟨⟨rawEvent, hmem, event, hparse, rfl⟩, hledger⟩
    rw [ledger_of_parse hparse] at hledger
    exact ⟨rawEvent, ⟨hmem, hledger⟩, event, hparse, rfl⟩

theorem mem_keys_take_or_drop {rawEvents : List RawEvent} (n : Nat)
    (h : key ∈ keys sdk config rawEvents) :
    key ∈ keys sdk config (rawEvents.take n) ∨ key ∈ keys sdk config (rawEvents.drop n) := by
  rw [← List.take_append_drop n rawEvents, keys, List.filterMap_append] at h
  exact List.mem_append.1 h

theorem mem_keys_of_take {rawEvents : List RawEvent} {n : Nat}
    (h : key ∈ keys sdk config (rawEvents.take n)) : key ∈ keys sdk config rawEvents := by
  obtain ⟨rawEvent, hmem, hparse⟩ := mem_keys.1 h
  exact mem_keys.2 ⟨rawEvent, List.mem_of_mem_take hmem, hparse⟩

/-! ## Steps -/

/-- A step that puts nothing on the page keeps the invariant, where it leaves nothing behind. -/
theorem Inv.next (inv : Inv sdk config stream s)
    (done : ∀ key, s.Done key → s'.Done key ∨ s'.Waiting key ∧ ¬ s'.Passed key.ledgerSequence)
    (waiting : ∀ key, s.Waiting key → s'.Done key ∨ s'.Waiting key)
    (page : ∀ key ∈ keys sdk config s'.page, key ∈ keys sdk config s.page)
    (left : ∀ key ∈ keys sdk config s.page, key ∈ keys sdk config s'.page ∨ s'.Done key ∨
      ¬ s'.Passed key.ledgerSequence ∧ (s'.Waiting key ∨ s'.page = []))
    (passed : ∀ key, Published sdk config stream key → s'.Passed key.ledgerSequence →
      s.Passed key.ledgerSequence ∨
        (∃ key' ∈ keys sdk config s.page, key.ledgerSequence ≤ key'.ledgerSequence) ∧
          (s.Waiting key → s'.Done key ∨ key ∈ keys sdk config s'.page))
    (cached : ∀ key ∈ s'.processedEvents, key ∈ s'.markers)
    (credited : ∀ key, ∀ row ∈ s'.outbox key, row.status = .processed → key ∈ s'.markers) :
    Inv sdk config stream s' where
  covered := by
    intro key hkey hpassed
    have hdone : s.Done key → s'.Done key ∨ key ∈ keys sdk config s'.page := by
      intro h
      rcases done key h with hdone | ⟨-, hahead⟩
      · exact .inl hdone
      · exact absurd hpassed hahead
    have hleft : key ∈ keys sdk config s.page → s'.Done key ∨ key ∈ keys sdk config s'.page := by
      intro h
      rcases left key h with hpage | hdone | ⟨hahead, -⟩
      · exact .inr hpage
      · exact .inl hdone
      · exact absurd hpassed hahead
    rcases passed key hkey hpassed with hbefore | ⟨hseen, hwaiting⟩
    · exact (inv.covered key hkey hbefore).elim hdone hleft
    · rcases inv.seen key hkey hseen with h | h | h
      · exact hdone h
      · exact hleft h
      · exact hwaiting h
  seen := by
    rintro key hkey ⟨key', hkey', hle⟩
    rcases inv.seen key hkey ⟨key', page key' hkey', hle⟩ with h | h | h
    · rcases done key h with hdone | ⟨hwaiting, -⟩
      · exact .inl hdone
      · exact .inr (.inr hwaiting)
    · rcases left key h with hpage | hdone | ⟨-, hwaiting | hempty⟩
      · exact .inr (.inl hpage)
      · exact .inl hdone
      · exact .inr (.inr hwaiting)
      · rw [hempty] at hkey'
        cases hkey'
    · rcases waiting key h with hdone | hwaiting
      · exact .inl hdone
      · exact .inr (.inr hwaiting)
  cached := cached
  credited := credited

theorem inv_poll (inv : Inv sdk config stream s) (latest first : Nat)
    (smooth : Smooth sdk config stream s (.poll latest first)) :
    Inv sdk config stream (step sdk config stream s (.poll latest first)) := by
  rw [step]
  by_cases hpage : s.page = []
  · obtain ⟨hcut, hfirst⟩ := smooth hpage
    have hdone : ∀ key, Published sdk config stream key → s.Passed key.ledgerSequence →
        s.Done key := by
      intro key hkey hpassed
      rcases inv.covered key hkey hpassed with h | h
      · exact h
      · rw [hpage] at h
        cases h
    rw [if_pos (by simp [hpage])]
    refine ⟨fun key hkey hpassed => .inl (hdone key hkey hpassed), ?_, inv.cached, inv.credited⟩
    rintro key hkey ⟨key', hkey', hle⟩
    by_cases hpassed : s.Passed key.ledgerSequence
    · exact .inl (hdone key hkey hpassed)
    have hstart : s.Done key ∨ s.startLedger.getD first ≤ key.ledgerSequence := by
      by_cases hlast : s.lastLedger > 0
      · have hahead : ¬ key.ledgerSequence ≤ s.lastLedger := fun h => hpassed (.inl h)
        rw [startLedger, if_pos hlast, Option.getD_some]
        omega
      · rw [startLedger, if_neg hlast]
        exact hfirst (by omega) key hkey
    rcases hstart with h | hstart
    · exact .inl h
    have hlatest := (mem_keys_eventsFrom.1 (mem_keys_of_take hkey')).2.2
    have hpending : key ∈ keys sdk config (s.pending stream latest first) :=
      mem_keys_eventsFrom.2 ⟨hkey.1, hstart, hle.trans hlatest⟩
    rcases mem_keys_take_or_drop pageLimit hpending with h | h
    · exact .inr (.inl h)
    · have hlater := hcut key' hkey' key h
      omega
  · rw [if_neg (by simpa using hpage)]
    exact inv

/-- Taking the rest of the page away. -/
theorem inv_drop (inv : Inv sdk config stream s) (page : s'.page = [])
    (expendable : s.Expendable (keys sdk config s.page)) (markers : s'.markers = s.markers)
    (outbox : s'.outbox = s.outbox) (passed : ∀ n, s'.Passed n → s.Passed n)
    (cached : ∀ key ∈ s'.processedEvents, key ∈ s'.markers) : Inv sdk config stream s' := by
  have hdone : ∀ key, s'.Done key ↔ s.Done key := fun key => by
    rw [Done, Done, DeadLettered, DeadLettered, markers, outbox]
  have hwaiting : ∀ key, s'.Waiting key ↔ s.Waiting key := fun key => by
    rw [Waiting, Waiting, outbox]
  apply inv.next
  · exact fun key h => .inl ((hdone key).2 h)
  · exact fun key h => .inr ((hwaiting key).2 h)
  · rw [page]
    exact fun key h => by cases h
  · intro key h
    rcases expendable key h with h | h
    · exact .inr (.inl ((hdone key).2 h))
    · exact .inr (.inr ⟨fun hpassed => h (passed _ hpassed), .inr page⟩)
  · exact fun key _ h => .inl (passed _ h)
  · exact cached
  · rw [outbox, markers]
    exact inv.credited

theorem inv_throw (inv : Inv sdk config stream s) (smooth : Smooth sdk config stream s .throw) :
    Inv sdk config stream (step sdk config stream s .throw) :=
  inv_drop inv rfl smooth rfl rfl (fun _ h => h) inv.cached

theorem inv_restart (inv : Inv sdk config stream s) (smooth : Smooth sdk config stream s .restart) :
    Inv sdk config stream (step sdk config stream s .restart) := by
  rw [step, start]
  cases hlatest : s.markers.argmax EventKey.ledgerSequence with
  | none =>
    refine inv_drop inv (by rfl) smooth (by rfl) (by rfl) ?_ ?_
    · rintro n (h | h)
      · exact .inl (h.trans (Nat.zero_le _))
      · exact .inr h
    · exact fun key h => by cases h
  | some latestEvent =>
    have hmem : latestEvent ∈ s.markers := List.argmax_mem hlatest
    refine inv_drop inv (by rfl) smooth (by rfl) (by rfl) ?_ ?_
    · rintro n (h | h)
      · exact .inr ⟨latestEvent, hmem, h⟩
      · exact .inr h
    · intro key h
      obtain rfl := List.mem_singleton.1 h
      exact hmem

/-- The cache only matters as far as it says nothing wrong. -/
theorem Inv.withCache (inv : Inv sdk config stream s) {cache : List EventKey}
    (cached : ∀ key ∈ cache, key ∈ s.markers) :
    Inv sdk config stream { s with processedEvents := cache } :=
  ⟨inv.covered, inv.seen, cached, inv.credited⟩

theorem inv_warm (inv : Inv sdk config stream s) :
    Inv sdk config stream (step sdk config stream s .warm) := by
  obtain ⟨cache, hwarm, hcache⟩ := s.warm_eq config
  rw [step, hwarm]
  exact inv.withCache fun key h => (hcache key h).elim (inv.cached key) id

theorem inv_replay (inv : Inv sdk config stream s) (now : Nat) (key : EventKey)
    (smooth : Smooth sdk config stream s (.replay now key)) :
    Inv sdk config stream (step sdk config stream s (.replay now key)) := by
  rw [step]
  have hwaiting : (s.outbox key).isSome = true → Waiting (s.updateOutbox key fun row =>
      { row with status := .pending, attempts := 0, nextAttemptAt := now, lastError := none })
      key := by
    intro h
    obtain ⟨row, hrow⟩ := Option.isSome_iff_exists.1 h
    exact ⟨_, by rw [updateOutbox_self, hrow]; rfl, .inl rfl⟩
  apply inv.next
  · rintro key' (h | ⟨row, hrow, hdead⟩)
    · exact .inl (.inl h)
    · by_cases hkey : key' = key
      · subst hkey
        rcases smooth ⟨row, hrow, hdead⟩ with h | h
        · exact .inl (.inl h)
        · exact .inr ⟨hwaiting (by simp [Option.mem_def.1 hrow]), h⟩
      · exact .inl (.inr ⟨row, by rwa [updateOutbox_of_ne _ _ hkey], hdead⟩)
  · rintro key' ⟨row, hrow, hstatus⟩
    by_cases hkey : key' = key
    · subst hkey
      exact .inr (hwaiting (by simp [Option.mem_def.1 hrow]))
    · exact .inr ⟨row, by rwa [updateOutbox_of_ne _ _ hkey], hstatus⟩
  · exact fun _ h => h
  · exact fun _ h => .inl h
  · exact fun _ _ h => .inl h
  · exact inv.cached
  · intro key' row hrow hprocessed
    by_cases hkey : key' = key
    · subst hkey
      rw [updateOutbox_self] at hrow
      obtain ⟨old, -, rfl⟩ := Option.map_eq_some_iff.1 hrow
      cases hprocessed
    · rw [updateOutbox_of_ne _ _ hkey] at hrow
      exact inv.credited key' row hrow hprocessed

theorem SmoothAttempt.correct {left : List EventKey}
    (smooth : s.SmoothAttempt config a event left) : s.outcome config a event ≠ .mistaken := by
  intro h
  rw [SmoothAttempt, h] at smooth
  exact smooth

/-- What can be taken off the page by an attempt that does not commit is done, or ahead of the
cursor. -/
theorem Attempted.ahead (attempted : Attempted config s a event rest s')
    (correct : s.outcome config a event ≠ .mistaken)
    (commits : s.outcome config a event ≠ .commits)
    (expendable : s.Done key ∨ ¬ s.Passed key.ledgerSequence) :
    s'.Done key ∨ ¬ s'.Passed key.ledgerSequence := by
  rcases expendable with hdone | hahead
  · exact .inl (attempted.done correct hdone)
  · refine .inr fun hpassed => ?_
    rcases attempted.passed hpassed with hbefore | ⟨hcommits, -⟩
    · exact hahead hbefore
    · exact commits hcommits

/-- The event of a smooth attempt that returns is done, or waits ahead of the cursor. -/
theorem Attempted.settled_ahead (attempted : Attempted config s a event rest s')
    (inv : Inv sdk config stream s) (unmarked : event.key ∉ s.markers) {left : List EventKey}
    (smooth : s.SmoothAttempt config a event left)
    (returns : s.outcome config a event ≠ .thrown) :
    s'.Done event.key ∨ ¬ s'.Passed event.key.ledgerSequence ∧ s'.Waiting event.key := by
  rcases attempted.settled smooth.correct inv.credited unmarked returns with hdone | hwaiting
  · exact .inl hdone
  cases houtcome : s.outcome config a event with
  | commits => exact .inl (.inl (attempted.marked houtcome))
  | mistaken => exact absurd houtcome smooth.correct
  | postponed | retried =>
    have hcorrect := smooth.correct
    rw [SmoothAttempt, houtcome] at smooth
    rcases attempted.ahead hcorrect (by simp [houtcome]) (smooth event.key (by simp)) with h | h
    · exact .inl h
    · exact .inr ⟨h, hwaiting⟩
  | gaveUp =>
    have hafter := attempted.row
    rw [houtcome] at hafter
    exact .inl (.inr hafter)
  | thrown => exact absurd houtcome returns

theorem inv_attempt (inv : Inv sdk config stream s) (page : s.page = rawEvent :: rest)
    (parsed : parseEvent sdk config rawEvent = some event) (unmarked : event.key ∉ s.markers)
    (smooth : s.SmoothAttempt config a event (keys sdk config rest))
    (attempted : Attempted config s a event rest s') : Inv sdk config stream s' := by
  have hcorrect := smooth.correct
  have hkeys : keys sdk config s.page = event.key :: keys sdk config rest := by
    rw [page, keys_cons_of_some parsed]
  apply inv.next
  · exact fun key h => .inl (attempted.done hcorrect h)
  · exact fun key h => attempted.waiting hcorrect h
  · intro key h
    rw [attempted.page] at h
    rw [hkeys]
    split at h
    · cases h
    · exact List.mem_cons_of_mem _ h
  · intro key h
    rw [hkeys] at h
    by_cases hthrown : s.outcome config a event = .thrown
    · -- The whole page is gone.
      rw [SmoothAttempt, hthrown] at smooth
      rcases attempted.ahead hcorrect (by simp [hthrown]) (smooth key h) with hdone | hahead
      · exact .inr (.inl hdone)
      · exact .inr (.inr ⟨hahead, .inr (by rw [attempted.page, if_pos hthrown])⟩)
    · rcases List.mem_cons.1 h with rfl | hrest
      · rcases attempted.settled_ahead inv unmarked smooth hthrown with hdone | ⟨hahead, hwaiting⟩
        · exact .inr (.inl hdone)
        · exact .inr (.inr ⟨hahead, .inl hwaiting⟩)
      · exact .inl (by rwa [attempted.page, if_neg hthrown])
  · intro key _ hpassed
    rcases attempted.passed hpassed with h | ⟨hcommits, hle⟩
    · exact .inl h
    · refine .inr ⟨⟨event.key, by simp [hkeys], hle⟩, fun hwaiting => ?_⟩
      by_cases hkey : key = event.key
      · exact .inl (.inl (hkey ▸ attempted.marked hcommits))
      · rw [SmoothAttempt, hcommits] at smooth
        rw [attempted.page, hcommits]
        exact .inr (smooth key hwaiting hkey hle)
  · intro key h
    rcases attempted.cached key h with h | ⟨hcommits, rfl⟩
    · exact attempted.mem_markers (inv.cached key h)
    · exact attempted.marked hcommits
  · exact fun key row hrow => attempted.credited hcorrect inv.credited row hrow

/-- An event that needs no attempt is taken off the page. -/
theorem inv_skip (inv : Inv sdk config stream s) (page : s.page = rawEvent :: rest)
    (done : ∀ event, parseEvent sdk config rawEvent = some event → s.Done event.key) :
    Inv sdk config stream { s with page := rest } := by
  have hkeys : ∀ key, key ∈ keys sdk config s.page ↔
      key ∈ keys sdk config rest ∨ ∃ event, parseEvent sdk config rawEvent = some event ∧
        event.key = key := by
    intro key
    simp only [page, mem_keys, List.mem_cons, exists_eq_or_imp]
    exact or_comm
  apply inv.next
  · exact fun _ h => .inl h
  · exact fun _ h => .inr h
  · exact fun key h => (hkeys key).2 (.inl h)
  · intro key h
    rcases (hkeys key).1 h with h | ⟨event, hparsed, rfl⟩
    · exact .inl h
    · exact .inr (.inl (done event hparsed))
  · exact fun _ _ h => .inl h
  · exact inv.cached
  · exact inv.credited

theorem inv_process (inv : Inv sdk config stream s)
    (smooth : Smooth sdk config stream s (.process a)) :
    Inv sdk config stream (step sdk config stream s (.process a)) := by
  cases hpage : s.page with
  | nil =>
    rw [step, hpage]
    exact inv
  | cons rawEvent rest =>
    cases hparsed : parseEvent sdk config rawEvent with
    | none =>
      have hresult : processEvent sdk config a rawEvent s = (true, s) := by
        simp [processEvent, hparsed]
      rw [step_process hpage hresult]
      exact inv_skip inv hpage fun event h => by simp [hparsed] at h
    | some event =>
      have hdone : event.key ∈ s.markers → ∀ event', parseEvent sdk config rawEvent = some event' →
          s.Done event'.key := by
        intro h event' hevent'
        obtain rfl := Option.some.inj (hparsed.symm.trans hevent')
        exact .inl h
      by_cases hcached : event.key ∈ s.processedEvents
      · have hresult : processEvent sdk config a rawEvent s = (true, s) := by
          simp [processEvent, hparsed, hcached]
        rw [step_process hpage hresult]
        exact inv_skip inv hpage (hdone (inv.cached _ hcached))
      by_cases hmarked : event.key ∈ s.markers
      · have hresult : processEvent sdk config a rawEvent s = (true, s.remember event.key) := by
          simp [processEvent, hparsed, hcached, hmarked]
        rw [step_process hpage hresult]
        refine (inv_skip inv hpage (hdone hmarked)).withCache fun key h => ?_
        rcases mem_remember h with h | rfl
        · exact inv.cached key h
        · exact hmarked
      have hsmooth := smooth rawEvent rest event hpage hparsed hcached hmarked
      have hcorrect := hsmooth.correct
      apply inv_attempt inv hpage hparsed hmarked hsmooth
      cases houtbox : config.supportsOutboxPersistence with
      | true => exact attempted_outbox houtbox hpage hparsed hcached hmarked hcorrect
      | false => exact attempted_atomically houtbox hpage hparsed hcached hmarked hcorrect

/-! ## What is left behind -/

/-- The event is off the page, and the cursor has reached its ledger. -/
def Forgone (sdk : Sdk) (config : Settings) (s : Listener) (key : EventKey) : Prop :=
  0 < key.ledgerSequence ∧ key.ledgerSequence ≤ s.lastLedger ∧ key ∉ keys sdk config s.page

theorem forgone_step (forgone : Forgone sdk config s key) (action : ListenerAction)
    (running : action ≠ .restart) :
    Forgone sdk config (step sdk config stream s action) key := by
  obtain ⟨hpos, hle, hoff⟩ := forgone
  cases action with
  | poll latest first =>
    rw [step]
    by_cases hpage : s.page.isEmpty = true
    · rw [if_pos hpage]
      refine ⟨hpos, hle, fun hfetched => ?_⟩
      have hstart := (mem_keys_eventsFrom.1 (mem_keys_of_take hfetched)).2.1
      rw [startLedger, if_pos (by omega), Option.getD_some] at hstart
      omega
    · rw [if_neg hpage]
      exact ⟨hpos, hle, hoff⟩
  | process a =>
    cases hpage : s.page with
    | nil =>
      rw [step, hpage]
      exact ⟨hpos, hle, hoff⟩
    | cons rawEvent rest =>
      rw [step_process hpage rfl]
      have hrest : ∀ returns : Bool, key ∈ keys sdk config (if returns then rest else []) →
          key ∈ keys sdk config s.page := by
        intro returns h
        cases returns with
        | false => cases h
        | true =>
          obtain ⟨y, hy, hparse⟩ := mem_keys.1 h
          exact mem_keys.2 ⟨y, hpage ▸ List.mem_cons_of_mem _ hy, hparse⟩
      exact ⟨hpos, hle.trans le_lastLedger_processEvent, fun h => hoff (hrest _ h)⟩
  | throw => exact ⟨hpos, hle, fun h => by cases h⟩
  | restart => exact absurd rfl running
  | warm =>
    obtain ⟨cache, hwarm, -⟩ := s.warm_eq config
    rw [step, hwarm]
    exact ⟨hpos, hle, hoff⟩
  | replay now key' => exact ⟨hpos, hle, hoff⟩

/-- An event that is off the page with the cursor at its ledger is not fetched again by the running
listener. -/
theorem never_fetched (forgone : Forgone sdk config s key) (actions : List ListenerAction)
    (running : .restart ∉ actions) :
    Forgone sdk config (Machine.run (step sdk config stream) s actions) key := by
  induction actions generalizing s with
  | nil => exact forgone
  | cons action actions ih =>
    rw [List.mem_cons, not_or] at running
    exact ih (forgone_step forgone action (Ne.symm running.1)) running.2

/-! ## Runs -/

theorem inv_step (inv : Inv sdk config stream s) (action : ListenerAction)
    (smooth : Smooth sdk config stream s action) :
    Inv sdk config stream (step sdk config stream s action) := by
  cases action with
  | poll latest first => exact inv_poll inv latest first smooth
  | process a => exact inv_process inv smooth
  | throw => exact inv_throw inv smooth
  | restart => exact inv_restart inv smooth
  | warm => exact inv_warm inv
  | replay now key => exact inv_replay inv now key smooth

theorem inv_new : Inv sdk config stream new where
  covered := by
    rintro key ⟨-, hpos⟩ (h | ⟨key', h, -⟩)
    · exact absurd h (by simp [new]; omega)
    · cases h
  seen := by
    rintro key - ⟨key', h, -⟩
    cases h
  cached := fun key h => by cases h
  credited := fun key row h => by cases h

/-- In a smooth run no event is skipped. -/
theorem noneSkipped_run (actions : List ListenerAction)
    (smooth : ∀ p ∈ Machine.trail (step sdk config stream) new actions,
      Smooth sdk config stream p.1 p.2) :
    NoneSkipped sdk config stream (Machine.run (step sdk config stream) new actions) := by
  have hinv : Inv sdk config stream (Machine.run (step sdk config stream) new actions) :=
    Machine.run_invariant (step sdk config stream) inv_new fun p hp hinv =>
      inv_step hinv p.2 (smooth p hp)
  intro key hkey hle
  rcases hinv.covered key hkey (.inl hle) with (h | h) | h
  · exact .inl h
  · exact .inr (.inl h)
  · exact .inr (.inr h)

/-- Two trades are funded, one ledger after the other. -/
def Sample.fundings : List RawEvent :=
  [publish (.tradeFunded 7 100) 5 none "5-1", publish (.tradeFunded 8 100) 6 none "6-1"]

/-- A listener with the outbox. -/
def Sample.settings : Settings := ⟨Sample.listener, "C", 1000, true⟩

/-- A failed attempt whose event is ahead of the cursor. -/
theorem smooth_retried (page : s.page = rawEvent :: rest)
    (outcome : (parseEvent sdk config rawEvent).map (fun event =>
      (event.key, s.outcome config a event)) = some (key, .retried))
    (expendable : s.Expendable [key]) : Smooth sdk config stream s (.process a) := by
  intro rawEvent' rest' event page' parsed _ _
  obtain ⟨rfl, rfl⟩ := List.cons.inj (page.symm.trans page')
  rw [parsed, Option.map_some, Option.some_inj, Prod.mk.injEq] at outcome
  rw [SmoothAttempt, outcome.2, outcome.1]
  exact expendable

/-- An attempt that commits while no other event waits. -/
theorem smooth_commits (page : s.page = rawEvent :: rest)
    (outcome : (parseEvent sdk config rawEvent).map (fun event =>
      (event.key, s.outcome config a event)) = some (key, .commits))
    (alone : ∀ key', s.Waiting key' → key' = key) : Smooth sdk config stream s (.process a) := by
  intro rawEvent' rest' event page' parsed _ _
  obtain ⟨rfl, rfl⟩ := List.cons.inj (page.symm.trans page')
  rw [parsed, Option.map_some, Option.some_inj, Prod.mk.injEq] at outcome
  rw [SmoothAttempt, outcome.2]
  exact fun key' waiting other _ => absurd ((alone key' waiting).trans outcome.1.symm) other

/-- An attempt writes the row of its event at most. -/
theorem outbox_process (outbox : config.supportsOutboxPersistence = true)
    (page : s.page = rawEvent :: rest)
    (parsed : (parseEvent sdk config rawEvent).map ParsedEvent.key = some key)
    (uncached : key ∉ s.processedEvents) (unmarked : key ∉ s.markers)
    (handler : a.handler ≠ .error .unique) {key' : EventKey} (other : key' ≠ key) :
    (step sdk config stream s (.process a)).outbox key' = s.outbox key' := by
  obtain ⟨event, hparsed, rfl⟩ := Option.map_eq_some_iff.1 parsed
  have hcorrect : s.outcome config a event ≠ .mistaken := by
    rw [outcome]
    split
    · simp
    · split
      · simp
      · next hunique => exact absurd hunique handler
      · split
        · simp
        · split <;> simp
  exact (attempted_outbox outbox page hparsed uncached unmarked hcorrect).elsewhere key' other

/-- The handler of the first funding fails; a second later it is polled again, with the second
funding, and both are processed. -/
def Sample.retrying : List ListenerAction :=
  [.poll 5 5, .process ⟨0, .error .lost, true⟩, .poll 6 5, .process ⟨1000, .ok (), true⟩,
    .process ⟨1000, .ok (), true⟩]

/-- The listener after the first `n` of these actions. -/
def Sample.retryingAfter (n : Nat) : Listener :=
  Machine.run (step (Sample.stellar fun _ => "G") Sample.settings Sample.fundings) new
    (Sample.retrying.take n)

/-- While the second funding is waited for, there is a row for the first one only. -/
theorem Sample.outbox_retrying {key : EventKey} (h : key ≠ ⟨5, "C", "5-1"⟩) :
    (Sample.retryingAfter 3).outbox key = none ∧ (Sample.retryingAfter 4).outbox key = none := by
  have hfirst : (Sample.retryingAfter 2).outbox key = (Sample.retryingAfter 1).outbox key := by
    show (step (Sample.stellar fun _ => "G") Sample.settings Sample.fundings
      (Sample.retryingAfter 1) (.process ⟨0, .error .lost, true⟩)).outbox key = _
    exact outbox_process rfl rfl (by decide +kernel) (by decide +kernel) (by decide +kernel)
      (by simp) h
  have hsecond : (Sample.retryingAfter 4).outbox key = (Sample.retryingAfter 3).outbox key := by
    show (step (Sample.stellar fun _ => "G") Sample.settings Sample.fundings
      (Sample.retryingAfter 3) (.process ⟨1000, .ok (), true⟩)).outbox key = _
    exact outbox_process rfl rfl (by decide +kernel) (by decide +kernel) (by decide +kernel)
      (by simp) h
  have hthird : (Sample.retryingAfter 3).outbox key = none := hfirst
  exact ⟨hthird, hsecond.trans hthird⟩

theorem noneSkipped_of_retry :
    NoneSkipped (Sample.stellar fun _ => "G") Sample.settings Sample.fundings
        (Machine.run (step (Sample.stellar fun _ => "G") Sample.settings Sample.fundings) new
          Sample.retrying) ∧
      (Machine.run (step (Sample.stellar fun _ => "G") Sample.settings Sample.fundings) new
        Sample.retrying).markers = [⟨5, "C", "5-1"⟩, ⟨6, "C", "6-1"⟩] := by
  refine ⟨noneSkipped_run _ ?_, by decide +kernel⟩
  have hledger : ∀ key, Published (Sample.stellar fun _ => "G") Sample.settings Sample.fundings
      key → 5 ≤ key.ledgerSequence := by
    rintro key ⟨hkey, -⟩
    have hkeys : keys (Sample.stellar fun _ => "G") Sample.settings Sample.fundings =
        [⟨5, "C", "5-1"⟩, ⟨6, "C", "6-1"⟩] := by decide +kernel
    rw [hkeys] at hkey
    simp only [List.mem_cons, List.not_mem_nil, or_false] at hkey
    obtain rfl | rfl := hkey <;> decide
  have hahead : (Sample.retryingAfter 1).Expendable [⟨5, "C", "5-1"⟩] := by
    intro key hkey
    obtain rfl := List.mem_singleton.1 hkey
    refine .inr ?_
    rintro (hpassed | ⟨key, hmarker, -⟩)
    · exact absurd hpassed (by decide +kernel)
    · cases hmarker
  have hfirst (key : EventKey) (waiting : (Sample.retryingAfter 3).Waiting key) :
      key = ⟨5, "C", "5-1"⟩ := by
    obtain ⟨row, hrow, -⟩ := waiting
    by_contra hne
    rw [(Sample.outbox_retrying hne).1] at hrow
    cases hrow
  have hsecond (key : EventKey) : ¬ (Sample.retryingAfter 4).Waiting key := by
    rintro ⟨row, hrow, hstatus⟩
    by_cases hkey : key = ⟨5, "C", "5-1"⟩
    · have hdone : ((Sample.retryingAfter 4).outbox ⟨5, "C", "5-1"⟩).map OutboxRow.status =
          some .processed := by decide +kernel
      rw [← hkey, Option.mem_def.1 hrow, Option.map_some] at hdone
      rw [Option.some.inj hdone] at hstatus
      simp at hstatus
    · rw [(Sample.outbox_retrying hkey).2] at hrow
      cases hrow
  simp only [Sample.retrying, Machine.trail, List.forall_mem_cons]
  refine ⟨fun _ => ⟨?_, fun _ key hkey => .inr (hledger key hkey)⟩, ?_,
    fun _ => ⟨?_, fun _ key hkey => .inr (hledger key hkey)⟩, ?_, ?_, by simp⟩
  · intro key _ key' hkey'
    cases hkey'
  · exact smooth_retried (s := Sample.retryingAfter 1) rfl (by decide +kernel) hahead
  · intro key _ key' hkey'
    cases hkey'
  · exact smooth_commits (s := Sample.retryingAfter 3) rfl (by decide +kernel) hfirst
  · have houtcome : (parseEvent (Sample.stellar fun _ => "G") Sample.settings
        (publish (.tradeFunded 8 100) 6 none "6-1")).map (fun event => (event.key,
          (Sample.retryingAfter 4).outcome Sample.settings ⟨1000, .ok (), true⟩ event)) =
        some (⟨6, "C", "6-1"⟩, .commits) := by decide +kernel
    exact smooth_commits (s := Sample.retryingAfter 4) rfl houtcome
      fun key waiting => absurd waiting (hsecond key)

/-- The handler of the first funding fails, and the one of the second does not. -/
def Sample.skipping : Listener :=
  Machine.run (step (Sample.stellar fun _ => "G") Sample.settings Sample.fundings) new
    [.poll 6 1, .process ⟨0, .error .lost, true⟩, .process ⟨0, .ok (), true⟩]

/-- The first funding waits for another attempt that the running listener never makes. -/
theorem not_noneSkipped_of_failure :
    ∃ key, Published (Sample.stellar fun _ => "G") Sample.settings Sample.fundings key ∧
      key.ledgerSequence ≤ Sample.skipping.lastLedger ∧ key ∉ Sample.skipping.markers ∧
      ¬ Sample.skipping.DeadLettered key ∧
      ¬ NoneSkipped (Sample.stellar fun _ => "G") Sample.settings Sample.fundings
        Sample.skipping ∧
      ∀ actions, .restart ∉ actions → key ∉ keys (Sample.stellar fun _ => "G") Sample.settings
        (Machine.run (step (Sample.stellar fun _ => "G") Sample.settings Sample.fundings)
          Sample.skipping actions).page := by
  have hpublished : Published (Sample.stellar fun _ => "G") Sample.settings Sample.fundings
      ⟨5, "C", "5-1"⟩ := ⟨by decide +kernel, by decide⟩
  have hle : 5 ≤ Sample.skipping.lastLedger := by decide +kernel
  have hunmarked : ⟨5, "C", "5-1"⟩ ∉ Sample.skipping.markers := by decide +kernel
  have hretrying : (Sample.skipping.outbox ⟨5, "C", "5-1"⟩).map OutboxRow.status =
      some .retrying := by decide +kernel
  have hempty : Sample.skipping.page = [] := rfl
  have halive : ¬ Sample.skipping.DeadLettered ⟨5, "C", "5-1"⟩ := by
    rintro ⟨row, hrow, hdead⟩
    rw [Option.mem_def.1 hrow, Option.map_some, hdead] at hretrying
    cases hretrying
  have hoff : ⟨5, "C", "5-1"⟩ ∉ keys (Sample.stellar fun _ => "G") Sample.settings
      Sample.skipping.page := by
    rw [hempty]
    exact fun h => by cases h
  refine ⟨_, hpublished, hle, hunmarked, halive, fun hnone => ?_, fun actions running => ?_⟩
  · rcases hnone _ hpublished hle with h | h | h
    · exact hunmarked h
    · exact halive h
    · exact hoff h
  · exact (never_fetched ⟨by decide, hle, hoff⟩ actions running).2.2

end Amana.Backend.Listener
