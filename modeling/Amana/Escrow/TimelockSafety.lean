import Amana.Escrow.Operations

/-!
# The timelock over runs

The records of the queue follow the events of a run (`Tracks`): identifiers are issued in order,
every flag is set by one event, and an operation may be executed after its delay.  From this the
guarantees of the timelock follow (`timelockSafe_of_withinLimits`), as long as times and identifiers
stay within 64 bits.
-/

namespace Amana.Escrow

open Lib

variable {env : Env} {s s' : State} {a : Action} {id : Nat}

/-! ## The records follow the events -/

/-- Whether a flag of the record under `id` is set, as a number. -/
def flagged (flag : QueuedOperation → Bool) (operations : Store Nat QueuedOperation) (id : Nat) :
    Nat := ((operations.get id).elim false flag).toNat

theorem flagged_set (flag : QueuedOperation → Bool) (operations : Store Nat QueuedOperation)
    (id id' : Nat) (q : QueuedOperation) :
    flagged flag (operations.set id q) id' =
      if id' = id then (flag q).toNat else flagged flag operations id' := by
  rw [flagged, Store.get_set]
  split <;> rfl

/-- A record that is settled in one way at most and may be executed after its delay. -/
structure QueuedOperation.Sound (q : QueuedOperation) : Prop where
  exclusive : ¬ (q.executed = true ∧ q.cancelled = true)
  executeAfter : q.executeAfter = q.queuedAt + q.payload.delay

/-- What the events of a run say about the queue at its end. -/
structure Tracks (events : List TimelockEvent) (s : State) : Prop where
  issued : events.filterMap TimelockEvent.issued = List.range (s.nextTimelockId.getD 0)
  below : ∀ id q, s.timelockOperation.get id = some q → id < s.nextTimelockId.getD 0
  started : s.initialized = false → s.nextTimelockId.getD 0 = 0
  executed : ∀ id, events.count (.executed id) =
    flagged QueuedOperation.executed s.timelockOperation id
  cancelled : ∀ id, events.count (.cancelled id) =
    flagged QueuedOperation.cancelled s.timelockOperation id
  sound : ∀ id q, s.timelockOperation.get id = some q → q.Sound

section Tracks

variable {events : List TimelockEvent} {q : QueuedOperation}

theorem tracks_deployed (tokens : Token.Ledger Address) : Tracks [] (State.deployed tokens) where
  issued := rfl
  below := nofun
  started := fun _ => rfl
  executed := fun _ => rfl
  cancelled := fun _ => rfl
  sound := nofun

/-- The next identifier is free. -/
theorem Tracks.get_next (h : Tracks events s) :
    s.timelockOperation.get (s.nextTimelockId.getD 0) = none := by
  cases hget : s.timelockOperation.get (s.nextTimelockId.getD 0) with
  | none => rfl
  | some q => exact absurd (h.below _ _ hget) (lt_irrefl _)

theorem Tracks.keep (h : Tracks events s)
    (initialized : s.initialized = true → s'.initialized = true)
    (operations : s'.timelockOperation = s.timelockOperation)
    (next : s'.nextTimelockId = s.nextTimelockId ∨
      s.initialized = false ∧ s'.nextTimelockId = some 0) : Tracks events s' := by
  have hnext : s'.nextTimelockId.getD 0 = s.nextTimelockId.getD 0 := by
    rcases next with e | ⟨hfresh, e⟩
    · rw [e]
    · rw [e, h.started hfresh]
      rfl
  have hstarted : s'.initialized = false → s.nextTimelockId.getD 0 = 0 := by
    intro hfresh
    refine h.started (Bool.eq_false_iff.2 fun hinit => ?_)
    exact absurd ((initialized hinit).symm.trans hfresh) (by decide)
  refine ⟨?_, ?_, ?_, ?_, ?_, ?_⟩
  · rw [hnext]
    exact h.issued
  · rw [hnext, operations]
    exact h.below
  · rw [hnext]
    exact hstarted
  · rw [operations]
    exact h.executed
  · rw [operations]
    exact h.cancelled
  · rw [operations]
    exact h.sound

/-- A pending operation was stored under the next identifier. -/
theorem Tracks.issue (h : Tracks events s) (hinit : s'.initialized = true)
    (pending : q.executed = false ∧ q.cancelled = false)
    (executeAfter : q.executeAfter = q.queuedAt + q.payload.delay)
    (small : s.nextTimelockId.getD 0 + 1 < 2 ^ 64)
    (queue : s'.toQueue =
      { s.toQueue with
        timelockOperation := s.timelockOperation.set (s.nextTimelockId.getD 0) q
        nextTimelockId := some (U64.add (s.nextTimelockId.getD 0) 1) }) :
    Tracks (events ++ [.queued (s.nextTimelockId.getD 0)]) s' := by
  have hnext : s'.nextTimelockId.getD 0 = s.nextTimelockId.getD 0 + 1 := by
    rw [queue]
    exact U64.add_of_lt small
  have hops : s'.timelockOperation = s.timelockOperation.set (s.nextTimelockId.getD 0) q := by
    rw [queue]
  refine ⟨?_, fun id q' hget => ?_, fun hfresh => ?_, fun id => ?_, fun id => ?_,
    fun id q' hget => ?_⟩
  · rw [List.filterMap_append, h.issued, hnext, List.range_succ]
    rfl
  · rw [hops] at hget
    obtain ⟨rfl, -⟩ | ⟨-, hget⟩ := Store.get_set_cases hget
    · omega
    · have := h.below _ _ hget
      omega
  · cases hfresh.symm.trans hinit
  · rw [hops, flagged_set, List.count_append, h.executed]
    split
    · next e => rw [e, flagged, h.get_next, pending.1]; rfl
    · rfl
  · rw [hops, flagged_set, List.count_append, h.cancelled]
    split
    · next e => rw [e, flagged, h.get_next, pending.2]; rfl
    · rfl
  · rw [hops] at hget
    obtain ⟨-, rfl⟩ | ⟨-, hget⟩ := Store.get_set_cases hget
    · exact ⟨fun hboth => absurd (pending.1.symm.trans hboth.1) (by decide), executeAfter⟩
    · exact h.sound _ _ hget

/-- A pending operation was carried out or cancelled. -/
theorem Tracks.settle {event : TimelockEvent} {q' : QueuedOperation} (h : Tracks events s)
    (initialized : s.initialized = true → s'.initialized = true)
    (stored : s.timelockOperation.get id = some q)
    (pending : q.executed = false ∧ q.cancelled = false)
    (settled : event = .executed id ∧ q' = { q with executed := true } ∨
      event = .cancelled id ∧ q' = { q with cancelled := true })
    (operations : s'.timelockOperation = s.timelockOperation.set id q')
    (next : s'.nextTimelockId = s.nextTimelockId) : Tracks (events ++ [event]) s' := by
  have hsame : Tracks events { s' with timelockOperation := s.timelockOperation } :=
    h.keep initialized rfl (.inl next)
  have hsound : q'.Sound := by
    refine ⟨?_, ?_⟩
    · rcases settled with ⟨-, rfl⟩ | ⟨-, rfl⟩ <;> simp [pending]
    · rcases settled with ⟨-, rfl⟩ | ⟨-, rfl⟩ <;> exact (h.sound _ _ stored).executeAfter
  refine ⟨?_, fun id' q'' hget => ?_, hsame.started, fun id' => ?_, fun id' => ?_,
    fun id' q'' hget => ?_⟩
  · rw [List.filterMap_append, hsame.issued]
    rcases settled with ⟨rfl, -⟩ | ⟨rfl, -⟩ <;> exact List.append_nil _
  · rw [operations] at hget
    obtain ⟨rfl, -⟩ | ⟨-, hget⟩ := Store.get_set_cases hget
    · exact hsame.below _ _ stored
    · exact hsame.below _ _ hget
  · rw [operations, flagged_set, List.count_append, h.executed]
    split
    · next e => rcases settled with ⟨rfl, rfl⟩ | ⟨rfl, rfl⟩ <;> simp [e, flagged, stored, pending]
    · next e => rcases settled with ⟨rfl, -⟩ | ⟨rfl, -⟩ <;> simp [Ne.symm e]
  · rw [operations, flagged_set, List.count_append, h.cancelled]
    split
    · next e => rcases settled with ⟨rfl, rfl⟩ | ⟨rfl, rfl⟩ <;> simp [e, flagged, stored, pending]
    · next e => rcases settled with ⟨rfl, -⟩ | ⟨rfl, -⟩ <;> simp [Ne.symm e]
  · rw [operations] at hget
    obtain ⟨-, rfl⟩ | ⟨-, hget⟩ := Store.get_set_cases hget
    · exact hsound
    · exact h.sound _ _ hget

end Tracks

theorem step_initialized (wf : WellFormed s.toSettings s.toBooks) (a : Action)
    (h : s.initialized = true) : (step s a).initialized = true := by
  have hchange := step_change wf a
  generalize step s a = s' at hchange
  cases hchange with
  | stay _ => exact h
  | configure _ _ conf => exact conf.initialized h
  | effect _ _ settings => rw [settings]; exact h
  | outside _ _ => exact h

theorem getTimelockConfig_of_sound (h : s.toSettings.Sound) :
    getTimelockConfig s = ⟨86400, 604800⟩ := by
  unfold getTimelockConfig
  cases hconfig : s.timelockConfig with
  | none => rfl
  | some p => exact h.delays p hconfig

/-- One step keeps the records in line with the events. -/
theorem tracks_step {events : List TimelockEvent} (wf : WellFormed s.toSettings s.toBooks)
    (times : ∀ time, a.time = some time → time < 2 ^ 64 - 604800)
    (few : ((events ++ (timelockEvent s a).toList).filterMap TimelockEvent.issued).length < 2 ^ 64)
    (h : Tracks events s) : Tracks (events ++ (timelockEvent s a).toList) (step s a) := by
  have hinit := step_initialized wf a
  have hqueue := step_queue wf a
  generalize step s a = s' at hinit hqueue
  cases hqueue with
  | keep event operations next _ =>
    rw [event]
    exact (List.append_nil events).symm ▸ h.keep hinit operations next
  | @issue env c _ q event installed _ pending queuedAt executeAfter queue =>
    rw [event] at few ⊢
    have htime := times env.timestamp rfl
    have hafter : q.executeAfter = q.queuedAt + q.payload.delay := by
      rw [executeAfter (getTimelockConfig_of_sound wf.settings), queuedAt, U64.add_of_lt]
      cases q.payload <;> simp only [TimelockOpPayload.delay] <;> omega
    refine h.issue (hinit (wf.settings.adminInstalled installed)) pending hafter ?_ queue
    simpa [List.filterMap_append, h.issued, TimelockEvent.issued] using few
  | execute event stored pending _ operations next _ =>
    rw [event]
    exact h.settle hinit stored pending (.inl ⟨rfl, rfl⟩) operations next
  | cancel event stored pending queue =>
    rw [event]
    exact h.settle hinit stored pending (.inr ⟨rfl, rfl⟩) (by rw [queue]) (by rw [queue])

/-! ## Runs -/

/-- Ledger times leave room for the longest delay, and identifiers do not run out. -/
structure WithinLimits (tokens : Token.Ledger Address) (actions : List Action) : Prop where
  times : ∀ time ∈ actions.filterMap Action.time, time < 2 ^ 64 - 604800
  few : (issuedIds tokens actions).length < 2 ^ 64

section Runs

variable {tokens : Token.Ledger Address} {actions before later : List Action}

theorem WithinLimits.of_append (h : WithinLimits tokens (before ++ later)) :
    WithinLimits tokens before where
  times := fun time hmem => h.times time (by
    rw [List.filterMap_append]
    exact List.mem_append_left _ hmem)
  few := by
    have hfew := h.few
    rw [issuedIds, timelockEvents, trail, Machine.trail_append, List.filterMap_append,
      List.filterMap_append, List.length_append] at hfew
    exact (Nat.le_add_right _ _).trans_lt hfew

theorem tracks_run (h : WithinLimits tokens actions) :
    Tracks (timelockEvents tokens actions) (run tokens actions) := by
  induction actions using List.reverseRecOn with
  | nil => exact tracks_deployed tokens
  | append_singleton actions a ih =>
    have hfew := h.few
    rw [issuedIds, timelockEvents_snoc] at hfew
    rw [run_snoc, timelockEvents_snoc]
    refine tracks_step (wellFormed_run tokens actions) (fun time htime => ?_) hfew (ih h.of_append)
    exact h.times time (by simp [htime])

/-- The same operation, perhaps settled in the meantime. -/
structure QueuedOperation.Continues (q' q : QueuedOperation) : Prop where
  same : q' = { q with executed := q'.executed, cancelled := q'.cancelled }
  executed : q.executed = true → q'.executed = true
  cancelled : q.cancelled = true → q'.cancelled = true

theorem QueuedOperation.Continues.refl (q : QueuedOperation) : q.Continues q := ⟨rfl, id, id⟩

theorem QueuedOperation.Continues.trans {q q' q'' : QueuedOperation} (h : q''.Continues q')
    (h' : q'.Continues q) : q''.Continues q := by
  refine ⟨?_, h.executed ∘ h'.executed, h.cancelled ∘ h'.cancelled⟩
  have hsame := h.same
  rw [h'.same] at hsame
  exact hsame

/-- One step keeps a stored operation. -/
theorem step_continues {events : List TimelockEvent} {q : QueuedOperation}
    (wf : WellFormed s.toSettings s.toBooks) (h : Tracks events s)
    (stored : s.timelockOperation.get id = some q) :
    ∃ q', (step s a).timelockOperation.get id = some q' ∧ q'.Continues q := by
  have hqueue := step_queue wf a
  generalize step s a = s' at hqueue
  cases hqueue with
  | keep _ operations _ _ => exact ⟨q, by rw [operations, stored], .refl q⟩
  | issue _ _ _ _ _ _ queue =>
    refine ⟨q, ?_, .refl q⟩
    have hne : id ≠ s.nextTimelockId.getD 0 := (h.below _ _ stored).ne
    rw [queue, Store.get_set_ne _ _ hne, stored]
  | @execute _ id' _ q₀ _ stored' _ _ operations _ _ =>
    rw [operations, Store.get_set]
    split
    · next e =>
      obtain rfl := Option.some.inj ((e ▸ stored).symm.trans stored')
      exact ⟨_, rfl, rfl, fun _ => rfl, fun h => h⟩
    · exact ⟨q, stored, .refl q⟩
  | @cancel _ id' _ q₀ _ stored' _ queue =>
    rw [queue, Store.get_set]
    split
    · next e =>
      obtain rfl := Option.some.inj ((e ▸ stored).symm.trans stored')
      exact ⟨_, rfl, rfl, fun h => h, fun _ => rfl⟩
    · exact ⟨q, stored, .refl q⟩

theorem run_continues {q : QueuedOperation} (h : WithinLimits tokens (before ++ later))
    (stored : (run tokens before).timelockOperation.get id = some q) :
    ∃ q', (run tokens (before ++ later)).timelockOperation.get id = some q' ∧
      q'.Continues q := by
  induction later using List.reverseRecOn with
  | nil => exact ⟨q, by rwa [List.append_nil], .refl q⟩
  | append_singleton later a ih =>
    rw [← List.append_assoc] at h ⊢
    obtain ⟨q', stored', hcont⟩ := ih h.of_append
    rw [run_snoc]
    obtain ⟨q'', stored'', hcont'⟩ := step_continues (a := a) (wellFormed_run tokens _)
      (tracks_run h.of_append) stored'
    exact ⟨q'', stored'', hcont'.trans hcont⟩

/-- What a timelock is for. -/
structure TimelockSafe (tokens : Token.Ledger Address) (actions : List Action) : Prop where
  /-- No identifier is issued twice. -/
  distinct : (issuedIds tokens actions).Nodup
  /-- A new operation takes a free identifier, and is the one that was asked for. -/
  fresh : ∀ p ∈ trail tokens actions, ∀ id, timelockEvent p.1 p.2 = some (.queued id) →
    p.1.timelockOperation.get id = none ∧
      ∃ env c q, p.2 = .call env c ∧ (step p.1 p.2).timelockOperation.get id = some q ∧
        c.operation = some q.payload ∧ q.queuedAt = env.timestamp ∧
        q.executed = false ∧ q.cancelled = false
  /-- A stored operation is never replaced by another one. -/
  kept : ∀ before later, actions = before ++ later → ∀ id q,
    (run tokens before).timelockOperation.get id = some q →
      ∃ q', (run tokens actions).timelockOperation.get id = some q' ∧ q'.Continues q
  /-- An operation is carried out or cancelled, and only once. -/
  once : ∀ id, (timelockEvents tokens actions).count (.executed id) +
    (timelockEvents tokens actions).count (.cancelled id) ≤ 1
  exclusive : ∀ id q, (run tokens actions).timelockOperation.get id = some q →
    ¬ (q.executed = true ∧ q.cancelled = true)
  /-- An operation is carried out after its delay. -/
  delayed : ∀ p ∈ trail tokens actions, ∀ id, timelockEvent p.1 p.2 = some (.executed id) →
    ∃ env q, p.2 = .call env (q.payload.executor id) ∧ p.1.timelockOperation.get id = some q ∧
      q.queuedAt + q.payload.delay ≤ env.timestamp
  /-- Funds move, and other state changes, only when a clawback is carried out. -/
  clawback : ∀ p ∈ trail tokens actions, ∀ env id, p.2 = .call env (.executeClawback id) →
    step p.1 p.2 ≠ p.1 → timelockEvent p.1 p.2 = some (.executed id) ∧
      ∃ q op, p.1.timelockOperation.get id = some q ∧ q.payload = .clawback op
  /-- Code is installed only when an upgrade is carried out. -/
  upgrade : ∀ p ∈ trail tokens actions, (step p.1 p.2).wasm ≠ p.1.wasm →
    ∃ id q op, timelockEvent p.1 p.2 = some (.executed id) ∧
      p.1.timelockOperation.get id = some q ∧ q.payload = .upgrade op ∧
      (step p.1 p.2).wasm = some op.newWasmHash
  /-- The wrong executor changes nothing. -/
  wrongExecutor : ∀ p ∈ trail tokens actions, ∀ env id q,
    p.1.timelockOperation.get id = some q → p.2 = .call env (q.payload.wrongExecutor id) →
      step p.1 p.2 = p.1

/-- Every run within the limits of its machine integers is safe. -/
theorem timelockSafe_of_withinLimits (h : WithinLimits tokens actions) :
    TimelockSafe tokens actions where
  distinct := by
    rw [issuedIds, (tracks_run h).issued]
    exact List.nodup_range
  fresh := by
    rintro ⟨s, a⟩ hp id event
    obtain ⟨before, later, rfl, rfl⟩ := Machine.exists_append_of_mem_trail step hp
    obtain ⟨rfl, hrecord⟩ := (step_queue (wellFormed_run tokens before) a).of_queued event
    exact ⟨(tracks_run h.of_append).get_next, hrecord⟩
  kept := by
    rintro before later rfl id q stored
    exact run_continues h stored
  once := by
    intro id
    have hrun := tracks_run h
    rw [hrun.executed, hrun.cancelled, flagged, flagged]
    cases hget : (run tokens actions).timelockOperation.get id with
    | none => exact Nat.zero_le 1
    | some q =>
      have hone := (hrun.sound id q hget).exclusive
      show q.executed.toNat + q.cancelled.toNat ≤ 1
      revert hone
      cases q.executed <;> cases q.cancelled <;> decide
  exclusive := fun id q stored => ((tracks_run h).sound id q stored).exclusive
  delayed := by
    rintro ⟨s, a⟩ hp id event
    obtain ⟨before, later, rfl, rfl⟩ := Machine.exists_append_of_mem_trail step hp
    obtain ⟨env, q, rfl, stored, due⟩ :=
      (step_queue (wellFormed_run tokens before) a).of_executed event
    refine ⟨env, q, rfl, stored, ?_⟩
    rwa [← ((tracks_run h.of_append).sound id q stored).executeAfter]
  clawback := by
    rintro ⟨s, a⟩ hp env id rfl changed
    obtain ⟨before, later, rfl, rfl⟩ := Machine.exists_append_of_mem_trail step hp
    exact event_of_executeClawback (wellFormed_run tokens before) changed
  upgrade := by
    rintro ⟨s, a⟩ hp changed
    obtain ⟨before, later, rfl, rfl⟩ := Machine.exists_append_of_mem_trail step hp
    exact (step_queue (wellFormed_run tokens before) a).of_wasm changed
  wrongExecutor := by
    rintro ⟨s, a⟩ hp env id q stored rfl
    exact step_wrongExecutor stored

/-- A clawback and an upgrade are queued; the clawback is executed and the upgrade cancelled. -/
theorem timelockSafe_of_execution_and_cancellation :
    TimelockSafe Sample.tokens
      (Sample.funded ++
        [Sample.call 4 Sample.admin (.queueClawback Sample.first 40 Sample.carol),
          Sample.call 5 Sample.admin (.queueUpgrade ⟨7⟩),
          Sample.call 86404 Sample.admin (.executeClawback 0),
          Sample.call 86405 Sample.admin (.cancelQueuedOperation 1)]) :=
  timelockSafe_of_withinLimits ⟨by decide, by decide⟩

end Runs

end Amana.Escrow
