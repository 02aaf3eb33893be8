import Amana.Escrow.WellFormed

/-!
# Timelocked operations

`queue_clawback` and `queue_upgrade` share one identifier space and one record type; two executors
and a cancellation settle the records.  `timelockEvent` says what a step does to the queue, and
`timelockEvents` collects this over a run.  Every event has one effect on the records
(`step_queue`).
-/

namespace Amana.Escrow

open Lib

variable {env : Env} {s s' : State} {c : Call} {a : Action} {id : Nat}

/-- What can happen to a timelocked operation. -/
inductive TimelockEvent where
  | queued (id : Nat)
  | executed (id : Nat)
  | cancelled (id : Nat)
  deriving DecidableEq

/-- The operation a call asks to queue. -/
def Call.operation : Call → Option TimelockOpPayload
  | .queueClawback tradeId amount destination => some (.clawback ⟨tradeId, amount, destination⟩)
  | .queueUpgrade newWasmHash => some (.upgrade ⟨newWasmHash⟩)
  | _ => none

/-- The executor of an operation. -/
def TimelockOpPayload.executor (id : Nat) : TimelockOpPayload → Call
  | .clawback _ => .executeClawback id
  | .upgrade _ => .executeUpgrade id

/-- The executor that is not meant for an operation. -/
def TimelockOpPayload.wrongExecutor (id : Nat) : TimelockOpPayload → Call
  | .clawback _ => .executeUpgrade id
  | .upgrade _ => .executeClawback id

/-- The delay promised for an operation. -/
def TimelockOpPayload.delay : TimelockOpPayload → Nat
  | .clawback _ => 86400
  | .upgrade _ => 604800

/-- The execution of an operation by a successful call of its own executor. -/
def executionOf (env : Env) (id : Nat) (s : State) (c : Call) : Option TimelockEvent :=
  (s.timelockOperation.get id).bind fun queuedOp =>
    if c = queuedOp.payload.executor id ∧ (invoke env s c).isOk = true then some (.executed id)
    else none

/-- What a step does to the queue. -/
def timelockEvent (s : State) : Action → Option TimelockEvent
  | .call env (.queueClawback tradeId amount destination) =>
    (queueClawback env tradeId amount destination s).toOption.map fun r => .queued r.1
  | .call env (.queueUpgrade newWasmHash) =>
    (queueUpgrade env newWasmHash s).toOption.map fun r => .queued r.1
  | .call env (.executeClawback id) => executionOf env id s (.executeClawback id)
  | .call env (.executeUpgrade id) => executionOf env id s (.executeUpgrade id)
  | .call env (.cancelQueuedOperation id) =>
    if (cancelQueuedOperation env id s).isOk = true then some (.cancelled id) else none
  | _ => none

/-- What a run does to the queue. -/
def timelockEvents (tokens : Token.Ledger Address) (actions : List Action) : List TimelockEvent :=
  (trail tokens actions).filterMap fun p => timelockEvent p.1 p.2

/-- The identifier an event issues. -/
def TimelockEvent.issued : TimelockEvent → Option Nat
  | .queued id => some id
  | _ => none

/-- The identifiers a run issues to operations. -/
def issuedIds (tokens : Token.Ledger Address) (actions : List Action) : List Nat :=
  (timelockEvents tokens actions).filterMap TimelockEvent.issued

theorem timelockEvents_snoc (tokens : Token.Ledger Address) (actions : List Action) (a : Action) :
    timelockEvents tokens (actions ++ [a]) =
      timelockEvents tokens actions ++ (timelockEvent (run tokens actions) a).toList := by
  rw [timelockEvents, trail, Machine.trail_snoc, List.filterMap_append]
  rfl

/-! ## One step -/

/-- How one action changes the queue. -/
inductive QueueStep (s : State) : Action → State → Prop
  /-- No operation is touched.  The counter restarts when the contract is initialized. -/
  | keep {a : Action} {s' : State} (event : timelockEvent s a = none)
      (operations : s'.timelockOperation = s.timelockOperation)
      (next : s'.nextTimelockId = s.nextTimelockId ∨
        s.initialized = false ∧ s'.nextTimelockId = some 0)
      (wasm : s'.wasm = s.wasm) : QueueStep s a s'
  /-- A pending operation is stored under the next identifier. -/
  | issue {env : Env} {c : Call} {s' : State} {q : QueuedOperation}
      (event : timelockEvent s (.call env c) = some (.queued (s.nextTimelockId.getD 0)))
      (installed : s.admin.isSome) (operation : c.operation = some q.payload)
      (pending : q.executed = false ∧ q.cancelled = false)
      (queuedAt : q.queuedAt = env.timestamp)
      (executeAfter : getTimelockConfig s = ⟨86400, 604800⟩ →
        q.executeAfter = U64.add env.timestamp q.payload.delay)
      (queue : s'.toQueue =
        { s.toQueue with
          timelockOperation := s.timelockOperation.set (s.nextTimelockId.getD 0) q
          nextTimelockId := some (U64.add (s.nextTimelockId.getD 0) 1) }) :
      QueueStep s (.call env c) s'
  /-- A due operation is carried out by its executor. -/
  | execute {env : Env} {id : Nat} {s' : State} {q : QueuedOperation}
      (event : timelockEvent s (.call env (q.payload.executor id)) = some (.executed id))
      (stored : s.timelockOperation.get id = some q)
      (pending : q.executed = false ∧ q.cancelled = false)
      (due : q.executeAfter ≤ env.timestamp)
      (operations : s'.timelockOperation = s.timelockOperation.set id { q with executed := true })
      (next : s'.nextTimelockId = s.nextTimelockId)
      (wasm : s'.wasm = s.wasm ∨ ∃ op, q.payload = .upgrade op ∧ s'.wasm = some op.newWasmHash) :
      QueueStep s (.call env (q.payload.executor id)) s'
  /-- A pending operation is cancelled. -/
  | cancel {env : Env} {id : Nat} {s' : State} {q : QueuedOperation}
      (event : timelockEvent s (.call env (.cancelQueuedOperation id)) = some (.cancelled id))
      (stored : s.timelockOperation.get id = some q)
      (pending : q.executed = false ∧ q.cancelled = false)
      (queue : s'.toQueue =
        { s.toQueue with
          timelockOperation := s.timelockOperation.set id { q with cancelled := true } }) :
      QueueStep s (.call env (.cancelQueuedOperation id)) s'

theorem timelockEvent_of_error {e : Failure} (h : invoke env s c = .error e) :
    timelockEvent s (.call env c) = none := by
  cases c
  case queueClawback t amount destination =>
    cases hq : queueClawback env t amount destination s with
    | error _ => simp [timelockEvent, hq, Except.toOption]
    | ok _ => simp [invoke, hq, Except.map] at h
  case queueUpgrade hash =>
    cases hq : queueUpgrade env hash s with
    | error _ => simp [timelockEvent, hq, Except.toOption]
    | ok _ => simp [invoke, hq, Except.map] at h
  case executeClawback | executeUpgrade =>
    simp [timelockEvent, executionOf, h, Except.isOk, Except.toBool]
  case cancelQueuedOperation id =>
    have hfailed : cancelQueuedOperation env id s = .error e := h
    simp [timelockEvent, hfailed, Except.isOk, Except.toBool]
  all_goals rfl

theorem timelockEvent_of_not_schedules (h : c.schedules = false) :
    timelockEvent s (.call env c) = none := by
  cases c <;> first | rfl | cases h

/-- An operation meets the other executor and stays as it is. -/
theorem step_wrongExecutor {q : QueuedOperation} (stored : s.timelockOperation.get id = some q) :
    step s (.call env (q.payload.wrongExecutor id)) = s := by
  cases h : invoke env s (q.payload.wrongExecutor id) with
  | error e => exact step_call_of_error h
  | ok s' =>
    rw [step_call_of_ok h]
    cases hpayload : q.payload <;> rw [hpayload] at h
    all_goals
      simp only [TimelockOpPayload.wrongExecutor, invoke, executeUpgrade, executeClawback,
        bind_eq_ok] at h
      obtain ⟨_, -, q', hq, h⟩ := h
      obtain rfl := Option.some.inj (stored.symm.trans (loadDueOperation_eq_ok.1 hq).1)
      rw [hpayload] at h
      exact (pure_eq_ok.1 h).symm

theorem queueClawback_step {t : Nat} {amount : Int} {destination : Address}
    (h : invoke env s (.queueClawback t amount destination) = .ok s') :
    QueueStep s (.call env (.queueClawback t amount destination)) s' := by
  obtain ⟨⟨id, s'⟩, hqueue, rfl⟩ := map_eq_ok.1 h
  have hevent : timelockEvent s (.call env (.queueClawback t amount destination)) =
      some (.queued id) := by
    simp [timelockEvent, hqueue, Except.toOption]
  simp only [queueClawback, bind_eq_ok, requireAdmin_eq_ok, assert_eq_ok, pure_eq_ok,
    exists_const] at hqueue
  obtain ⟨_, ⟨hadmin, -⟩, -, hpair⟩ := hqueue
  obtain ⟨rfl, rfl⟩ := Prod.mk.inj hpair
  refine .issue hevent (by simp [hadmin]) rfl ⟨rfl, rfl⟩ rfl (fun hconfig => ?_) rfl
  show U64.add env.timestamp (getTimelockConfig s).clawbackDelaySeconds = _
  rw [hconfig]
  rfl

theorem queueUpgrade_step {hash : BytesN32} (h : invoke env s (.queueUpgrade hash) = .ok s') :
    QueueStep s (.call env (.queueUpgrade hash)) s' := by
  obtain ⟨⟨id, s'⟩, hqueue, rfl⟩ := map_eq_ok.1 h
  have hevent : timelockEvent s (.call env (.queueUpgrade hash)) = some (.queued id) := by
    simp [timelockEvent, hqueue, Except.toOption]
  simp only [queueUpgrade, bind_eq_ok, requireAdmin_eq_ok, pure_eq_ok] at hqueue
  obtain ⟨_, ⟨hadmin, -⟩, hpair⟩ := hqueue
  obtain ⟨rfl, rfl⟩ := Prod.mk.inj hpair
  refine .issue hevent (by simp [hadmin]) rfl ⟨rfl, rfl⟩ rfl (fun hconfig => ?_) rfl
  show U64.add env.timestamp (getTimelockConfig s).upgradeDelaySeconds = _
  rw [hconfig]
  rfl

/-- A successful call of the right executor is an execution. -/
theorem executionOf_executor {q : QueuedOperation} (stored : s.timelockOperation.get id = some q)
    (ok : invoke env s (q.payload.executor id) = .ok s') :
    executionOf env id s (q.payload.executor id) = some (.executed id) := by
  simp [executionOf, stored, ok, Except.isOk, Except.toBool]

theorem executionOf_wrongExecutor {q : QueuedOperation} (env : Env)
    (stored : s.timelockOperation.get id = some q) :
    executionOf env id s (q.payload.wrongExecutor id) = none := by
  cases hpayload : q.payload <;>
    simp [executionOf, stored, hpayload, TimelockOpPayload.executor,
      TimelockOpPayload.wrongExecutor]

theorem executeClawback_step (wf : WellFormed s.toSettings s.toBooks)
    (h : invoke env s (.executeClawback id) = .ok s') :
    QueueStep s (.call env (.executeClawback id)) s' := by
  obtain ⟨q, hq, -, hcase⟩ := executeClawback_books wf.amountsInRange h
  obtain ⟨stored, due, pending⟩ := loadDueOperation_eq_ok.1 hq
  rcases hcase with ⟨op, _, _, hpayload, -, -, hqueue⟩ | ⟨⟨op, hpayload⟩, rfl⟩
  · have hexecutor : q.payload.executor id = .executeClawback id := by rw [hpayload]; rfl
    have hevent := executionOf_executor stored (hexecutor ▸ h)
    rw [← hexecutor]
    refine .execute ?_ stored pending due ?_ ?_ (.inl ?_)
    · rw [hexecutor] at hevent ⊢
      exact hevent
    · rw [hqueue]
      rfl
    · rw [hqueue]
      rfl
    · rw [hqueue]
      rfl
  · have hwrong : q.payload.wrongExecutor id = .executeClawback id := by rw [hpayload]; rfl
    have hevent := executionOf_wrongExecutor env stored
    rw [hwrong] at hevent
    exact .keep hevent rfl (.inl rfl) rfl

theorem executeUpgrade_step (h : invoke env s (.executeUpgrade id) = .ok s') :
    QueueStep s (.call env (.executeUpgrade id)) s' := by
  have hok := h
  simp only [invoke, executeUpgrade, bind_eq_ok] at h
  obtain ⟨_, -, q, hq, h⟩ := h
  obtain ⟨stored, due, pending⟩ := loadDueOperation_eq_ok.1 hq
  split at h
  · next op hpayload =>
    cases pure_eq_ok.1 h
    have hexecutor : q.payload.executor id = .executeUpgrade id := by rw [hpayload]; rfl
    have hevent := executionOf_executor stored (hexecutor ▸ hok)
    rw [← hexecutor]
    refine .execute ?_ stored pending due rfl rfl (.inr ⟨op, hpayload, rfl⟩)
    rw [hexecutor] at hevent ⊢
    exact hevent
  · next op hpayload =>
    cases pure_eq_ok.1 h
    have hwrong : q.payload.wrongExecutor id = .executeUpgrade id := by rw [hpayload]; rfl
    have hevent := executionOf_wrongExecutor env stored
    rw [hwrong] at hevent
    exact .keep hevent rfl (.inl rfl) rfl

theorem cancelQueuedOperation_step (h : invoke env s (.cancelQueuedOperation id) = .ok s') :
    QueueStep s (.call env (.cancelQueuedOperation id)) s' := by
  have hok : cancelQueuedOperation env id s = .ok s' := h
  have hevent : timelockEvent s (.call env (.cancelQueuedOperation id)) =
      some (.cancelled id) := by
    simp [timelockEvent, hok, Except.isOk, Except.toBool]
  simp only [cancelQueuedOperation, bind_eq_ok, requireAdmin_eq_ok, expect_eq_ok, assert_eq_ok,
    pure_eq_ok, exists_const] at hok
  obtain ⟨_, -, q, stored, hexecuted, hcancelled, rfl⟩ := hok
  exact .cancel hevent stored ⟨hexecuted, hcancelled⟩ rfl

/-- Every step of a well-formed state is one of the changes of the queue. -/
theorem step_queue (wf : WellFormed s.toSettings s.toBooks) (a : Action) :
    QueueStep s a (step s a) := by
  have hchange := step_change wf a
  generalize step s a = s' at hchange
  cases hchange with
  | stay failed =>
    refine .keep ?_ rfl (.inl rfl) rfl
    cases a with
    | call env c =>
      cases h : invoke env s c with
      | error e => exact timelockEvent_of_error h
      | ok s' => simp [h, Except.isOk, Except.toBool] at failed
    | _ => rfl
  | @configure env c _ ok configures conf =>
    have hschedules : c.schedules = false := by
      cases c <;> first | rfl | cases configures
    refine .keep (timelockEvent_of_not_schedules hschedules) ?_ ?_ ?_
    · rcases conf.queue with hq | ⟨-, hq⟩ <;> rw [hq]
    · rcases conf.queue with hq | ⟨hfresh, hq⟩
      · exact .inl (by rw [hq])
      · exact .inr ⟨hfresh, by rw [hq]⟩
    · rcases conf.queue with hq | ⟨-, hq⟩ <;> rw [hq]
  | outside hcall _ =>
    refine .keep ?_ rfl (.inl rfl) rfl
    cases a with
    | call env c => exact absurd rfl (hcall env c)
    | _ => rfl
  | @effect env c _ ok _ _ queue =>
    cases hschedules : c.schedules with
    | false =>
      have hqueue := queue hschedules
      refine .keep (timelockEvent_of_not_schedules hschedules) ?_ (.inl ?_) ?_ <;> rw [hqueue]
    | true =>
      cases c
      case queueClawback => exact queueClawback_step ok
      case queueUpgrade => exact queueUpgrade_step ok
      case executeClawback => exact executeClawback_step wf ok
      case executeUpgrade => exact executeUpgrade_step ok
      case cancelQueuedOperation => exact cancelQueuedOperation_step ok
      all_goals cases hschedules

/-- A step that queues stores the operation it was asked for. -/
theorem QueueStep.of_queued (h : QueueStep s a s') (event : timelockEvent s a = some (.queued id)) :
    id = s.nextTimelockId.getD 0 ∧
      ∃ env c q, a = .call env c ∧ s'.timelockOperation.get id = some q ∧
        c.operation = some q.payload ∧ q.queuedAt = env.timestamp ∧
        q.executed = false ∧ q.cancelled = false := by
  cases h with
  | keep event' => cases event.symm.trans event'
  | @issue env c _ q event' _ operation pending queuedAt _ queue =>
    cases event.symm.trans event'
    refine ⟨rfl, env, c, q, rfl, ?_, operation, queuedAt, pending⟩
    rw [queue, Store.get_set_self]
  | execute event' => cases event.symm.trans event'
  | cancel event' => cases event.symm.trans event'

/-- A step that executes finds the operation due. -/
theorem QueueStep.of_executed (h : QueueStep s a s')
    (event : timelockEvent s a = some (.executed id)) :
    ∃ env q, a = .call env (q.payload.executor id) ∧ s.timelockOperation.get id = some q ∧
      q.executeAfter ≤ env.timestamp := by
  cases h with
  | keep event' => cases event.symm.trans event'
  | issue event' => cases event.symm.trans event'
  | @execute env _ _ q event' stored _ due _ _ _ =>
    cases event.symm.trans event'
    exact ⟨env, q, rfl, stored, due⟩
  | cancel event' => cases event.symm.trans event'

/-- Only the execution of an upgrade installs code. -/
theorem QueueStep.of_wasm (h : QueueStep s a s') (changed : s'.wasm ≠ s.wasm) :
    ∃ id q op, timelockEvent s a = some (.executed id) ∧ s.timelockOperation.get id = some q ∧
      q.payload = .upgrade op ∧ s'.wasm = some op.newWasmHash := by
  cases h with
  | keep _ _ _ wasm => exact absurd wasm changed
  | issue _ _ _ _ _ _ queue => exact absurd (by rw [queue]) changed
  | @execute _ id _ q event stored _ _ _ _ wasm =>
    rcases wasm with wasm | ⟨op, hpayload, wasm⟩
    · exact absurd wasm changed
    · exact ⟨id, q, op, event, stored, hpayload, wasm⟩
  | cancel _ _ _ queue => exact absurd (by rw [queue]) changed

/-- `execute_clawback` changes nothing unless it carries out a clawback. -/
theorem event_of_executeClawback (wf : WellFormed s.toSettings s.toBooks)
    (changed : step s (.call env (.executeClawback id)) ≠ s) :
    timelockEvent s (.call env (.executeClawback id)) = some (.executed id) ∧
      ∃ q op, s.timelockOperation.get id = some q ∧ q.payload = .clawback op := by
  cases h : invoke env s (.executeClawback id) with
  | error e => exact absurd (step_call_of_error h) changed
  | ok s' =>
    obtain ⟨q, hq, -, hcase⟩ := executeClawback_books wf.amountsInRange h
    have stored := (loadDueOperation_eq_ok.1 hq).1
    rcases hcase with ⟨op, _, _, hpayload, -⟩ | ⟨-, rfl⟩
    · refine ⟨?_, q, op, stored, hpayload⟩
      have hexecutor : q.payload.executor id = .executeClawback id := by rw [hpayload]; rfl
      have hevent := executionOf_executor stored (hexecutor ▸ h)
      rw [hexecutor] at hevent
      exact hevent
    · exact absurd (step_call_of_ok h) changed

end Amana.Escrow
