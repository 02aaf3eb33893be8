import Amana.Backend.Workers

/-!
# Trades that have come to an end

A completed, cancelled or expired trade should stay what it is, whatever the listener, the sweep and
the admin do side by side.  Guarded updates see to that: each of them raises the version, and writes
only over a row that is as it was read.  The one write without a guard is the upsert of a handler
that has found no row; a run in which it never meets a row that has come to an end in the meantime
keeps all of them (`terminal_kept`).
-/

namespace Amana.Backend

open Lib Lib.Database Lib.ReadCommitted

/-- The statuses of a trade that has come to an end. -/
def TradeStatus.terminal : TradeStatus → Bool
  | .completed | .cancelled | .expired => true
  | _ => false

/-- A row may take the place of another one: its version is higher, or it is the same one as far as
the status goes, and a status at the end is kept. -/
structure TradeRow.Precedes (old new : TradeRow) : Prop where
  version : old.version < new.version ∨ old.version = new.version ∧ old.status = new.status
  terminal : old.status.terminal = true → new.status = old.status

theorem TradeRow.Precedes.refl (row : TradeRow) : row.Precedes row :=
  ⟨.inr ⟨rfl, rfl⟩, fun _ => rfl⟩

theorem TradeRow.Precedes.trans {old mid new : TradeRow} (h : old.Precedes mid)
    (h' : mid.Precedes new) : old.Precedes new where
  version := by
    rcases h.version with hlt | ⟨heq, hstatus⟩
    · rcases h'.version with hlt' | ⟨heq', -⟩
      · exact .inl (hlt.trans hlt')
      · exact .inl (heq' ▸ hlt)
    · rcases h'.version with hlt' | ⟨heq', hstatus'⟩
      · exact .inl (heq ▸ hlt')
      · exact .inr ⟨heq.trans heq', hstatus.trans hstatus'⟩
  terminal := by
    intro hterminal
    have hmid := h.terminal hterminal
    rw [h'.terminal (by rw [hmid]; exact hterminal), hmid]

/-- Moving on from a row that has not come to an end. -/
theorem TradeRow.precedes_moveTo {row : TradeRow} (status : TradeStatus)
    (h : row.status.terminal = true → status = row.status) : row.Precedes (row.moveTo status) :=
  ⟨.inl (Nat.lt_succ_self _), h⟩

theorem TradeRow.Precedes.status_of_version {old new : TradeRow} (h : old.Precedes new)
    (version : new.version = old.version) : new.status = old.status := by
  rcases h.version with hlt | ⟨-, hstatus⟩
  · omega
  · exact hstatus.symm

/-- The rows of trades that may take the place of one another; the other rows are free. -/
def Succeeds : (k : Key) → Option (Row k) → Option (Row k) → Prop
  | .trade _, some old, new => ∃ row ∈ new, old.Precedes row
  | _, _, _ => True

theorem succeeds_refl (k : Key) (row : Option (Row k)) : Succeeds k row row := by
  cases k with
  | trade tradeId =>
    cases row with
    | none => trivial
    | some row => exact ⟨row, rfl, .refl row⟩
  | _ => trivial

theorem succeeds_trans {k : Key} {r r' r'' : Option (Row k)} (h : Succeeds k r r')
    (h' : Succeeds k r' r'') : Succeeds k r r'' := by
  cases k with
  | trade tradeId =>
    cases r with
    | none => trivial
    | some row =>
      obtain ⟨mid, rfl, hmid⟩ := h
      obtain ⟨new, hnew, hprecedes⟩ := h'
      exact ⟨new, hnew, hmid.trans hprecedes⟩
  | _ => trivial

/-- An upsert that meets a trade at its end leaves its status alone. -/
def Unspoilt : (k : Key) → Statement (Row k) → Option (Row k) → Prop
  | .trade _, .upsert _ data, some row =>
    row.status.terminal = true → (data row).status = row.status
  | _, _, _ => True

instance : (k : Key) → (stmt : Statement (Row k)) → (row : Option (Row k)) →
    Decidable (Unspoilt k stmt row)
  | .trade _, .upsert _ data, some row =>
    inferInstanceAs (Decidable (row.status.terminal = true → (data row).status = row.status))
  | .trade _, .upsert _ _, none => isTrue trivial
  | .trade _, .find, _ | .trade _, .create _, _ => isTrue trivial
  | .trade _, .update _, _ | .trade _, .updateMany _ _, _ => isTrue trivial
  | .dispute _, _, _ | .processedEvent _, _, _ => isTrue trivial
  | .chainEventOutbox _, _, _ | .streamClawbackEvent _ _, _, _ => isTrue trivial

/-! ## Handlers -/

theorem terminal_of_validPredecessors {eventType : EventType} {status : TradeStatus}
    (h : status ∈ (validPredecessors eventType).getD []) : status.terminal = false := by
  have hall : ∀ s ∈ (validPredecessors eventType).getD [], s.terminal = false := by
    cases eventType <;> decide
  exact hall status h

theorem respects_applyStatusTransition (event : ParsedEvent) (payload : TradeRow) :
    (applyStatusTransition event payload).Respects Succeeds Unspoilt := by
  refine .bind (respects_ask trivial) fun existing => ?_
  cases existing with
  | none =>
    refine .bind (respects_ask ⟨trivial, fun row unspoilt => ⟨_, rfl, ?_⟩⟩) fun _ => trivial
    exact TradeRow.precedes_moveTo _ unspoilt
  | some existing =>
    refine respects_ite (fun hmoves => .bind (respects_ask ?_) fun count => ?_) trivial
    · intro row _ hrequired
      refine ⟨_, rfl, TradeRow.precedes_moveTo _ fun hterminal => ?_⟩
      have hsame : row.status = existing.status := by
        rw [Bool.and_eq_true] at hrequired
        simpa using hrequired.1
      rw [hsame, terminal_of_validPredecessors hmoves] at hterminal
      cases hterminal
    · exact respects_ite (fun _ => trivial) trivial

theorem respects_syncDisputeFromEvent (now : Nat) (event : ParsedEvent) (resolved : Bool) :
    (syncDisputeFromEvent now event resolved).Respects Succeeds Unspoilt := by
  refine .bind (respects_ask trivial) fun existing => ?_
  refine respects_ite (fun _ => respects_ite (fun _ => ?_) trivial)
    (respects_ite (fun _ => respects_ask trivial) trivial)
  exact .bind (respects_ask fun _ _ _ => trivial) fun _ => trivial

theorem respects_dispatchEvent (now : Nat) (event : ParsedEvent) :
    (dispatchEvent now event).Respects Succeeds Unspoilt := by
  unfold dispatchEvent
  cases event.eventType with
  | disputeInitiated | disputeResolved =>
    exact .bind (respects_applyStatusTransition ..) fun _ => respects_syncDisputeFromEvent ..
  | streamClawback =>
    refine respects_ite (fun _ => .bind (respects_ask ⟨trivial, fun _ _ => trivial⟩) fun _ => ?_)
      trivial
    trivial
  | _ => exact respects_applyStatusTransition ..

/-! ## Workers -/

theorem respects_outboxTransaction (now : Nat) (event : ParsedEvent) :
    (outboxTransaction now event).Respects Succeeds Unspoilt := by
  refine .bind (respects_ask trivial) fun current => respects_ite (fun _ => trivial) ?_
  refine .bind (respects_dispatchEvent now event) fun _ => ?_
  refine .bind (respects_ask trivial) fun _ => ?_
  exact .bind (respects_ask fun _ _ => trivial) fun _ => trivial

theorem respects_recordOutboxFailure (config : ListenerConfig) (now : Nat) (key : EventKey)
    (outbox : OutboxRow) (fault : Fault) :
    (recordOutboxFailure config now key outbox fault).Respects Succeeds Unspoilt :=
  ⟨fun _ _ => trivial, fun _ => trivial⟩

theorem respects_processOutboxEventAtomically (config : ListenerConfig) (now : Nat)
    (event : ParsedEvent) (outbox : OutboxRow) :
    (processOutboxEventAtomically config now event outbox).Respects Succeeds Unspoilt := by
  refine ⟨respects_outboxTransaction now event, fun answer => ?_⟩
  match answer with
  | .ok _ => trivial
  | .error .unique =>
    refine ⟨fun _ _ => trivial, fun answer => ?_⟩
    cases answer with
    | ok row => trivial
    | error fault => apply respects_recordOutboxFailure
  | .error .reference | .error .missing | .error .lost | .error (.raised _) =>
    apply respects_recordOutboxFailure

theorem respects_processEvent (config : ListenerConfig) (now : Nat) (event : ParsedEvent) :
    (processEvent config now event).Respects Succeeds Unspoilt := by
  refine ⟨trivial, fun found => ?_⟩
  match found with
  | .error _ => trivial
  | .ok (some _) => trivial
  | .ok none =>
    refine ⟨⟨trivial, fun _ _ => trivial⟩, fun answer => ?_⟩
    match answer with
    | .error _ => trivial
    | .ok outbox =>
      by_cases hready : isOutboxReadyForAttempt now outbox = true
      · simp only [hready, if_true]
        exact respects_processOutboxEventAtomically config now event outbox
      · simp only [hready]
        trivial

theorem respects_processEventAtomically (now : Nat) (event : ParsedEvent) :
    (processEventAtomically now event).Respects Succeeds Unspoilt := by
  refine ⟨.bind (respects_dispatchEvent now event) fun _ => ?_, fun _ => trivial⟩
  exact .bind (respects_ask trivial) fun _ => trivial

theorem respects_replayOutbox (now : Nat) (key : EventKey) :
    (replayOutbox now key).Respects Succeeds Unspoilt := by
  refine ⟨trivial, fun found => ?_⟩
  match found with
  | .ok (some _) => exact ⟨fun _ _ => trivial, fun _ => trivial⟩
  | .ok none => trivial
  | .error _ => trivial

theorem terminal_of_expirable {status : TradeStatus}
    (h : expirableStatuses.contains status = true) : status.terminal = false := by
  have hall : ∀ s ∈ expirableStatuses, s.terminal = false := by decide
  exact hall status (List.contains_iff_mem.1 h)

theorem respects_expireTrades (now : Nat) (found : List (String × TradeRow)) :
    (expireTrades now found).Respects Succeeds Unspoilt := by
  induction found with
  | nil => trivial
  | cons entry rest ih =>
    refine ⟨fun row _ hrequired => ⟨_, rfl, .inl (Nat.lt_succ_self _), fun hterminal => ?_⟩,
      fun _ => ih⟩
    rw [Bool.and_eq_true] at hrequired
    rw [terminal_of_expirable hrequired.2] at hterminal
    cases hterminal

theorem respects_sweepExpiredTrades (now : Nat) (tradeIds : List String)
    (found : List (String × TradeRow)) :
    (sweepExpiredTrades now tradeIds found).Respects Succeeds Unspoilt := by
  induction tradeIds generalizing found with
  | nil => exact respects_expireTrades now found
  | cons tradeId rest ih =>
    refine ⟨trivial, fun answer => ?_⟩
    match answer with
    | .ok (some _) => apply ih
    | .ok none => apply ih
    | .error _ => trivial

theorem not_mem_batchTransitions {status targetStatus : TradeStatus}
    (terminal : status.terminal = true) : targetStatus ∉ batchTransitions status := by
  cases status with
  | completed | cancelled | expired => exact List.not_mem_nil
  | _ => cases terminal

/-- The batch route goes by the version alone: a row of the version it has read has the status it
has read. -/
theorem safe_batchStatus (updates : List (String × TradeStatus))
    (c : Config Row (Option EventKey)) :
    (batchStatus updates).Safe (Pointwise Succeeds) Unspoilt c := by
  induction updates generalizing c with
  | nil => trivial
  | cons entry rest ih =>
    obtain ⟨tradeId, targetStatus⟩ := entry
    refine fun c' _ => ⟨trivial, fun _ => ⟨fun k => succeeds_refl k _, ?_⟩⟩
    change Task.Safe _ _ _ c'
    cases hfound : c'.db (.trade tradeId) with
    | none => exact ih c'
    | some trade =>
      by_cases htarget : targetStatus ∈ batchTransitions trade.status
      · simp only [htarget, if_true]
        apply Task.safe_statement succeeds_refl
        · intro c'' later row hrow hversion
          -- The row has come after the one that was read.
          have hlater := later (.trade tradeId)
          rw [hfound, ← hrow] at hlater
          obtain ⟨new, hnew, hprecedes⟩ := hlater
          obtain rfl := Option.some.inj hnew
          refine ⟨_, rfl, TradeRow.precedes_moveTo _ fun hterminal => ?_⟩
          rw [hprecedes.status_of_version (of_decide_eq_true hversion)] at hterminal
          exact absurd htarget (not_mem_batchTransitions hterminal)
        · intro answer c''
          cases answer with
          | ok count => exact ih c''
          | error fault => trivial
      · simp only [htarget, if_false]
        exact ih c'

/-! ## Runs -/

/-- The rows of trades. -/
def IsTrade : Key → Prop
  | .trade _ => True
  | _ => False

theorem safe_of_avoids_trades {task : Work} (h : task.Avoids IsTrade (fun _ => True))
    (c : Config Row (Option EventKey)) : task.Safe (Pointwise Succeeds) Unspoilt c := by
  refine Task.Avoids.safe (fun c c' same _ k => ?_) h c
  cases k with
  | trade tradeId =>
    rw [same (.trade tradeId) trivial]
    exact succeeds_refl _ _
  | _ => trivial

theorem safe_work_trades (job : Job) (c : Config Row (Option EventKey)) :
    job.work.Safe (Pointwise Succeeds) Unspoilt c := by
  have hsafe : ∀ task : Work, task.Respects Succeeds Unspoilt →
      task.Safe (Pointwise Succeeds) Unspoilt c := fun task h =>
    Task.Respects.safe succeeds_refl succeeds_trans h c
  cases job with
  | processEvent config now event => exact hsafe _ (respects_processEvent config now event)
  | processEventAtomically now event => exact hsafe _ (respects_processEventAtomically now event)
  | replayOutbox now key => exact hsafe _ (respects_replayOutbox now key)
  | sweepExpiredTrades now tradeIds => exact hsafe _ (respects_sweepExpiredTrades now tradeIds [])
  | batchStatus updates => exact safe_batchStatus updates c
  | createPendingTrade tradeId buyer seller amount => exact hsafe _ ⟨trivial, fun _ => trivial⟩
  | initiateDispute request =>
    apply safe_of_avoids_trades
    exact Task.avoids_ofProgram (avoids_initiateDispute (fun _ => id) request)

/-- A trade that has come to an end stays what it is, as long as no upsert of a handler would give a
trade at its end another status. -/
theorem terminal_kept {c : Config Row (Option EventKey)}
    {as bs : List (Activity Row (Option EventKey))}
    (staffs : ∀ a ∈ as ++ bs, Staffs IsTrade (fun _ => True) a)
    (unspoilt : ∀ p ∈ Machine.trail step ⟨c, []⟩ (as ++ bs), Permits Unspoilt p.1 p.2)
    {tradeId : String} {status : TradeStatus} (terminal : status.terminal = true)
    (reached : tradeStatus (Machine.run step ⟨c, []⟩ as).config.db tradeId = some status) :
    tradeStatus (Machine.run step ⟨c, []⟩ (as ++ bs)).config.db tradeId = some status := by
  have honward : Onward (Pointwise Succeeds : Config Row (Option EventKey) → _ → Prop) :=
    onward_pointwise succeeds_refl succeeds_trans
  have hspawns : ∀ a ∈ as ++ bs, Spawns (Pointwise Succeeds) Unspoilt a := fun a ha =>
    (staffs a ha).spawns safe_work_trades safe_of_avoids_trades
  rw [Machine.trail_append] at unspoilt
  -- All workers are safe when the trade has come to its end; what they do from then on keeps it.
  have hmid := (run_keeps honward (.start c) (fun p hp => unspoilt p (List.mem_append_left _ hp))
    fun a ha => hspawns a (List.mem_append_left _ ha)).1
  have hend := (run_keeps honward hmid (fun p hp => unspoilt p (List.mem_append_right _ hp))
    fun a ha => hspawns a (List.mem_append_right _ ha)).2 (.trade tradeId)
  rw [Machine.run_append]
  obtain ⟨row, hrow, rfl⟩ := Option.map_eq_some_iff.1 reached
  rw [hrow] at hend
  obtain ⟨new, hnew, hprecedes⟩ := hend
  rw [tradeStatus, hnew, Option.map_some, hprecedes.terminal terminal]

/-- The admin cancels the first trade. -/
def Sample.cancelTrade : Job := .batchStatus [(toString Escrow.Sample.first, .cancelled)]

/-- A pending trade is cancelled before the handler of `TradeCreated` looks at it. -/
theorem terminal_kept_of_pending :
    tradeStatus (Machine.run step Sample.newWorld
        (Sample.workOn
            (.createPendingTrade (toString Escrow.Sample.first) "GALICE" "GBOB" "100") 0 1 ++
          Sample.workOn Sample.cancelTrade 1 2 ++
          Sample.workOn (.processEvent Sample.listener 0 (Sample.chainEvent 1 .tradeCreated)) 2 8)
      ).config.db (toString Escrow.Sample.first) = some .cancelled := by
  apply terminal_kept
  · simp only [List.forall_mem_append]
    exact ⟨⟨Sample.staffs_workOn _ _ _, Sample.staffs_workOn _ _ _⟩, Sample.staffs_workOn _ _ _⟩
  · decide +kernel
  · rfl
  · decide +kernel

/-- The handler of `TradeFunded` has found no row; another listener creates the trade, and the admin
cancels it. -/
def Sample.overtaken : List (Activity Row (Option EventKey)) :=
  Sample.workOn (.processEvent Sample.listener 0 (Sample.chainEvent 2 .tradeFunded)) 0 5 ++
    Sample.workOn (.processEvent Sample.listener 0 (Sample.chainEvent 1 .tradeCreated)) 1 9 ++
    Sample.workOn Sample.cancelTrade 2 2

/-- The upsert of that handler then moves the cancelled trade. -/
theorem not_terminal_kept :
    (∀ a ∈ Sample.overtaken ++ Sample.goOn 0 4, Staffs IsTrade (fun _ => True) a) ∧
      tradeStatus (Machine.run step Sample.newWorld Sample.overtaken).config.db
        (toString Escrow.Sample.first) = some .cancelled ∧
      tradeStatus (Machine.run step Sample.newWorld
        (Sample.overtaken ++ Sample.goOn 0 4)).config.db
        (toString Escrow.Sample.first) = some .funded := by
  refine ⟨?_, by decide +kernel, by decide +kernel⟩
  simp only [Sample.overtaken, List.forall_mem_append]
  exact ⟨⟨⟨Sample.staffs_workOn _ _ _, Sample.staffs_workOn _ _ _⟩, Sample.staffs_workOn _ _ _⟩,
    Sample.staffs_goOn _ _⟩

end Amana.Backend
