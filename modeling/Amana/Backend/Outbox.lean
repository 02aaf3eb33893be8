import Amana.Backend.Workers

/-!
# What the outbox says

An outbox row that is `PROCESSED` should mean that the handler's effects of the event have been
committed once, with its `ProcessedEvent` marker.  The unique key of the marker sees to "at most
once", whatever the workers do side by side.  A unique constraint that is violated is taken for the
marker of another worker; in a run in which the handlers' own `dispute.create` never meets a row,
it always is one, and the outbox tells the truth (`applied_run`).
-/

namespace Amana.Backend

open Lib Lib.Database Lib.ReadCommitted

/-- The rows that record what was done with events. -/
def IsRecord : Key → Prop
  | .processedEvent _ | .chainEventOutbox _ => True
  | _ => False

/-- The event has its marker. -/
def Marked (c : Config Row (Option EventKey)) (key : EventKey) : Prop :=
  c.db (.processedEvent key) = some ()

/-- A `PROCESSED` row of the outbox has the marker of its event, and the effects of the event have
been committed once. -/
def Applied (c : Config Row (Option EventKey)) : Prop :=
  ∀ key (row : OutboxRow), c.db (.chainEventOutbox key) = some row → row.status = .processed →
    Marked c key ∧ c.log.count (some key) = 1

/-- Behind `Applied`: the effects of an event have been committed once if it has its marker, and
never if it does not. -/
structure Sound (c : Config Row (Option EventKey)) : Prop where
  marked : ∀ key (row : OutboxRow), c.db (.chainEventOutbox key) = some row →
    row.status = .processed → Marked c key
  once : ∀ key, Marked c key → c.log.count (some key) = 1
  never : ∀ key, ¬ Marked c key → c.log.count (some key) = 0

theorem Sound.applied {c : Config Row (Option EventKey)} (h : Sound c) : Applied c :=
  fun key row found processed =>
    have hmarked := h.marked key row found processed
    ⟨hmarked, h.once key hmarked⟩

/-- What the workers keep: markers stay, and so does soundness. -/
structure Evolves (c c' : Config Row (Option EventKey)) : Prop where
  marked : ∀ key, Marked c key → Marked c' key
  sound : Sound c → Sound c'

theorem onward_evolves : Onward Evolves where
  refl := fun _ => ⟨fun _ => id, id⟩
  trans := fun h h' => ⟨fun key => h'.marked key ∘ h.marked key, h'.sound ∘ h.sound⟩

/-- The create of a dispute finds no row. -/
def Unclaimed : (k : Key) → Statement (Row k) → Option (Row k) → Prop
  | .dispute _, .create _, row => row = none
  | _, _, _ => True

instance : (k : Key) → (stmt : Statement (Row k)) → (row : Option (Row k)) →
    Decidable (Unclaimed k stmt row)
  | .dispute _, .create _, none => isTrue rfl
  | .dispute _, .create _, some _ => isFalse (by simp [Unclaimed])
  | .dispute _, .find, _ | .dispute _, .upsert _ _, _ => isTrue trivial
  | .dispute _, .update _, _ | .dispute _, .updateMany _ _, _ => isTrue trivial
  | .trade _, _, _ | .processedEvent _, _, _ => isTrue trivial
  | .chainEventOutbox _, _, _ | .streamClawbackEvent _ _, _, _ => isTrue trivial

/-! ## Effects -/

section Effects

variable {c c' : Config Row (Option EventKey)} {key : EventKey}

/-- What leaves the markers alone and applies nothing, and credits only events that have theirs. -/
theorem evolves_of_same
    (same : ∀ key, c'.db (.processedEvent key) = c.db (.processedEvent key))
    (count : ∀ key, c'.log.count (some key) = c.log.count (some key))
    (credited : Sound c → ∀ key (row : OutboxRow), c'.db (.chainEventOutbox key) = some row →
      row.status = .processed → Marked c key) : Evolves c c' := by
  have hmarked : ∀ key, Marked c' key ↔ Marked c key := fun key => by rw [Marked, Marked, same key]
  refine ⟨fun key => (hmarked key).2, fun sound => ⟨?_, ?_, ?_⟩⟩
  · exact fun key row found processed => (hmarked key).2 (credited sound key row found processed)
  · intro key hkey
    rw [count, sound.once key ((hmarked key).1 hkey)]
  · intro key hkey
    rw [count, sound.never key (mt (hmarked key).2 hkey)]

theorem evolves_of_records (same : ∀ k, IsRecord k → c'.db k = c.db k)
    (log : c'.log = c.log ∨ ∃ a, a = none ∧ c'.log = c.log ++ [a]) : Evolves c c' := by
  apply evolves_of_same
  · exact fun key => same (.processedEvent key) trivial
  · intro key
    rcases log with hlog | ⟨_, rfl, hlog⟩
    · rw [hlog]
    · simp [hlog]
  · intro sound key row found processed
    rw [same (.chainEventOutbox key) trivial] at found
    exact sound.marked key row found processed

/-- Writing a row of the outbox. -/
theorem evolves_outbox {row : OutboxRow}
    (credited : Sound c → row.status = .processed → Marked c key) :
    Evolves c (c.write (.chainEventOutbox key) (some row)) := by
  apply evolves_of_same
  · intro key'
    simp
  · exact fun _ => rfl
  · intro sound key' row' found processed
    by_cases hkey : key' = key
    · subst hkey
      rw [Config.write_db, Db.write_same] at found
      obtain rfl := Option.some.inj found
      exact credited sound processed
    · have hne : Key.chainEventOutbox key' ≠ .chainEventOutbox key := by simpa using hkey
      rw [Config.write_db, Db.write_of_ne _ _ hne] at found
      exact sound.marked key' row' found processed

/-- Committing the marker of an event, and with it the row of the outbox. -/
theorem evolves_commit {writes : Db Row} (marker : writes (.processedEvent key) = some ())
    (new : c.db (.processedEvent key) = none)
    (others : ∀ k, IsRecord k → k ≠ .processedEvent key → k ≠ .chainEventOutbox key →
      writes k = none) :
    Evolves c (c.commit writes (some key)) := by
  have hdb : ∀ k, (c.commit writes (some key)).db k = (writes k).or (c.db k) := fun _ => rfl
  have hkey : Marked (c.commit writes (some key)) key := by rw [Marked, hdb, marker, Option.some_or]
  have hmarked : ∀ key', key' ≠ key →
      (Marked (c.commit writes (some key)) key' ↔ Marked c key') := by
    intro key' hne
    have hother := others (.processedEvent key') trivial (by simpa using hne) (by simp)
    rw [Marked, hdb, hother, Option.none_or, Marked]
  have hcount : ∀ key', key' ≠ key →
      (c.commit writes (some key)).log.count (some key') = c.log.count (some key') := by
    intro key' hne
    simp [Config.commit, Ne.symm hne]
  refine ⟨fun key' h => ?_, fun sound => ⟨?_, ?_, ?_⟩⟩
  · by_cases hne : key' = key
    · exact hne ▸ hkey
    · exact (hmarked key' hne).2 h
  · intro key' row found processed
    by_cases hne : key' = key
    · exact hne ▸ hkey
    · have hother := others (.chainEventOutbox key') trivial (by simp) (by simpa using hne)
      rw [hdb, hother, Option.none_or] at found
      exact (hmarked key' hne).2 (sound.marked key' row found processed)
  · intro key' h
    by_cases hne : key' = key
    · subst hne
      have hbefore := sound.never key' (by simp [Marked, new])
      simp [Config.commit, hbefore]
    · rw [hcount key' hne, sound.once key' ((hmarked key' hne).1 h)]
  · intro key' h
    by_cases hne : key' = key
    · exact absurd (hne ▸ hkey) h
    · rw [hcount key' hne, sound.never key' (mt (hmarked key' hne).2 h)]

/-! ## Statements and transactions -/

/-- Where the old row of the outbox has its marker if it is processed, so has the new one. -/
def Credits (marked : Prop) (old new : Option OutboxRow) : Prop :=
  (∀ row ∈ old, row.status = .processed → marked) → ∀ row ∈ new, row.status = .processed → marked

theorem safe_outbox {stmt : Statement OutboxRow} {next : Except Fault stmt.Result → Work}
    (credits : ∀ c', Evolves c c' → stmt.Respects (Credits (Marked c' key)) (fun _ => True))
    (safe : ∀ r c', Evolves c c' → (next r).Safe Evolves Unclaimed c') :
    Task.Safe Evolves Unclaimed (.statement (.chainEventOutbox key) stmt next) c := by
  refine fun c' later => ⟨safe _ c' later, fun valid => ?_⟩
  cases hrun : stmt.run valid (c'.db (.chainEventOutbox key)) with
  | error fault => exact safe _ c' later
  | ok answer =>
    obtain ⟨row, r⟩ := answer
    have hstep : Evolves c' (c'.write (.chainEventOutbox key) row) := by
      cases row with
      | none => exact onward_evolves.refl c'
      | some row =>
        apply evolves_outbox
        intro sound
        exact (credits c' later).run trivial hrun (sound.marked key) row rfl
    exact ⟨hstep, safe _ _ (onward_evolves.trans later hstep)⟩

/-- The marker of an event is new and stays so until it is committed, or the event has one. -/
theorem wp_marker {β : Type} {Ψ : Fault → Config Row (Option EventKey) → Prop}
    {Φ : β → Db Row → Config Row (Option EventKey) → Prop} {rest : Program Row β}
    {writes : Db Row} (clean : writes (.processedEvent key) = none)
    (unique : ∀ c, Marked c key → Ψ .unique c) (reference : ∀ c, Ψ .reference c)
    (ending : ∀ c, c.db (.processedEvent key) = none →
      Wp Evolves Unclaimed Ψ Φ rest (writes.write (.processedEvent key) (some ())) c) :
    Wp Evolves Unclaimed Ψ Φ (create (Key.processedEvent key) () >>= fun _ => rest) writes c := by
  intro c' _ _ valid
  rw [view, clean, Option.none_or]
  cases hmarker : c'.db (.processedEvent key) with
  | some marker => exact unique c' hmarker
  | none =>
    by_cases hvalid : valid () = true
    · simp only [Statement.run, hvalid, if_true]
      exact ending c' hmarker
    · simp only [Statement.run, hvalid, Bool.false_eq_true, if_false]
      exact reference c'

end Effects

/-! ## Handlers -/

/-- What handlers ask: nothing about records, and the only rows they create on their own are
disputes. -/
def Handled : (k : Key) → Statement (Row k) → Prop
  | .dispute _, _ => True
  | .trade _, stmt => ∀ row, stmt ≠ .create row
  | .streamClawbackEvent _ _, stmt => ∀ row, stmt ≠ .create row
  | _, _ => False

theorem confined_applyStatusTransition (event : ParsedEvent) (payload : TradeRow) :
    (applyStatusTransition event payload).Confined Handled (· ≠ .unique) := by
  refine .bind (confined_ask fun _ h => by cases h) fun existing => ?_
  cases existing with
  | none => exact .bind (confined_ask fun _ h => by cases h) fun _ => trivial
  | some existing =>
    refine confined_ite (.bind (confined_ask fun _ h => by cases h) fun count => ?_) trivial
    exact confined_ite (fun h => by cases h) trivial

theorem confined_syncDisputeFromEvent (now : Nat) (event : ParsedEvent) (resolved : Bool) :
    (syncDisputeFromEvent now event resolved).Confined Handled (· ≠ .unique) := by
  refine .bind (confined_ask trivial) fun existing => ?_
  refine confined_ite (confined_ite ?_ trivial) (confined_ite (confined_ask trivial) trivial)
  exact .bind (confined_ask trivial) fun _ => trivial

theorem confined_dispatchEvent (now : Nat) (event : ParsedEvent) :
    (dispatchEvent now event).Confined Handled (· ≠ .unique) := by
  unfold dispatchEvent
  cases event.eventType with
  | disputeInitiated | disputeResolved =>
    exact .bind (confined_applyStatusTransition ..) fun _ => confined_syncDisputeFromEvent ..
  | streamClawback =>
    exact confined_ite (.bind (confined_ask fun _ h => by cases h) fun _ => trivial) trivial
  | _ => exact confined_applyStatusTransition ..

theorem not_isRecord_of_handled (k : Key) (stmt : Statement (Row k)) (h : Handled k stmt) :
    ¬ IsRecord k := by
  cases k with
  | processedEvent key | chainEventOutbox key => exact absurd h id
  | _ => exact id

theorem ne_unique_of_handled (k : Key) (stmt : Statement (Row k)) (row : Option (Row k))
    (valid : Row k → Bool) (fault : Fault) (h : Handled k stmt) (unclaimed : Unclaimed k stmt row)
    (run : stmt.run valid row = .error fault) : fault ≠ .unique := by
  rintro rfl
  obtain ⟨⟨new, rfl⟩, hrow⟩ := Statement.create_of_unique run
  cases k with
  | dispute tradeId => exact hrow unclaimed
  | trade tradeId => exact h new rfl
  | streamClawbackEvent streamId txHash => exact h new rfl
  | processedEvent key | chainEventOutbox key => exact h

/-! ## Workers -/

section Workers

variable {c : Config Row (Option EventKey)} {next : Except Fault (Option EventKey) → Work}

/-- The part of a transaction in which the handler runs and the marker is created. -/
theorem wp_dispatchEvent {β : Type} {Ψ : Fault → Config Row (Option EventKey) → Prop}
    {Φ : β → Db Row → Config Row (Option EventKey) → Prop} {rest : Program Row β}
    {writes : Db Row} (now : Nat) (event : ParsedEvent) (clean : ∀ k, IsRecord k → writes k = none)
    (failing : ∀ fault c, fault ≠ .unique → Ψ fault c)
    (unique : ∀ c, Marked c event.key → Ψ .unique c)
    (ending : ∀ writes c, writes (.processedEvent event.key) = some () →
      (∀ k, IsRecord k → k ≠ .processedEvent event.key → writes k = none) →
      c.db (.processedEvent event.key) = none → Wp Evolves Unclaimed Ψ Φ rest writes c) :
    Wp Evolves Unclaimed Ψ Φ (do
      dispatchEvent now event
      create (Key.processedEvent event.key) ()
      rest) writes c := by
  refine wp_bind.2 (wp_of_confined (confined_dispatchEvent now event) not_isRecord_of_handled
    ne_unique_of_handled failing ?_)
  intro _ writes' c' hsame
  have hclean : ∀ k, IsRecord k → writes' k = none := fun k hk => (hsame k hk).trans (clean k hk)
  apply wp_marker (hclean (.processedEvent event.key) trivial) unique
  · exact fun c => failing .reference c (by decide)
  · intro c'' hnew
    apply ending _ c'' (Db.write_same ..) _ hnew
    intro k hk hne
    rw [Db.write_of_ne _ _ hne, hclean k hk]

theorem concludes_outboxTransaction (now : Nat) (event : ParsedEvent)
    (failing : ∀ fault c, fault ≠ .unique → (next (.error fault)).Safe Evolves Unclaimed c)
    (unique : ∀ c, Marked c event.key → (next (.error .unique)).Safe Evolves Unclaimed c)
    (ending : ∀ a c, (next (.ok a)).Safe Evolves Unclaimed c) :
    Concludes Evolves Unclaimed next (outboxTransaction now event) (fun _ => none) c := by
  intro c' _ _ _
  change Wp _ _ _ _ (if (c'.db (.chainEventOutbox event.key)).map OutboxRow.status = some .processed
    then _ else _) (fun _ => none) c'
  by_cases hdone : (c'.db (.chainEventOutbox event.key)).map OutboxRow.status = some .processed
  · rw [if_pos hdone]
    refine fun c'' _ => ⟨evolves_of_records (fun _ _ => rfl) (.inr ⟨none, rfl, rfl⟩), ending _ _⟩
  · rw [if_neg hdone]
    apply wp_dispatchEvent now event (fun _ _ => rfl) failing unique
    intro writes c₁ hmarker hothers hnew c₂ later₂ _ valid
    have hnew₂ : c₂.db (.processedEvent event.key) = none := by
      rw [later₂.2 _ (by simp [hmarker]), hnew]
    cases hrow : view writes c₂.db (.chainEventOutbox event.key) with
    | none => exact failing .missing c₂ (by decide)
    | some row =>
      intro c₃ later₃
      have hwritten : ∀ row', writes.write (.chainEventOutbox event.key) row'
          (.processedEvent event.key) = some () := fun row' =>
        (Db.write_of_ne writes row' (by simp)).trans hmarker
      have hnew₃ : c₃.db (.processedEvent event.key) = none := by
        rw [later₃.2 _ (by simp [hmarker]), hnew₂]
      refine ⟨evolves_commit (hwritten _) hnew₃ ?_, ending _ _⟩
      intro k hk hmarked houtbox
      rw [Db.write_of_ne _ _ houtbox, hothers k hk hmarked]

theorem concludes_atomically (now : Nat) (event : ParsedEvent)
    (ending : ∀ r c, (next r).Safe Evolves Unclaimed c) :
    Concludes Evolves Unclaimed next (do
      dispatchEvent now event
      create (Key.processedEvent event.key) ()
      return some event.key) (fun _ => none) c := by
  apply wp_dispatchEvent now event (fun _ _ => rfl)
  · exact fun fault c _ => ending _ c
  · exact fun c _ => ending _ c
  · intro writes c₁ hmarker hothers hnew c₂ later₂
    have hnew₂ : c₂.db (.processedEvent event.key) = none := by
      rw [later₂.2 _ (by simp [hmarker]), hnew]
    exact ⟨evolves_commit hmarker hnew₂ fun k hk hne _ => hothers k hk hne, ending _ _⟩

omit c in
theorem OutboxRow.recordFailure_ne_processed (row : OutboxRow) (config : ListenerConfig) (now : Nat)
    (outbox : OutboxRow) (fault : Fault) :
    (row.recordFailure config now outbox fault).status ≠ .processed := by
  unfold OutboxRow.recordFailure
  dsimp only
  split
  · decide
  · decide

theorem safe_recordOutboxFailure (config : ListenerConfig) (now : Nat) (key : EventKey)
    (outbox : OutboxRow) (fault : Fault) :
    (recordOutboxFailure config now key outbox fault).Safe Evolves Unclaimed c := by
  apply safe_outbox
  · intro c' _ row _ _ row' hrow' hprocessed
    obtain rfl := Option.some.inj hrow'
    exact absurd hprocessed (row.recordFailure_ne_processed config now outbox fault)
  · exact fun _ _ _ => trivial

theorem safe_processOutboxEventAtomically (config : ListenerConfig) (now : Nat)
    (event : ParsedEvent) (outbox : OutboxRow) :
    (processOutboxEventAtomically config now event outbox).Safe Evolves Unclaimed c := by
  have hfailing : ∀ fault c,
      (recordOutboxFailure config now event.key outbox fault).Safe Evolves Unclaimed c :=
    fun fault c => safe_recordOutboxFailure config now event.key outbox fault
  refine Task.safe_transaction (fun c' _ => hfailing .lost c') fun c' _ =>
    concludes_outboxTransaction now event ?_ ?_ ?_
  · intro fault c hfault
    cases fault with
    | unique => exact absurd rfl hfault
    | _ => exact hfailing _ c
  · intro c marked
    apply safe_outbox
    · exact fun c' later row _ _ _ _ _ => later.marked _ marked
    · intro answer c' _
      cases answer with
      | ok row => trivial
      | error fault => exact hfailing fault c'
  · exact fun _ _ => trivial

theorem safe_processEvent (config : ListenerConfig) (now : Nat) (event : ParsedEvent) :
    (processEvent config now event).Safe Evolves Unclaimed c := by
  refine fun c' _ => ⟨trivial, fun _ => ⟨onward_evolves.refl c', ?_⟩⟩
  change Task.Safe _ _ _ c'
  cases hmarker : c'.db (.processedEvent event.key) with
  | some marker => trivial
  | none =>
    apply safe_outbox
    · refine fun c'' _ => ⟨fun _ row hrow hprocessed => ?_, fun row _ hbefore => hbefore⟩
      obtain rfl := Option.some.inj hrow
      cases hprocessed
    · intro answer c'' _
      cases answer with
      | error fault => trivial
      | ok outbox =>
        by_cases hready : isOutboxReadyForAttempt now outbox = true
        · simp only [hready, if_true]
          exact safe_processOutboxEventAtomically config now event outbox
        · simp only [hready]
          trivial

theorem safe_replayOutbox (now : Nat) (key : EventKey) :
    (replayOutbox now key).Safe Evolves Unclaimed c := by
  refine fun c' _ => ⟨trivial, fun _ => ⟨onward_evolves.refl c', ?_⟩⟩
  change Task.Safe _ _ _ c'
  cases hfound : c'.db (.chainEventOutbox key) with
  | none => trivial
  | some outbox =>
    apply safe_outbox
    · intro c'' _ row _ _ row' hrow' hprocessed
      obtain rfl := Option.some.inj hrow'
      cases hprocessed
    · exact fun _ _ _ => trivial

theorem safe_of_avoids_records {task : Work} (h : task.Avoids IsRecord (· = none))
    (c : Config Row (Option EventKey)) : task.Safe Evolves Unclaimed c :=
  Task.Avoids.safe (fun _ _ => evolves_of_records) h c

theorem safe_work_records (job : Job) (c : Config Row (Option EventKey)) :
    job.work.Safe Evolves Unclaimed c := by
  cases job with
  | processEvent config now event => exact safe_processEvent config now event
  | processEventAtomically now event =>
    refine Task.safe_transaction (fun _ _ => trivial) fun c' _ => ?_
    exact concludes_atomically now event fun _ _ => trivial
  | replayOutbox now key => exact safe_replayOutbox now key
  | sweepExpiredTrades now tradeIds =>
    exact safe_of_avoids_records (avoids_sweepExpiredTrades (fun _ => id) now tradeIds []) c
  | batchStatus updates => exact safe_of_avoids_records (avoids_batchStatus (fun _ => id) updates) c
  | createPendingTrade tradeId buyer seller amount =>
    apply safe_of_avoids_records
    exact ⟨fun h => absurd h id, fun _ => trivial⟩
  | initiateDispute request =>
    apply safe_of_avoids_records
    exact Task.avoids_ofProgram (avoids_initiateDispute (fun _ => id) request)

end Workers

/-! ## Runs -/

/-- In a run that starts without records, a processed row of the outbox has its marker and the
effects of its event have been committed once, as long as no create of a dispute meets a row. -/
theorem applied_run {c : Config Row (Option EventKey)} {as : List (Activity Row (Option EventKey))}
    (new : ∀ k, IsRecord k → c.db k = none) (blank : c.log = [])
    (staffs : ∀ a ∈ as, Staffs IsRecord (· = none) a)
    (unclaimed : ∀ p ∈ Machine.trail step ⟨c, []⟩ as, Permits Unclaimed p.1 p.2) :
    Applied (Machine.run step ⟨c, []⟩ as).config := by
  have hspawns : ∀ a ∈ as, Spawns Evolves Unclaimed a := fun a ha =>
    (staffs a ha).spawns safe_work_records safe_of_avoids_records
  have hstart : Sound c := by
    refine ⟨fun key row found _ => ?_, fun key marked => ?_, fun key _ => by simp [blank]⟩
    · rw [new (.chainEventOutbox key) trivial] at found
      cases found
    · rw [Marked, new (.processedEvent key) trivial] at marked
      cases marked
  have hend := (run_keeps onward_evolves (.start c) unclaimed hspawns).2
  exact (hend.sound hstart).applied

/-- The handler of `DisputeInitiated` works on the first trade, which is funded. -/
def Sample.disputing (n : Nat) : List (Activity Row (Option EventKey)) :=
  Sample.workOn (.processEvent Sample.listener 0 (Sample.chainEvent 3 .disputeInitiated)) 0 n

/-- The buyer opens a dispute about the first trade at the backend. -/
def Sample.openDispute : Job :=
  .initiateDispute ⟨toString Escrow.Sample.first, "GALICE", "late", "delivery", some 1, true⟩

/-- What has become of the event. -/
def Sample.disputeRecords (as : List (Activity Row (Option EventKey))) :
    Option ChainEventSyncStatus × Option Unit × List (Option EventKey) :=
  let key := (Sample.chainEvent 3 .disputeInitiated).key
  let c := (Machine.run step ⟨⟨Sample.fundedTrade, []⟩, []⟩ as).config
  ((c.db (.chainEventOutbox key)).map OutboxRow.status, c.db (.processedEvent key), c.log)

/-- The handler alone. -/
theorem applied_of_alone :
    Sample.disputeRecords (Sample.disputing 11) =
        (some .processed, some (), [some (Sample.chainEvent 3 .disputeInitiated).key]) ∧
      Applied (Machine.run step ⟨⟨Sample.fundedTrade, []⟩, []⟩ (Sample.disputing 11)).config := by
  refine ⟨by decide +kernel, applied_run ?_ rfl (Sample.staffs_workOn _ _ _) (by decide +kernel)⟩
  intro k hk
  cases k with
  | processedEvent key | chainEventOutbox key => rfl
  | _ => exact absurd hk id

/-- The handler has found no dispute when the buyer's request creates it.  It fails on the unique
key of the dispute, all of it is undone, and its row of the outbox is marked as processed. -/
def Sample.beaten : List (Activity Row (Option EventKey)) :=
  Sample.disputing 7 ++ Sample.workOn Sample.openDispute 1 2 ++ Sample.goOn 0 2

theorem not_applied_of_request :
    (∀ a ∈ Sample.beaten, Staffs IsRecord (· = none) a) ∧
      Sample.disputeRecords Sample.beaten = (some .processed, none, []) ∧
      ¬ Applied (Machine.run step ⟨⟨Sample.fundedTrade, []⟩, []⟩ Sample.beaten).config := by
  have hrecords : Sample.disputeRecords Sample.beaten = (some .processed, none, []) := by
    decide +kernel
  refine ⟨?_, hrecords, fun happlied => ?_⟩
  · simp only [Sample.beaten, List.forall_mem_append]
    exact ⟨⟨Sample.staffs_workOn _ _ _, Sample.staffs_workOn _ _ _⟩, Sample.staffs_goOn _ _⟩
  · rw [Sample.disputeRecords, Prod.mk.injEq, Prod.mk.injEq] at hrecords
    obtain ⟨row, hrow, hprocessed⟩ := Option.map_eq_some_iff.1 hrecords.1
    have hmarked := (happlied _ row hrow hprocessed).1
    rw [Marked, hrecords.2.1] at hmarked
    cases hmarked

end Amana.Backend
