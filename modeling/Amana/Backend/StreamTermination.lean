import Amana.Backend.ClawbackMirror
import Amana.Lib.Jobs

/-!
# The termination of a stream

`streamTermination.service.ts`: a stream that is still live is marked as terminated, and an audit
record is written.  Between reading the stream, marking it and writing the record everything can
happen.  So a stream is terminated once, with one record, as long as whoever marks it finds it live,
learns that it was marked, and lives on to write the record (`terminated_once`).

Notifications and the cache of streams are left out, but for the wait for the cache.
-/

namespace Amana.Backend

open Lib Lib.Database Lib.Jobs

/-- What a termination reads and writes of a row of `Stream`. -/
structure StreamRecord where
  status : StreamStatus
  unclaimed : String
  terminatedAt : Option Nat
  terminatedBy : Option String
  terminationReason : Option String
  deriving DecidableEq, Repr

/-- `AdminActionAudit`. -/
structure AdminAction where
  action : String
  actorAddress : String
  targetReference : Option String
  note : Option String
  deriving DecidableEq, Repr

/-- `TERMINABLE_STATUSES`. -/
def terminableStatuses : List StreamStatus := [.active, .suspended]

def adminActionStreamTerminate : String := "STREAM_TERMINATE"

structure TerminateStreamInput where
  streamId : String
  adminAddress : String
  reason : Option String
  unsignedTxXdr : Option String
  deriving DecidableEq, Repr

structure TerminateStreamResult where
  streamId : String
  status : StreamStatus
  previousStatus : StreamStatus
  terminatedBy : String
  terminatedAt : Nat
  reason : Option String
  signedTxXdr : Option String
  unclaimed : String
  deriving DecidableEq, Repr

inductive TerminateError where
  /-- An `AppError`. -/
  | app (message : String) (statusCode : Nat)
  /-- The signer raises an error. -/
  | signing (message : String)
  | fault (fault : Fault)
  deriving DecidableEq, Repr

/-- What the update of the stream writes. -/
structure Termination where
  terminatedAt : Nat
  terminatedBy : String
  terminationReason : Option String
  deriving DecidableEq, Repr

def Termination.apply (data : Termination) (row : StreamRecord) : StreamRecord :=
  { row with
    status := .terminated
    terminatedAt := some data.terminatedAt
    terminatedBy := some data.terminatedBy
    terminationReason := data.terminationReason }

inductive StreamOp where
  | findStream (streamId : String)
  /-- `new Date()`. -/
  | now
  | updateStream (streamId : String) (data : Termination)
  | createAudit (row : AdminAction)
  | invalidateCache (streamId : String)
  deriving DecidableEq, Repr

abbrev StreamOp.Res : StreamOp → Type
  | .findStream _ => Option StreamRecord
  | .now => Nat
  | .updateStream .. => StreamRecord
  | .createAudit _ => Unit
  | .invalidateCache _ => Unit

abbrev StreamAnswer (op : StreamOp) : Type := Except Fault op.Res

abbrev StreamJob := ExceptT TerminateError (Job StreamAnswer)

/-- Ask, and raise what fails. -/
def StreamOp.ask (op : StreamOp) : StreamJob op.Res :=
  ExceptT.mk <| .ask op fun r => .done (r.mapError .fault)

/-- The transaction, when there is one to be signed. -/
def signedTxXdrOf (sign : String → Except String String) (unsignedTxXdr : Option String) :
    Except TerminateError (Option String) :=
  match unsignedTxXdr.filter (· ≠ "") with
  | none => .ok none
  | some xdr => (sign xdr).map some |>.mapError .signing

/-- The audit record of a termination. -/
def TerminateStreamInput.audit (input : TerminateStreamInput) : AdminAction where
  action := adminActionStreamTerminate
  actorAddress := input.adminAddress
  targetReference := some input.streamId
  note := input.reason

def TerminateStreamInput.termination (input : TerminateStreamInput) (terminatedAt : Nat) :
    Termination := ⟨terminatedAt, input.adminAddress, input.reason⟩

def terminate (sign : String → Except String String) (input : TerminateStreamInput) :
    StreamJob TerminateStreamResult := do
  match ← (StreamOp.findStream input.streamId).ask with
  | none => throw (.app s!"Stream {input.streamId} not found" 404)
  | some stream =>
    if terminableStatuses.contains stream.status = false then
      throw (.app (s!"Stream {input.streamId} cannot be terminated from status " ++
        stream.status.name) 409)
    else
      let signedTxXdr ← ExceptT.mk (.done (signedTxXdrOf sign input.unsignedTxXdr))
      let terminatedAt ← StreamOp.now.ask
      let updated ← (StreamOp.updateStream input.streamId (input.termination terminatedAt)).ask
      (StreamOp.createAudit input.audit).ask
      -- A cache that cannot be reached is not waited for.
      tryCatch (StreamOp.invalidateCache input.streamId).ask fun _ => return ()
      return ⟨input.streamId, updated.status, stream.status, input.adminAddress, terminatedAt,
        input.reason, signedTxXdr, updated.unclaimed⟩

/-! ## The database -/

/-- What the calls share.  `terminator` is the worker that marked a stream last; nothing looks at
it. -/
structure Streams where
  now : Nat
  rows : Db fun _ : String => StreamRecord
  audits : List AdminAction
  terminator : String → Option Nat

/-- The table with another row, written by a worker. -/
def Streams.mark (s : Streams) (worker : Nat) (streamId : String) (row : StreamRecord) : Streams :=
  { s with
    rows := Function.update s.rows streamId (some row)
    terminator := Function.update s.terminator streamId (some worker) }

def Streams.updateStream (s : Streams) (worker : Nat) (streamId : String) (data : Termination) :
    Except Fault (StreamRecord × Streams) :=
  match s.rows streamId with
  | none => .error .missing
  | some row => .ok (data.apply row, s.mark worker streamId (data.apply row))

/-- What worker `i` is answered. -/
def serveStream (i : Nat) : (op : StreamOp) → Connection → Streams → StreamAnswer op × Streams
  | .findStream streamId, connection, s => deliver connection s (.ok (s.rows streamId, s))
  | .now, _, s => (.ok s.now, s)
  | .updateStream streamId data, connection, s =>
    deliver connection s (s.updateStream i streamId data)
  | .createAudit row, connection, s =>
    deliver connection s (.ok ((), { s with audits := s.audits ++ [row] }))
  | .invalidateCache _, connection, s => deliver connection s (.ok ((), s))

/-- The calls of the service. -/
def terminations (sign : String → Except String String) :
    Service TerminateStreamInput StreamAnswer Streams Connection Nat
      (Except TerminateError TerminateStreamResult) where
  program input := (terminate sign input).run
  serve := serveStream
  drift ms s := { s with now := s.now + ms }

abbrev StreamWorld :=
  World TerminateStreamInput StreamAnswer Streams (Except TerminateError TerminateStreamResult)

abbrev StreamStep := Activity TerminateStreamInput Connection Nat

/-! ## What a call does -/

/-- How many records there are of the termination of a stream. -/
def Streams.recorded (s : Streams) (streamId : String) : Nat :=
  s.audits.countP fun row =>
    row.action = adminActionStreamTerminate && row.targetReference = some streamId

/-- The others leave alone what worker `i` has marked. -/
structure KeepsMarked (i : Nat) (s s' : Streams) : Prop where
  same : ∀ streamId, s'.terminator streamId = some i ↔ s.terminator streamId = some i
  rows : ∀ streamId, s.terminator streamId = some i → s'.rows streamId = s.rows streamId
  recorded : ∀ streamId, s.terminator streamId = some i → s'.recorded streamId = s.recorded streamId

theorem keepsMarked_onward (i : Nat) : Onward (KeepsMarked i) where
  refl _ := ⟨fun _ => Iff.rfl, fun _ _ => rfl, fun _ _ => rfl⟩
  trans h h' :=
    ⟨fun streamId => (h'.same streamId).trans (h.same streamId),
      fun streamId hmarked => (h'.rows streamId ((h.same streamId).2 hmarked)).trans
        (h.rows streamId hmarked),
      fun streamId hmarked => (h'.recorded streamId ((h.same streamId).2 hmarked)).trans
        (h.recorded streamId hmarked)⟩

section Calls

variable (base : String → Nat)

/-- A stream nobody has marked has the records it had before; one that was marked is terminated, and
has at most one more. -/
structure MarksRecorded (s : Streams) : Prop where
  unmarked : ∀ streamId, s.terminator streamId = none → s.recorded streamId = base streamId
  marked : ∀ streamId i, s.terminator streamId = some i →
    (∃ row, s.rows streamId = some row ∧ row.status = .terminated) ∧
      (s.recorded streamId = base streamId ∨ s.recorded streamId = base streamId + 1)

/-- What worker `i` has marked is on record. -/
def Quiet (i : Nat) (s : Streams) : Prop :=
  ∀ streamId, s.terminator streamId = some i → s.recorded streamId = base streamId + 1

/-- An update that takes effect is heard, and finds a stream nobody has marked; a record that is to
be written is written. -/
def Unhindered : StreamOp → Connection → Streams → Prop
  | .updateStream streamId _, connection, s => connection ≠ .down →
    connection = .heard ∧ s.terminator streamId = none ∧ s.recorded streamId = base streamId
  | .createAudit _, connection, _ => connection ≠ .down
  | _, _, _ => True

/-- What worker `i` asks leaves alone what others have marked, and it writes the record of what it
has marked next. -/
structure AsksInTurn (i : Nat) (op : StreamOp) (connection : Connection) (s : Streams) : Prop where
  apart : ∀ j, j ≠ i → KeepsMarked j s (serveStream i op connection s).2
  keeps : MarksRecorded base s → MarksRecorded base (serveStream i op connection s).2
  next : ∀ streamId, s.terminator streamId = some i → s.recorded streamId = base streamId →
    ∃ row, op = .createAudit row

/-- What a call returns: what it has marked is on record, and if it succeeds, that is the stream it
was called for. -/
structure Reported (i : Nat) (input : TerminateStreamInput)
    (result : Except TerminateError TerminateStreamResult) (s : Streams) : Prop where
  quiet : Quiet base i s
  own : ∀ r, result = .ok r → s.terminator input.streamId = some i ∧
    ∃ row, s.rows input.streamId = some row ∧ row.status = .terminated ∧
      row.terminatedBy = some input.adminAddress ∧ row.terminatedAt = some r.terminatedAt ∧
      row.terminationReason = input.reason ∧
      (r.streamId, r.terminatedBy, r.reason) = (input.streamId, input.adminAddress, input.reason)

variable {base} {sign : String → Except String String} {i : Nat} {s s' : Streams}
  {input : TerminateStreamInput} {Ψ : Except TerminateError TerminateStreamResult → Streams → Prop}

theorem Quiet.later (h : Quiet base i s) (keeps : KeepsMarked i s s') : Quiet base i s' := by
  intro streamId hmarked
  have hbefore := (keeps.same streamId).1 hmarked
  rw [keeps.recorded streamId hbefore]
  exact h streamId hbefore

theorem Reported.later {result : Except TerminateError TerminateStreamResult}
    (h : Reported base i input result s) (keeps : KeepsMarked i s s') :
    Reported base i input result s' where
  quiet := h.quiet.later keeps
  own := by
    intro r hr
    obtain ⟨hmarked, row, hrow, hrest⟩ := h.own r hr
    exact ⟨(keeps.same _).2 hmarked, row, (keeps.rows _ hmarked).trans hrow, hrest⟩

theorem does_askStream {op : StreamOp} {f : op.Res → StreamJob TerminateStreamResult} :
    Does (serveStream i) (KeepsMarked i) (Unhindered base) (AsksInTurn base i) Ψ
        (op.ask >>= f).run s ↔
      ∀ s', KeepsMarked i s s' → ∀ connection, Unhindered base op connection s' →
        AsksInTurn base i op connection s' ∧
          match (serveStream i op connection s').1 with
          | .ok r => Does (serveStream i) (KeepsMarked i) (Unhindered base) (AsksInTurn base i) Ψ
              (f r).run (serveStream i op connection s').2
          | .error fault => Ψ (.error (.fault fault)) (serveStream i op connection s').2 := by
  refine forall_congr' fun s' => forall_congr' fun _ => forall_congr' fun connection =>
    forall_congr' fun _ => and_congr_right fun _ => ?_
  cases (serveStream i op connection s').1 <;> rfl

/-- Reading leaves everything as it is. -/
theorem asksInTurn_read {op : StreamOp} {connection : Connection}
    (reads : (serveStream i op connection s).2 = s) (quiet : Quiet base i s) :
    AsksInTurn base i op connection s where
  apart j _ := by
    rw [reads]
    exact (keepsMarked_onward j).refl s
  keeps h := by rwa [reads]
  next streamId hmarked hshort := by
    have hrecorded := quiet streamId hmarked
    omega

/-- Worker `i` has marked the stream of its call, and the record is still missing. -/
structure JustMarked (base : String → Nat) (i : Nat) (input : TerminateStreamInput)
    (terminatedAt : Nat) (s : Streams) : Prop where
  only : ∀ streamId, s.terminator streamId = some i ↔ streamId = input.streamId
  row : ∃ row, s.rows input.streamId = some ((input.termination terminatedAt).apply row)
  recorded : s.recorded input.streamId = base input.streamId

theorem JustMarked.later {terminatedAt : Nat} (h : JustMarked base i input terminatedAt s)
    (keeps : KeepsMarked i s s') : JustMarked base i input terminatedAt s' where
  only streamId := (keeps.same streamId).trans (h.only streamId)
  row := by
    rw [keeps.rows _ ((h.only _).2 rfl)]
    exact h.row
  recorded := (keeps.recorded _ ((h.only _).2 rfl)).trans h.recorded

/-! Marking a stream that nobody has marked. -/

section Marking

variable {streamId : String} {row : StreamRecord}

theorem terminator_mark (s : Streams) (i : Nat) (streamId : String) (row : StreamRecord)
    (other : String) : (s.mark i streamId row).terminator other =
      if other = streamId then some i else s.terminator other := Function.update_apply ..

theorem rows_mark (s : Streams) (i : Nat) (streamId : String) (row : StreamRecord)
    (other : String) : (s.mark i streamId row).rows other =
      if other = streamId then some row else s.rows other := Function.update_apply ..

theorem keepsMarked_mark (free : s.terminator streamId = none) {j : Nat} (hne : j ≠ i) :
    KeepsMarked j s (s.mark i streamId row) where
  same other := by
    rw [terminator_mark]
    split
    · next hsame =>
      rw [hsame, free]
      exact iff_of_false (fun e => hne (Option.some.inj e).symm) nofun
    · rfl
  rows other hmarked := by
    rw [rows_mark, if_neg]
    rintro rfl
    rw [free] at hmarked
    cases hmarked
  recorded _ _ := rfl

theorem marksRecorded_mark (recorded : s.recorded streamId = base streamId)
    (terminated : row.status = .terminated) (h : MarksRecorded base s) :
    MarksRecorded base (s.mark i streamId row) where
  unmarked other hnone := by
    rw [terminator_mark] at hnone
    split at hnone
    · cases hnone
    · exact h.unmarked other hnone
  marked other j hmarked := by
    rw [terminator_mark] at hmarked
    rw [rows_mark]
    split at hmarked
    · next hsame =>
      rw [if_pos hsame, hsame]
      exact ⟨⟨row, rfl, terminated⟩, .inl recorded⟩
    · next hother =>
      rw [if_neg hother]
      exact h.marked other j hmarked

theorem marked_mark {terminatedAt : Nat} (idle : ∀ streamId, s.terminator streamId ≠ some i)
    (recorded : s.recorded input.streamId = base input.streamId) :
    JustMarked base i input terminatedAt
      (s.mark i input.streamId ((input.termination terminatedAt).apply row)) where
  only streamId := by
    rw [terminator_mark]
    split
    · next hsame => exact iff_of_true rfl hsame
    · next hother => exact iff_of_false (idle streamId) hother
  row := ⟨row, by rw [rows_mark, if_pos rfl]⟩
  recorded := recorded

end Marking

/-! Writing the record of a stream that was marked. -/

section Recording

/-- The table with another record. -/
theorem recorded_concat (s : Streams) (row : AdminAction) (streamId : String) :
    Streams.recorded { s with audits := s.audits ++ [row] } streamId = s.recorded streamId +
      if row.action = adminActionStreamTerminate ∧ row.targetReference = some streamId then 1
      else 0 := by
  simp [Streams.recorded, List.countP_append, List.countP_singleton]

theorem recorded_audit (s : Streams) (input : TerminateStreamInput) (streamId : String) :
    Streams.recorded { s with audits := s.audits ++ [input.audit] } streamId =
      s.recorded streamId + if streamId = input.streamId then 1 else 0 := by
  rw [recorded_concat]
  congr 1
  simp [TerminateStreamInput.audit, eq_comm]

variable {terminatedAt : Nat}

theorem JustMarked.asks_record (h : JustMarked base i input terminatedAt s) {connection : Connection}
    (reached : connection ≠ .down) :
    AsksInTurn base i (.createAudit input.audit) connection s ∧
      (serveStream i (.createAudit input.audit) connection s).2 =
        { s with audits := s.audits ++ [input.audit] } := by
  have hwritten : (serveStream i (.createAudit input.audit) connection s).2 =
      { s with audits := s.audits ++ [input.audit] } := by
    cases connection with
    | heard | unheard => rfl
    | down => exact absurd rfl reached
  have hmarked : s.terminator input.streamId = some i := (h.only _).2 rfl
  refine ⟨⟨fun j hne => ?_, fun hbefore => ?_, fun _ _ _ => ⟨_, rfl⟩⟩, hwritten⟩
  · rw [hwritten]
    refine ⟨fun _ => Iff.rfl, fun _ _ => rfl, fun streamId hother => ?_⟩
    rw [recorded_audit, if_neg, Nat.add_zero]
    rintro rfl
    exact hne (Option.some.inj (hother.symm.trans hmarked))
  · rw [hwritten]
    refine ⟨fun streamId hnone => ?_, fun streamId j hj => ⟨(hbefore.marked streamId j hj).1, ?_⟩⟩
    · rw [recorded_audit, if_neg, Nat.add_zero]
      · exact hbefore.unmarked streamId hnone
      · rintro rfl
        exact absurd (hmarked.symm.trans hnone) nofun
    · rw [recorded_audit]
      split
      · next hsame => exact .inr (by rw [hsame, h.recorded])
      · exact (hbefore.marked streamId j hj).2

/-- Once the record is written, the call is as good as done. -/
theorem JustMarked.reported (h : JustMarked base i input terminatedAt s)
    (result : Except TerminateError TerminateStreamResult)
    (own : ∀ r, result = .ok r → r.terminatedAt = terminatedAt ∧
      (r.streamId, r.terminatedBy, r.reason) =
        (input.streamId, input.adminAddress, input.reason)) :
    Reported base i input result { s with audits := s.audits ++ [input.audit] } where
  quiet streamId hmarked := by
    obtain rfl := (h.only streamId).1 hmarked
    rw [recorded_audit, if_pos rfl, h.recorded]
  own r hr := by
    obtain ⟨row, hrow⟩ := h.row
    obtain ⟨hat, hsame⟩ := own r hr
    exact ⟨(h.only _).2 rfl, _, hrow, rfl, rfl, by rw [hat]; rfl, rfl, hsame⟩

end Recording

/-! A whole call. -/

/-- A worker that has not marked anything. -/
def Unmarking (i : Nat) (s : Streams) : Prop := ∀ streamId, s.terminator streamId ≠ some i

theorem Unmarking.later (h : Unmarking i s) (keeps : KeepsMarked i s s') : Unmarking i s' :=
  fun streamId hmarked => h streamId ((keeps.same streamId).1 hmarked)

theorem Unmarking.quiet (h : Unmarking i s) : Quiet base i s :=
  fun streamId hmarked => absurd hmarked (h streamId)

theorem Unmarking.reported (h : Unmarking i s) (error : TerminateError) :
    Reported base i input (.error error) s where
  quiet := h.quiet
  own _ hr := by cases hr

theorem does_readStream {op : StreamOp} {f : op.Res → StreamJob TerminateStreamResult}
    (idle : Unmarking i s)
    (reads : ∀ connection s, (serveStream i op connection s).2 = s)
    (goes : ∀ r s', Unmarking i s' →
      Does (serveStream i) (KeepsMarked i) (Unhindered base) (AsksInTurn base i)
        (Reported base i input) (f r).run s') :
    Does (serveStream i) (KeepsMarked i) (Unhindered base) (AsksInTurn base i)
      (Reported base i input) (op.ask >>= f).run s := by
  rw [does_askStream]
  intro s' hkept connection _
  have hidle := idle.later hkept
  refine ⟨asksInTurn_read (reads connection s') hidle.quiet, ?_⟩
  rw [reads]
  cases (serveStream i op connection s').1 with
  | ok r => exact goes r s' hidle
  | error fault => exact hidle.reported _

/-- From the record on nothing is asked that matters. -/
theorem does_record {terminatedAt : Nat} {r : TerminateStreamResult}
    (marked : JustMarked base i input terminatedAt s) (stamp : r.terminatedAt = terminatedAt)
    (same : (r.streamId, r.terminatedBy, r.reason) =
      (input.streamId, input.adminAddress, input.reason)) :
    Does (serveStream i) (KeepsMarked i) (Unhindered base) (AsksInTurn base i)
      (Reported base i input)
      ((do
        (StreamOp.createAudit input.audit).ask
        tryCatch (StreamOp.invalidateCache input.streamId).ask fun _ => return ()
        return r : StreamJob TerminateStreamResult)).run s := by
  have own : ∀ r', Except.ok (ε := TerminateError) r = .ok r' → r'.terminatedAt = terminatedAt ∧
      (r'.streamId, r'.terminatedBy, r'.reason) =
        (input.streamId, input.adminAddress, input.reason) := by
    rintro r' ⟨⟩
    exact ⟨stamp, same⟩
  rw [does_askStream]
  intro s' hkept connection hreached
  obtain ⟨hasks, hwritten⟩ := (marked.later hkept).asks_record hreached
  refine ⟨hasks, ?_⟩
  rw [hwritten]
  have hdone := (marked.later hkept).reported (.ok r) own
  cases (serveStream i (.createAudit input.audit) connection s').1 with
  | error fault => exact (marked.later hkept).reported _ fun _ h => by cases h
  | ok _ =>
    show Does _ _ _ _ _ (ExceptT.run (tryCatch (StreamOp.invalidateCache input.streamId).ask
      (fun _ => return ()) >>= fun _ => return r)) _
    rw [does_except_bind, does_tryCatch]
    intro s'' hkept' connection' _
    have hread : (serveStream i (.invalidateCache input.streamId) connection' s'').2 = s'' :=
      deliver_read ..
    refine ⟨asksInTurn_read hread (hdone.later hkept').quiet, ?_⟩
    rw [hread]
    cases (serveStream i (.invalidateCache input.streamId) connection' s'').1 with
    | ok _ => exact hdone.later hkept'
    | error _ => exact hdone.later hkept'

/-- An update fails and leaves everything as it is, or marks a stream that nobody has marked. -/
theorem serve_updateStream_cases {streamId : String} {data : Termination} {connection : Connection}
    (unhindered : Unhindered base (.updateStream streamId data) connection s) :
    (∃ fault, serveStream i (.updateStream streamId data) connection s = (.error fault, s)) ∨
      ∃ row, s.terminator streamId = none ∧ s.recorded streamId = base streamId ∧
        serveStream i (.updateStream streamId data) connection s =
          (.ok (data.apply row), s.mark i streamId (data.apply row)) := by
  rw [serveStream, Streams.updateStream]
  cases hrow : s.rows streamId with
  | none => exact .inl ⟨_, rfl⟩
  | some row =>
    cases connection with
    | down => exact .inl ⟨_, rfl⟩
    | unheard => exact absurd (unhindered nofun).1 nofun
    | heard =>
      obtain ⟨-, hnone, hrecorded⟩ := unhindered nofun
      exact .inr ⟨row, hnone, hrecorded, rfl⟩

theorem does_updateStream {terminatedAt : Nat} {f : StreamRecord → StreamJob TerminateStreamResult}
    (idle : Unmarking i s)
    (goes : ∀ row s', JustMarked base i input terminatedAt s' →
      Does (serveStream i) (KeepsMarked i) (Unhindered base) (AsksInTurn base i)
        (Reported base i input) (f row).run s') :
    Does (serveStream i) (KeepsMarked i) (Unhindered base) (AsksInTurn base i)
      (Reported base i input)
      ((StreamOp.updateStream input.streamId (input.termination terminatedAt)).ask >>= f).run s := by
  rw [does_askStream]
  intro s' hkept connection hunhindered
  have hidle := idle.later hkept
  obtain ⟨fault, hfailed⟩ | ⟨row, hnone, hrecorded, hserve⟩ :=
    serve_updateStream_cases (i := i) hunhindered
  · refine ⟨asksInTurn_read (by rw [hfailed]) hidle.quiet, ?_⟩
    rw [hfailed]
    exact hidle.reported _
  · refine ⟨⟨fun j hne => ?_, fun hbefore => ?_, fun streamId hmarked => ?_⟩, ?_⟩
    · rw [hserve]
      exact keepsMarked_mark hnone hne
    · rw [hserve]
      exact marksRecorded_mark hrecorded rfl hbefore
    · exact absurd hmarked (hidle streamId)
    · rw [hserve]
      exact goes _ _ (marked_mark hidle hrecorded)

theorem does_terminate (idle : Unmarking i s) :
    Does (serveStream i) (KeepsMarked i) (Unhindered base) (AsksInTurn base i)
      (Reported base i input) (terminate sign input).run s := by
  unfold terminate
  refine does_readStream idle (fun _ _ => deliver_read ..) fun found s hidle => ?_
  cases found with
  | none => exact hidle.reported _
  | some stream =>
    dsimp only
    split
    · exact hidle.reported _
    cases signedTxXdrOf sign input.unsignedTxXdr with
    | error e => exact hidle.reported _
    | ok signedTxXdr =>
      refine does_readStream hidle (fun _ _ => rfl) fun terminatedAt s hidle => ?_
      exact does_updateStream hidle fun updated s hmarked => does_record hmarked rfl rfl

end Calls

/-! ## All calls together -/

/-- An update that takes effect is heard and finds a stream that can be terminated; a record is
written. -/
def StreamOp.Lands : StreamOp → Connection → Streams → Prop
  | .updateStream streamId _, connection, s => connection ≠ .down → connection = .heard ∧
      ∀ row ∈ s.rows streamId, terminableStatuses.contains row.status = true
  | .createAudit _, connection, _ => connection ≠ .down
  | _, _, _ => True

/-- What is asked lands, and no worker is gone before it has written its record. -/
def Undisturbed (w : StreamWorld) : StreamStep → Prop
  | .advance i connection => ∀ c op next, w.workers[i]? = some (c, some (.ask op next)) →
      op.Lands connection w.shared
  | .crash i => ∀ c row next, w.workers[i]? ≠ some (c, some (.ask (.createAudit row) next))
  | _ => True

instance : (op : StreamOp) → (connection : Connection) → (s : Streams) →
    Decidable (op.Lands connection s)
  | .updateStream streamId _, connection, s =>
    inferInstanceAs (Decidable (connection ≠ .down → connection = .heard ∧
      ∀ row ∈ s.rows streamId, terminableStatuses.contains row.status = true))
  | .createAudit _, connection, _ => inferInstanceAs (Decidable (connection ≠ .down))
  | .findStream _, _, _ | .now, _, _ | .invalidateCache _, _, _ => isTrue trivial

instance (w : StreamWorld) : (a : StreamStep) → Decidable (Undisturbed w a)
  | .advance i connection =>
    match found : w.workers[i]? with
    | some (c, some (.ask op next)) =>
      decidable_of_iff (op.Lands connection w.shared)
        ⟨fun h _ _ _ e => by cases found.symm.trans e; exact h, fun h => h c op next found⟩
    | none | some (_, none) | some (_, some (.done _)) =>
      isTrue fun _ _ _ e => by cases found.symm.trans e
  | .crash i =>
    match found : w.workers[i]? with
    | some (c, some (.ask (.createAudit row) next)) => isFalse fun h => h c row next found
    | none | some (_, none) | some (_, some (.done _)) | some (_, some (.ask (.findStream _) _))
    | some (_, some (.ask .now _)) | some (_, some (.ask (.updateStream ..) _))
    | some (_, some (.ask (.invalidateCache _) _)) =>
      isTrue fun _ _ _ e => by cases found.symm.trans e
  | .call _ => isTrue trivial
  | .outside _ => isTrue trivial

/-- The workers do what they should; what is marked is on record, or will be. -/
structure InOrder (base : String → Nat) (sign : String → Except String String) (w : StreamWorld) :
    Prop where
  does : w.Does (terminations sign) KeepsMarked (fun _ => Unhindered base)
    (fun i _ => AsksInTurn base i) (Reported base)
  marks : MarksRecorded base w.shared
  known : ∀ streamId i, w.shared.terminator streamId = some i → i < w.workers.length
  waiting : ∀ streamId i, w.shared.terminator streamId = some i →
    w.shared.recorded streamId = base streamId →
      ∃ c row next, w.workers[i]? = some (c, some (.ask (.createAudit row) next))

section Together

variable {base : String → Nat} {sign : String → Except String String} {w : StreamWorld}
  {a : StreamStep}

theorem MarksRecorded.unhindered {s : Streams} (marks : MarksRecorded base s) {op : StreamOp}
    {connection : Connection} (lands : op.Lands connection s) : Unhindered base op connection s := by
  cases op with
  | updateStream streamId data =>
    intro reached
    obtain ⟨hheard, hlive⟩ := lands reached
    have hnone : s.terminator streamId = none := by
      cases hmarked : s.terminator streamId with
      | none => rfl
      | some i =>
        obtain ⟨row, hrow, hterminated⟩ := (marks.marked streamId i hmarked).1
        have hcan := hlive row hrow
        rw [hterminated] at hcan
        exact absurd hcan (by decide)
    exact ⟨hheard, hnone, marks.unmarked streamId hnone⟩
  | createAudit row => exact lands
  | findStream _ | now | invalidateCache _ => trivial

/-- Something can always be answered that does not hinder. -/
theorem exists_unhindered (base : String → Nat) (op : StreamOp) (s : Streams) :
    ∃ connection, Unhindered base op connection s := by
  cases op with
  | updateStream streamId data => exact ⟨.down, fun reached => absurd rfl reached⟩
  | createAudit row => exact ⟨.heard, nofun⟩
  | findStream _ | now | invalidateCache _ => exact ⟨.heard, trivial⟩

/-- A worker that has marked a stream without a record is about to write it. -/
theorem createAudit_of_marked {i : Nat} {c : TerminateStreamInput}
    {job : Job StreamAnswer (Except TerminateError TerminateStreamResult)} {streamId : String}
    (does : w.Does (terminations sign) KeepsMarked (fun _ => Unhindered base)
      (fun i _ => AsksInTurn base i) (Reported base))
    (found : w.workers[i]? = some (c, some job)) (marked : w.shared.terminator streamId = some i)
    (missing : w.shared.recorded streamId = base streamId) :
    ∃ row next, job = .ask (.createAudit row) next := by
  cases job with
  | done r =>
    have hreported : Reported base i c r w.shared := does i c _ found
    have hrecorded := hreported.quiet streamId marked
    omega
  | ask op next =>
    obtain ⟨connection, hunhindered⟩ := exists_unhindered base op w.shared
    have hasks := does.asked keepsMarked_onward connection found hunhindered
    obtain ⟨row, rfl⟩ := hasks.next streamId marked missing
    exact ⟨row, next, rfl⟩

theorem keepsMarked_elapse (j : Nat) (s : Streams) (ms : Nat) :
    KeepsMarked j s ((terminations sign).drift ms s) :=
  ⟨fun _ => Iff.rfl, fun _ _ => rfl, fun _ _ => rfl⟩

theorem InOrder.unmarking (h : InOrder base sign w) : Unmarking w.workers.length w.shared := by
  intro streamId hmarked
  exact absurd (h.known streamId _ hmarked) (Nat.lt_irrefl _)

theorem InOrder.does_step (h : InOrder base sign w) (undisturbed : Undisturbed w a) :
    (step (terminations sign) w a).Does (terminations sign) KeepsMarked (fun _ => Unhindered base)
      (fun i _ => AsksInTurn base i) (Reported base) := by
  have permits : Permits (fun _ => Unhindered base) (fun _ _ => True) (fun _ _ => True) w a := by
    cases a with
    | advance i connection =>
      intro c op next found
      exact h.marks.unhindered (undisturbed c op next found)
    | call c | crash i | outside ms => trivial
  exact h.does.step keepsMarked_onward (fun i c r s s' hkept hreported => hreported.later hkept)
    permits (fun i c op connection s hasks => hasks.apart)
    (fun ms _ j => keepsMarked_elapse j w.shared ms) fun c _ => does_terminate h.unmarking

theorem InOrder.step (h : InOrder base sign w) (undisturbed : Undisturbed w a) :
    InOrder base sign (step (terminations sign) w a) := by
  have hdoes := h.does_step undisturbed
  obtain hsame | hmoves := step_moves (terminations sign) w a
  · rwa [hsame]
  generalize Jobs.step (terminations sign) w a = w' at hdoes hmoves
  cases hmoves with
  | call c workers same =>
    refine ⟨hdoes, by rw [same]; exact h.marks, fun streamId j hmarked => ?_,
      fun streamId j hmarked hmissing => ?_⟩
    · rw [same] at hmarked
      rw [workers, List.length_append]
      exact Nat.lt_add_right _ (h.known streamId j hmarked)
    · rw [same] at hmarked hmissing
      rw [workers, List.getElem?_append_left (h.known streamId j hmarked)]
      exact h.waiting streamId j hmarked hmissing
  | advance i connection c op next found workers shared =>
    have hasks : AsksInTurn base i op connection w.shared := h.does.asked keepsMarked_onward
      connection found (h.marks.unhindered (undisturbed c op next found))
    have hmoved : w'.workers[i]? = some (c, some (next (serveStream i op connection w.shared).1)) := by
      rw [workers, List.getElem?_set_self (List.getElem?_eq_some_iff.1 found).1]
      rfl
    refine ⟨hdoes, by rw [shared]; exact hasks.keeps h.marks, fun streamId j hmarked => ?_,
      fun streamId j hmarked hmissing => ?_⟩
    · rw [workers, List.length_set]
      by_cases hij : j = i
      · subst hij
        exact (List.getElem?_eq_some_iff.1 found).1
      · rw [shared] at hmarked
        exact h.known streamId j (((hasks.apart j hij).same streamId).1 hmarked)
    · by_cases hij : j = i
      · subst hij
        obtain ⟨row, next', hjob⟩ := createAudit_of_marked hdoes hmoved hmarked hmissing
        rw [hjob] at hmoved
        exact ⟨c, row, next', hmoved⟩
      · have hkept := hasks.apart j hij
        rw [shared] at hmarked hmissing
        have hbefore := (hkept.same streamId).1 hmarked
        rw [workers, List.getElem?_set_ne (Ne.symm hij)]
        exact h.waiting streamId j hbefore ((hkept.recorded streamId hbefore).symm.trans hmissing)
  | crash i c op next found workers same =>
    refine ⟨hdoes, by rw [same]; exact h.marks, fun streamId j hmarked => ?_,
      fun streamId j hmarked hmissing => ?_⟩
    · rw [same] at hmarked
      rw [workers, List.length_set]
      exact h.known streamId j hmarked
    · rw [same] at hmarked hmissing
      obtain ⟨c', row, next', hwaits⟩ := h.waiting streamId j hmarked hmissing
      rw [workers, List.getElem?_set_ne, hwaits]
      · exact ⟨c', row, next', rfl⟩
      · rintro rfl
        exact undisturbed c' row next' hwaits
  | outside ms workers shared =>
    refine ⟨hdoes, ?_, fun streamId j hmarked => ?_, fun streamId j hmarked hmissing => ?_⟩
    · rw [shared]
      exact ⟨h.marks.unmarked, h.marks.marked⟩
    · rw [shared] at hmarked
      rw [workers]
      exact h.known streamId j hmarked
    · rw [shared] at hmarked hmissing
      rw [workers]
      exact h.waiting streamId j hmarked hmissing

end Together

/-! ## Terminated once -/

/-- The stream is terminated, and a call of the service has done that. -/
def Streams.TerminatedHere (s : Streams) (streamId : String) : Prop :=
  (∃ row ∈ s.rows streamId, row.status = .terminated) ∧ s.terminator streamId ≠ none

/-- Worker `i` has terminated the stream, and has said so. -/
def StreamWorld.Succeeded (w : StreamWorld) (i : Nat) (input : TerminateStreamInput)
    (r : TerminateStreamResult) : Prop := w.call i = some input ∧ w.result i = some (.ok r)

/-- A stream that had `before` records is terminated once: at most one call succeeds, the row is what
that call says, and there is one more record if the stream is terminated here, and none otherwise.
The record is missing only while it is being written. -/
structure TerminatedOnce (before : Nat) (w : StreamWorld) (streamId : String) : Prop where
  once : ∀ i j input input' r r', w.Succeeded i input r → w.Succeeded j input' r' →
    input.streamId = streamId → input'.streamId = streamId → i = j
  own : ∀ i input r, w.Succeeded i input r → input.streamId = streamId →
    ∃ row, w.shared.rows streamId = some row ∧ row.status = .terminated ∧
      row.terminatedBy = some r.terminatedBy ∧ row.terminatedAt = some r.terminatedAt ∧
      row.terminationReason = r.reason ∧ r.terminatedBy = input.adminAddress ∧
      r.reason = input.reason
  recorded : (∀ (i : Nat) c row next, w.workers[i]? ≠ some (c, some (.ask (.createAudit row) next))) →
    (w.shared.TerminatedHere streamId → w.shared.recorded streamId = before + 1) ∧
      (¬ w.shared.TerminatedHere streamId → w.shared.recorded streamId = before)

/-- Nobody has called yet. -/
def opened (now : Nat) (rows : Db fun _ : String => StreamRecord) (audits : List AdminAction) :
    StreamWorld := World.fresh ⟨now, rows, audits, fun _ => none⟩

section Once

variable {sign : String → Except String String} {w : StreamWorld}

theorem inOrder_opened (now : Nat) (rows : Db fun _ : String => StreamRecord)
    (audits : List AdminAction) :
    InOrder (opened now rows audits).shared.recorded sign (opened now rows audits) where
  does _ _ _ found := by cases found
  marks := ⟨fun _ _ => rfl, nofun⟩
  known := nofun
  waiting := nofun

theorem InOrder.terminatedOnce {base : String → Nat} (h : InOrder base sign w)
    (streamId : String) : TerminatedOnce (base streamId) w streamId := by
  have reported {i : Nat} {input : TerminateStreamInput} {r : TerminateStreamResult}
      (hs : w.Succeeded i input r) : Reported base i input (.ok r) w.shared :=
    h.does i input _ (World.done_of_result hs.1 hs.2)
  refine ⟨fun i j input input' r r' hs hs' hsame hsame' => ?_, fun i input r hs hsame => ?_,
    fun idle => ⟨fun ⟨_, hhere⟩ => ?_, fun hnot => h.marks.unmarked streamId ?_⟩⟩
  · have hi := ((reported hs).own r rfl).1
    have hj := ((reported hs').own r' rfl).1
    rw [hsame] at hi
    rw [hsame'] at hj
    exact Option.some.inj (hi.symm.trans hj)
  · obtain ⟨-, row, hrow, hterminated, hby, hat, hreason, hresult⟩ := (reported hs).own r rfl
    obtain ⟨-, hr⟩ := Prod.mk.inj hresult
    obtain ⟨hrby, hrreason⟩ := Prod.mk.inj hr
    rw [hsame] at hrow
    exact ⟨row, hrow, hterminated, by rw [hby, hrby], hat, by rw [hreason, hrreason], hrby, hrreason⟩
  · obtain ⟨i, hmarked⟩ := Option.ne_none_iff_exists'.1 hhere
    rcases (h.marks.marked streamId i hmarked).2 with hmissing | hwritten
    · obtain ⟨c, row, next, hwaits⟩ := h.waiting streamId i hmarked hmissing
      exact absurd hwaits (idle i c row next)
    · exact hwritten
  · cases hmarked : w.shared.terminator streamId with
    | none => rfl
    | some i =>
      have hrow := (h.marks.marked streamId i hmarked).1
      exact absurd ⟨hrow, fun hnone => nomatch hmarked.symm.trans hnone⟩ hnot

end Once

/-- However the calls go on side by side: where every call that marks a stream finds it live, hears
of it and lives on to write the record, a stream is terminated once. -/
theorem terminated_once (sign : String → Except String String) (now : Nat)
    (rows : Db fun _ : String => StreamRecord) (audits : List AdminAction) (as : List StreamStep)
    (undisturbed : ∀ p ∈ trail (terminations sign) (opened now rows audits) as,
      Undisturbed p.1 p.2) (streamId : String) :
    ∀ before, before <+: as →
      TerminatedOnce ((opened now rows audits).shared.recorded streamId)
        (run (terminations sign) (opened now rows audits) before) streamId := by
  intro before hbefore
  have horder := Machine.run_invariant (step (terminations sign)) (inOrder_opened now rows audits)
    fun p hp h => h.step (undisturbed p (Machine.trail_of_isPrefix _ hbefore hp))
  exact horder.terminatedOnce streamId

namespace Sample

def liveStream : Db fun _ : String => StreamRecord :=
  Function.update (fun _ => none) "s" (some ⟨.active, "0", none, none, none⟩)

def terminateBy (adminAddress : String) : StreamStep :=
  .call ⟨"s", adminAddress, none, none⟩

/-- The second call comes in when the first one is done. -/
def terminationsInTurn : List StreamStep :=
  terminateBy "a" :: List.replicate 5 (.advance 0 .heard) ++ [terminateBy "b", .advance 1 .heard]

/-- Both calls find the stream live before one of them marks it. -/
def terminationsAtOnce : List StreamStep :=
  [terminateBy "a", terminateBy "b", .advance 0 .heard, .advance 1 .heard] ++
    List.replicate 4 (.advance 0 .heard) ++ List.replicate 4 (.advance 1 .heard)

end Sample

theorem terminated_once_inTurn :
    TerminatedOnce 0 (run (terminations .ok) (opened 0 Sample.liveStream [])
      Sample.terminationsInTurn) "s" :=
  terminated_once .ok 0 Sample.liveStream [] Sample.terminationsInTurn (by decide +kernel) "s" _
    (List.prefix_refl _)

/-- Both calls succeed. -/
theorem not_terminatedOnce :
    ¬ TerminatedOnce 0 (run (terminations .ok) (opened 0 Sample.liveStream [])
      Sample.terminationsAtOnce) "s" :=
  fun h => absurd (h.once 0 1 ⟨"s", "a", none, none⟩ ⟨"s", "b", none, none⟩
    ⟨"s", .terminated, .active, "a", 0, none, none, "0"⟩
    ⟨"s", .terminated, .active, "b", 0, none, none, "0"⟩ ⟨by decide +kernel, by decide +kernel⟩
    ⟨by decide +kernel, by decide +kernel⟩ rfl rfl) (by decide)

end Amana.Backend
