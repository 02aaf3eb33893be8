import Mathlib
import Amana.Lib.Keyed

/-!
# Heartbeats of jobs

`withHeartbeat` pings when a job starts and when it ends, and each ping rewrites the row of the job.
The watchdog reads no more off a row than the last ping (`health_run`): it alerts when that ping
reports a failure or is too old, and no job is ever stale.  The count of failures starts over with
every start, so that it never exceeds the executions in flight (`failureCount_run`), and the alert for
repeated failures is not raised for a job that runs one execution after the other.
-/

namespace Amana.Backend.JobHeartbeats

open Lib Lib.Machine Lib.Keyed

inductive JobType where
  | reconciliation
  | tradeExpiry
  | webhook
  | notification
  | exportJob
  | outboxScan
  | streamClawbackMonitor
  deriving DecidableEq

namespace JobType

def all : List JobType :=
  [reconciliation, tradeExpiry, webhook, notification, exportJob, outboxScan, streamClawbackMonitor]

/-- The value of the enumeration. -/
def text : JobType → String
  | reconciliation => "reconciliation"
  | tradeExpiry => "trade-expiry"
  | webhook => "webhook"
  | notification => "notification"
  | exportJob => "export"
  | outboxScan => "outbox-consistency-scan"
  | streamClawbackMonitor => "stream-clawback-monitor"

end JobType

structure JobConfig where
  intervalMs : Nat
  description : String

/-- `JOB_CONFIGS`. -/
def jobConfigs : JobType → JobConfig
  | .reconciliation => ⟨24 * 60 * 60 * 1000, "Daily ledger reconciliation sweep"⟩
  | .tradeExpiry => ⟨60 * 60 * 1000, "Hourly trade expiry checker"⟩
  | .webhook => ⟨5 * 60 * 1000, "Webhook delivery worker"⟩
  | .notification => ⟨5 * 60 * 1000, "Notification dispatch worker"⟩
  | .exportJob => ⟨10 * 60 * 1000, "Data export worker"⟩
  | .outboxScan => ⟨24 * 60 * 60 * 1000, "Outbox consistency verification scan"⟩
  | .streamClawbackMonitor => ⟨60 * 60 * 1000, "Stream clawback monitoring job"⟩

/-- `HEARTBEAT_GRACE_PERIOD_MS`. -/
def heartbeatGracePeriodMs : Nat := 5 * 60 * 1000

inductive PingStatus where
  | started
  | completed
  | failed
  deriving DecidableEq

inductive RowStatus where
  | idle
  | started
  | failed
  deriving DecidableEq

/-- Two readings of the clock in a row. -/
structure Clocks where
  expectedFrom : Nat
  beatAt : Nat
  ordered : expectedFrom ≤ beatAt

structure Ping where
  status : PingStatus
  error : Option String
  clocks : Clocks

/-- A row of `jobHeartbeat`, without the columns that nothing reads. -/
structure HeartbeatRow where
  lastHeartbeat : Nat
  status : RowStatus
  intervalMs : Nat
  nextExpectedAt : Nat
  notes : String
  failureCount : Nat
  lastError : Option String

/-- `job_repeated_failures`. -/
structure RepeatedFailures where
  message : String
  jobType : JobType
  failureCount : Nat
  lastError : Option String

inductive HealthStatus where
  | healthy
  | stale
  | failed
  deriving DecidableEq

structure JobHealthStatus where
  jobType : JobType
  status : HealthStatus
  lastHeartbeat : Nat
  nextExpectedAt : Nat
  timeSinceLastBeat : Int
  failureCount : Nat
  isOverdue : Bool

/-- `job_missed_heartbeat`. -/
structure MissedHeartbeat where
  message : String
  jobType : JobType
  severity : String
  lastHeartbeat : Nat
  expectedAt : Nat
  minutesOverdue : Int
  failureCount : Nat

/-! ## The registry -/

def PingStatus.row : PingStatus → RowStatus
  | started => .started
  | completed => .idle
  | failed => .failed

/-- The row that `initializeJobRegistry` leaves of a job. -/
def register (job : JobType) (c : Clocks) : Option HeartbeatRow → HeartbeatRow
  | none => ⟨c.beatAt, .idle, (jobConfigs job).intervalMs,
      c.expectedFrom + (jobConfigs job).intervalMs, (jobConfigs job).description, 0, none⟩
  | some row =>
    if row.intervalMs ≠ (jobConfigs job).intervalMs then
      { row with intervalMs := (jobConfigs job).intervalMs }
    else row

/-- The row that `ping` leaves. -/
def pingRow (job : JobType) (p : Ping) : Option HeartbeatRow → HeartbeatRow
  | none => ⟨p.clocks.beatAt, p.status.row, (jobConfigs job).intervalMs,
      p.clocks.expectedFrom + (jobConfigs job).intervalMs, (jobConfigs job).description,
      if p.status = .failed then 1 else 0, p.error⟩
  | some row => { row with
      lastHeartbeat := p.clocks.beatAt
      status := p.status.row
      nextExpectedAt := p.clocks.expectedFrom + (jobConfigs job).intervalMs
      failureCount := if p.status = .failed then row.failureCount + 1 else 0
      -- `data.error || null`: an empty text counts as none.
      lastError := p.error.filter fun error => error ≠ "" }

/-- The alert that `ping` raises, once the row is written. -/
def pingAlert (job : JobType) (p : Ping) (row : HeartbeatRow) : Option RepeatedFailures :=
  if row.failureCount > 3 then
    some ⟨"Job " ++ job.text ++ " has failed " ++ toString row.failureCount ++ " times", job,
      row.failureCount, p.error⟩
  else none

/-- The status of a row, as `checkAllJobHealth` and `getJobHealth` see it. -/
def healthStatus (now : Nat) (row : HeartbeatRow) : HealthStatus :=
  let timeSinceLastBeat : Int := now - row.lastHeartbeat
  let isOverdue := row.nextExpectedAt < now
  if row.status = .failed ∨ row.failureCount > 0 then .failed
  else if isOverdue ∧ (now : Int) - row.nextExpectedAt > heartbeatGracePeriodMs then .failed
  else if timeSinceLastBeat > row.intervalMs + heartbeatGracePeriodMs then .stale
  else .healthy

def jobHealthStatus (job : JobType) (now : Nat) (row : HeartbeatRow) : JobHealthStatus :=
  ⟨job, healthStatus now row, row.lastHeartbeat, row.nextExpectedAt, now - row.lastHeartbeat,
    row.failureCount, row.nextExpectedAt < now⟩

abbrev HeartbeatTable := JobType → Option HeartbeatRow

def getJobHealth (rows : HeartbeatTable) (now : Nat) (job : JobType) : Option JobHealthStatus :=
  (rows job).map (jobHealthStatus job now)

/-- `checkAllJobHealth`: the healthy jobs, the stale and the overdue ones. -/
def checkAllJobHealth (rows : HeartbeatTable) (now : Nat) :
    List JobHealthStatus × List JobHealthStatus × List JobHealthStatus :=
  let all := JobType.all.filterMap (getJobHealth rows now)
  (all.filter fun h => h.status = .healthy, all.filter fun h => h.status = .stale,
    all.filter fun h => h.status ≠ .healthy ∧ h.status ≠ .stale ∧ (h.status = .failed ∨ h.isOverdue))

/-- The alert of `watchdogCheck` for an overdue job, which reads the clock again. -/
def missedHeartbeat (later : JobType → Nat) (job : JobHealthStatus) : MissedHeartbeat :=
  let timeSinceExpected : Int := later job.jobType - job.nextExpectedAt
  let minutes := timeSinceExpected / 60000
  ⟨"Job " ++ job.jobType.text ++ " missed its scheduled heartbeat by " ++ toString minutes ++
      " minutes", job.jobType, if timeSinceExpected > 30 * 60 * 1000 then "critical" else "warning",
    job.lastHeartbeat, job.nextExpectedAt, minutes, job.failureCount⟩

def watchdogCheck (rows : HeartbeatTable) (now : Nat) (later : JobType → Nat) :
    List MissedHeartbeat :=
  (checkAllJobHealth rows now).2.2.map (missedHeartbeat later)

/-! ## Executions -/

/-- The row of a job, and how many of its executions are in flight. -/
structure JobState where
  row : Option HeartbeatRow
  running : Nat

/-- What happens to a job.  A ping that is not recorded has failed, and its error is only logged. -/
inductive JobStep where
  | registered (clocks : Clocks)
  /-- `withHeartbeat` starts an execution. -/
  | started (clocks : Clocks) (recorded : Bool)
  /-- An execution in flight ends, with an error or without. -/
  | finished (error : Option String) (clocks : Clocks) (recorded : Bool)
  /-- The process of an execution is gone. -/
  | gone

/-- The ping that a step makes and the table records. -/
def recordedPing (s : JobState) : JobStep → Option Ping
  | .started clocks true => some ⟨.started, none, clocks⟩
  | .finished error clocks true =>
    if 0 < s.running then
      some ⟨if error.isSome then .failed else .completed, error, clocks⟩
    else none
  | _ => none

def jobStep (job : JobType) (s : JobState) (a : JobStep) : JobState :=
  let row :=
    match recordedPing s a with
    | some p => some (pingRow job p s.row)
    | none => s.row
  match a with
  | .registered clocks => ⟨some (register job clocks s.row), s.running⟩
  | .started _ _ => ⟨row, s.running + 1⟩
  | .finished _ _ _ => ⟨row, s.running - 1⟩
  | .gone => ⟨row, s.running - 1⟩

/-- The alert for repeated failures that a step raises. -/
def raisedAlert (job : JobType) (s : JobState) (a : JobStep) : Option RepeatedFailures :=
  (recordedPing s a).bind fun p => pingAlert job p (pingRow job p s.row)

/-- No row is there and nothing runs. -/
def JobState.fresh : JobState := ⟨none, 0⟩

/-- All jobs after some steps. -/
def jobsAfter (as : List (JobType × JobStep)) : JobType → JobState :=
  run (moved jobStep) (fun _ => .fresh) as

def tableAfter (as : List (JobType × JobStep)) : HeartbeatTable := fun job => (jobsAfter as job).row

/-- The pings of a job that are recorded. -/
def pings (job : JobType) (acts : List JobStep) : List Ping :=
  (trail (jobStep job) .fresh acts).filterMap fun p => recordedPing p.1 p.2

/-- How many of the last pings report a failure, one after the other. -/
def trailingFailures (ps : List Ping) : Nat :=
  (ps.reverse.takeWhile fun p => p.status = .failed).length

/-- Whether a job is in order by its last ping. -/
def Ping.Bad (job : JobType) (now : Nat) (p : Ping) : Prop :=
  p.status = .failed ∨
    p.clocks.expectedFrom + (jobConfigs job).intervalMs + heartbeatGracePeriodMs < now

instance (job : JobType) (now : Nat) (p : Ping) : Decidable (p.Bad job now) :=
  inferInstanceAs (Decidable (_ ∨ _))

/-- What the table tells about a job at a time. -/
structure HealthTold (as : List (JobType × JobStep)) (job : JobType) (now : Nat) : Prop where
  /-- The last recorded ping decides about the health of the job. -/
  judged : ∀ p ∈ (pings job (actionsAt job as)).getLast?,
    ∃ h ∈ getJobHealth (tableAfter as) now job,
      h.status = if p.Bad job now then .failed else .healthy
  /-- So it does about the alert of the watchdog. -/
  alerted : ∀ p ∈ (pings job (actionsAt job as)).getLast?, ∀ later,
    (∃ alert ∈ watchdogCheck (tableAfter as) now later, alert.jobType = job) ↔ p.Bad job now
  /-- No job is ever stale. -/
  neverStale : (checkAllJobHealth (tableAfter as) now).2.1 = []

variable {job : JobType} {acts : List JobStep} {as : List (JobType × JobStep)} {s : JobState}
  {a : JobStep} {ps : List Ping} {p : Ping} {row : HeartbeatRow} {now limit : Nat}

theorem pings_snoc : pings job (acts ++ [a]) =
    pings job acts ++ (recordedPing (run (jobStep job) .fresh acts) a).toList := by
  rw [pings, trail_snoc, List.filterMap_append]
  cases h : recordedPing (run (jobStep job) .fresh acts) a <;> simp [pings, h]

@[simp] theorem trailingFailures_snoc : trailingFailures (ps ++ [p]) =
    if p.status = .failed then trailingFailures ps + 1 else 0 := by
  by_cases h : p.status = .failed <;> simp [trailingFailures, h]

/-- A step registers the job or records a ping, or it leaves the row as it is. -/
theorem row_jobStep (job : JobType) (s : JobState) (a : JobStep) :
    (recordedPing s a = none ∧ ((jobStep job s a).row = s.row ∨
        ∃ clocks, (jobStep job s a).row = some (register job clocks s.row))) ∨
      ∃ p, recordedPing s a = some p ∧ (jobStep job s a).row = some (pingRow job p s.row) := by
  cases h : recordedPing s a with
  | some p =>
    refine .inr ⟨p, rfl, ?_⟩
    cases a with
    | registered clocks => cases h
    | started clocks recorded => simp [jobStep, h]
    | finished error clocks recorded => simp [jobStep, h]
    | gone => cases h
  | none =>
    refine .inl ⟨rfl, ?_⟩
    cases a with
    | registered clocks => exact .inr ⟨clocks, rfl⟩
    | started clocks recorded => simp [jobStep, h]
    | finished error clocks recorded => simp [jobStep, h]
    | gone => simp [jobStep, h]

/-! ## What a row tells -/

/-- The row of a job against its recorded pings. -/
structure RowTold (job : JobType) (row : HeartbeatRow) (ps : List Ping) : Prop where
  interval : row.intervalMs = (jobConfigs job).intervalMs
  due : row.nextExpectedAt ≤ row.lastHeartbeat + row.intervalMs
  count : row.failureCount = trailingFailures ps
  last : ∀ p ∈ ps.getLast?, row.status = p.status.row ∧
    row.nextExpectedAt = p.clocks.expectedFrom + row.intervalMs

theorem rowTold_ping (job : JobType) (p : Ping) (old : Option HeartbeatRow)
    (h : ∀ row ∈ old, RowTold job row ps) (hnone : old = none → ps = []) :
    RowTold job (pingRow job p old) (ps ++ [p]) := by
  have hordered := p.clocks.ordered
  cases old with
  | none =>
    rw [hnone rfl]
    refine ⟨rfl, by simp only [pingRow]; omega, ?_, by simp [pingRow]⟩
    by_cases hp : p.status = .failed <;> simp [pingRow, trailingFailures, hp]
  | some row =>
    obtain ⟨hinterval, -, hcount, -⟩ := h row rfl
    exact ⟨hinterval, by simp only [pingRow, hinterval]; omega, by simp [pingRow, hcount],
      by simp [pingRow, hinterval]⟩

theorem rowTold_run (job : JobType) (acts : List JobStep) :
    (∀ row ∈ (run (jobStep job) .fresh acts).row, RowTold job row (pings job acts)) ∧
      ((run (jobStep job) .fresh acts).row = none → pings job acts = []) := by
  induction acts using List.reverseRecOn with
  | nil => exact ⟨by simp [JobState.fresh], fun _ => rfl⟩
  | append_singleton acts a ih =>
    obtain ⟨htold, hnone⟩ := ih
    rw [run_snoc, pings_snoc]
    obtain ⟨hping, hrow | ⟨clocks, hrow⟩⟩ | ⟨p, hping, hrow⟩ :=
      row_jobStep job (run (jobStep job) .fresh acts) a
    · rw [hping, hrow, Option.toList_none, List.append_nil]
      exact ⟨htold, hnone⟩
    · rw [hping, hrow, Option.toList_none, List.append_nil]
      refine ⟨fun row hmem => ?_, fun h => by cases h⟩
      obtain rfl := Option.some.inj hmem
      cases hold : (run (jobStep job) .fresh acts).row with
      | none =>
        have hordered := clocks.ordered
        rw [hnone hold]
        exact ⟨rfl, by simp [register]; omega, rfl, by simp⟩
      | some row =>
        have hrow := htold row hold
        rwa [register, if_neg (by simpa using hrow.interval)]
    · rw [hping, hrow, Option.toList_some]
      refine ⟨fun row hmem => ?_, fun h => by cases h⟩
      obtain rfl := Option.some.inj hmem
      exact rowTold_ping job p _ htold hnone

theorem healthStatus_ne_stale (h : RowTold job row ps) : healthStatus now row ≠ .stale := by
  have hdue := h.due
  simp only [healthStatus]
  split_ifs with hfailed hover hold
  · simp
  · simp
  · omega
  · simp

theorem healthStatus_eq (h : RowTold job row ps) (hlast : p ∈ ps.getLast?) :
    healthStatus now row = if p.Bad job now then .failed else .healthy := by
  have hdue := h.due
  obtain ⟨hstatus, hnext⟩ := h.last p hlast
  obtain ⟨before, rfl⟩ : ∃ before, ps = before ++ [p] := List.getLast?_eq_some_iff.1 hlast
  have hcount := h.count
  rw [trailingFailures_snoc] at hcount
  have hfailed : row.status = .failed ∨ row.failureCount > 0 ↔ p.status = .failed := by
    cases hp : p.status <;> simp_all [PingStatus.row]
  have hinterval := h.interval
  by_cases hp : p.status = .failed
  · simp [healthStatus, hfailed.2 hp, Ping.Bad, hp]
  · have hok : ¬ (row.status = .failed ∨ row.failureCount > 0) := fun h => hp (hfailed.1 h)
    simp only [healthStatus, if_neg hok, Ping.Bad, hp, false_or]
    split_ifs <;> first | rfl | omega

theorem jobsAfter_eq (as : List (JobType × JobStep)) (job : JobType) :
    jobsAfter as job = run (jobStep job) .fresh (actionsAt job as) := run_moved ..

theorem tableAfter_told (as : List (JobType × JobStep)) (job : JobType) :
    ∀ row ∈ tableAfter as job, RowTold job row (pings job (actionsAt job as)) := by
  rw [tableAfter, jobsAfter_eq]
  exact (rowTold_run job _).1

theorem JobType.mem_all (job : JobType) : job ∈ JobType.all := by
  cases job <;> decide

theorem jobType_of_mem {rows : HeartbeatTable} {h : JobHealthStatus}
    (mem : h ∈ getJobHealth rows now job) : h.jobType = job := by
  obtain ⟨row, -, rfl⟩ := Option.map_eq_some_iff.1 mem
  rfl

/-- The watchdog alerts about the jobs in which something is wrong. -/
theorem mem_watchdogCheck {rows : HeartbeatTable} {later : JobType → Nat} :
    (∃ alert ∈ watchdogCheck rows now later, alert.jobType = job) ↔
      ∃ h ∈ getJobHealth rows now job, h.status = .failed := by
  have hfailed : ∀ h : JobHealthStatus, (h.status ≠ .healthy ∧ h.status ≠ .stale ∧
      (h.status = .failed ∨ h.isOverdue)) ↔ h.status = .failed := fun h => by
    cases h.status <;> simp
  simp only [watchdogCheck, checkAllJobHealth, List.mem_map, List.mem_filter, List.mem_filterMap,
    hfailed, decide_eq_true_eq]
  constructor
  · rintro ⟨-, ⟨h, ⟨⟨job', -, hjob⟩, hstatus⟩, rfl⟩, rfl⟩
    have htype := jobType_of_mem hjob
    exact ⟨h, by rw [← htype] at hjob; exact hjob, hstatus⟩
  · rintro ⟨h, hjob, hstatus⟩
    exact ⟨_, ⟨h, ⟨⟨job, job.mem_all, hjob⟩, hstatus⟩, rfl⟩, jobType_of_mem hjob⟩

/-- At any time, the table tells about a job what its last recorded ping does. -/
theorem health_run (as : List (JobType × JobStep)) (job : JobType) (now : Nat) :
    HealthTold as job now := by
  have hjudged : ∀ p ∈ (pings job (actionsAt job as)).getLast?,
      ∃ h ∈ getJobHealth (tableAfter as) now job,
        h.status = if p.Bad job now then .failed else .healthy := by
    intro p hp
    cases hrow : tableAfter as job with
    | none =>
      have hnone := (rowTold_run job (actionsAt job as)).2
      rw [← jobsAfter_eq] at hnone
      rw [hnone hrow] at hp
      cases hp
    | some row =>
      refine ⟨jobHealthStatus job now row, by simp [getJobHealth, hrow], ?_⟩
      exact healthStatus_eq (tableAfter_told as job row hrow) hp
  refine ⟨hjudged, fun p hp later => ?_, ?_⟩
  · obtain ⟨h, hmem, hstatus⟩ := hjudged p hp
    rw [mem_watchdogCheck]
    constructor
    · rintro ⟨h', hmem', hfailed⟩
      obtain rfl := Option.some.inj (hmem'.symm.trans hmem)
      by_contra hgood
      rw [hfailed, if_neg hgood] at hstatus
      cases hstatus
    · intro hbad
      exact ⟨h, hmem, by rw [hstatus, if_pos hbad]⟩
  · rw [checkAllJobHealth, List.filter_eq_nil_iff]
    intro h hmem
    obtain ⟨job, -, hjob⟩ := List.mem_filterMap.1 hmem
    obtain ⟨row, hrow, rfl⟩ := Option.map_eq_some_iff.1 hjob
    have hfresh : healthStatus now row ≠ .stale := healthStatus_ne_stale
      (tableAfter_told as job row hrow)
    exact fun hstale => hfresh (of_decide_eq_true hstale)

/-! ## Repeated failures -/

theorem failureCount_pingRow (job : JobType) (p : Ping) (old : Option HeartbeatRow) :
    (pingRow job p old).failureCount =
      if p.status = .failed then (old.elim 0 HeartbeatRow.failureCount) + 1 else 0 := by
  cases old <;> rfl

/-- A step keeps the bound that the count of failures shares with the executions in flight: a start
clears the count, and a failure takes an execution out of flight. -/
theorem failureCount_step (kept : ∀ row ∈ s.row, row.failureCount + s.running ≤ limit)
    (now : s.running ≤ limit) (next : (jobStep job s a).running ≤ limit)
    (starts : ∀ clocks, a ≠ .started clocks false) :
    ∀ row ∈ (jobStep job s a).row,
      row.failureCount + (jobStep job s a).running ≤ limit := by
  have hless : ∀ row ∈ s.row, row.failureCount + (s.running - 1) ≤ limit := fun row hrow => by
    have hkept := kept row hrow
    omega
  cases a with
  | registered clocks =>
    intro row hrow
    obtain rfl := Option.some.inj hrow
    cases hold : s.row with
    | none => simpa [jobStep, register] using now
    | some old =>
      have hkept := kept old hold
      simp only [register, jobStep]
      split <;> exact hkept
  | started clocks recorded =>
    cases recorded with
    | false => exact absurd rfl (starts clocks)
    | true =>
      intro row hrow
      obtain rfl := Option.some.inj hrow
      rw [failureCount_pingRow, if_neg (by simp), Nat.zero_add]
      exact next
  | finished error clocks recorded =>
    cases hping : recordedPing s (.finished error clocks recorded) with
    | none => simpa [jobStep, hping] using hless
    | some p =>
      have hrunning : 0 < s.running := by
        cases recorded with
        | false => cases hping
        | true =>
          by_contra hnone
          simp [recordedPing, hnone] at hping
      simp only [jobStep, hping]
      intro row hrow
      obtain rfl := Option.some.inj hrow
      have hold : s.row.elim 0 HeartbeatRow.failureCount + s.running ≤ limit := by
        cases hold : s.row with
        | none => simpa using now
        | some old => exact kept old hold
      rw [failureCount_pingRow]
      split <;> omega
  | gone => simpa [jobStep, recordedPing] using hless

theorem failureCount_run (job : JobType) (acts : List JobStep)
    (few : ∀ bs, bs <+: acts → (run (jobStep job) .fresh bs).running ≤ limit)
    (starts : ∀ clocks, .started clocks false ∉ acts) :
    ∀ row ∈ (run (jobStep job) .fresh acts).row,
      row.failureCount + (run (jobStep job) .fresh acts).running ≤ limit := by
  induction acts using List.reverseRecOn with
  | nil => simp [JobState.fresh]
  | append_singleton acts a ih =>
    have hbefore := ih (fun bs hbs => few bs (hbs.trans (List.prefix_append ..)))
      fun clocks hmem => starts clocks (List.mem_append_left _ hmem)
    have hnext := few (acts ++ [a]) (List.prefix_refl _)
    rw [run_snoc] at hnext ⊢
    refine failureCount_step hbefore (few acts (List.prefix_append ..)) hnext ?_
    rintro clocks rfl
    exact starts clocks (by simp)

/-- Where no start goes unrecorded and no more than `limit` executions of a job are in flight at
once, an alert for repeated failures tells how many pings in a row report one: more than three, and
at most as many as the limit.  There are none for a job that runs one execution after the other. -/
theorem repeatedFailures_run (as : List (JobType × JobStep)) (job : JobType) (limit : Nat)
    (few : ∀ bs, bs <+: as → (jobsAfter bs job).running ≤ limit)
    (starts : ∀ clocks, (job, .started clocks false) ∉ as) :
    ∀ bs a cs alert, as = bs ++ (job, a) :: cs → raisedAlert job (jobsAfter bs job) a = some alert →
      alert.jobType = job ∧
        alert.failureCount = trailingFailures (pings job (actionsAt job (bs ++ [(job, a)]))) ∧
        3 < alert.failureCount ∧ alert.failureCount ≤ limit := by
  rintro bs a cs alert rfl hraised
  obtain ⟨p, hping, halert⟩ := Option.bind_eq_some_iff.1 hraised
  have hsplit : actionsAt job (bs ++ [(job, a)]) = actionsAt job bs ++ [a] := by simp
  have hrow : (jobsAfter (bs ++ [(job, a)]) job).row =
      some (pingRow job p (jobsAfter bs job).row) := by
    rw [jobsAfter_eq, hsplit, run_snoc, ← jobsAfter_eq]
    obtain ⟨hnone, -⟩ | ⟨q, hq, hrow⟩ := row_jobStep job (jobsAfter bs job) a
    · rw [hping] at hnone
      cases hnone
    · obtain rfl := Option.some.inj (hping.symm.trans hq)
      exact hrow
  have htold := tableAfter_told (bs ++ [(job, a)]) job _ hrow
  have hfew : ∀ l, l <+: actionsAt job (bs ++ [(job, a)]) →
      (run (jobStep job) .fresh l).running ≤ limit := by
    rintro l ⟨m, hm⟩
    obtain ⟨ds, es, hds, rfl, -⟩ := exists_of_actionsAt_eq_append hm.symm
    rw [← jobsAfter_eq]
    exact few ds ⟨es ++ cs, by rw [← List.append_assoc, ← hds]; simp⟩
  have hstarts : ∀ clocks, .started clocks false ∉ actionsAt job (bs ++ [(job, a)]) := by
    intro clocks hmem
    have hin := mem_actionsAt.1 hmem
    exact starts clocks (by simp only [List.mem_append, List.mem_cons] at hin ⊢; tauto)
  have hbound := failureCount_run job _ hfew hstarts
  rw [← jobsAfter_eq] at hbound
  have hle := hbound _ hrow
  unfold pingAlert at halert
  split at halert
  · next hmany =>
    obtain rfl := Option.some.inj halert
    exact ⟨rfl, htold.count, hmany, by dsimp only; omega⟩
  · cases halert

/-! ## Executions at once -/

def sampleClocks : Clocks := ⟨5, 6, by decide⟩

/-- Four exports start, and three of them fail. -/
def overlapping : List (JobType × JobStep) :=
  List.replicate 4 (.exportJob, .started sampleClocks true) ++
    List.replicate 3 (.exportJob, .finished (some "timeout") sampleClocks true)

/-- The alert is raised when the fourth fails, too. -/
theorem repeatedFailures_run_overlapping : ∃ alert,
    raisedAlert .exportJob (jobsAfter overlapping .exportJob)
        (.finished (some "timeout") sampleClocks true) = some alert ∧
      3 < alert.failureCount ∧ alert.failureCount ≤ 4 := by
  have hfew : ∀ bs ∈ (overlapping ++ [(.exportJob, .finished (some "timeout") sampleClocks true)] :
      List (JobType × JobStep)).inits, (jobsAfter bs .exportJob).running ≤ 4 := by decide
  have htold := repeatedFailures_run
    (overlapping ++ [(.exportJob, .finished (some "timeout") sampleClocks true)]) .exportJob 4
    (fun bs hbs => hfew bs ((List.mem_inits ..).2 hbs)) (by simp [overlapping]) overlapping
    (.finished (some "timeout") sampleClocks true) []
  exact ⟨_, rfl, (htold _ rfl rfl).2.2⟩

end Amana.Backend.JobHeartbeats
