import Mathlib
import Amana.Lib.FixedWindow
import Amana.Lib.Keyed

/-!
# The monitor of failed admin transactions

`recordAdminSorobanTxFailure` counts the failures of each endpoint in windows, and raises an alert
when they reach a threshold.  An endpoint is a detector of its own (`record_eq`): an alert tells of as
many failures as it says, none of which is told twice, and twice as many failures within the window,
but for one, do not pass without an alert (`monitor_run`).
-/

namespace Amana.Backend.FailureMonitor

open Lib Lib.Machine Lib.FixedWindow Lib.Keyed

/-- The settings of the environment, which its schema makes positive. -/
structure MonitorEnv where
  windowMs : Nat
  threshold : Nat
  positive : 0 < windowMs ∧ 0 < threshold

/-- What a submission throws. -/
inductive Thrown where
  | error (className message : String)
  /-- Not an `Error`; its text is `String(error)`. -/
  | other (text : String)

def Thrown.errorClass : Thrown → String
  | error className _ => className
  | other _ => "UnknownError"

def Thrown.message : Thrown → String
  | error _ message => message
  | other text => text

structure FailureWindow where
  count : Nat
  windowStart : Nat

abbrev FailureWindows := String → Option FailureWindow

/-- What the monitor gives to `alertService.dispatch`, for the type `admin_soroban_tx_failure`. -/
structure TxFailureAlert where
  text : String
  endpoint : String
  errorClass : String
  message : String
  count : Nat

/-- A failed submission, and the clock there. -/
structure Failure where
  error : Thrown
  now : Nat

/-- A failure at an endpoint. -/
abbrev EndpointFailure := String × Failure

section

variable (env : MonitorEnv)

/-- The window that a failure counts in: a new one, when there is none or it is over. -/
def currentEntry (now : Nat) : Option FailureWindow → FailureWindow
  | some entry => if now - entry.windowStart > env.windowMs then ⟨0, now⟩ else entry
  | none => ⟨0, now⟩

def recordAdminSorobanTxFailure (windows : FailureWindows) (f : EndpointFailure) :
    FailureWindows × Option TxFailureAlert :=
  let current := currentEntry env f.2.now (windows f.1)
  let entry : FailureWindow := { current with count := current.count + 1 }
  if entry.count ≥ env.threshold then
    (Function.update windows f.1 (some ⟨0, f.2.now⟩),
      some ⟨"Admin Soroban transaction endpoint " ++ f.1 ++ " failed " ++ toString entry.count ++
          " times in the last " ++ toString ((env.windowMs + 500) / 1000) ++ "s",
        f.1, f.2.error.errorClass, f.2.error.message, entry.count⟩)
  else (Function.update windows f.1 (some entry), none)

def recordStep (windows : FailureWindows) (f : EndpointFailure) : FailureWindows :=
  (recordAdminSorobanTxFailure env windows f).1

/-- The alert that a failure raises after others. -/
def alertAfter (fs : List EndpointFailure) (f : EndpointFailure) : Option TxFailureAlert :=
  (recordAdminSorobanTxFailure env (run (recordStep env) (fun _ => none) fs) f).2

/-- The clock of failures. -/
def times (fs : List EndpointFailure) : List Nat := fs.map fun f => f.2.now

/-- The times of the failures at an endpoint. -/
def timesAt (endpoint : String) (fs : List EndpointFailure) : List Nat :=
  (actionsAt endpoint fs).map Failure.now

/-- The monitor over the failures of a process. -/
structure Monitored (fs : List EndpointFailure) : Prop where
  /-- An alert tells of the failures since the alert before it, as many as the threshold and all of
  them within the window. -/
  warranted : ∀ bs f cs alert, fs = bs ++ f :: cs → alertAfter env bs f = some alert →
    alert.endpoint = f.1 ∧ alert.count = env.threshold ∧
      ∃ ds es, bs = ds ++ es ∧ (timesAt f.1 es).length + 1 = env.threshold ∧
        (∀ x ∈ timesAt f.1 es, f.2.now ≤ x + env.windowMs) ∧
        ∀ gs g hs, es = gs ++ g :: hs → g.1 = f.1 → alertAfter env (ds ++ gs) g = none
  /-- Twice as many failures of an endpoint within the window, but for one, raise an alert. -/
  noticed : ∀ bs cs ds endpoint first, fs = bs ++ cs ++ ds →
    (∀ x ∈ timesAt endpoint cs, first ≤ x ∧ x ≤ first + env.windowMs) →
      2 * env.threshold ≤ (timesAt endpoint cs).length + 1 →
        ∃ es f gs, cs = es ++ f :: gs ∧ f.1 = endpoint ∧ (alertAfter env (bs ++ es) f).isSome = true

end

variable {env : MonitorEnv} {f : EndpointFailure} {fs : List EndpointFailure} {endpoint : String}
  {w : Option Window}

/-- What a failure does at its endpoint. -/
def detect (env : MonitorEnv) (_ : String) (w : Option Window) (failure : Failure) : Option Window :=
  watch (env.windowMs + 1) env.threshold w failure.now

/-- A window as the monitor has it. -/
def ofWindow (v : Window) : FailureWindow := ⟨v.count, v.start⟩

/-- The window of an endpoint after failures. -/
def windowAfter (env : MonitorEnv) (fs : List EndpointFailure) (endpoint : String) :
    Option Window :=
  run (watch (env.windowMs + 1) env.threshold) none (timesAt endpoint fs)

theorem currentEntry_eq (now : Nat) (w : Option Window) :
    currentEntry env now (w.map ofWindow) = ofWindow (windowAt (env.windowMs + 1) now w) := by
  cases w with
  | none => rfl
  | some v =>
    simp only [Option.map_some, currentEntry, windowAt, ofWindow]
    by_cases h : now - v.start > env.windowMs
    · rw [if_pos h, if_pos (by omega)]
    · rw [if_neg h, if_neg (by omega)]

/-- The monitor is a detector at each endpoint. -/
theorem record_eq (s : String → Option Window) (f : EndpointFailure) :
    recordStep env (fun k => (s k).map ofWindow) f =
      fun k => (moved (detect env) s f k).map ofWindow := by
  funext k
  simp only [recordStep, recordAdminSorobanTxFailure, currentEntry_eq, moved, detect, watch,
    detects, ofWindow, decide_eq_true_eq, ge_iff_le, hit]
  by_cases hk : k = f.1
  · subst hk
    split <;> simp [ofWindow]
  · split <;> simp [Function.update_of_ne hk]

/-- Each endpoint has the window of its own failures. -/
theorem windows_run (fs : List EndpointFailure) : run (recordStep env) (fun _ => none) fs =
    fun k => (windowAfter env fs k).map ofWindow := by
  have hmap : run (recordStep env) (fun _ => none) (fs.map id) =
      fun k => (run (moved (detect env)) (fun _ => none) fs k).map ofWindow :=
    run_map (f := fun (s : String → Option Window) k => (s k).map ofWindow) (g := id)
      (moved (detect env)) (fun s f => (record_eq s f).symm) (fun _ => none) fs
  rw [List.map_id] at hmap
  rw [hmap]
  funext k
  rw [run_moved, windowAfter, timesAt, run, run, List.foldl_map]
  rfl

theorem alertAfter_eq (fs : List EndpointFailure) (f : EndpointFailure) : alertAfter env fs f =
    if detects (env.windowMs + 1) env.threshold (windowAfter env fs f.1) f.2.now then
      let count := (windowAt (env.windowMs + 1) f.2.now (windowAfter env fs f.1)).count + 1
      some ⟨"Admin Soroban transaction endpoint " ++ f.1 ++ " failed " ++ toString count ++
          " times in the last " ++ toString ((env.windowMs + 500) / 1000) ++ "s",
        f.1, f.2.error.errorClass, f.2.error.message, count⟩
    else none := by
  rw [alertAfter, windows_run]
  simp only [recordAdminSorobanTxFailure, currentEntry_eq, detects, decide_eq_true_eq, ofWindow]
  split_ifs <;> rfl

theorem timesAt_append (endpoint : String) (as bs : List EndpointFailure) :
    timesAt endpoint (as ++ bs) = timesAt endpoint as ++ timesAt endpoint bs := by
  simp [timesAt]

theorem windowAfter_append (as bs : List EndpointFailure) (endpoint : String) :
    windowAfter env (as ++ bs) endpoint =
      run (watch (env.windowMs + 1) env.threshold) (windowAfter env as endpoint)
        (timesAt endpoint bs) := by
  rw [windowAfter, timesAt_append, run_append, windowAfter]

theorem sorted_timesAt (ordered : (times fs).Pairwise (· ≤ ·)) (endpoint : String) :
    (timesAt endpoint fs).Pairwise (· ≤ ·) := by
  have hsublist := (actionsAt_sublist endpoint fs).map Failure.now
  rw [List.map_map] at hsublist
  exact ordered.sublist hsublist

/-- While the clock does not go back, the monitor misses no burst and counts no failure twice. -/
theorem monitor_run (env : MonitorEnv) (fs : List EndpointFailure)
    (ordered : (times fs).Pairwise (· ≤ ·)) : Monitored env fs := by
  obtain ⟨-, hthreshold⟩ := env.positive
  constructor
  · rintro bs f cs alert rfl halert
    have hbefore : (times bs).Pairwise (· ≤ ·) := by
      rw [times, List.map_append] at ordered
      exact (List.pairwise_append.1 ordered).1
    rw [alertAfter_eq] at halert
    split at halert
    · next hdetects =>
      obtain rfl := Option.some.inj halert
      obtain ⟨before, new, heq, hlength, hinside, hquiet⟩ :=
        detected hthreshold (sorted_timesAt hbefore f.1) hdetects
      refine ⟨rfl, count_of_detects hthreshold hdetects, ?_⟩
      obtain ⟨before, new, hsplit, rfl, rfl⟩ := List.map_eq_append_iff.1 heq
      obtain ⟨ds, es, rfl, rfl, rfl⟩ := exists_of_actionsAt_eq_append hsplit
      refine ⟨ds, es, rfl, hlength, fun x hx => Nat.lt_succ_iff.1 (hinside x hx), ?_⟩
      rintro gs g hs rfl hkey
      have hmem := mem_trail_append (watch (env.windowMs + 1) env.threshold)
        (windowAfter env ds f.1) (timesAt f.1 gs) (timesAt f.1 hs) g.2.now
      have hnew : timesAt f.1 (gs ++ g :: hs) = timesAt f.1 gs ++ g.2.now :: timesAt f.1 hs := by
        simp [timesAt, hkey]
      have hnot : detects (env.windowMs + 1) env.threshold (windowAfter env (ds ++ gs) f.1)
          g.2.now = false := by
        rw [windowAfter_append]
        refine hquiet (_, _) ?_
        change _ ∈ trail _ (windowAfter env ds f.1) (timesAt f.1 (gs ++ g :: hs))
        rwa [hnew]
      rw [alertAfter_eq, hkey, hnot]
      rfl
    · cases halert
  · rintro bs cs ds endpoint first rfl hinside hmany
    have hwithin : ∀ x ∈ timesAt endpoint cs, first ≤ x ∧ x < first + (env.windowMs + 1) :=
      fun x hx => ⟨(hinside x hx).1, Nat.lt_succ_iff.2 (hinside x hx).2⟩
    obtain ⟨⟨w, now⟩, hp, hdetects⟩ :=
      exists_detects (timesAt endpoint bs) hthreshold hwithin hmany
    obtain ⟨xs, ys, heq, rfl⟩ := exists_append_of_mem_trail _ hp
    obtain ⟨l, m, hsplit, rfl, hcons⟩ := List.map_eq_append_iff.1 heq
    obtain ⟨es, gs, rfl, rfl, rfl⟩ := exists_of_actionsAt_eq_append hsplit
    obtain ⟨failure, m, hfailure, rfl, -⟩ := List.map_eq_cons_iff.1 hcons
    obtain ⟨hs, gs, rfl, hnone, -⟩ := exists_of_actionsAt_eq_cons hfailure
    refine ⟨es ++ hs, (endpoint, failure), gs, by simp, rfl, ?_⟩
    have hnothing : timesAt endpoint hs = [] := by rw [timesAt, hnone]; rfl
    rw [alertAfter_eq, windowAfter_append, timesAt_append, hnothing, List.append_nil]
    rw [if_pos (by exact hdetects)]
    rfl

/-! ## A burst -/

/-- Three failures at once, where two raise an alert. -/
theorem monitor_run_burst :
    (times [("a", ⟨.other "x", 5⟩), ("b", ⟨.other "y", 5⟩), ("a", ⟨.other "z", 7⟩)]).Pairwise
        (· ≤ ·) ∧
      Monitored ⟨10, 2, by decide⟩
        [("a", ⟨.other "x", 5⟩), ("b", ⟨.other "y", 5⟩), ("a", ⟨.other "z", 7⟩)] :=
  ⟨by decide, monitor_run _ _ (by decide)⟩

end Amana.Backend.FailureMonitor
