import Amana.Lib.Machine
import Mathlib.Algebra.Order.Field.Rat
import Mathlib.Tactic.Linarith

/-!
# The circuit breaker

`circuitBreaker.ts` stops calling a service that fails: after so many failures in a row the breaker
opens, after a cooldown it lets calls through again, and after so many successes it closes.  Calls
overlap, so what a call does when it ends meets a breaker that others have moved on
(`breaker_disciplined`).
-/

namespace Amana.Backend

open Lib.Machine (run trail)

/-- `"CLOSED"`, `"OPEN"` and `"HALF_OPEN"`. -/
inductive CircuitState where
  | closed
  | opened
  | halfOpen
  deriving DecidableEq, Repr

structure CircuitBreakerOptions where
  failureThreshold : Option ℚ
  successThreshold : Option ℚ
  cooldownMs : Option ℚ

structure CircuitBreakerOpenError where
  message : String
  deriving DecidableEq, Repr

/-- Times are those of `now`, in milliseconds. -/
structure CircuitBreaker where
  name : String
  state : CircuitState
  failureCount : Nat
  successCount : Nat
  openedAt : Option ℚ
  failureThreshold : ℚ
  successThreshold : ℚ
  cooldownMs : ℚ

namespace CircuitBreaker

def new (name : String) (options : CircuitBreakerOptions) : CircuitBreaker where
  name := name
  state := .closed
  failureCount := 0
  successCount := 0
  openedAt := none
  failureThreshold := options.failureThreshold.getD 5
  successThreshold := options.successThreshold.getD 2
  cooldownMs := options.cooldownMs.getD 30000

variable (b : CircuitBreaker)

def openError : CircuitBreakerOpenError where
  message := "Circuit breaker '" ++ b.name ++ "' is OPEN — call blocked"

def transitionIfCooldownElapsed (now : ℚ) : CircuitBreaker :=
  match b.state, b.openedAt with
  | .opened, some openedAt =>
    if b.cooldownMs ≤ now - openedAt then
      { b with state := .halfOpen, successCount := 0, failureCount := 0 }
    else b
  | _, _ => b

def onSuccess : CircuitBreaker :=
  if b.state = .halfOpen then
    if b.successThreshold ≤ (b.successCount + 1 : Nat) then
      { b with state := .closed, failureCount := 0, successCount := 0, openedAt := none }
    else { b with successCount := b.successCount + 1 }
  else { b with failureCount := 0 }

def onFailure (now : ℚ) : CircuitBreaker :=
  if b.state = .halfOpen then
    { b with state := .opened, openedAt := some now, failureCount := 0, successCount := 0 }
  else if b.failureThreshold ≤ (b.failureCount + 1 : Nat) then
    { b with
      state := .opened
      failureCount := b.failureCount + 1
      openedAt := some now
      successCount := 0 }
  else { b with failureCount := b.failureCount + 1 }

end CircuitBreaker

/-- A call is rejected, waits for its operation, or has what the operation came to. -/
inductive Call (ε τ : Type) where
  | blocked (error : CircuitBreakerOpenError)
  | running
  | settled (outcome : Except ε τ)
  deriving DecidableEq

/-- A breaker and the calls that have been made through it. -/
structure Breaking (ε τ : Type) where
  breaker : CircuitBreaker
  calls : List (Call ε τ)

/-- `call` runs up to its operation at one time of the clock, and goes on when that settles. -/
inductive CallStep (ε τ : Type) where
  | call (now : ℚ)
  | settle (i : Nat) (outcome : Except ε τ) (now : ℚ)

def CallStep.now {ε τ : Type} : CallStep ε τ → ℚ
  | .call now => now
  | .settle _ _ now => now

namespace Breaking

variable {ε τ : Type}

def initial (b : CircuitBreaker) : Breaking ε τ := ⟨b, []⟩

/-- A call up to its operation. -/
def call (w : Breaking ε τ) (now : ℚ) : Breaking ε τ :=
  let b := w.breaker.transitionIfCooldownElapsed now
  ⟨b, w.calls ++ [if b.state = .opened then .blocked b.openError else .running]⟩

/-- The call goes on when its operation has come to something. -/
def settle (w : Breaking ε τ) (i : Nat) (outcome : Except ε τ) (now : ℚ) : Breaking ε τ :=
  match w.calls[i]?, outcome with
  | some .running, .ok _ => ⟨w.breaker.onSuccess, w.calls.set i (.settled outcome)⟩
  | some .running, .error _ => ⟨w.breaker.onFailure now, w.calls.set i (.settled outcome)⟩
  | _, _ => w

def step (w : Breaking ε τ) : CallStep ε τ → Breaking ε τ
  | .call now => w.call now
  | .settle i outcome now => w.settle i outcome now

end Breaking

/-! ## What a breaker does -/

/-- The changes of state. -/
inductive CircuitState.Moves : CircuitState → CircuitState → Prop
  | trip : Moves .closed .opened
  | probe : Moves .opened .halfOpen
  | close : Moves .halfOpen .closed
  | reopen : Moves .halfOpen .opened

namespace CircuitBreaker

variable {b : CircuitBreaker} {now : ℚ}

/-- The thresholds make sense, and the counters and the time of opening fit the state. -/
structure Sound (b : CircuitBreaker) : Prop where
  failureThreshold : 1 ≤ b.failureThreshold
  successThreshold : 1 ≤ b.successThreshold
  opened : b.state = .opened → b.openedAt.isSome
  closed : b.state = .closed → b.failureCount < b.failureThreshold
  halfOpen : b.state = .halfOpen → b.successCount < b.successThreshold

theorem transition_cases (b : CircuitBreaker) (now : ℚ) :
    b.transitionIfCooldownElapsed now = b ∨
      ∃ openedAt, b.state = .opened ∧ b.openedAt = some openedAt ∧
        b.cooldownMs ≤ now - openedAt ∧ b.transitionIfCooldownElapsed now =
          { b with state := .halfOpen, successCount := 0, failureCount := 0 } := by
  unfold transitionIfCooldownElapsed
  split
  · next openedAt hstate hopened =>
    by_cases hcool : b.cooldownMs ≤ now - openedAt
    · exact .inr ⟨openedAt, hstate, hopened, hcool, if_pos hcool⟩
    · exact .inl (if_neg hcool)
  · exact .inl rfl

theorem transition_moves (b : CircuitBreaker) (now : ℚ) :
    (b.transitionIfCooldownElapsed now).state = b.state ∨
      b.state.Moves (b.transitionIfCooldownElapsed now).state := by
  obtain h | ⟨_, hstate, -, -, h⟩ := transition_cases b now
  · exact .inl (by rw [h])
  · rw [h, hstate]
    exact .inr .probe

theorem onSuccess_moves (b : CircuitBreaker) :
    b.onSuccess.state = b.state ∨ b.state.Moves b.onSuccess.state := by
  unfold onSuccess
  split
  · next hstate =>
    split
    · rw [hstate]
      exact .inr .close
    · exact .inl rfl
  · exact .inl rfl

theorem onFailure_moves (b : CircuitBreaker) (now : ℚ) :
    (b.onFailure now).state = b.state ∨ b.state.Moves (b.onFailure now).state := by
  unfold onFailure
  split
  · next hstate =>
    rw [hstate]
    exact .inr .reopen
  · next hstate =>
    split
    · cases h : b.state with
      | closed => exact .inr .trip
      | opened => exact .inl rfl
      | halfOpen => exact absurd h hstate
    · exact .inl rfl

theorem Sound.transition (h : b.Sound) (now : ℚ) :
    (b.transitionIfCooldownElapsed now).Sound := by
  obtain hsame | ⟨_, -, -, -, hprobe⟩ := transition_cases b now
  · rwa [hsame]
  · rw [hprobe]
    refine { h with opened := ?_, closed := ?_, halfOpen := ?_ } <;> intro hstate
    · cases hstate
    · cases hstate
    · have hone := h.successThreshold
      simp only [Nat.cast_zero]
      linarith

theorem Sound.onSuccess (h : b.Sound) : b.onSuccess.Sound := by
  have hone := h.failureThreshold
  unfold CircuitBreaker.onSuccess
  split
  · next hhalf =>
    split
    · refine { h with opened := ?_, closed := ?_, halfOpen := ?_ } <;> intro hstate
      · cases hstate
      · simp only [Nat.cast_zero]
        linarith
      · cases hstate
    · next hbelow =>
      refine { h with halfOpen := fun _ => ?_ }
      exact not_le.1 hbelow
  · refine { h with closed := fun _ => ?_ }
    simp only [Nat.cast_zero]
    linarith

theorem Sound.onFailure (h : b.Sound) (now : ℚ) : (b.onFailure now).Sound := by
  unfold CircuitBreaker.onFailure
  split
  · refine { h with opened := fun _ => rfl, closed := ?_, halfOpen := ?_ } <;> intro hstate <;>
      cases hstate
  · next hhalf =>
    split
    · refine { h with opened := fun _ => rfl, closed := ?_, halfOpen := ?_ } <;> intro hstate <;>
        cases hstate
    · next hbelow => exact { h with closed := fun _ => not_le.1 hbelow }

/-- What a breaker is set up with. -/
def settings (b : CircuitBreaker) : ℚ × ℚ × ℚ :=
  (b.failureThreshold, b.successThreshold, b.cooldownMs)

theorem settings_transition (b : CircuitBreaker) (now : ℚ) :
    (b.transitionIfCooldownElapsed now).settings = b.settings := by
  obtain h | ⟨_, -, -, -, h⟩ := b.transition_cases now
  · rw [h]
  · rw [h]
    rfl

theorem settings_onSuccess (b : CircuitBreaker) : b.onSuccess.settings = b.settings := by
  unfold onSuccess
  split
  · split <;> rfl
  · rfl

theorem settings_onFailure (b : CircuitBreaker) (now : ℚ) :
    (b.onFailure now).settings = b.settings := by
  unfold onFailure
  split
  · rfl
  · split <;> rfl

end CircuitBreaker

/-! ## What a run does -/

namespace Breaking

variable {ε τ : Type} {w : Breaking ε τ} {a : CallStep ε τ}

/-- The step calls an operation. -/
def Starts (w : Breaking ε τ) (a : CallStep ε τ) : Prop :=
  (w.step a).calls = w.calls ++ [.running]

/-- A settled call has the breaker count it. -/
theorem settle_cases (w : Breaking ε τ) (i : Nat) (outcome : Except ε τ) (now : ℚ) :
    w.step (.settle i outcome now) = w ∨
      ((w.step (.settle i outcome now)).breaker = w.breaker.onSuccess ∨
        (w.step (.settle i outcome now)).breaker = w.breaker.onFailure now) ∧
      (w.step (.settle i outcome now)).calls = w.calls.set i (.settled outcome) := by
  rw [step]
  unfold settle
  split
  · exact .inr ⟨.inl rfl, rfl⟩
  · exact .inr ⟨.inr rfl, rfl⟩
  · exact .inl rfl

/-- Only a call starts an operation, and only on a breaker that is not open or has cooled down. -/
theorem Starts.call (h : w.Starts a) :
    ∃ now, a = .call now ∧ (w.step a).breaker.state ≠ .opened ∧
      (w.breaker.state = .opened →
        ∃ openedAt ∈ w.breaker.openedAt, w.breaker.cooldownMs ≤ now - openedAt) := by
  cases a with
  | call now =>
    have hlast := List.append_cancel_left h
    simp only [List.cons.injEq, and_true] at hlast
    have hstate : (w.breaker.transitionIfCooldownElapsed now).state ≠ .opened := fun hopened => by
      rw [if_pos hopened] at hlast
      cases hlast
    refine ⟨now, rfl, hstate, fun hopened => ?_⟩
    obtain hsame | ⟨openedAt, -, hopenedAt, hcool, -⟩ := w.breaker.transition_cases now
    · rw [hsame] at hstate
      exact absurd hopened hstate
    · exact ⟨openedAt, hopenedAt, hcool⟩
  | settle i outcome now =>
    have hlength := congrArg List.length h
    obtain hsame | ⟨-, hcalls⟩ := settle_cases w i outcome now
    · simp [hsame] at hlength
    · simp [hcalls] at hlength

theorem step_sound (h : w.breaker.Sound) (a : CallStep ε τ) : (w.step a).breaker.Sound := by
  cases a with
  | call now => exact h.transition now
  | settle i outcome now =>
    obtain hsame | ⟨hsuccess | hfailure, -⟩ := settle_cases w i outcome now
    · rwa [hsame]
    · rw [hsuccess]
      exact h.onSuccess
    · rw [hfailure]
      exact h.onFailure now

theorem step_moves (w : Breaking ε τ) (a : CallStep ε τ) :
    (w.step a).breaker.state = w.breaker.state ∨
      w.breaker.state.Moves (w.step a).breaker.state := by
  cases a with
  | call now => exact w.breaker.transition_moves now
  | settle i outcome now =>
    obtain hsame | ⟨hsuccess | hfailure, -⟩ := settle_cases w i outcome now
    · exact .inl (by rw [hsame])
    · rw [hsuccess]
      exact w.breaker.onSuccess_moves
    · rw [hfailure]
      exact w.breaker.onFailure_moves now

/-- No operation starts while the breaker is open and cooling down, the state changes only as it may,
and the breaker a run comes to has its counters below the thresholds and, if it is open, a time of
opening. -/
structure Disciplined (b : CircuitBreaker) (as : List (CallStep ε τ)) : Prop where
  starts : ∀ p ∈ trail step (initial b) as, p.1.Starts p.2 →
    (p.1.step p.2).breaker.state ≠ .opened
  cooling : ∀ p ∈ trail step (initial b) as, ∀ now openedAt, p.2 = .call now →
    p.1.breaker.state = .opened → p.1.breaker.openedAt = some openedAt →
      now - openedAt < p.1.breaker.cooldownMs → ¬ p.1.Starts p.2
  moves : ∀ p ∈ trail step (initial b) as,
    (p.1.step p.2).breaker.state = p.1.breaker.state ∨
      p.1.breaker.state.Moves (p.1.step p.2).breaker.state
  opened : (run step (initial b) as).breaker.state = .opened →
    (run step (initial b) as).breaker.openedAt.isSome
  closed : (run step (initial b) as).breaker.state = .closed →
    (run step (initial b) as).breaker.failureCount <
      (run step (initial b) as).breaker.failureThreshold
  halfOpen : (run step (initial b) as).breaker.state = .halfOpen →
    (run step (initial b) as).breaker.successCount <
      (run step (initial b) as).breaker.successThreshold

/-- However the calls of a breaker overlap, and whatever the clock says. -/
theorem breaker_disciplined (name : String) {options : CircuitBreakerOptions}
    (failures : ∀ n ∈ options.failureThreshold, 1 ≤ n)
    (successes : ∀ n ∈ options.successThreshold, 1 ≤ n) (as : List (CallStep ε τ)) :
    Disciplined (.new name options) as := by
  have hnew : (CircuitBreaker.new name options).Sound := by
    have hfailures : 1 ≤ options.failureThreshold.getD 5 := by
      cases h : options.failureThreshold with
      | none => norm_num
      | some n => exact failures n h
    have hsuccesses : 1 ≤ options.successThreshold.getD 2 := by
      cases h : options.successThreshold with
      | none => norm_num
      | some n => exact successes n h
    refine ⟨hfailures, hsuccesses, ?_, fun _ => ?_, ?_⟩
    · intro hstate
      cases hstate
    · simp only [CircuitBreaker.new, Nat.cast_zero]
      linarith
    · intro hstate
      cases hstate
  have hsound : (run step (initial (.new name options)) as).breaker.Sound :=
    Lib.Machine.run_invariant_of_step step (P := fun w => w.breaker.Sound) as hnew
      fun w a h => step_sound h a
  exact {
    starts := fun p _ h => by
      obtain ⟨now, -, hstate, -⟩ := h.call
      exact hstate
    cooling := fun p _ now openedAt hcall hstate hopened hcool h => by
      obtain ⟨now', hcall', -, hover⟩ := h.call
      obtain rfl : now' = now := CallStep.call.inj (hcall'.symm.trans hcall)
      obtain ⟨t, ht, hpassed⟩ := hover hstate
      obtain rfl : openedAt = t := Option.some.inj (hopened.symm.trans ht)
      exact absurd hpassed (not_le.2 hcool)
    moves := fun p _ => step_moves p.1 p.2
    opened := hsound.opened
    closed := hsound.closed
    halfOpen := hsound.halfOpen }

/-- A breaker that opens, lets a call through and opens again. -/
def reopening : List (CallStep String Unit) :=
  [.call 0, .call 5, .settle 0 (.error "timeout") 10, .call 20, .call 1010,
    .settle 1 (.ok ()) 1020, .settle 3 (.error "timeout") 1030]

theorem breaker_disciplined_reopening :
    Disciplined (.new "stellar-rpc" ⟨some 1, none, some 1000⟩) reopening :=
  breaker_disciplined "stellar-rpc" (by simp) (by simp) reopening

/-! ## The cooldown over a run -/

/-- No step changes what the breaker is set up with. -/
@[simp] theorem settings_step (w : Breaking ε τ) (a : CallStep ε τ) :
    (w.step a).breaker.settings = w.breaker.settings := by
  cases a with
  | call now => exact w.breaker.settings_transition now
  | settle i outcome now =>
    obtain hsame | ⟨hsuccess | hfailure, -⟩ := settle_cases w i outcome now
    · rw [hsame]
    · rw [hsuccess, CircuitBreaker.settings_onSuccess]
    · rw [hfailure, CircuitBreaker.settings_onFailure]

theorem cooldownMs_step (w : Breaking ε τ) (a : CallStep ε τ) :
    (w.step a).breaker.cooldownMs = w.breaker.cooldownMs :=
  congrArg (fun settings => settings.2.2) (settings_step w a)

/-- The breaker is open since `time` or later. -/
def OpenSince (time : ℚ) (b : CircuitBreaker) : Prop :=
  b.state = .opened ∧ ∃ openedAt ∈ b.openedAt, time ≤ openedAt

theorem OpenSince.onSuccess {time : ℚ} {b : CircuitBreaker} (h : OpenSince time b) :
    OpenSince time b.onSuccess := by
  rw [CircuitBreaker.onSuccess, if_neg (by simp [h.1])]
  exact h

theorem OpenSince.onFailure {time now : ℚ} {b : CircuitBreaker} (h : OpenSince time b)
    (later : time ≤ now) : OpenSince time (b.onFailure now) := by
  rw [CircuitBreaker.onFailure, if_neg (by simp [h.1])]
  split
  · exact ⟨rfl, now, rfl, later⟩
  · exact h

/-- An open breaker stays open, and starts nothing, until a call comes after its cooldown. -/
theorem step_openSince {time : ℚ} (h : OpenSince time w.breaker) (a : CallStep ε τ)
    (later : time ≤ a.now) :
    (OpenSince time (w.step a).breaker ∧ ¬ w.Starts a) ∨
      time + w.breaker.cooldownMs ≤ a.now := by
  by_cases hstarts : w.Starts a
  · obtain ⟨now, rfl, -, hover⟩ := hstarts.call
    obtain ⟨openedAt, hopenedAt, hcool⟩ := hover h.1
    obtain ⟨t, ht, htime⟩ := h.2
    obtain rfl : openedAt = t := Option.some.inj (hopenedAt.symm.trans ht)
    rw [CallStep.now]
    exact .inr (by linarith)
  · refine .inl ⟨?_, hstarts⟩
    cases a with
    | call now =>
      obtain hsame | ⟨_, -, -, -, hprobe⟩ := w.breaker.transition_cases now
      · rw [step, call, hsame]
        exact h
      · exact absurd (by simp [Starts, step, call, hprobe]) hstarts
    | settle i outcome now =>
      obtain hsame | ⟨hsuccess | hfailure, -⟩ := settle_cases w i outcome now
      · rwa [hsame]
      · rw [hsuccess]
        exact h.onSuccess
      · rw [hfailure]
        exact h.onFailure later

/-- While the clock does not go back, a breaker that is open starts no operation before its cooldown
has passed. -/
theorem quiet_while_cooling {time : ℚ} {as : List (CallStep ε τ)}
    (h : OpenSince time w.breaker) (clock : (time :: as.map CallStep.now).Pairwise (· ≤ ·)) :
    ∀ p ∈ trail step w as, p.1.Starts p.2 → time + w.breaker.cooldownMs ≤ p.2.now := by
  induction as generalizing w with
  | nil => simp
  | cons a as ih =>
    obtain ⟨hlater, hclock⟩ := List.pairwise_cons.1 clock
    obtain ⟨hafter, hrest⟩ := List.pairwise_cons.1 hclock
    have htime : time ≤ a.now := hlater a.now (by simp)
    intro p hp hstarts
    obtain ⟨hopen, hquiet⟩ | hcooled := step_openSince h a htime
    · obtain rfl | hp := List.mem_cons.1 hp
      · exact absurd hstarts hquiet
      · have hgoes := ih hopen (List.pairwise_cons.2
          ⟨fun t ht => hlater t (List.mem_cons_of_mem _ ht), hrest⟩) p hp hstarts
        rwa [cooldownMs_step] at hgoes
    · obtain rfl | hp := List.mem_cons.1 hp
      · exact hcooled
      · have hmem := List.mem_map_of_mem (f := CallStep.now) (Lib.Machine.mem_of_mem_trail step hp)
        exact hcooled.trans (hafter _ hmem)

end Breaking

end Amana.Backend
