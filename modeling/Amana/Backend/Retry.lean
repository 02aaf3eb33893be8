import Mathlib
import Amana.Lib.Retry

/-!
# Retries

`retryAsync` of `lib/retry.ts` wraps every call of the ledger, the storage gateway and the user
table.  It tries an operation until it succeeds, fails for good, has been retried often enough, or
would run out of time.  `Trial` is what one try meets.  Whatever the tries meet, the wrapper ends,
and its report says what happened (`retryAsync_disciplined`).
-/

namespace Amana.Backend

open Lib

/-! ## Classification -/

/-- What `lib/retry.ts` reads of an error. -/
structure ErrorLike where
  /-- `status`, `statusCode` and both again of `response`, as the integers `Number` makes of
  them. -/
  statuses : List (Option Int)
  code : Option String
  /-- The `code` of `details ?? error`. -/
  nestedCode : Option String
  /-- The message of an `Error`, in lower case. -/
  message : Option (List Char)
  deriving DecidableEq

def retryablePrismaCodes : List String := ["P1001", "P1002", "P1017", "P2024", "P2028"]

def retryableSupabaseCodes : List String :=
  ["PGRST301", "57P01", "57P02", "57P03", "08006", "08001", "40001", "40P01"]

def retryableHttpStatuses : List Int := [429, 500, 502, 503, 504]

def isClientError (status : Int) : Bool := 400 ≤ status && status < 500 && status != 429

/-- The first candidate that is a positive integer. -/
def extractHttpStatus (error : ErrorLike) : Option Int :=
  error.statuses.findSome? fun candidate => candidate.filter fun n => 0 < n

def extractPrismaCode (error : ErrorLike) : Option String := error.code

def extractSupabaseCode (error : ErrorLike) : Option String :=
  (error.code.filter fun code => code ≠ "").or error.nestedCode

def networkPhrases : List String :=
  ["econnrefused", "econnreset", "etimedout", "network", "socket hang up", "fetch failed"]

def isNetworkError (error : ErrorLike) : Bool :=
  error.message.any fun message => networkPhrases.any fun phrase => phrase.toList <:+: message

def classifyError (error : ErrorLike) : Bool :=
  match extractHttpStatus error with
  | some httpStatus =>
    if isClientError httpStatus then false else retryableHttpStatuses.contains httpStatus
  | none =>
    (extractPrismaCode error).any (fun code => retryablePrismaCodes.contains code) ||
      (extractSupabaseCode error).any (fun code => retryableSupabaseCodes.contains code) ||
      isNetworkError error

/-- An answer over HTTP is retried for its status alone. -/
theorem mem_statuses_of_classifyError {error : ErrorLike} {status : Int}
    (h : classifyError error = true) (hstatus : extractHttpStatus error = some status) :
    status ∈ retryableHttpStatuses := by
  rw [classifyError, hstatus] at h
  dsimp only at h
  split at h
  · cases h
  · simpa using h

/-! ## The wrapper -/

inductive RetryOutcome where
  | success | exhausted | nonRetryable | budgetExceeded
  deriving DecidableEq

structure RetryOptions where
  maxRetries : Option Nat
  baseDelayMs : Option Nat
  capMs : Option Nat
  budgetMs : Option Nat
  shouldRetry : Option (ErrorLike → Bool)
  backoffMs : Option (List Nat)

namespace RetryOptions

def retries (o : RetryOptions) : Nat := o.maxRetries.getD 3

def baseDelay (o : RetryOptions) : Nat := o.baseDelayMs.getD 200

def cap (o : RetryOptions) : Nat := o.capMs.getD 10000

def budget (o : RetryOptions) : Nat := o.budgetMs.getD 30000

def retryable (o : RetryOptions) : ErrorLike → Bool := o.shouldRetry.getD classifyError

end RetryOptions

/-- What one try meets: how long the operation takes and how it ends, what is drawn below a
window, and how late the timer wakes it afterwards. -/
structure Trial (α : Type) where
  took : Nat
  result : Except ErrorLike α
  draw : Nat → Nat
  late : Nat

def computeJitteredDelay (attempt baseDelayMs capMs : Nat) (draw : Nat → Nat) : Nat :=
  draw (min capMs (baseDelayMs * 2 ^ attempt))

/-- The delay after a failed try. -/
def RetryOptions.delayMs (o : RetryOptions) (attempt : Nat) (draw : Nat → Nat) : Nat :=
  match o.backoffMs with
  | some delays => (delays[min attempt (delays.length - 1)]?).getD 0
  | none => computeJitteredDelay attempt o.baseDelay o.cap draw

/-- What the caller gets, and what the metrics are told. -/
structure RetryReport (α : Type) where
  result : Except ErrorLike α
  outcome : RetryOutcome
  totalAttempts : Nat
  durationMs : Nat
  slept : List Nat

/-- The variables of the loop; the time is counted from its start. -/
structure RetryState where
  attempt : Nat
  elapsed : Nat
  slept : List Nat

section

variable {α : Type} (o : RetryOptions) (trials : Nat → Trial α)

/-- One round of the loop. -/
def retryRound (s : RetryState) : RetryReport α ⊕ RetryState :=
  let trial := trials s.attempt
  let durationMs := s.elapsed + trial.took
  let report := fun outcome =>
    .inl ⟨trial.result, outcome, s.attempt + 1, durationMs, s.slept⟩
  match trial.result with
  | .ok _ => report .success
  | .error error =>
    if o.retryable error = false then report .nonRetryable
    else if s.attempt ≥ o.retries then report .exhausted
    else
      let delayMs := o.delayMs s.attempt trial.draw
      if durationMs + delayMs > o.budget then report .budgetExceeded
      else .inr ⟨s.attempt + 1, durationMs + delayMs + trial.late, s.slept ++ [delayMs]⟩

/-- `retryAsync`; the loop has no bound of its own. -/
def retryAsync : Option (RetryReport α) :=
  Retry.loop (retryRound o trials) (o.retries + 1) ⟨0, 0, []⟩

/-! ## What a report says -/

/-- The delay asked for after try `i`. -/
def delayAfter (i : Nat) : Nat := o.delayMs i (trials i).draw

/-- When try `n` starts. -/
def startOf (n : Nat) : Nat :=
  ((List.range n).map fun i => (trials i).took + delayAfter o trials i + (trials i).late).sum

/-- The report is what happened, within the options. -/
structure Disciplined (r : RetryReport α) : Prop where
  attempts : 1 ≤ r.totalAttempts ∧ r.totalAttempts ≤ o.retries + 1
  /-- Only retryable failures were followed by another try. -/
  retried : ∀ i, i + 1 < r.totalAttempts →
    ∃ error, (trials i).result = .error error ∧ o.retryable error = true
  /-- By default no request is repeated that the other side refused. -/
  transient : o.shouldRetry = none → ∀ i, i + 1 < r.totalAttempts → ∀ error status,
    (trials i).result = .error error → extractHttpStatus error = some status →
      status ∈ retryableHttpStatuses
  /-- The caller gets what the last try ended with. -/
  last : r.result = (trials (r.totalAttempts - 1)).result
  success : r.outcome = .success ↔ ∃ a, r.result = .ok a
  nonRetryable : r.outcome = .nonRetryable ↔
    ∃ error, r.result = .error error ∧ o.retryable error = false
  exhausted : r.outcome = .exhausted ↔
    ∃ error, r.result = .error error ∧ o.retryable error = true ∧ r.totalAttempts = o.retries + 1
  budgetExceeded : r.outcome = .budgetExceeded ↔
    ∃ error, r.result = .error error ∧ o.retryable error = true ∧ r.totalAttempts ≤ o.retries ∧
      o.budget < r.durationMs + delayAfter o trials (r.totalAttempts - 1)
  slept : r.slept = (List.range (r.totalAttempts - 1)).map (delayAfter o trials)
  duration : r.durationMs =
    startOf o trials (r.totalAttempts - 1) + (trials (r.totalAttempts - 1)).took
  /-- No try is made after the budget, but for how late its timer was. -/
  inTime : r.slept.sum ≤ o.budget ∧ ∀ i, i + 1 < r.totalAttempts →
    startOf o trials (i + 1) ≤ o.budget + (trials i).late

/-- The loop before try `s.attempt`. -/
structure RetryState.Sound (s : RetryState) : Prop where
  attempt : s.attempt ≤ o.retries
  retried : ∀ i < s.attempt,
    ∃ error, (trials i).result = .error error ∧ o.retryable error = true
  elapsed : s.elapsed = startOf o trials s.attempt
  slept : s.slept = (List.range s.attempt).map (delayAfter o trials)
  inTime : ∀ i < s.attempt, startOf o trials (i + 1) ≤ o.budget + (trials i).late
  total : s.slept.sum ≤ min o.budget s.elapsed

end

variable {α : Type} {o : RetryOptions} {trials : Nat → Trial α} {s s' : RetryState}

theorem startOf_succ (n : Nat) : startOf o trials (n + 1) =
    startOf o trials n + ((trials n).took + delayAfter o trials n + (trials n).late) := by
  simp [startOf, List.range_succ]

/-- A round asks for another only while there are retries left. -/
theorem attempt_of_again (hround : retryRound o trials s = .inr s') :
    s.attempt < o.retries ∧ s'.attempt = s.attempt + 1 := by
  simp only [retryRound] at hround
  split at hround
  · cases hround
  · split_ifs at hround with hretry hleft hbudget
    cases hround
    exact ⟨by omega, rfl⟩

theorem RetryState.Sound.next (h : s.Sound o trials) (hround : retryRound o trials s = .inr s') :
    s'.Sound o trials := by
  simp only [retryRound] at hround
  split at hround
  · cases hround
  · next error hresult =>
    split_ifs at hround with hretry hleft hbudget
    simp only [Sum.inr.injEq] at hround
    subst hround
    have hdelay : o.delayMs s.attempt (trials s.attempt).draw = delayAfter o trials s.attempt := rfl
    have helapsed := h.elapsed
    have hstart : startOf o trials (s.attempt + 1) = startOf o trials s.attempt +
        ((trials s.attempt).took + delayAfter o trials s.attempt + (trials s.attempt).late) :=
      startOf_succ s.attempt
    have htotal := h.total
    rw [hdelay] at hbudget
    refine ⟨by dsimp only; omega, fun i hi => ?_, ?_, ?_, fun i hi => ?_, ?_⟩
    · obtain hlt | rfl := Nat.lt_succ_iff_lt_or_eq.1 hi
      · exact h.retried i hlt
      · exact ⟨error, hresult, by simpa using hretry⟩
    · dsimp only
      omega
    · dsimp only
      rw [h.slept, List.range_succ, List.map_append]
      rfl
    · obtain hlt | rfl := Nat.lt_succ_iff_lt_or_eq.1 hi
      · exact h.inTime i hlt
      · omega
    · dsimp only
      rw [List.sum_append, List.sum_singleton, hdelay]
      omega

/-- Which outcome a report may have. -/
theorem RetryState.Sound.report {r : RetryReport α} (h : s.Sound o trials)
    (hlast : r.result = (trials s.attempt).result) (hattempts : r.totalAttempts = s.attempt + 1)
    (hduration : r.durationMs = s.elapsed + (trials s.attempt).took) (hslept : r.slept = s.slept)
    (success : r.outcome = .success ↔ ∃ a, r.result = .ok a)
    (nonRetryable : r.outcome = .nonRetryable ↔
      ∃ error, r.result = .error error ∧ o.retryable error = false)
    (exhausted : r.outcome = .exhausted ↔
      ∃ error, r.result = .error error ∧ o.retryable error = true ∧ s.attempt = o.retries)
    (budgetExceeded : r.outcome = .budgetExceeded ↔
      ∃ error, r.result = .error error ∧ o.retryable error = true ∧ s.attempt < o.retries ∧
        o.budget < r.durationMs + delayAfter o trials s.attempt) : Disciplined o trials r := by
  have hpred : r.totalAttempts - 1 = s.attempt := by omega
  have hle := h.attempt
  have htotal := h.total
  refine ⟨by omega, fun i hi => h.retried i (by omega), fun hdefault i hi error status hfailed => ?_,
    hpred ▸ hlast, success, nonRetryable, ?_,
    ?_, ?_, ?_, ?_, fun i hi => h.inTime i (by omega)⟩
  · obtain ⟨_, hresult, hretry⟩ := h.retried i (by omega)
    obtain rfl := Except.error.inj (hfailed.symm.trans hresult)
    rw [RetryOptions.retryable, hdefault] at hretry
    exact mem_statuses_of_classifyError hretry
  · rw [exhausted, hattempts]
    simp
  · rw [budgetExceeded, hpred, hattempts]
    rfl
  · rw [hslept, hpred, h.slept]
  · rw [hduration, hpred, h.elapsed]
  · rw [hslept]
    omega

theorem RetryState.Sound.ended {r : RetryReport α} (h : s.Sound o trials)
    (hround : retryRound o trials s = .inl r) : Disciplined o trials r := by
  have hle := h.attempt
  simp only [retryRound] at hround
  split at hround
  · next a hresult =>
    cases hround
    exact h.report rfl rfl rfl rfl (by simp [hresult]) (by simp [hresult]) (by simp [hresult])
      (by simp [hresult])
  · next error hresult =>
    cases hretry : o.retryable error with
    | false =>
      rw [if_pos hretry] at hround
      cases hround
      exact h.report rfl rfl rfl rfl (by simp [hresult]) (by simp [hresult, hretry])
        (by simp [hresult, hretry]) (by simp [hresult, hretry])
    | true =>
      rw [if_neg (by simp [hretry])] at hround
      split_ifs at hround with hleft hbudget
      · cases hround
        have hlast : s.attempt = o.retries := by omega
        exact h.report rfl rfl rfl rfl (by simp [hresult]) (by simp [hresult, hretry])
          ⟨fun _ => ⟨error, hresult, hretry, hlast⟩, fun _ => rfl⟩
          ⟨nofun, fun ⟨_, _, _, hless, _⟩ => absurd hlast hless.ne⟩
      · cases hround
        have hmore : s.attempt < o.retries := by omega
        have hover : o.budget <
            s.elapsed + (trials s.attempt).took + delayAfter o trials s.attempt := hbudget
        exact h.report rfl rfl rfl rfl (by simp [hresult]) (by simp [hresult, hretry])
          (by simp [hresult, hmore.ne]) (by simp [hresult, hretry, hmore, hover])

/-- Whatever the tries meet, `retryAsync` ends, and its report is what happened. -/
theorem retryAsync_disciplined (o : RetryOptions) (trials : Nat → Trial α) :
    ∃ r, retryAsync o trials = some r ∧ Disciplined o trials r := by
  have hstart : RetryState.Sound o trials ⟨0, 0, []⟩ :=
    ⟨Nat.zero_le _, by simp, rfl, rfl, by simp, by simp⟩
  have hdecreases (s s' : RetryState) (hround : retryRound o trials s = .inr s') :
      o.retries - s'.attempt < o.retries - s.attempt := by
    have hattempt := attempt_of_again hround
    omega
  obtain ⟨r, hr⟩ := Option.isSome_iff_exists.1 <| Retry.loop_isSome
    (fun s : RetryState => o.retries - s.attempt) hdecreases (o.retries + 1) ⟨0, 0, []⟩
    (Nat.lt_succ_self _)
  obtain ⟨n, s, -, hagain, hended⟩ := Retry.loop_eq_some_iff.1 hr
  exact ⟨r, hr, (hagain.invariant hstart fun _ _ h hround => h.next hround).ended hended⟩

end Amana.Backend
