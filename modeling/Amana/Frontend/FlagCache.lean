import Mathlib
import Amana.Lib.Machine

/-!
# The cache of feature flags

`fetchServerFlags` serves the flags of the last request that was answered, and starts another one in
the background once they are stale.  At most one request is in flight at any time, so that no answer
is replaced by an older one, and a request only starts when the flags at hand have outlived their
time (`flagCache_run`).  A request that fails is answered with the defaults of the catalog.
-/

namespace Amana.Frontend.FlagCache

open Lib Lib.Machine

inductive FlagName where
  | adminUI
  | clawbackUI
  | advancedReporting
  | offlineBanner
  | tradeWizardV2
  deriving DecidableEq

abbrev FeatureFlags := FlagName → Bool

/-- `FLAG_CATALOG`. -/
def flagCatalog : FeatureFlags
  | .adminUI => false
  | .clawbackUI => false
  | .advancedReporting => false
  | .offlineBanner => true
  | .tradeWizardV2 => false

/-- How the request for `/api/flags` ends.  `ok` has the flags of the answer, if it has any. -/
inductive FlagReply where
  | ok (flags : Option (FlagName → Option Bool))
  | notOk (status : Nat)
  | threw

def mergeFlagsWithDefaults (partialFlags : FlagName → Option Bool) : FeatureFlags := fun key =>
  (partialFlags key).getD (flagCatalog key)

def catalogDefaults : FeatureFlags := mergeFlagsWithDefaults fun _ => none

/-- What `fetchFlagsFromServer` resolves to; it never throws. -/
def FlagReply.flags : FlagReply → FeatureFlags
  | ok flags => mergeFlagsWithDefaults (flags.getD fun _ => none)
  | notOk _ => catalogDefaults
  | threw => catalogDefaults

/-- Whether the reply counts as an error. -/
def FlagReply.isError : FlagReply → Bool
  | ok _ => false
  | notOk _ => true
  | threw => true

/-- `SERVER_FLAGS_TTL_MS`. -/
def serverFlagsTtlMs : Nat := 30000

structure CacheEntry where
  flags : FeatureFlags
  fetchedAt : Nat
  revalidating : Bool

structure Counters where
  hits : Nat
  misses : Nat
  staleServes : Nat
  inFlightDedupes : Nat
  serverRequests : Nat
  serverErrors : Nat
  lastLookupAt : Option Nat

/-- `totalLookups`. -/
def Counters.totalLookups (c : Counters) : Nat :=
  c.hits + c.misses + c.staleServes + c.inFlightDedupes

/-- Why a request was started: no flags are at hand, or stale ones. -/
inductive FlagRequest where
  | coldStart
  | revalidation
  deriving DecidableEq

/-- The variables of the module, and the requests that are not answered yet. -/
structure FlagState where
  cache : Option CacheEntry
  inFlight : Bool
  counters : Counters
  requests : List FlagRequest

/-- What a lookup gets: flags at once, or those of the request that is in flight for a cold start. -/
inductive FlagAnswer where
  | served (flags : FeatureFlags)
  | awaits

inductive FlagStep where
  | lookup (now : Nat)
  /-- The request at the position is answered, and its flags are stored. -/
  | settled (i : Nat) (reply : FlagReply) (now : Nat)

def fetchServerFlags (s : FlagState) (now : Nat) : FlagState × FlagAnswer :=
  let counters := { s.counters with lastLookupAt := some now }
  match s.cache with
  | some entry =>
    if now < entry.fetchedAt + serverFlagsTtlMs then
      ({ s with counters := { counters with hits := counters.hits + 1 } }, .served entry.flags)
    else
      let counters := { counters with staleServes := counters.staleServes + 1 }
      if !entry.revalidating then
        ({ s with
            cache := some { entry with revalidating := true }
            counters := { counters with serverRequests := counters.serverRequests + 1 }
            requests := s.requests ++ [.revalidation] }, .served entry.flags)
      else ({ s with counters }, .served entry.flags)
  | none =>
    if s.inFlight then
      ({ s with counters := { counters with inFlightDedupes := counters.inFlightDedupes + 1 } },
        .awaits)
    else
      ({ s with
          inFlight := true
          counters := { counters with
            misses := counters.misses + 1
            serverRequests := counters.serverRequests + 1 }
          requests := s.requests ++ [.coldStart] }, .awaits)

def settle (s : FlagState) (i : Nat) (reply : FlagReply) (now : Nat) : FlagState :=
  match s.requests[i]? with
  | none => s
  | some request =>
    { cache := some ⟨reply.flags, now, false⟩
      inFlight := if request = .coldStart then false else s.inFlight
      counters := { s.counters with
        serverErrors := s.counters.serverErrors + if reply.isError then 1 else 0 }
      requests := s.requests.eraseIdx i }

def flagStep (s : FlagState) : FlagStep → FlagState
  | .lookup now => (fetchServerFlags s now).1
  | .settled i reply now => settle s i reply now

/-- The module as it is loaded. -/
def FlagState.fresh : FlagState := ⟨none, false, ⟨0, 0, 0, 0, 0, 0, none⟩, []⟩

def flagsAfter (as : List FlagStep) : FlagState := run flagStep .fresh as

/-- The last reply that was stored, and when. -/
def settlement (s : FlagState) : FlagStep → Option (FlagReply × Nat)
  | .lookup _ => none
  | .settled i reply now => s.requests[i]?.map fun _ => (reply, now)

/-- The replies that were stored, in order. -/
def settlements (as : List FlagStep) : List (FlagReply × Nat) :=
  (trail flagStep .fresh as).filterMap fun p => settlement p.1 p.2

/-- How many lookups there were. -/
def lookups (as : List FlagStep) : Nat :=
  as.countP fun
    | .lookup _ => true
    | .settled .. => false

/-- The cache all along a run. -/
structure CacheHolds (as : List FlagStep) : Prop where
  /-- At most one request is in flight. -/
  single : (flagsAfter as).requests.length ≤ 1
  /-- Every lookup counts once, and starts one request at most. -/
  counted : (flagsAfter as).counters.totalLookups = lookups as ∧
    (flagsAfter as).counters.serverRequests =
      (settlements as).length + (flagsAfter as).requests.length ∧
    (flagsAfter as).counters.serverRequests ≤ lookups as ∧
    (flagsAfter as).counters.serverErrors = (settlements as).countP fun r => r.1.isError
  /-- A lookup gets the flags of the last reply at once, and waits as long as there is none. -/
  latest : ∀ now, (fetchServerFlags (flagsAfter as) now).2 =
    match (settlements as).getLast? with
    | some (reply, _) => .served reply.flags
    | none => .awaits
  /-- A lookup starts a request exactly when none is in flight and the last reply has outlived its
  time. -/
  spaced : ∀ now, (fetchServerFlags (flagsAfter as) now).1.requests ≠ (flagsAfter as).requests ↔
    (flagsAfter as).requests = [] ∧
      ∀ r ∈ (settlements as).getLast?, r.2 + serverFlagsTtlMs ≤ now

variable {s : FlagState} {as : List FlagStep} {rs : List (FlagReply × Nat)} {n now : Nat}

/-- The cache against the replies that were stored: it holds the last one, and what is in flight is
either the request of the cold start or one revalidation. -/
def Coherent (s : FlagState) (rs : List (FlagReply × Nat)) : Prop :=
  match s.cache with
  | none => rs = [] ∧ s.requests = if s.inFlight then [.coldStart] else []
  | some entry => s.inFlight = false ∧
      s.requests = (if entry.revalidating then [.revalidation] else []) ∧
        ∃ r, rs.getLast? = some r ∧ entry.flags = r.1.flags ∧ entry.fetchedAt = r.2

/-- The counters against the lookups and the replies. -/
structure Counted (s : FlagState) (rs : List (FlagReply × Nat)) (n : Nat) : Prop where
  lookups : s.counters.totalLookups = n
  requests : s.counters.serverRequests = rs.length + s.requests.length
  few : s.counters.serverRequests ≤ n
  errors : s.counters.serverErrors = rs.countP fun r => r.1.isError

theorem Coherent.length_le (h : Coherent s rs) : s.requests.length ≤ 1 := by
  unfold Coherent at h
  split at h
  · rw [h.2]
    split <;> simp
  · rw [h.2.1]
    split <;> simp

theorem Coherent.fetch (h : Coherent s rs) (now : Nat) :
    Coherent (fetchServerFlags s now).1 rs := by
  unfold Coherent at h
  split at h
  · next hcache =>
    cases hflight : s.inFlight <;> simp_all [fetchServerFlags, Coherent]
  · next entry hcache =>
    obtain ⟨hflight, hrequests, r, hlast, hflags, htime⟩ := h
    simp only [fetchServerFlags, hcache]
    split_ifs with hfresh hidle <;> simp_all [Coherent]

theorem Coherent.settle (h : Coherent s rs) (i : Nat) (reply : FlagReply) (now : Nat) :
    Coherent (settle s i reply now) (rs ++ (settlement s (.settled i reply now)).toList) := by
  unfold FlagCache.settle settlement
  cases hfound : s.requests[i]? with
  | none => simpa [hfound] using h
  | some request =>
    unfold Coherent at h
    split at h
    · obtain ⟨-, hrequests⟩ := h
      cases hflight : s.inFlight with
      | false => simp [hrequests, hflight] at hfound
      | true =>
        rw [hrequests, hflight] at hfound ⊢
        cases i <;> simp_all [Coherent]
    · next entry _ =>
      obtain ⟨hflight, hrequests, -⟩ := h
      cases hrevalidating : entry.revalidating with
      | false => simp [hrequests, hrevalidating] at hfound
      | true =>
        rw [hrequests, hrevalidating] at hfound ⊢
        cases i <;> simp_all [Coherent]

theorem Counted.fetch (h : Counted s rs n) (now : Nat) :
    Counted (fetchServerFlags s now).1 rs (n + 1) := by
  obtain ⟨hlookups, hrequests, hfew, herrors⟩ := h
  simp only [Counters.totalLookups] at hlookups
  simp only [fetchServerFlags]
  split
  · split_ifs <;> refine ⟨?_, ?_, ?_, herrors⟩ <;> simp [Counters.totalLookups] <;> omega
  · split_ifs <;> refine ⟨?_, ?_, ?_, herrors⟩ <;> simp [Counters.totalLookups] <;> omega

theorem Counted.settle (h : Counted s rs n) (i : Nat) (reply : FlagReply) (now : Nat) :
    Counted (settle s i reply now) (rs ++ (settlement s (.settled i reply now)).toList) n := by
  unfold FlagCache.settle settlement
  cases hfound : s.requests[i]? with
  | none => simpa [hfound] using h
  | some request =>
    obtain ⟨hlt, -⟩ := List.getElem?_eq_some_iff.1 hfound
    obtain ⟨hlookups, hrequests, hfew, herrors⟩ := h
    refine ⟨hlookups, ?_, hfew, ?_⟩
    · simp [List.length_eraseIdx, hlt]
      omega
    · simp [herrors, List.countP_append, List.countP_singleton, hfound]

theorem settlements_snoc (a : FlagStep) : settlements (as ++ [a]) =
    settlements as ++ (settlement (flagsAfter as) a).toList := by
  rw [settlements, trail_snoc, List.filterMap_append, flagsAfter]
  cases h : settlement (run flagStep .fresh as) a <;> simp [settlements, h]

theorem coherent_run (as : List FlagStep) :
    Coherent (flagsAfter as) (settlements as) ∧
      Counted (flagsAfter as) (settlements as) (lookups as) := by
  induction as using List.reverseRecOn with
  | nil => exact ⟨⟨rfl, rfl⟩, rfl, rfl, le_rfl, rfl⟩
  | append_singleton as a ih =>
    obtain ⟨hcoherent, hcounted⟩ := ih
    rw [settlements_snoc, flagsAfter, run_snoc, ← flagsAfter]
    cases a with
    | lookup now =>
      have hlookups : lookups (as ++ [.lookup now]) = lookups as + 1 := by simp [lookups]
      rw [hlookups]
      exact ⟨by simpa [settlement, flagStep] using hcoherent.fetch now,
        by simpa [settlement, flagStep] using hcounted.fetch now⟩
    | settled i reply now =>
      have hlookups : lookups (as ++ [.settled i reply now]) = lookups as := by simp [lookups]
      rw [hlookups]
      exact ⟨hcoherent.settle i reply now, hcounted.settle i reply now⟩

/-- Whatever is looked up and however requests end, the cache holds. -/
theorem flagCache_run (as : List FlagStep) : CacheHolds as := by
  obtain ⟨hcoherent, hlookups, hrequests, hfew, herrors⟩ := coherent_run as
  refine ⟨hcoherent.length_le, ⟨hlookups, hrequests, hfew, herrors⟩, fun now => ?_, fun now => ?_⟩
  · unfold Coherent at hcoherent
    split at hcoherent
    · next hcache =>
      rw [hcoherent.1]
      simp only [fetchServerFlags, hcache]
      split <;> rfl
    · next entry hcache =>
      obtain ⟨-, -, r, hlast, hflags, -⟩ := hcoherent
      rw [hlast]
      simp only [fetchServerFlags, hcache]
      split_ifs <;> rw [hflags]
  · unfold Coherent at hcoherent
    split at hcoherent
    · next hcache =>
      obtain ⟨hnone, hidle⟩ := hcoherent
      rw [hnone]
      cases hflight : (flagsAfter as).inFlight <;> simp_all [fetchServerFlags]
    · next entry hcache =>
      obtain ⟨-, hidle, r, hlast, -, htime⟩ := hcoherent
      rw [hlast]
      simp only [fetchServerFlags, hcache, Option.mem_some_iff, forall_eq', ← htime]
      by_cases hfresh : now < entry.fetchedAt + serverFlagsTtlMs
      · simp only [if_pos hfresh, ne_eq, not_true_eq_false, false_iff, not_and]
        omega
      · have hstale := not_lt.1 hfresh
        cases hrevalidating : entry.revalidating <;>
          simp [hfresh, hstale, hidle, hrevalidating]

end Amana.Frontend.FlagCache
