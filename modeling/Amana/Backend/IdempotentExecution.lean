import Amana.Backend.Idempotency

/-!
# Executions under one key

The lock of `ACQUIRE` lasts 30 seconds, has no owner and is deleted by `finish`, `close` and by
every commit, so it can be free while the handler it was taken for is at work.  As long as
`ACQUIRE` never takes it then, two handlers of one key that answer 2xx are more than the lifetime
of the cache apart (`executed_once`).
-/

namespace Amana.Backend.Idempotency

open Lib Lib.Expiring RequestState
open Lib.Database (Connection)

variable {B : Type} {json : Json B} {s : State B} {id : RequestId} {now : Nat}
  {keys : IdempotencyKeys B} {r : RequestState B} {event : Event B}
  {after : RequestState B × IdempotencyKeys B}

/-- The middleware acts on both, and they have the same method, path and key. -/
def Request.Twin (r q : Request B) : Prop :=
  r.method = q.method ∧ r.path = q.path ∧ r.key = q.key ∧ r.key.isSome = true

instance (r q : Request B) : Decidable (r.Twin q) := by
  unfold Request.Twin
  infer_instance

/-- The handler answered 2xx. -/
def RequestState.Executed (r : RequestState B) (time : Nat) : Prop :=
  ∃ response, r.answer = some ⟨.handler, response, time⟩ ∧
    200 ≤ response.status ∧ response.status < 300

def cacheLifetimeMs : Nat := 1000 * idempotencyTtl

/-- Two executions of one key that answer 2xx are more than the lifetime of the cache apart. -/
def ExecutedOnce (s : State B) : Prop :=
  ∀ id id' r q time time', id ≠ id' → s.requests.get id = some r → s.requests.get id' = some q →
    r.request.Twin q.request → r.Executed time → q.Executed time' →
    time + cacheLifetimeMs < time' ∨ time' + cacheLifetimeMs < time

def Phase.execution : Phase → Option Execution
  | .handling execution => execution
  | _ => none

/-- It is answered, and its response is not on its way to the cache. -/
def RequestState.Settled (r : RequestState B) : Prop :=
  r.answer.isSome = true ∧ ∀ command ∈ r.commands, command = .del

/-- The handler of a request that took the lock has not answered, or its response is on its way
to the cache. -/
def RequestState.AtWork (r : RequestState B) : Prop :=
  r.phase.execution.isSome = true ∧ ¬ r.Settled

instance [DecidableEq B] (r : RequestState B) : Decidable r.AtWork := by
  unfold AtWork Settled
  infer_instance

/-- `ACQUIRE` takes the lock for the request. -/
def RequestState.Takes (now : Nat) (keys : IdempotencyKeys B) (r : RequestState B) : Prop :=
  r.phase = .acquiring ∧ ∃ key ∈ r.request.key,
    (keys.live now (cacheKey r.request key)).isNone = true ∧
      (keys.live now (lockKey r.request key)).isNone = true

/-- If a request takes the lock, no other request of its key is at work. -/
def NotOvertaking (s : State B) : Activity B → Prop
  | .event id (.acquire .heard) => ∀ r ∈ s.requests.get id, r.Takes s.now s.keys →
    ∀ id' ∈ s.requests.keys, id' ≠ id → ∀ q ∈ s.requests.get id', r.request.Twin q.request →
      ¬ q.AtWork
  | _ => True

instance (r : RequestState B) : Decidable (r.Takes now keys) := by
  unfold Takes
  infer_instance

instance [DecidableEq B] (s : State B) (a : Activity B) : Decidable (NotOvertaking s a) := by
  induction a using Activity.casesOn with
  | event id e =>
    induction e using Event.casesOn with
    | acquire connection =>
      induction connection using Connection.casesOn <;> dsimp only [NotOvertaking] <;> infer_instance
    | _ => exact .isTrue trivial
  | _ => exact .isTrue trivial

theorem Request.Twin.symm {r q : Request B} (h : r.Twin q) : q.Twin r :=
  ⟨h.1.symm, h.2.1.symm, h.2.2.1.symm, h.2.2.1 ▸ h.2.2.2⟩

theorem Request.Twin.cacheKey_eq {r q : Request B} (h : r.Twin q) (key : String) :
    cacheKey r key = cacheKey q key := by
  show "idempotency:" ++ (r.method ++ ":" ++ r.path ++ ":" ++ key) = _
  rw [h.1, h.2.1]
  rfl

/-! ### One request -/

/-- A request the middleware acts on is handled under its lock only; `now` is the time. -/
structure RequestState.Guarded (now : Nat) (r : RequestState B) : Prop where
  guarded : r.request.key.isSome = true → r.phase ≠ .handling none
  began : ∀ execution, r.phase = .handling (some execution) →
    execution.acquiredAt ≤ now ∧ (r.answer = none → execution.responseCached = false)
  answered : r.request.key.isSome = true → ∀ response time,
    r.answer = some ⟨.handler, response, time⟩ → ∃ execution,
      r.phase = .handling (some execution) ∧ execution.acquiredAt ≤ time ∧ time ≤ now

theorem RequestState.Guarded.later (h : r.Guarded now) {t : Nat} (le : now ≤ t) : r.Guarded t := by
  refine ⟨h.guarded, fun execution hphase => ?_, fun hkey response time hanswer => ?_⟩
  · have hbegan := h.began execution hphase
    exact ⟨hbegan.1.trans le, hbegan.2⟩
  · obtain ⟨execution, hphase, hlow, hhigh⟩ := h.answered hkey response time hanswer
    exact ⟨execution, hphase, hlow, hhigh.trans le⟩

theorem guarded_arrived (request : Request B) : (arrived request).Guarded now := by
  constructor
  · intro hkey hphase
    have hkey' : request.key.isSome = true := hkey
    simp [arrived, hkey'] at hphase
  · intro execution hphase
    exfalso
    simp only [arrived] at hphase
    split at hphase
    · cases hphase
    · cases hphase
  · intro _ response time hanswer
    cases hanswer

theorem not_handling_of_waits {phase : Phase} (h : phase.Waits) :
    ∀ execution, phase ≠ .handling execution := by
  rintro _ rfl
  exact h

/-- The cache key of a request holds no lock. -/
def Ungarbled (keys : IdempotencyKeys B) (request : Request B) : Prop :=
  ∀ key deadline, request.key = some key → keys (cacheKey request key) ≠ some ⟨.lock, deadline⟩

theorem Sound.ungarbled (sound : Sound json s) (request : Request B) :
    Ungarbled s.keys request := by
  intro key deadline hkey hlock
  obtain ⟨other, key', -, hcollide⟩ := sound.lock _ _ hlock
  exact cacheKey_ne_lockKey hkey hcollide

theorem Ungarbled.not_live {key : String} {deadline : Option Nat}
    (h : Ungarbled keys r.request) (hkey : r.request.key = some key) :
    keys.live now (cacheKey r.request key) ≠ some ⟨.lock, deadline⟩ := fun found =>
  h key deadline hkey (Option.filter_eq_some_iff.1 found).1

theorem all_del_concat {commands : List (Command B)} (h : ∀ command ∈ commands, command = .del) :
    ∀ command ∈ commands ++ [.del], command = .del := by
  intro command hc
  rcases List.mem_append.1 hc with hc | hc
  · exact h command hc
  · exact List.mem_singleton.1 hc

/-- What goes on with a request whose handler works under the lock. -/
theorem Handled.holder (h : Handled json id now keys r event after) {execution : Execution}
    (hphase : r.phase = .handling (some execution)) :
    ∃ next, after.1.phase = .handling (some next) ∧ next.acquiredAt = execution.acquiredAt ∧
      (after.1.answer = none → next.responseCached = execution.responseCached) ∧
      (r.Settled → after.1.Settled ∧ after.1.answer = r.answer) := by
  have busy {goal : Prop} (waits : r.phase.Waits) : goal := by
    rw [hphase] at waits
    exact waits.elim
  cases h with
  | idle => exact ⟨execution, hphase, rfl, fun _ => rfl, fun settled => ⟨settled, rfl⟩⟩
  | turned _ phase before hafter => exact busy before
  | lost connection key failed before hkey => exact busy (by rw [before]; trivial)
  | unseen connection failed before => exact busy before
  | garbled _ key deadline before hkey found => exact busy before
  | took key before hkey uncached free => exact busy (by rw [before]; trivial)
  | hit key cached deadline before hkey found => exact busy (by rw [before]; trivial)
  | followed key cached deadline last wake before woke hkey found =>
    exact busy (by rw [before]; trivial)
  | refused before => exact busy before
  | responded _ requestBody status body headers before unanswered =>
    have unsettled {goal : Prop} (settled : r.Settled) : goal := by
      have hanswered := settled.1
      rw [unanswered] at hanswered
      cases hanswered
    obtain ⟨same, -⟩ | ⟨other, hother, ⟨quiet, -⟩ | sent⟩ :=
      cacheResponse_cases json id requestBody status body headers r
    · rw [same]
      exact ⟨execution, hphase, rfl, fun _ => rfl, unsettled⟩
    · rw [hphase] at hother
      cases hother
      rw [quiet]
      exact ⟨_, rfl, rfl, nofun, unsettled⟩
    · rw [hphase] at hother
      cases hother
      rw [sent]
      exact ⟨_, rfl, rfl, nofun, unsettled⟩
  | released =>
    obtain same | ⟨other, hother, released⟩ := releaseLock_cases r
    · rw [same]
      exact ⟨execution, hphase, rfl, fun _ => rfl, fun settled => ⟨settled, rfl⟩⟩
    · rw [hphase] at hother
      cases hother
      rw [released]
      exact ⟨_, rfl, rfl, fun _ => rfl, fun settled => ⟨⟨settled.1, all_del_concat settled.2⟩, rfl⟩⟩
  | delivered n key command connection sent hkey =>
    have fewer (settled : r.Settled) : ∀ command ∈ r.commands.eraseIdx n, command = .del :=
      fun command hc => settled.2 command (List.mem_of_mem_eraseIdx hc)
    obtain same | more := deliver_cases now keys { r with commands := r.commands.eraseIdx n } key
      command connection
    · rw [same]
      exact ⟨execution, hphase, rfl, fun _ => rfl, fun settled => ⟨⟨settled.1, fewer settled⟩, rfl⟩⟩
    · rw [more]
      exact ⟨execution, hphase, rfl, fun _ => rfl,
        fun settled => ⟨⟨settled.1, all_del_concat (fewer settled)⟩, rfl⟩⟩

/-- A handler works under the lock since before, or the request took the lock. -/
theorem Handled.holder_cases (h : Handled json id now keys r event after) {next : Execution}
    (hphase : after.1.phase = .handling (some next)) :
    (∃ execution, r.phase = .handling (some execution)) ∨
      event = .acquire .heard ∧ r.Takes now keys ∧
        after.1 = { r with phase := .handling (some ⟨false, false, now⟩) } := by
  cases h with
  | idle => exact .inl ⟨next, hphase⟩
  | turned _ phase before hafter => exact absurd hphase (not_handling_of_waits hafter _)
  | lost connection key failed before hkey =>
    cases connection with
    | heard => exact absurd rfl failed
    | unheard => cases hphase
    | down => cases hphase
  | unseen => cases hphase
  | garbled => cases hphase
  | took key before hkey uncached free =>
    refine .inr ⟨rfl, ⟨before, key, hkey, ?_, ?_⟩, rfl⟩
    · rw [uncached]
      rfl
    · rw [free]
      rfl
  | hit key cached =>
    obtain ⟨hit, -⟩ | ⟨hit, -⟩ := cacheHit_cases json now cached r
    · rw [hit] at hphase
      cases hphase
    · rw [hit] at hphase
      cases hphase
  | followed => cases hphase
  | refused => cases hphase
  | responded _ requestBody status body headers =>
    left
    obtain ⟨same, -⟩ | ⟨other, hother, -⟩ :=
      cacheResponse_cases json id requestBody status body headers r
    · rw [same] at hphase
      exact ⟨next, hphase⟩
    · exact ⟨other, hother⟩
  | released =>
    left
    obtain same | ⟨other, hother, -⟩ := releaseLock_cases r
    · rw [same] at hphase
      exact ⟨next, hphase⟩
    · exact ⟨other, hother⟩
  | delivered n key command connection sent hkey =>
    left
    obtain same | more := deliver_cases now keys { r with commands := r.commands.eraseIdx n } key
      command connection
    · rw [same] at hphase
      exact ⟨next, hphase⟩
    · rw [more] at hphase
      exact ⟨next, hphase⟩

/-- While Redis is available, no request comes to be handled without protection. -/
theorem Handled.unprotected (h : Handled json id now keys r event after)
    (available : (Activity.event id event).Available) (ungarbled : Ungarbled keys r.request)
    (hphase : after.1.phase = .handling none) : r.phase = .handling none := by
  cases h with
  | idle => exact hphase
  | turned _ phase before hafter => exact absurd hphase (not_handling_of_waits hafter _)
  | lost connection key failed before hkey => exact absurd available failed
  | unseen connection failed before => exact absurd available failed
  | garbled _ key deadline before hkey found => exact absurd found (ungarbled.not_live hkey)
  | took => cases hphase
  | hit key cached =>
    obtain ⟨hit, -⟩ | ⟨hit, -⟩ := cacheHit_cases json now cached r
    · rw [hit] at hphase
      cases hphase
    · rw [hit] at hphase
      cases hphase
  | followed => cases hphase
  | refused => cases hphase
  | responded _ requestBody status body headers =>
    obtain ⟨same, -⟩ | ⟨other, hother, ⟨quiet, -⟩ | sent⟩ :=
      cacheResponse_cases json id requestBody status body headers r
    · rw [same] at hphase
      exact hphase
    · rw [quiet] at hphase
      cases hphase
    · rw [sent] at hphase
      cases hphase
  | released =>
    obtain same | ⟨other, hother, released⟩ := releaseLock_cases r
    · rw [same] at hphase
      exact hphase
    · rw [released] at hphase
      cases hphase
  | delivered n key command connection sent hkey =>
    obtain same | more := deliver_cases now keys { r with commands := r.commands.eraseIdx n } key
      command connection
    · rw [same] at hphase
      exact hphase
    · rw [more] at hphase
      exact hphase

/-- An answer of the handler is from before, or is given now. -/
theorem Handled.handler_cases (h : Handled json id now keys r event after)
    {response : Response B} {time : Nat}
    (hanswer : after.1.answer = some ⟨.handler, response, time⟩) :
    r.answer = some ⟨.handler, response, time⟩ ∨
      time = now ∧ ∃ execution, r.phase = .handling execution := by
  obtain hold | ⟨key, cached, deadline, -, -, -, -, hhit⟩ |
    ⟨key, cached, deadline, last, wake, -, -, -, -, -, hreplay⟩ | hprogress |
    ⟨execution, given, hphase, hgiven⟩ := h.answer_given hanswer
  · exact .inl hold
  · obtain ⟨hit, -⟩ | ⟨hit, -⟩ := cacheHit_cases json now cached r
    · rw [hit] at hhit
      cases hhit
    · rw [hit] at hhit
      cases hhit
  · cases hreplay
  · cases hprogress
  · cases hgiven
    exact .inr ⟨rfl, execution, hphase⟩

theorem RequestState.Guarded.handled (hg : r.Guarded now) (sound : r.Sound json id)
    (h : Handled json id now keys r event after)
    (available : (Activity.event id event).Available) (ungarbled : Ungarbled keys r.request) :
    after.1.Guarded now := by
  obtain ⟨onward, -⟩ := sound.handled h
  refine ⟨fun hkey hphase => ?_, fun next hphase => ?_, fun hkey response time hanswer => ?_⟩
  · rw [onward.1] at hkey
    exact hg.guarded hkey (h.unprotected available ungarbled hphase)
  · rcases h.holder_cases hphase with ⟨execution, hbefore⟩ | ⟨-, -, htook⟩
    · obtain ⟨next', hnext, hacquired, hcached, -⟩ := h.holder hbefore
      rw [hphase] at hnext
      cases hnext
      have hbegan := hg.began execution hbefore
      refine ⟨hacquired ▸ hbegan.1, fun hanswer => (hcached hanswer).trans (hbegan.2 ?_)⟩
      cases hr : r.answer with
      | none => rfl
      | some answer =>
        rw [onward.2 answer hr] at hanswer
        cases hanswer
    · rw [htook] at hphase
      cases hphase
      exact ⟨le_rfl, fun _ => rfl⟩
  · rw [onward.1] at hkey
    have began : ∃ execution, r.phase = .handling (some execution) ∧
        execution.acquiredAt ≤ time ∧ time ≤ now := by
      rcases h.handler_cases hanswer with hbefore | ⟨rfl, execution, hphase⟩
      · exact hg.answered hkey response time hbefore
      · cases execution with
        | none => exact absurd hphase (hg.guarded hkey)
        | some execution => exact ⟨execution, hphase, (hg.began execution hphase).1, le_rfl⟩
    obtain ⟨execution, hphase, hlow, hhigh⟩ := began
    obtain ⟨next, hnext, hacquired, -⟩ := h.holder hphase
    exact ⟨next, hnext, hacquired ▸ hlow, hhigh⟩

theorem mem_eraseIdx_of_ne {commands : List (Command B)} {n : Nat} {command other : Command B}
    (hn : commands[n]? = some command) (ne : other ≠ command) (h : other ∈ commands) :
    other ∈ commands.eraseIdx n := by
  obtain ⟨i, hi⟩ := List.mem_iff_getElem?.1 h
  refine List.mem_eraseIdx_iff_getElem?.2 ⟨i, ?_, hi⟩
  rintro rfl
  rw [hn] at hi
  exact ne (Option.some.inj hi).symm

/-- A handler whose response, a 2xx one, stops being on its way has it in the cache. -/
theorem Handled.settles (h : Handled json id now keys r event after) (hg : r.Guarded now)
    (available : (Activity.event id event).Available) {execution : Execution}
    (hphase : r.phase = .handling (some execution)) (before : ¬ r.Settled)
    (settled : after.1.Settled) {time : Nat} (executed : after.1.Executed time) :
    ∃ key v, r.request.key = some key ∧
      after.2 (cacheKey r.request key) = some ⟨v, some (now + cacheLifetimeMs)⟩ := by
  have busy {goal : Prop} (waits : r.phase.Waits) : goal := by
    rw [hphase] at waits
    exact waits.elim
  cases h with
  | idle => exact absurd settled before
  | turned _ phase before hafter => exact busy before
  | lost connection key failed before hkey => exact busy (by rw [before]; trivial)
  | unseen connection failed before => exact busy before
  | garbled _ key deadline before hkey found => exact busy before
  | took key before hkey uncached free => exact busy (by rw [before]; trivial)
  | hit key cached deadline before hkey found => exact busy (by rw [before]; trivial)
  | followed key cached deadline last wake before woke hkey found =>
    exact busy (by rw [before]; trivial)
  | refused before => exact busy before
  | responded _ requestBody status body headers _ unanswered =>
    exfalso
    obtain ⟨-, cached⟩ | ⟨other, hother, ⟨-, failed⟩ | sent⟩ :=
      cacheResponse_cases json id requestBody status body headers r
    · have fresh := (hg.began execution hphase).2 unanswered
      rw [cached execution hphase] at fresh
      cases fresh
    · obtain ⟨response, hanswer, hstatus⟩ := executed
      cases hanswer
      exact failed hstatus
    · rw [sent] at settled
      have hdel := settled.2 _ (List.mem_append_right _ (List.mem_singleton_self _))
      cases hdel
  | released =>
    exfalso
    obtain same | ⟨other, hother, released⟩ := releaseLock_cases r
    · rw [same] at settled
      exact before settled
    · rw [released] at settled
      exact before ⟨settled.1, fun command hc => settled.2 command (List.mem_append_left _ hc)⟩
  | delivered n key command connection sent hkey =>
    obtain rfl : connection = .heard := available
    cases command with
    | commit response =>
      refine ⟨key, .response response, hkey, ?_⟩
      show commitScript now keys (cacheKey r.request key) (lockKey r.request key) response
        idempotencyTtl (cacheKey r.request key) = _
      rw [commitScript, Keys.remove_of_ne _ (cacheKey_ne_lockKey hkey), Keys.put_same]
      rfl
    | del =>
      exfalso
      refine before ⟨settled.1, fun command hc => ?_⟩
      by_cases hdel : command = .del
      · exact hdel
      · exact settled.2 command (mem_eraseIdx_of_ne sent hdel hc)

/-- There is an entry in the cache that lasts until `time` at least. -/
def CachedUntil (keys : IdempotencyKeys B) (request : Request B) (time : Nat) : Prop :=
  ∀ key, request.key = some key → ∃ v deadline,
    keys (cacheKey request key) = some ⟨v, some deadline⟩ ∧ time ≤ deadline

/-- An entry in the cache is only ever replaced by one that lasts longer. -/
theorem Handled.cachedUntil (h : Handled json id now keys r event after) {request : Request B}
    {time : Nat} (le : time ≤ now + cacheLifetimeMs) (cached : CachedUntil keys request time) :
    CachedUntil after.2 request time := by
  intro key hkey
  obtain ⟨v, deadline, hk, hle⟩ := cached key hkey
  rcases h.keys_cases with same | ⟨other, -, removed | put | ⟨response, -, committed⟩⟩
  · rw [same]
    exact ⟨v, deadline, hk, hle⟩
  · rw [removed, Keys.remove_of_ne _ (cacheKey_ne_lockKey hkey)]
    exact ⟨v, deadline, hk, hle⟩
  · rw [put, Keys.put_of_ne _ _ _ (cacheKey_ne_lockKey hkey)]
    exact ⟨v, deadline, hk, hle⟩
  · rw [committed, commitScript, Keys.remove_of_ne _ (cacheKey_ne_lockKey hkey)]
    by_cases same : cacheKey request key = cacheKey r.request other
    · rw [same, Keys.put_same]
      exact ⟨_, _, rfl, le⟩
    · rw [Keys.put_of_ne _ _ _ same]
      exact ⟨v, deadline, hk, hle⟩

/-! ### All requests -/

/-- A request is settled, and was executed so long before `time` that the cache forgot it. -/
def RequestState.Past (time : Nat) (r : RequestState B) : Prop :=
  r.Settled ∧ ∀ executed, r.Executed executed → executed + cacheLifetimeMs < time

/-- Requests are handled under the lock, executions are remembered by the cache, and of two
executions of one key one was past when the other began. -/
structure Exclusive (s : State B) : Prop where
  guarded : ∀ id r, s.requests.get id = some r → r.Guarded s.now
  cached : ∀ id r execution time, s.requests.get id = some r →
    r.phase = .handling (some execution) → r.Settled → r.Executed time →
    CachedUntil s.keys r.request (time + cacheLifetimeMs)
  apart : ∀ id id' r q execution execution', id ≠ id' → s.requests.get id = some r →
    s.requests.get id' = some q → r.request.Twin q.request →
    r.phase = .handling (some execution) → q.phase = .handling (some execution') →
    r.Past execution'.acquiredAt ∨ q.Past execution.acquiredAt

theorem exclusive_start (now : Nat) : Exclusive (start now : State B) := by
  constructor
  · intro id r h
    cases h
  · intro id r execution time h
    cases h
  · intro id id' r q execution execution' _ h
    cases h

theorem Exclusive.began (h : Exclusive s) (hr : s.requests.get id = some r)
    (hkey : r.request.key.isSome = true) {time : Nat} (executed : r.Executed time) :
    ∃ execution, r.phase = .handling (some execution) ∧ execution.acquiredAt ≤ time ∧
      time ≤ s.now := by
  obtain ⟨response, hanswer, -⟩ := executed
  exact (h.guarded id r hr).answered hkey response time hanswer

theorem Exclusive.executedOnce (h : Exclusive s) : ExecutedOnce s := by
  intro id id' r q time time' ne hr hq twin executed executed'
  obtain ⟨execution, hphase, hlow, -⟩ := h.began hr twin.2.2.2 executed
  obtain ⟨execution', hphase', hlow', -⟩ := h.began hq twin.symm.2.2.2 executed'
  rcases h.apart id id' r q execution execution' ne hr hq twin hphase hphase' with past | past
  · have hpast := past.2 time executed
    left
    omega
  · have hpast := past.2 time' executed'
    right
    omega

/-- A handler works under the lock since before the step, or the request took the lock. -/
theorem holder_step {a : Activity B} {q : RequestState B} {next : Execution}
    (hq : (step json s a).requests.get id = some q) (hphase : q.phase = .handling (some next)) :
    (∃ r execution, s.requests.get id = some r ∧ r.phase = .handling (some execution) ∧
        next.acquiredAt = execution.acquiredAt ∧ q.request = r.request ∧
        (r.Settled → q.Settled ∧ q.answer = r.answer)) ∨
      a = .event id (.acquire .heard) ∧ ∃ r, s.requests.get id = some r ∧ r.Takes s.now s.keys ∧
        q = { r with phase := .handling (some ⟨false, false, s.now⟩) } := by
  rcases get_step hq with hq | ⟨request, -, -, rfl⟩ | ⟨r, event, rfl, hr, rfl⟩
  · exact .inl ⟨q, next, hq, hphase, rfl, rfl, fun settled => ⟨settled, rfl⟩⟩
  · exfalso
    simp only [arrived] at hphase
    split at hphase
    · cases hphase
    · cases hphase
  · have h := handled json id s.now s.keys r event
    rcases h.holder_cases hphase with ⟨execution, hbefore⟩ | ⟨rfl, takes, htook⟩
    · obtain ⟨next', hnext, hacquired, -, hsettled⟩ := h.holder hbefore
      rw [hphase] at hnext
      cases hnext
      exact .inl ⟨r, execution, hr, hbefore, hacquired, h.request, hsettled⟩
    · exact .inr ⟨rfl, r, hr, takes, htook⟩

theorem cachedUntil_step {request : Request B} {time : Nat} (le : time ≤ s.now + cacheLifetimeMs)
    (cached : CachedUntil s.keys request time) (a : Activity B) :
    CachedUntil (step json s a).keys request time := by
  cases a with
  | elapse ms => exact cached
  | arrive id other =>
    rw [step]
    split
    · exact cached
    · exact cached
  | event id event =>
    cases hr : s.requests.get id with
    | none =>
      rw [step_event_none json event hr]
      exact cached
    | some r =>
      rw [step_event json event hr]
      exact (handled json id s.now s.keys r event).cachedUntil le cached

theorem guarded_step (sound : Sound json s) (h : Exclusive s) {a : Activity B}
    (available : a.Available) {q : RequestState B}
    (hq : (step json s a).requests.get id = some q) : q.Guarded (step json s a).now := by
  have later : s.now ≤ (step json s a).now := by
    cases a with
    | elapse ms => exact Nat.le_add_right ..
    | arrive other request =>
      rw [step]
      split
      · exact le_rfl
      · exact le_rfl
    | event other event =>
      rw [step]
      split
      · exact le_rfl
      · exact le_rfl
  refine RequestState.Guarded.later ?_ later
  rcases get_step hq with hq | ⟨request, -, -, rfl⟩ | ⟨r, event, rfl, hr, rfl⟩
  · exact h.guarded id q hq
  · exact guarded_arrived request
  · exact (h.guarded id r hr).handled (sound.request id r hr)
      (handled json id s.now s.keys r event) available (sound.ungarbled r.request)

/-- A request that takes the lock finds the settled executions of its key forgotten. -/
theorem Exclusive.past_of_takes (h : Exclusive s) (takes : r.Takes s.now s.keys) {id' : RequestId}
    {q : RequestState B} (hq : s.requests.get id' = some q) (twin : r.request.Twin q.request)
    {execution : Execution} (hphase : q.phase = .handling (some execution)) (settled : q.Settled) :
    q.Past s.now := by
  refine ⟨settled, fun time executed => ?_⟩
  obtain ⟨-, key, hkey, uncached, -⟩ := takes
  have hkey' : q.request.key = some key := twin.2.2.1 ▸ hkey
  obtain ⟨v, deadline, hk, hle⟩ := h.cached id' q execution time hq hphase settled executed key hkey'
  rw [twin.cacheKey_eq key, Option.isNone_iff_eq_none, Keys.live, hk] at uncached
  have gone : ¬ s.now ≤ deadline := by simpa [Option.filter, Entry.alive] using uncached
  omega

theorem RequestState.Past.onward {q : RequestState B} {time : Nat} (h : r.Past time)
    (on : r.Settled → q.Settled ∧ q.answer = r.answer) : q.Past time := by
  obtain ⟨settled, hanswer⟩ := on h.1
  refine ⟨settled, fun executed hexecuted => h.2 executed ?_⟩
  rw [RequestState.Executed, ← hanswer]
  exact hexecuted

theorem cached_step (sound : Sound json s) (h : Exclusive s) {a : Activity B}
    (available : a.Available) {q : RequestState B} {next : Execution} {time : Nat}
    (hq : (step json s a).requests.get id = some q) (hphase : q.phase = .handling (some next))
    (settled : q.Settled) (executed : q.Executed time) :
    CachedUntil (step json s a).keys q.request (time + cacheLifetimeMs) := by
  intro key hkey
  rcases get_step hq with hq | ⟨request, -, -, rfl⟩ | ⟨r, event, rfl, hr, rfl⟩
  · obtain ⟨_, -, -, hle⟩ := h.began hq (by rw [hkey]; rfl) executed
    exact cachedUntil_step (by omega) (h.cached id q next time hq hphase settled executed) a key hkey
  · have hanswered := settled.1
    cases hanswered
  · have hhandled := handled json id s.now s.keys r event
    rw [hhandled.request] at hkey ⊢
    have hsound := sound.request id r hr
    rcases hhandled.holder_cases hphase with ⟨execution, hbefore⟩ | ⟨-, takes, htook⟩
    · by_cases hsettled : r.Settled
      · obtain ⟨-, -, -, -, hsame⟩ := hhandled.holder hbefore
        rw [RequestState.Executed, (hsame hsettled).2] at executed
        obtain ⟨_, -, -, hle⟩ := h.began hr (by rw [hkey]; rfl) executed
        exact cachedUntil_step (by omega)
          (h.cached id r execution time hr hbefore hsettled executed) (.event id event) key hkey
      · obtain ⟨key', v, hkey', hk⟩ := hhandled.settles (h.guarded id r hr) available hbefore
          hsettled settled executed
        rw [hkey] at hkey'
        cases hkey'
        have hguarded := (h.guarded id r hr).handled hsound hhandled available
          (sound.ungarbled r.request)
        obtain ⟨response, hanswer, -⟩ := executed
        obtain ⟨_, -, -, hle⟩ := hguarded.answered (by rw [hhandled.request, hkey]; rfl)
          response time hanswer
        rw [step_event json event hr]
        exact ⟨v, _, hk, by omega⟩
    · have hanswered := settled.1
      rw [htook, hsound.unanswered (by rw [takes.1]; trivial)] at hanswered
      cases hanswered

/-- Where a request takes the lock, the other executions of its key are past. -/
theorem Exclusive.past_of_own (h : Exclusive s) (own : NotOvertaking s (.event id (.acquire .heard)))
    (hr : s.requests.get id = some r) (takes : r.Takes s.now s.keys) {id' : RequestId}
    {q : RequestState B} {execution : Execution} (ne : id' ≠ id) (hq : s.requests.get id' = some q)
    (twin : r.request.Twin q.request) (hphase : q.phase = .handling (some execution)) :
    q.Past s.now := by
  have hmem : id' ∈ s.requests.keys := (s.requests.mem_keys id').2 (by rw [hq]; rfl)
  have idle : ¬ q.AtWork := own r hr takes id' hmem ne q hq twin
  refine h.past_of_takes takes hq twin hphase ?_
  by_contra unsettled
  exact idle ⟨by rw [hphase]; rfl, unsettled⟩

theorem apart_step (h : Exclusive s) {a : Activity B} (own : NotOvertaking s a)
    {id' : RequestId} {r q : RequestState B} {next next' : Execution} (ne : id ≠ id')
    (hr : (step json s a).requests.get id = some r)
    (hq : (step json s a).requests.get id' = some q) (twin : r.request.Twin q.request)
    (hphase : r.phase = .handling (some next)) (hphase' : q.phase = .handling (some next')) :
    r.Past next'.acquiredAt ∨ q.Past next.acquiredAt := by
  rcases holder_step hr hphase with
    ⟨r₀, execution, hr₀, hbefore, hacquired, hrequest, on⟩ | ⟨rfl, r₀, hr₀, takes, rfl⟩
  · rw [hrequest] at twin
    rcases holder_step hq hphase' with
      ⟨q₀, execution', hq₀, hbefore', hacquired', hrequest', on'⟩ | ⟨rfl, q₀, hq₀, takes, rfl⟩
    · rw [hrequest'] at twin
      rw [hacquired, hacquired']
      rcases h.apart id id' r₀ q₀ execution execution' ne hr₀ hq₀ twin hbefore hbefore' with
        past | past
      · exact .inl (past.onward on)
      · exact .inr (past.onward on')
    · left
      cases hphase'
      exact (h.past_of_own own hq₀ takes ne hr₀ twin.symm hbefore).onward on
  · right
    rcases holder_step hq hphase' with
      ⟨q₀, execution', hq₀, hbefore', -, hrequest', on'⟩ | ⟨same, -⟩
    · rw [hrequest'] at twin
      cases hphase
      exact (h.past_of_own own hr₀ takes ne.symm hq₀ twin hbefore').onward on'
    · cases same
      exact absurd rfl ne

theorem exclusive_step (sound : Sound json s) (h : Exclusive s) {a : Activity B}
    (available : a.Available) (own : NotOvertaking s a) : Exclusive (step json s a) :=
  ⟨fun _ _ hq => guarded_step sound h available hq,
    fun _ _ _ _ hq hphase settled executed =>
      cached_step sound h available hq hphase settled executed,
    fun _ _ _ _ _ _ ne hr hq twin hphase hphase' =>
      apart_step h own ne hr hq twin hphase hphase'⟩

/-- Redis is available, and the lock is never taken while another request of its key is at
work. -/
theorem executed_once (json : Json B) (now : Nat) (as : List (Activity B))
    (available : ∀ a ∈ as, a.Available)
    (own : ∀ p ∈ Machine.trail (step json) (start now) as, NotOvertaking p.1 p.2) :
    ∀ bs, bs <+: as → ExecutedOnce (run json now bs) := by
  intro bs hbs
  have hboth : Sound json (run json now bs) ∧ Exclusive (run json now bs) := by
    refine Machine.run_invariant (step json) (P := fun s => Sound json s ∧ Exclusive s)
      ⟨sound_start json now, exclusive_start now⟩ fun p hp hkeep => ?_
    have hmem : p.2 ∈ as := hbs.subset (Machine.mem_of_mem_trail (step json) hp)
    exact ⟨sound_step hkeep.1 p.2, exclusive_step hkeep.1 hkeep.2 (available p.2 hmem)
      (own p (Machine.trail_of_isPrefix (step json) hbs hp))⟩
  exact hboth.2.executedOnce

namespace Sample

/-- A request and its repetition. -/
def repeated : List (Activity String) :=
  [.arrive first (request "1"), .event first (.acquire .heard),
    .event first (.respond (some "1") 201 (some "trade of 1") []), .event first (.deliver 0 .heard),
    .event first .finish, .arrive second (request "1"), .event second (.acquire .heard)]

/-- A repetition comes in while the handler of the first request works for more than 30
seconds. -/
def overdue : List (Activity String) :=
  [.arrive first (request "1"), .event first (.acquire .heard), .elapse 30001,
    .arrive second (request "1"), .event second (.acquire .heard),
    .event second (.respond (some "1") 201 (some "trade of 1") []),
    .event first (.respond (some "1") 201 (some "trade of 1") [])]

end Sample

theorem executed_once_repeated : ExecutedOnce (run Sample.plain 0 Sample.repeated) :=
  executed_once Sample.plain 0 Sample.repeated (by decide) (by decide +kernel)
    Sample.repeated List.prefix_rfl

/-- Both handlers answer 201 at the same time. -/
theorem not_executed_once : ¬ ExecutedOnce (run Sample.plain 0 Sample.overdue) := by
  intro h
  have hanswer : ∀ id ∈ [Sample.first, Sample.second],
      ((run Sample.plain 0 Sample.overdue).requests.get id).map
        (fun r => (r.request, r.answer)) =
      some (Sample.request "1", some ⟨.handler, ⟨201, some "trade of 1", []⟩, 30001⟩) := by
    decide +kernel
  obtain ⟨r, hr, hr'⟩ := Option.map_eq_some_iff.1 (hanswer Sample.first (by simp))
  obtain ⟨q, hq, hq'⟩ := Option.map_eq_some_iff.1 (hanswer Sample.second (by simp))
  obtain ⟨hrequest, hexecuted⟩ := Prod.mk.inj hr'
  obtain ⟨hrequest', hexecuted'⟩ := Prod.mk.inj hq'
  have hapart := h Sample.first Sample.second r q 30001 30001 (by decide) hr hq
    (by rw [hrequest, hrequest']; decide +kernel) ⟨_, hexecuted, by decide, by decide⟩
    ⟨_, hexecuted', by decide, by decide⟩
  omega

end Amana.Backend.Idempotency
