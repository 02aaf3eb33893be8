import Amana.Lib.Database
import Amana.Lib.Expiring
import Amana.Lib.Machine
import Amana.Lib.Store

/-!
# Requests with an idempotency key

`middleware/idempotency.ts`.  The requests of all pods share one Redis.  Each waits for one thing
at a time: the answer to `ACQUIRE`, its next look at the cache, its handler; besides, commands it
does not wait for can be on their way.  An event of a request looks at that request, the clock and
Redis only (`handle`).  Times are in milliseconds.

What an event can do is listed in `Handled`; `handled` says that there is nothing else.
-/

namespace Amana.Backend.Idempotency

open Lib Lib.Expiring
open Lib.Database (Connection)

variable {B : Type}

/-- Bodies, how an error is written as one, `JSON.stringify` and the digest. -/
structure Json (B : Type) where
  null : B
  error : String → B
  stringify : B → String
  sha256 : String → String

/-- `none` stands for `undefined`. -/
def bodyHash (json : Json B) (body : Option B) : String :=
  json.sha256 (json.stringify (body.getD json.null))

/-- `IDEMPOTENCY_TTL`, in seconds. -/
def idempotencyTtl : Nat := 60 * 60 * 24

/-- `IDEMPOTENCY_LOCK_TTL`, in seconds. -/
def idempotencyLockTtl : Nat := 30

def inProgressPollMs : Nat := 25

def idempotencyInProgressMaxWaitMs : Nat := idempotencyLockTtl * 1000

structure Request (B : Type) where
  method : String
  path : String
  /-- The header `idempotency-key`. -/
  idempotencyKey : Option String
  body : Option B
  deriving DecidableEq, Repr

/-- The key, where the middleware does anything. -/
def Request.key (request : Request B) : Option String :=
  request.idempotencyKey.filter fun key =>
    key ≠ "" && ["POST", "PUT", "PATCH", "DELETE"].contains request.method

def cacheKey (request : Request B) (key : String) : String :=
  "idempotency:" ++ (request.method ++ ":" ++ request.path ++ ":" ++ key)

def lockKey (request : Request B) (key : String) : String :=
  "idempotency:lock:" ++ (request.method ++ ":" ++ request.path ++ ":" ++ key)

theorem Request.method_of_key {request : Request B} {key : String} (h : request.key = some key) :
    request.method ∈ ["POST", "PUT", "PATCH", "DELETE"] := by
  obtain ⟨-, h⟩ := Option.filter_eq_some_iff.1 h
  simpa using (Bool.and_eq_true_iff.1 h).2

theorem lockKey_eq_iff {request other : Request B} {key key' : String} :
    lockKey request key = lockKey other key' ↔ cacheKey request key = cacheKey other key' := by
  show "idempotency:lock:" ++ _ = "idempotency:lock:" ++ _ ↔ "idempotency:" ++ _ = "idempotency:" ++ _
  rw [String.append_right_inj, String.append_right_inj]

theorem cacheKey_ne_lockKey {request other : Request B} {key key' : String}
    (h : request.key = some key) : cacheKey request key ≠ lockKey other key' := by
  intro same
  have hlock : "idempotency:lock:" = "idempotency:" ++ "lock:" := rfl
  change "idempotency:" ++ _ = "idempotency:lock:" ++ _ at same
  rw [hlock, @String.append_assoc "idempotency:", String.append_right_inj] at same
  have hhead := congrArg (fun text => text.toList.head?) same
  have hmethod := Request.method_of_key h
  simp only [List.mem_cons, List.not_mem_nil, or_false] at hmethod
  rcases hmethod with hmethod | hmethod | hmethod | hmethod <;>
  · rw [hmethod] at hhead
    simp at hhead

/-- The caller that is authenticated, and which of their requests. -/
abbrev RequestId := String × Nat

/-- `requestBodyHash` is that of the body when the response was given, which `validateRequest` has
replaced where it checks the body.  `producer` is the request whose handler gave the response. -/
structure CachedResponse (B : Type) where
  status : Nat
  body : Option B
  headers : List (String × String)
  requestBodyHash : Option String
  producer : RequestId
  deriving DecidableEq, Repr

inductive Value (B : Type) where
  | lock
  | response (response : CachedResponse B)
  deriving DecidableEq, Repr

abbrev IdempotencyKeys (B : Type) := Keys String (Value B)

/-! ### The scripts -/

inductive Acquired (B : Type) where
  | cached (value : Value B)
  | one
  | zero
  deriving DecidableEq, Repr

/-- `IDEMPOTENCY_ACQUIRE_SCRIPT`. -/
def acquireScript (now : Nat) (keys : IdempotencyKeys B) (cacheKey lockKey : String)
    (seconds : Nat) : Acquired B × IdempotencyKeys B :=
  match keys.live now cacheKey with
  | some e => (.cached e.value, keys)
  | none =>
    if (keys.live now lockKey).isNone then
      (.one, keys.put lockKey .lock (some (now + 1000 * seconds)))
    else (.zero, keys)

/-- `IDEMPOTENCY_COMMIT_SCRIPT`. -/
def commitScript (now : Nat) (keys : IdempotencyKeys B) (cacheKey lockKey : String)
    (response : CachedResponse B) (seconds : Nat) : IdempotencyKeys B :=
  (keys.put cacheKey (.response response) (some (now + 1000 * seconds))).remove lockKey

/-! ### Requests -/

inductive Origin where
  /-- The handler behind `next()`. -/
  | handler
  | replay (producer : RequestId)
  | keyReused (producer : RequestId)
  | inProgress
  deriving DecidableEq, Repr

structure Response (B : Type) where
  status : Nat
  body : Option B
  headers : List (String × String)
  deriving DecidableEq, Repr

structure Answer (B : Type) where
  origin : Origin
  response : Response B
  /-- When it was given. -/
  time : Nat
  deriving DecidableEq, Repr

/-- The variables of the callbacks of a request that took the lock; `acquiredAt` is when. -/
structure Execution where
  lockReleased : Bool
  responseCached : Bool
  acquiredAt : Nat
  deriving DecidableEq, Repr

inductive Phase where
  /-- About to run `ACQUIRE`. -/
  | acquiring
  /-- At the head of the loop of `waitForCachedResponse`. -/
  | waiting (deadline : Nat)
  | sleeping (deadline wake : Nat)
  /-- `next()` was called, without protection if there is no `execution`. -/
  | handling (execution : Option Execution)
  /-- Answered by the middleware. -/
  | over
  deriving DecidableEq, Repr

/-- Commands on their way that nobody waits for. -/
inductive Command (B : Type) where
  | commit (response : CachedResponse B)
  | del
  deriving DecidableEq, Repr

structure RequestState (B : Type) where
  request : Request B
  phase : Phase
  answer : Option (Answer B)
  commands : List (Command B)
  deriving DecidableEq, Repr

inductive Event (B : Type) where
  | acquire (connection : Connection)
  /-- `Date.now() < deadline`. -/
  | check
  /-- The look at the cache after a sleep. -/
  | poll (connection : Connection)
  /-- The handler answers, by `res.json` or `res.send`; `requestBody` is `req.body` as it then is. -/
  | respond (requestBody : Option B) (status : Nat) (body : Option B)
      (headers : List (String × String))
  | finish
  | close
  /-- Command `n` of those on their way arrives, or is lost. -/
  | deliver (n : Nat) (connection : Connection)

def setHeader (headers : List (String × String)) (name value : String) : List (String × String) :=
  headers.filter (fun header => header.1.toLower ≠ name.toLower) ++ [(name, value)]

namespace RequestState

def arrived (request : Request B) : RequestState B :=
  ⟨request, if request.key.isSome then .acquiring else .handling none, none, []⟩

/-- `next()` without protection. -/
def pass (r : RequestState B) : RequestState B := { r with phase := .handling none }

def replay (now : Nat) (cached : CachedResponse B) (r : RequestState B) : RequestState B :=
  { r with
    phase := .over
    answer := some ⟨.replay cached.producer, ⟨cached.status, cached.body,
      setHeader (cached.headers.foldl (fun headers h => setHeader headers h.1 h.2) [])
        "X-Idempotency-Cache" "HIT"⟩, now⟩ }

def keyReused (json : Json B) (now : Nat) (cached : CachedResponse B) (r : RequestState B) :
    RequestState B :=
  { r with
    phase := .over
    answer := some ⟨.keyReused cached.producer, ⟨409,
      some (json.error "Idempotency key already used with a different request body"), []⟩, now⟩ }

def inProgress (json : Json B) (now : Nat) (r : RequestState B) : RequestState B :=
  { r with
    phase := .over
    answer := some ⟨.inProgress, ⟨409,
      some (json.error "Request with this idempotency key is already in progress"),
      [("X-Idempotency-Cache", "IN_PROGRESS")]⟩, now⟩ }

/-- The path that is taken when `ACQUIRE` finds a response. -/
def cacheHit (json : Json B) (now : Nat) (cached : CachedResponse B) (r : RequestState B) :
    RequestState B :=
  if cached.requestBodyHash ≠ none ∧ cached.requestBodyHash ≠ some (bodyHash json r.request.body)
  then r.keyReused json now cached
  else r.replay now cached

/-- What follows the answer of `ACQUIRE`.  A lock is no response: reading it as one fails. -/
def acquired (json : Json B) (now : Nat) (r : RequestState B) : Acquired B → RequestState B
  | .cached (.response cached) => r.cacheHit json now cached
  | .cached .lock => r.pass
  | .one => { r with phase := .handling (some ⟨false, false, now⟩) }
  | .zero => { r with phase := .waiting (now + idempotencyInProgressMaxWaitMs) }

def releaseLock (r : RequestState B) : RequestState B :=
  match r.phase with
  | .handling (some execution) =>
    if execution.lockReleased then r
    else
      { r with
        phase := .handling (some { execution with lockReleased := true })
        commands := r.commands ++ [.del] }
  | _ => r

def cacheResponse (json : Json B) (id : RequestId) (requestBody : Option B) (status : Nat)
    (body : Option B) (headers : List (String × String)) (r : RequestState B) : RequestState B :=
  match r.phase with
  | .handling (some execution) =>
    if execution.responseCached then r
    else if 200 ≤ status ∧ status < 300 then
      { r with
        phase := .handling (some { execution with responseCached := true, lockReleased := true })
        commands := r.commands ++
          [.commit ⟨status, body, headers, some (bodyHash json requestBody), id⟩] }
    else { r with phase := .handling (some { execution with responseCached := true }) }
  | _ => r

def respond (json : Json B) (id : RequestId) (now : Nat) (requestBody : Option B) (status : Nat)
    (body : Option B) (headers : List (String × String)) (r : RequestState B) : RequestState B :=
  match r.phase, r.answer with
  | .handling _, none =>
    { r.cacheResponse json id requestBody status body headers with
      answer := some ⟨.handler, ⟨status, body, headers⟩, now⟩ }
  | _, _ => r

end RequestState

open RequestState

def acquire (json : Json B) (now : Nat) (keys : IdempotencyKeys B) (r : RequestState B)
    (key : String) : Connection → RequestState B × IdempotencyKeys B
  | .down => (r.pass, keys)
  | .unheard =>
    (r.pass, (acquireScript now keys (cacheKey r.request key) (lockKey r.request key)
      idempotencyLockTtl).2)
  | .heard =>
    let ran := acquireScript now keys (cacheKey r.request key) (lockKey r.request key)
      idempotencyLockTtl
    (r.acquired json now ran.1, ran.2)

/-- One round of `waitForCachedResponse` after its sleep, and what follows when it returns. -/
def poll (now : Nat) (keys : IdempotencyKeys B) (r : RequestState B) (key : String)
    (deadline : Nat) : Connection → RequestState B
  | .heard =>
    match keys.live now (cacheKey r.request key) with
    | some ⟨.response cached, _⟩ => r.replay now cached
    | some ⟨.lock, _⟩ => r.pass
    | none => { r with phase := .waiting deadline }
  | _ => r.pass

/-- A command arrives; where a commit fails, the lock is deleted. -/
def deliver (now : Nat) (keys : IdempotencyKeys B) (r : RequestState B) (key : String) :
    Command B → Connection → RequestState B × IdempotencyKeys B
  | .del, .down => (r, keys)
  | .del, _ => (r, keys.remove (lockKey r.request key))
  | .commit response, connection =>
    let r := if connection = .heard then r else { r with commands := r.commands ++ [.del] }
    (r, if connection = .down then keys
      else commitScript now keys (cacheKey r.request key) (lockKey r.request key) response
        idempotencyTtl)

/-- A request after an event, and Redis. -/
def handle (json : Json B) (id : RequestId) (now : Nat) (keys : IdempotencyKeys B)
    (r : RequestState B) : Event B → RequestState B × IdempotencyKeys B
  | .acquire connection =>
    match r.phase, r.request.key with
    | .acquiring, some key => acquire json now keys r key connection
    | _, _ => (r, keys)
  | .check =>
    match r.phase with
    | .waiting deadline =>
      if now < deadline then
        ({ r with phase := .sleeping deadline (now + inProgressPollMs) }, keys)
      else (r.inProgress json now, keys)
    | _ => (r, keys)
  | .poll connection =>
    match r.phase, r.request.key with
    | .sleeping deadline wake, some key =>
      if wake ≤ now then (poll now keys r key deadline connection, keys) else (r, keys)
    | _, _ => (r, keys)
  | .respond requestBody status body headers =>
    (r.respond json id now requestBody status body headers, keys)
  | .finish => if r.answer.isSome then (r.releaseLock, keys) else (r, keys)
  | .close => (r.releaseLock, keys)
  | .deliver n connection =>
    match r.commands[n]?, r.request.key with
    | some command, some key =>
      deliver now keys { r with commands := r.commands.eraseIdx n } key command connection
    | _, _ => (r, keys)

/-! ### What an event can do -/

/-- Before the handler is called and before there is an answer. -/
def Phase.Waits : Phase → Prop
  | .acquiring | .waiting _ | .sleeping _ _ => True
  | .handling _ | .over => False

/-- What an event can make of a request and of Redis. -/
inductive Handled (json : Json B) (id : RequestId) (now : Nat) (keys : IdempotencyKeys B)
    (r : RequestState B) : Event B → RequestState B × IdempotencyKeys B → Prop
  | idle (event : Event B) : Handled json id now keys r event (r, keys)
  | turned (event : Event B) (phase : Phase) (before : r.phase.Waits) (after : phase.Waits) :
    Handled json id now keys r event ({ r with phase := phase }, keys)
  | lost (connection : Connection) (key : String) (failed : connection ≠ .heard)
      (before : r.phase = .acquiring) (hkey : r.request.key = some key) :
    Handled json id now keys r (.acquire connection)
      (acquire json now keys r key connection)
  | unseen (connection : Connection) (failed : connection ≠ .heard) (before : r.phase.Waits) :
    Handled json id now keys r (.poll connection) (r.pass, keys)
  | garbled (event : Event B) (key : String) (deadline : Option Nat) (before : r.phase.Waits)
      (hkey : r.request.key = some key)
      (found : keys.live now (cacheKey r.request key) = some ⟨.lock, deadline⟩) :
    Handled json id now keys r event (r.pass, keys)
  | took (key : String) (before : r.phase = .acquiring) (hkey : r.request.key = some key)
      (uncached : keys.live now (cacheKey r.request key) = none)
      (free : keys.live now (lockKey r.request key) = none) :
    Handled json id now keys r (.acquire .heard)
      ({ r with phase := .handling (some ⟨false, false, now⟩) },
        keys.put (lockKey r.request key) .lock (some (now + 1000 * idempotencyLockTtl)))
  | hit (key : String) (cached : CachedResponse B) (deadline : Option Nat)
      (before : r.phase = .acquiring) (hkey : r.request.key = some key)
      (found : keys.live now (cacheKey r.request key) = some ⟨.response cached, deadline⟩) :
    Handled json id now keys r (.acquire .heard) (r.cacheHit json now cached, keys)
  | followed (key : String) (cached : CachedResponse B) (deadline : Option Nat) (last wake : Nat)
      (before : r.phase = .sleeping last wake) (woke : wake ≤ now)
      (hkey : r.request.key = some key)
      (found : keys.live now (cacheKey r.request key) = some ⟨.response cached, deadline⟩) :
    Handled json id now keys r (.poll .heard) (r.replay now cached, keys)
  | refused (before : r.phase.Waits) :
    Handled json id now keys r .check (r.inProgress json now, keys)
  | responded (execution : Option Execution) (requestBody : Option B) (status : Nat)
      (body : Option B) (headers : List (String × String)) (before : r.phase = .handling execution)
      (unanswered : r.answer = none) :
    Handled json id now keys r (.respond requestBody status body headers)
      ({ r.cacheResponse json id requestBody status body headers with
        answer := some ⟨.handler, ⟨status, body, headers⟩, now⟩ }, keys)
  | released (event : Event B) : Handled json id now keys r event (r.releaseLock, keys)
  | delivered (n : Nat) (key : String) (command : Command B) (connection : Connection)
      (sent : r.commands[n]? = some command) (hkey : r.request.key = some key) :
    Handled json id now keys r (.deliver n connection)
      (deliver now keys { r with commands := r.commands.eraseIdx n } key command connection)

theorem releaseLock_cases (r : RequestState B) :
    r.releaseLock = r ∨ ∃ execution, r.phase = .handling (some execution) ∧
      r.releaseLock = { r with
        phase := .handling (some { execution with lockReleased := true })
        commands := r.commands ++ [.del] } := by
  unfold releaseLock
  split
  · next execution hphase =>
    split
    · exact .inl rfl
    · exact .inr ⟨execution, hphase, rfl⟩
  · exact .inl rfl

theorem cacheResponse_cases (json : Json B) (id : RequestId) (requestBody : Option B)
    (status : Nat) (body : Option B) (headers : List (String × String)) (r : RequestState B) :
    r.cacheResponse json id requestBody status body headers = r ∧
        (∀ execution, r.phase = .handling (some execution) → execution.responseCached = true) ∨
      ∃ execution, r.phase = .handling (some execution) ∧
      (r.cacheResponse json id requestBody status body headers =
          { r with phase := .handling (some { execution with responseCached := true }) } ∧
          ¬ (200 ≤ status ∧ status < 300) ∨
        r.cacheResponse json id requestBody status body headers =
          { r with
            phase := .handling
              (some { execution with responseCached := true, lockReleased := true })
            commands := r.commands ++
              [.commit ⟨status, body, headers, some (bodyHash json requestBody), id⟩] }) := by
  unfold cacheResponse
  split
  · next execution hphase =>
    split
    · next cached =>
      refine .inl ⟨rfl, fun other hother => ?_⟩
      rw [hphase] at hother
      cases hother
      exact cached
    · split
      · exact .inr ⟨execution, hphase, .inr rfl⟩
      · next failed => exact .inr ⟨execution, hphase, .inl ⟨rfl, failed⟩⟩
  · next free => exact .inl ⟨rfl, fun execution hphase => absurd hphase (free execution)⟩

theorem deliver_cases (now : Nat) (keys : IdempotencyKeys B) (r : RequestState B) (key : String)
    (command : Command B) (connection : Connection) :
    (deliver now keys r key command connection).1 = r ∨
      (deliver now keys r key command connection).1 =
        { r with commands := r.commands ++ [.del] } := by
  cases command with
  | del =>
    left
    cases connection <;> rfl
  | commit response =>
    cases connection with
    | heard => exact .inl rfl
    | unheard => exact .inr rfl
    | down => exact .inr rfl

theorem deliver_keys_cases (now : Nat) (keys : IdempotencyKeys B) (r : RequestState B)
    (key : String) (command : Command B) (connection : Connection) :
    (deliver now keys r key command connection).2 = keys ∨
      command = .del ∧
        (deliver now keys r key command connection).2 = keys.remove (lockKey r.request key) ∨
      ∃ response, command = .commit response ∧
        (deliver now keys r key command connection).2 =
          commitScript now keys (cacheKey r.request key) (lockKey r.request key) response
            idempotencyTtl := by
  cases command with
  | del =>
    cases connection with
    | down => exact .inl rfl
    | heard => exact .inr (.inl ⟨rfl, rfl⟩)
    | unheard => exact .inr (.inl ⟨rfl, rfl⟩)
  | commit response =>
    cases connection with
    | down => exact .inl rfl
    | heard => exact .inr (.inr ⟨response, rfl, rfl⟩)
    | unheard => exact .inr (.inr ⟨response, rfl, rfl⟩)

theorem acquireScript_keys_cases (now : Nat) (keys : IdempotencyKeys B)
    (cacheKey lockKey : String) (seconds : Nat) :
    (acquireScript now keys cacheKey lockKey seconds).2 = keys ∨
      (acquireScript now keys cacheKey lockKey seconds).2 =
        keys.put lockKey .lock (some (now + 1000 * seconds)) := by
  unfold acquireScript
  split
  · exact .inl rfl
  · split
    · exact .inr rfl
    · exact .inl rfl

theorem handled_acquire (json : Json B) (id : RequestId) (now : Nat) (keys : IdempotencyKeys B)
    {r : RequestState B} {key : String} (connection : Connection) (before : r.phase = .acquiring)
    (hkey : r.request.key = some key) :
    Handled json id now keys r (.acquire connection) (acquire json now keys r key connection) := by
  by_cases failed : connection = .heard
  · subst failed
    have waits : r.phase.Waits := by rw [before]; trivial
    show Handled json id now keys r _ (r.acquired json now (acquireScript ..).1,
      (acquireScript ..).2)
    unfold acquireScript
    split
    · next e found =>
      obtain ⟨value, deadline⟩ := e
      cases value with
      | lock => exact .garbled _ key deadline waits hkey found
      | response cached => exact .hit key cached deadline before hkey found
    · next uncached =>
      split
      · next free => exact .took key before hkey uncached (Option.isNone_iff_eq_none.1 free)
      · exact .turned _ _ waits trivial
  · exact .lost connection key failed before hkey

theorem handled_poll (json : Json B) (id : RequestId) (now : Nat) (keys : IdempotencyKeys B)
    {r : RequestState B} {key : String} {deadline wake : Nat} (connection : Connection)
    (before : r.phase = .sleeping deadline wake) (woke : wake ≤ now) (hkey : r.request.key = some key) :
    Handled json id now keys r (.poll connection)
      (poll now keys r key deadline connection, keys) := by
  have waits : r.phase.Waits := by rw [before]; trivial
  by_cases failed : connection = .heard
  · subst failed
    simp only [poll]
    split
    · next cached last found => exact .followed key cached last _ _ before woke hkey found
    · next last found => exact .garbled _ key last waits hkey found
    · exact .turned _ _ waits trivial
  · have hpass : poll now keys r key deadline connection = r.pass := by
      cases connection with
      | heard => exact absurd rfl failed
      | unheard => rfl
      | down => rfl
    rw [hpass]
    exact .unseen connection failed waits

theorem handled (json : Json B) (id : RequestId) (now : Nat) (keys : IdempotencyKeys B)
    (r : RequestState B) (event : Event B) :
    Handled json id now keys r event (handle json id now keys r event) := by
  cases event with
  | acquire connection =>
    rw [handle]
    split
    · next key before hkey => exact handled_acquire json id now keys connection before hkey
    · exact .idle _
  | check =>
    rw [handle]
    split
    · next deadline before =>
      have waits : r.phase.Waits := by rw [before]; trivial
      split
      · exact .turned _ _ waits trivial
      · exact .refused waits
    · exact .idle _
  | poll connection =>
    rw [handle]
    split
    · next deadline wake key before hkey =>
      split
      · next woke => exact handled_poll json id now keys connection before woke hkey
      · exact .idle _
    · exact .idle _
  | respond requestBody status body headers =>
    rw [handle, respond]
    split
    · next execution before unanswered =>
      exact .responded execution requestBody status body headers before unanswered
    · exact .idle _
  | finish =>
    rw [handle]
    split
    · exact .released _
    · exact .idle _
  | close => exact .released _
  | deliver n connection =>
    rw [handle]
    split
    · next command key sent hkey => exact .delivered n key command connection sent hkey
    · exact .idle _

theorem cacheHit_cases (json : Json B) (now : Nat) (cached : CachedResponse B)
    (r : RequestState B) :
    r.cacheHit json now cached = r.keyReused json now cached ∧
        cached.requestBodyHash ≠ some (bodyHash json r.request.body) ∨
      r.cacheHit json now cached = r.replay now cached ∧
        (cached.requestBodyHash = none ∨
          cached.requestBodyHash = some (bodyHash json r.request.body)) := by
  unfold cacheHit
  split
  · next h => exact .inl ⟨rfl, h.2⟩
  · next h => exact .inr ⟨rfl, by tauto⟩

/-- An answer is from before, or it is given now: from the cache, by the loop that waits, by the check
of that loop, or by the handler. -/
theorem Handled.answer_given {json : Json B} {id : RequestId} {now : Nat}
    {keys : IdempotencyKeys B} {r : RequestState B} {event : Event B}
    {after : RequestState B × IdempotencyKeys B} (h : Handled json id now keys r event after)
    {answer : Answer B} (hanswer : after.1.answer = some answer) :
    r.answer = some answer ∨
      (∃ key cached deadline, event = .acquire .heard ∧ r.phase = .acquiring ∧
        r.request.key = some key ∧
        keys.live now (cacheKey r.request key) = some ⟨.response cached, deadline⟩ ∧
        (r.cacheHit json now cached).answer = some answer) ∨
      (∃ key cached deadline last wake, event = .poll .heard ∧ r.phase = .sleeping last wake ∧
        wake ≤ now ∧ r.request.key = some key ∧
        keys.live now (cacheKey r.request key) = some ⟨.response cached, deadline⟩ ∧
        (r.replay now cached).answer = some answer) ∨
      (r.inProgress json now).answer = some answer ∨
      ∃ execution response, r.phase = .handling execution ∧ answer = ⟨.handler, response, now⟩ := by
  cases h with
  | idle => exact .inl hanswer
  | turned => exact .inl hanswer
  | lost connection key failed before hkey =>
    cases connection with
    | heard => exact absurd rfl failed
    | unheard => exact .inl hanswer
    | down => exact .inl hanswer
  | unseen => exact .inl hanswer
  | garbled => exact .inl hanswer
  | took => exact .inl hanswer
  | hit key cached deadline before hkey found =>
    exact .inr (.inl ⟨key, cached, deadline, rfl, before, hkey, found, hanswer⟩)
  | followed key cached deadline last wake before woke hkey found =>
    exact .inr (.inr (.inl
      ⟨key, cached, deadline, last, wake, rfl, before, woke, hkey, found, hanswer⟩))
  | refused => exact .inr (.inr (.inr (.inl hanswer)))
  | responded execution requestBody status body headers before unanswered =>
    cases hanswer
    exact .inr (.inr (.inr (.inr ⟨execution, _, before, rfl⟩)))
  | released =>
    left
    obtain same | ⟨execution, -, released⟩ := releaseLock_cases r
    · rwa [same] at hanswer
    · rwa [released] at hanswer
  | delivered n key command connection sent hkey =>
    left
    obtain same | more := deliver_cases now keys { r with commands := r.commands.eraseIdx n } key
      command connection
    · rwa [same] at hanswer
    · rwa [more] at hanswer

theorem Handled.request {json : Json B} {id : RequestId} {now : Nat} {keys : IdempotencyKeys B}
    {r : RequestState B} {event : Event B} {after : RequestState B × IdempotencyKeys B}
    (h : Handled json id now keys r event after) : after.1.request = r.request := by
  cases h with
  | lost connection key failed =>
    cases connection with
    | heard => exact absurd rfl failed
    | unheard => rfl
    | down => rfl
  | hit key cached =>
    obtain ⟨hit, -⟩ | ⟨hit, -⟩ := cacheHit_cases json now cached r <;> rw [hit] <;> rfl
  | responded execution requestBody status body headers =>
    obtain ⟨same, -⟩ | ⟨_, -, ⟨quiet, -⟩ | sent⟩ :=
      cacheResponse_cases json id requestBody status body headers r
    · rw [same]
    · rw [quiet]
    · rw [sent]
  | released =>
    obtain same | ⟨_, -, released⟩ := releaseLock_cases r
    · rw [same]
    · rw [released]
  | delivered n key command connection =>
    obtain same | more := deliver_cases now keys { r with commands := r.commands.eraseIdx n } key
      command connection
    · rw [same]
    · rw [more]
  | _ => rfl

/-- What an event can make of Redis. -/
theorem Handled.keys_cases {json : Json B} {id : RequestId} {now : Nat}
    {keys : IdempotencyKeys B} {r : RequestState B} {event : Event B}
    {after : RequestState B × IdempotencyKeys B} (h : Handled json id now keys r event after) :
    after.2 = keys ∨ ∃ key, r.request.key = some key ∧
      (after.2 = keys.remove (lockKey r.request key) ∨
        after.2 =
          keys.put (lockKey r.request key) .lock (some (now + 1000 * idempotencyLockTtl)) ∨
        ∃ response, .commit response ∈ r.commands ∧
          after.2 = commitScript now keys (cacheKey r.request key) (lockKey r.request key) response
            idempotencyTtl) := by
  cases h with
  | lost connection key failed before hkey =>
    cases connection with
    | heard => exact absurd rfl failed
    | down => exact .inl rfl
    | unheard =>
      rcases acquireScript_keys_cases now keys (cacheKey r.request key) (lockKey r.request key)
        idempotencyLockTtl with same | put
      · exact .inl same
      · exact .inr ⟨key, hkey, .inr (.inl put)⟩
  | took key before hkey => exact .inr ⟨key, hkey, .inr (.inl rfl)⟩
  | delivered n key command connection sent hkey =>
    rcases deliver_keys_cases now keys { r with commands := r.commands.eraseIdx n } key command
      connection with same | ⟨-, removed⟩ | ⟨response, rfl, committed⟩
    · exact .inl same
    · exact .inr ⟨key, hkey, .inl removed⟩
    · exact .inr ⟨key, hkey, .inr (.inr ⟨response, List.mem_of_getElem? sent, committed⟩)⟩
  | _ => exact .inl rfl

/-! ### Runs -/

structure State (B : Type) where
  now : Nat
  keys : IdempotencyKeys B
  requests : Store RequestId (RequestState B)

inductive Activity (B : Type) where
  | arrive (id : RequestId) (request : Request B)
  | event (id : RequestId) (event : Event B)
  | elapse (ms : Nat)

def step (json : Json B) (s : State B) : Activity B → State B
  | .arrive id request =>
    if s.requests.has id then s
    else { s with requests := s.requests.set id (.arrived request) }
  | .event id event =>
    match s.requests.get id with
    | none => s
    | some r =>
      let after := handle json id s.now s.keys r event
      { s with keys := after.2, requests := s.requests.set id after.1 }
  | .elapse ms => { s with now := s.now + ms }

def start (now : Nat) : State B := ⟨now, fun _ => none, .empty⟩

abbrev run (json : Json B) (now : Nat) (as : List (Activity B)) : State B :=
  Machine.run (step json) (start now) as

/-- Redis is available: every command is run and answered. -/
def Activity.Available : Activity B → Prop
  | .event _ (.acquire connection) | .event _ (.poll connection)
  | .event _ (.deliver _ connection) => connection = .heard
  | _ => True

instance (a : Activity B) : Decidable a.Available := by
  unfold Activity.Available
  split
  · infer_instance
  · infer_instance
  · infer_instance
  · infer_instance

theorem step_event (json : Json B) {s : State B} {id : RequestId} {r : RequestState B}
    (event : Event B) (h : s.requests.get id = some r) :
    step json s (.event id event) =
      { s with
        keys := (handle json id s.now s.keys r event).2
        requests := s.requests.set id (handle json id s.now s.keys r event).1 } := by
  simp only [step, h]

theorem step_event_none (json : Json B) {s : State B} {id : RequestId} (event : Event B)
    (h : s.requests.get id = none) : step json s (.event id event) = s := by
  simp only [step, h]

/-! ### What is stored -/

/-- A response is the one the handler of a request gave. -/
def RequestState.Produced (json : Json B) (id : RequestId) (r : RequestState B)
    (c : CachedResponse B) : Prop :=
  c.producer = id ∧ (∃ requestBody, c.requestBodyHash = some (bodyHash json requestBody)) ∧
    ∃ time, r.answer = some ⟨.handler, ⟨c.status, c.body, c.headers⟩, time⟩

structure RequestState.Sound (json : Json B) (id : RequestId) (r : RequestState B) : Prop where
  unanswered : r.phase.Waits → r.answer = none
  committed : ∀ c, .commit c ∈ r.commands → r.Produced json id c

/-- What is stored under a key a request answers is a response of a handler, and a lock under a
key for locks. -/
structure Sound (json : Json B) (s : State B) : Prop where
  request : ∀ id r, s.requests.get id = some r → r.Sound json id
  response : ∀ k c deadline, s.keys k = some ⟨.response c, deadline⟩ →
    ∃ r key, s.requests.get c.producer = some r ∧ r.request.key = some key ∧
      k = cacheKey r.request key ∧ r.Produced json c.producer c
  lock : ∀ k deadline, s.keys k = some ⟨.lock, deadline⟩ →
    ∃ (request : Request B) (key : String), request.key = some key ∧ k = lockKey request key

theorem sound_start (json : Json B) (now : Nat) : Sound json (start now) := by
  constructor
  · intro id r h
    cases h
  · intro k c deadline h
    cases h
  · intro k deadline h
    cases h

/-- A request with the request it was, and with the answer it has. -/
def RequestState.Onward (r after : RequestState B) : Prop :=
  after.request = r.request ∧ ∀ answer, r.answer = some answer → after.answer = some answer

theorem RequestState.Produced.onward {json : Json B} {id : RequestId} {r after : RequestState B}
    {c : CachedResponse B} (h : r.Produced json id c) (on : r.Onward after) :
    after.Produced json id c := by
  obtain ⟨hproducer, hhash, time, hanswer⟩ := h
  exact ⟨hproducer, hhash, time, on.2 _ hanswer⟩

/-- A request keeps what it has; what it has on its way is from before, or its own response. -/
theorem RequestState.Sound.of_onward {json : Json B} {id : RequestId} {r after : RequestState B}
    (h : r.Sound json id) (on : r.Onward after) (waits : after.phase.Waits → after.answer = none)
    (commands : ∀ c, .commit c ∈ after.commands → .commit c ∈ r.commands ∨ after.Produced json id c) :
    after.Sound json id := by
  refine ⟨waits, fun c hc => ?_⟩
  rcases commands c hc with hc | hc
  · exact (h.committed c hc).onward on
  · exact hc

theorem onward_of_none {r after : RequestState B} (hrequest : after.request = r.request)
    (hanswer : r.answer = none) : r.Onward after := by
  refine ⟨hrequest, fun answer h => ?_⟩
  rw [hanswer] at h
  cases h

/-- The next state of a request that has the same commands on their way. -/
theorem RequestState.Sound.turned {json : Json B} {id : RequestId} {r after : RequestState B}
    (h : r.Sound json id) (hrequest : after.request = r.request)
    (hcommands : after.commands = r.commands) (hanswer : r.answer = none ∨ after.answer = r.answer)
    (waits : after.phase.Waits → after.answer = none) :
    r.Onward after ∧ after.Sound json id := by
  have on : r.Onward after := by
    rcases hanswer with hanswer | hanswer
    · exact onward_of_none hrequest hanswer
    · exact ⟨hrequest, fun answer h => hanswer.trans h⟩
  refine ⟨on, h.of_onward on waits fun c hc => ?_⟩
  rw [hcommands] at hc
  exact .inl hc

theorem RequestState.Sound.handled {json : Json B} {id : RequestId} {now : Nat}
    {keys : IdempotencyKeys B} {r : RequestState B} {event : Event B}
    {after : RequestState B × IdempotencyKeys B} (h : r.Sound json id)
    (step : Handled json id now keys r event after) :
    r.Onward after.1 ∧ after.1.Sound json id := by
  have unanswered := h.unanswered
  cases step with
  | idle => exact ⟨⟨rfl, fun _ h => h⟩, h⟩
  | turned _ phase before hafter =>
    exact h.turned rfl rfl (.inr rfl) fun _ => unanswered before
  | lost connection key failed before hkey =>
    have hpass : (acquire json now keys r key connection).1 = r.pass := by
      cases connection with
      | heard => exact absurd rfl failed
      | unheard => rfl
      | down => rfl
    rw [hpass]
    exact h.turned rfl rfl (.inr rfl) False.elim
  | unseen connection failed before => exact h.turned rfl rfl (.inr rfl) False.elim
  | garbled _ key deadline before hkey found => exact h.turned rfl rfl (.inr rfl) False.elim
  | took key before hkey uncached free => exact h.turned rfl rfl (.inr rfl) False.elim
  | hit key cached deadline before hkey found =>
    have hnone : r.answer = none := unanswered (by rw [before]; trivial)
    obtain ⟨hit, -⟩ | ⟨hit, -⟩ := cacheHit_cases json now cached r
    · rw [hit]
      exact h.turned rfl rfl (.inl hnone) False.elim
    · rw [hit]
      exact h.turned rfl rfl (.inl hnone) False.elim
  | followed key cached deadline last wake before woke hkey found =>
    have hnone : r.answer = none := unanswered (by rw [before]; trivial)
    exact h.turned rfl rfl (.inl hnone) False.elim
  | refused before => exact h.turned rfl rfl (.inl (unanswered before)) False.elim
  | responded execution requestBody status body headers before hnone =>
    obtain ⟨same, -⟩ | ⟨execution, hphase, ⟨quiet, -⟩ | sent⟩ :=
      cacheResponse_cases json id requestBody status body headers r
    · rw [same]
      refine h.turned rfl rfl (.inl hnone) fun waits => ?_
      rw [before] at waits
      exact waits.elim
    · rw [quiet]
      exact h.turned rfl rfl (.inl hnone) False.elim
    · rw [sent]
      refine ⟨onward_of_none rfl hnone, h.of_onward (onward_of_none rfl hnone) False.elim ?_⟩
      intro c hc
      rcases List.mem_append.1 hc with hc | hc
      · exact .inl hc
      · obtain rfl : c = _ := by simpa using hc
        exact .inr ⟨rfl, ⟨requestBody, rfl⟩, now, rfl⟩
  | released =>
    obtain same | ⟨execution, hphase, released⟩ := releaseLock_cases r
    · rw [same]
      exact ⟨⟨rfl, fun _ h => h⟩, h⟩
    · rw [released]
      refine ⟨⟨rfl, fun _ h => h⟩, h.of_onward ⟨rfl, fun _ h => h⟩ False.elim fun c hc => ?_⟩
      rcases List.mem_append.1 hc with hc | hc
      · exact .inl hc
      · simp at hc
  | delivered n key command connection sent hkey =>
    have fewer : ∀ c, .commit c ∈ r.commands.eraseIdx n → .commit c ∈ r.commands :=
      fun c hc => List.mem_of_mem_eraseIdx hc
    obtain same | more := deliver_cases now keys { r with commands := r.commands.eraseIdx n } key
      command connection
    · rw [same]
      exact ⟨⟨rfl, fun _ h => h⟩,
        h.of_onward ⟨rfl, fun _ h => h⟩ unanswered fun c hc => .inl (fewer c hc)⟩
    · rw [more]
      refine ⟨⟨rfl, fun _ h => h⟩, h.of_onward ⟨rfl, fun _ h => h⟩ unanswered fun c hc => ?_⟩
      rcases List.mem_append.1 hc with hc | hc
      · exact .inl (fewer c hc)
      · simp at hc

theorem commitScript_cases {now : Nat} {keys : IdempotencyKeys B} {cacheKey lockKey k : String}
    {response : CachedResponse B} {seconds : Nat} {e : Entry (Value B)}
    (h : commitScript now keys cacheKey lockKey response seconds k = some e) :
    keys k = some e ∨ k = cacheKey ∧ e = ⟨.response response, some (now + 1000 * seconds)⟩ := by
  by_cases locked : k = lockKey
  · subst locked
    simp [commitScript, Keys.remove] at h
  · rw [commitScript, Keys.remove_of_ne _ locked] at h
    by_cases cached : k = cacheKey
    · subst cached
      rw [Keys.put_same] at h
      exact .inr ⟨rfl, (Option.some.inj h).symm⟩
    · rw [Keys.put_of_ne _ _ _ cached] at h
      exact .inl h

/-- What an event leaves in Redis is from before, a lock, or a response that was on its way. -/
theorem Handled.stored {json : Json B} {id : RequestId} {now : Nat} {keys : IdempotencyKeys B}
    {r : RequestState B} {event : Event B} {after : RequestState B × IdempotencyKeys B}
    (h : Handled json id now keys r event after) {k : String} {e : Entry (Value B)}
    (hk : after.2 k = some e) :
    keys k = some e ∨ ∃ key, r.request.key = some key ∧
      (k = lockKey r.request key ∧ e.value = .lock ∨
        k = cacheKey r.request key ∧ ∃ response, .commit response ∈ r.commands ∧
          e.value = .response response) := by
  rcases h.keys_cases with same | ⟨key, hkey, removed | put | ⟨response, sent, committed⟩⟩
  · rw [same] at hk
    exact .inl hk
  · rw [removed] at hk
    by_cases locked : k = lockKey r.request key
    · simp [locked, Keys.remove] at hk
    · rw [Keys.remove_of_ne _ locked] at hk
      exact .inl hk
  · rw [put] at hk
    by_cases locked : k = lockKey r.request key
    · rw [locked, Keys.put_same] at hk
      obtain rfl := Option.some.inj hk
      exact .inr ⟨key, hkey, .inl ⟨locked, rfl⟩⟩
    · rw [Keys.put_of_ne _ _ _ locked] at hk
      exact .inl hk
  · rw [committed] at hk
    rcases commitScript_cases hk with before | ⟨rfl, rfl⟩
    · exact .inl before
    · exact .inr ⟨key, hkey, .inr ⟨rfl, response, sent, rfl⟩⟩

theorem sound_arrived (json : Json B) (id : RequestId) (request : Request B) :
    (arrived request).Sound json id := by
  constructor
  · intro _
    rfl
  · intro c h
    cases h

/-- What is found after a step was there before, or has arrived, or an event was handled. -/
theorem get_step {json : Json B} {s : State B} {a : Activity B} {id : RequestId}
    {q : RequestState B} (h : (step json s a).requests.get id = some q) :
    s.requests.get id = some q ∨
      (∃ request, a = .arrive id request ∧ s.requests.get id = none ∧ q = .arrived request) ∨
      ∃ r event, a = .event id event ∧ s.requests.get id = some r ∧
        q = (handle json id s.now s.keys r event).1 := by
  cases a with
  | elapse ms => exact .inl h
  | arrive other request =>
    rw [step] at h
    split at h
    · exact .inl h
    · next fresh =>
      rcases Store.get_set_cases h with ⟨rfl, rfl⟩ | ⟨-, h⟩
      · have hnone : s.requests.get id = none := by simpa [Store.has] using fresh
        exact .inr (.inl ⟨request, rfl, hnone, rfl⟩)
      · exact .inl h
  | event other event =>
    cases hr : s.requests.get other with
    | none =>
      rw [step_event_none json event hr] at h
      exact .inl h
    | some r =>
      rw [step_event json event hr] at h
      rcases Store.get_set_cases h with ⟨rfl, rfl⟩ | ⟨-, h⟩
      · exact .inr (.inr ⟨r, event, rfl, hr, rfl⟩)
      · exact .inl h

/-- A step makes requests go on. -/
theorem onward_step {json : Json B} {s : State B} (h : Sound json s) (a : Activity B)
    {id : RequestId} {r : RequestState B} (hr : s.requests.get id = some r) :
    ∃ after, (step json s a).requests.get id = some after ∧ r.Onward after := by
  have same : r.Onward r := ⟨rfl, fun _ h => h⟩
  cases a with
  | elapse ms => exact ⟨r, hr, same⟩
  | arrive other request =>
    refine ⟨r, ?_, same⟩
    rw [step]
    split
    · exact hr
    · next fresh =>
      have hne : id ≠ other := by
        rintro rfl
        simp [Store.has, hr] at fresh
      exact (s.requests.get_set_ne _ hne).trans hr
  | event other event =>
    by_cases hother : id = other
    · subst hother
      rw [step_event json event hr]
      have after := handled json id s.now s.keys r event
      exact ⟨_, Store.get_set_self .., ((h.request id r hr).handled after).1⟩
    · refine ⟨r, ?_, same⟩
      cases hq : s.requests.get other with
      | none =>
        rw [step_event_none json event hq]
        exact hr
      | some q =>
        rw [step_event json event hq]
        exact (s.requests.get_set_ne _ hother).trans hr

/-- What a step leaves in Redis is from before, a lock, or a response that was on its way. -/
theorem stored_step {json : Json B} {s : State B} {a : Activity B} {k : String}
    {e : Entry (Value B)} (hk : (step json s a).keys k = some e) :
    s.keys k = some e ∨ ∃ id r key, s.requests.get id = some r ∧ r.request.key = some key ∧
      (k = lockKey r.request key ∧ e.value = .lock ∨
        k = cacheKey r.request key ∧ ∃ response, .commit response ∈ r.commands ∧
          e.value = .response response) := by
  cases a with
  | elapse ms => exact .inl hk
  | arrive id request =>
    rw [step] at hk
    split at hk
    · exact .inl hk
    · exact .inl hk
  | event id event =>
    cases hr : s.requests.get id with
    | none =>
      rw [step_event_none json event hr] at hk
      exact .inl hk
    | some r =>
      rw [step_event json event hr] at hk
      rcases (handled json id s.now s.keys r event).stored hk with hk | ⟨key, hkey, hstored⟩
      · exact .inl hk
      · exact .inr ⟨id, r, key, hr, hkey, hstored⟩

theorem sound_step {json : Json B} {s : State B} (h : Sound json s) (a : Activity B) :
    Sound json (step json s a) := by
  refine ⟨fun id q hq => ?_, fun k c deadline hk => ?_, fun k deadline hk => ?_⟩
  · rcases get_step hq with hq | ⟨request, -, -, rfl⟩ | ⟨r, event, -, hr, rfl⟩
    · exact h.request id q hq
    · exact sound_arrived json id request
    · exact ((h.request id r hr).handled (handled json id s.now s.keys r event)).2
  · have before : ∃ r key, s.requests.get c.producer = some r ∧ r.request.key = some key ∧
        k = cacheKey r.request key ∧ r.Produced json c.producer c := by
      rcases stored_step hk with
        hk | ⟨id, r, key, hr, hkey, ⟨-, hlock⟩ | ⟨rfl, response, sent, hc⟩⟩
      · exact h.response k c deadline hk
      · cases hlock
      · cases hc
        have produced := (h.request id r hr).committed _ sent
        rw [produced.1]
        exact ⟨r, key, hr, hkey, rfl, produced⟩
    obtain ⟨r, key, hr, hkey, rfl, produced⟩ := before
    obtain ⟨after, hafter, onward⟩ := onward_step h a hr
    refine ⟨after, key, hafter, ?_, ?_, produced.onward onward⟩
    · rw [onward.1]
      exact hkey
    · rw [onward.1]
  · rcases stored_step hk with hk | ⟨id, r, key, hr, hkey, ⟨rfl, -⟩ | ⟨-, response, -, hc⟩⟩
    · exact h.lock k deadline hk
    · exact ⟨r.request, key, hkey, rfl⟩
    · cases hc

theorem sound_run (json : Json B) (now : Nat) (as : List (Activity B)) :
    Sound json (run json now as) :=
  Machine.run_invariant_of_step (step json) as (sound_start json now) fun _ a h => sound_step h a

namespace Sample

/-- Bodies that are texts, each its own digest. -/
def plain : Json String where
  null := "null"
  error := id
  stringify := id
  sha256 := id

def request (body : String) : Request String := ⟨"POST", "/trades", some "k", some body⟩

def first : RequestId := ("GA", 0)
def second : RequestId := ("GA", 1)

end Sample

end Amana.Backend.Idempotency
