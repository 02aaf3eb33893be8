import Amana.Lib.Database
import Amana.Lib.Expiring
import Amana.Lib.Machine

/-!
# The lock of a clawback

`services/streamClawback.service.ts`.  The lock has two levels: a set in each pod, and a key in the
Redis of all pods.  `acquire` returns before Redis has answered, `acquireAsync` waits for it, and a
release deletes the key whoever put it there.  Commands of Redis arrive in any order, and their
answers too.  Times are in milliseconds.
-/

namespace Amana.Backend.StreamClawback

open Lib Lib.Expiring
open Lib.Database (Connection)

/-- `AppError` with code `DOMAIN_ERROR`; the details hold the stream, and sometimes a reason. -/
structure AppError where
  message : String
  status : Nat
  streamId : String
  reason : Option String
  deriving DecidableEq, Repr

def inProgressError (streamId : String) : AppError :=
  ⟨"A clawback operation is already in progress for stream " ++ streamId, 409, streamId, none⟩

def unavailableError (streamId : String) : AppError :=
  ⟨"Clawback temporarily unavailable: Redis required for payout safety (stream " ++ streamId ++ ")",
    503, streamId, some "REDIS_UNAVAILABLE_FAIL_CLOSED"⟩

def redisClawbackTtlSeconds : Nat := 30

def redisKey (streamId : String) : String := "clawback:lock:" ++ streamId

inductive Phase where
  /-- `acquireAsync` waits for Redis. -/
  | asking
  /-- The answer is on its way: whether it is `OK`, or `none` if the command failed. -/
  | answered (ok : Option Bool)
  /-- Between a successful acquire and its release. -/
  | held
  | released
  | refused (error : AppError)
  deriving DecidableEq, Repr

/-- A caller.  `set` and `del` say which of its commands are on their way, and `since` is when
Redis ran its `SET` with `OK`. -/
structure Call where
  pod : Nat
  streamId : String
  phase : Phase
  set : Bool
  del : Bool
  since : Option Nat
  deriving DecidableEq, Repr

/-- `active` are the sets `activeClawbacks` of all pods.  A key holds the number of the caller
that put it there. -/
structure State where
  now : Nat
  active : List (Nat × String)
  keys : Keys String Nat
  calls : List Call

inductive Activity where
  /-- `ready` is whether the pod takes Redis for ready. -/
  | acquire (pod : Nat) (streamId : String) (ready : Bool)
  | acquireAsync (pod : Nat) (streamId : String)
  /-- `SET` of caller `i` arrives, or fails. -/
  | runSet (i : Nat) (connection : Connection)
  /-- Caller `i` of `acquireAsync` goes on. -/
  | answer (i : Nat)
  /-- `release` or `releaseAsync`, by a caller that acquired the lock. -/
  | release (i : Nat)
  /-- `DEL` of caller `i` arrives, or fails. -/
  | runDel (i : Nat) (connection : Connection)
  | elapse (ms : Nat)
  deriving DecidableEq, Repr

def acquire (active : List (Nat × String)) (pod : Nat) (streamId : String) (ready : Bool) :
    Except AppError (List (Nat × String)) :=
  if (pod, streamId) ∈ active then .error (inProgressError streamId)
  else if ready = false then .error (unavailableError streamId)
  else .ok (active ++ [(pod, streamId)])

/-- `SET` with `NX` and `EX`, and whether it answers `OK`. -/
def setNx (now : Nat) (keys : Keys String Nat) (key : String) (owner seconds : Nat) :
    Bool × Keys String Nat :=
  if (keys.live now key).isSome then (false, keys)
  else (true, keys.put key owner (some (now + 1000 * seconds)))

/-- The caller once its `SET` has arrived; `acquire` does nothing with the answer. -/
def Call.afterSet (call : Call) (now : Nat) (ok : Bool) (connection : Connection) : Call :=
  { call with
    set := false
    since := if ok then some now else none
    phase :=
      if call.phase = .asking then .answered (if connection = .heard then some ok else none)
      else call.phase }

def runSet (s : State) (i : Nat) (call : Call) : Connection → State
  | .down => { s with calls := s.calls.set i (call.afterSet s.now false .down) }
  | connection =>
    let ran := setNx s.now s.keys (redisKey call.streamId) i redisClawbackTtlSeconds
    { s with keys := ran.2, calls := s.calls.set i (call.afterSet s.now ran.1 connection) }

/-- `acquireAsync` after its `await`. -/
def answer (s : State) (i : Nat) (call : Call) : Option Bool → State
  | some true =>
    { s with
      active := s.active ++ [(call.pod, call.streamId)]
      calls := s.calls.set i { call with phase := .held } }
  | some false =>
    { s with calls := s.calls.set i { call with phase := .refused (inProgressError call.streamId) } }
  | none =>
    { s with
      calls := s.calls.set i { call with phase := .refused (unavailableError call.streamId) } }

def release (s : State) (i : Nat) (call : Call) : State :=
  { s with
    active := s.active.filter fun entry => entry ≠ (call.pod, call.streamId)
    calls := s.calls.set i { call with phase := .released, del := true } }

def runDel (s : State) (i : Nat) (call : Call) (connection : Connection) : State :=
  { s with
    keys := if connection = .down then s.keys else s.keys.remove (redisKey call.streamId)
    calls := s.calls.set i { call with del := false } }

def step (s : State) : Activity → State
  | .acquire pod streamId ready =>
    match acquire s.active pod streamId ready with
    | .error error =>
      { s with calls := s.calls ++ [⟨pod, streamId, .refused error, false, false, none⟩] }
    | .ok active =>
      { s with active := active, calls := s.calls ++ [⟨pod, streamId, .held, true, false, none⟩] }
  | .acquireAsync pod streamId =>
    if (pod, streamId) ∈ s.active then
      { s with calls := s.calls ++
        [⟨pod, streamId, .refused (inProgressError streamId), false, false, none⟩] }
    else { s with calls := s.calls ++ [⟨pod, streamId, .asking, true, false, none⟩] }
  | .runSet i connection =>
    match s.calls[i]? with
    | some call => if call.set then runSet s i call connection else s
    | none => s
  | .answer i =>
    match s.calls[i]? with
    | some call =>
      match call.phase with
      | .answered ok => answer s i call ok
      | _ => s
    | none => s
  | .release i =>
    match s.calls[i]? with
    | some call => if call.phase = .held then release s i call else s
    | none => s
  | .runDel i connection =>
    match s.calls[i]? with
    | some call => if call.del then runDel s i call connection else s
    | none => s
  | .elapse ms => { s with now := s.now + ms }

def start (now : Nat) : State := ⟨now, [], fun _ => none, []⟩

abbrev run (now : Nat) (as : List Activity) : State := Machine.run step (start now) as

/-! ### What is required -/

/-- At most one caller is between a successful acquire of a stream and its release. -/
def Exclusive (s : State) : Prop :=
  ∀ (i j : Nat) (c d : Call), s.calls[i]? = some c → s.calls[j]? = some d →
    c.streamId = d.streamId → c.phase = .held → d.phase = .held → i = j

/-- The step takes the entry of another caller that holds the lock out of the set of its pod, or
its key out of Redis. -/
def Frees (s : State) (a : Activity) : Prop :=
  ∃ (i j : Nat) (c d : Call), s.calls[i]? = some c ∧ s.calls[j]? = some d ∧
    c.streamId = d.streamId ∧ i ≠ j ∧ d.phase = .held ∧
    (a = .release i ∧ c.phase = .held ∧ c.pod = d.pod ∨
      ∃ connection deadline, a = .runDel i connection ∧ connection ≠ .down ∧ c.del = true ∧
        s.keys.live s.now (redisKey c.streamId) = some ⟨j, deadline⟩)

/-- A caller that has the lock, or is about to be told so, or whose `DEL` is on its way. -/
def Call.Engaged (call : Call) : Prop :=
  call.phase = .held ∨ call.phase = .answered (some true) ∨ call.del = true

instance (call : Call) : Decidable call.Engaged := by
  unfold Call.Engaged
  infer_instance

/-- Nobody uses the lock for longer than the key lasts. -/
def WithinTtl (s : State) : Prop :=
  ∀ call ∈ s.calls, call.Engaged → ∀ t ∈ call.since, s.now ≤ t + 1000 * redisClawbackTtlSeconds

instance (s : State) : Decidable (WithinTtl s) := by
  unfold WithinTtl
  infer_instance

/-- An `acquire` whose `SET` has not arrived. -/
def Call.Unconfirmed (call : Call) : Prop := call.phase = .held ∧ call.set = true

instance (call : Call) : Decidable call.Unconfirmed := by
  unfold Call.Unconfirmed
  infer_instance

/-- `acquire` returns while the stream is free in Redis and no other call on it is under way, and
from then until its `SET` arrives, which it does, no call on the stream asks Redis for the lock
and it is not released. -/
def AcquiresAlone (s : State) : Activity → Prop
  | .acquire pod streamId ready => (pod, streamId) ∉ s.active → ready = true →
    (s.keys.live s.now (redisKey streamId)).isNone = true ∧
      ∀ call ∈ s.calls, call.streamId = streamId → ¬ call.Engaged ∧ call.set = false
  | .acquireAsync pod streamId => (pod, streamId) ∉ s.active →
    ∀ call ∈ s.calls, call.streamId = streamId → ¬ call.Unconfirmed
  | .runSet i connection => connection = .down → ∀ call ∈ s.calls[i]?, ¬ call.Unconfirmed
  | .release i => ∀ call ∈ s.calls[i]?, ¬ call.Unconfirmed
  | _ => True

instance (s : State) (a : Activity) : Decidable (AcquiresAlone s a) := by
  cases a <;> unfold AcquiresAlone <;> infer_instance

/-! ### The key and its owner -/

structure Call.Sound (call : Call) : Prop where
  set : call.set = true → call.phase = .asking ∨ call.phase = .held
  del : call.del = true → call.phase = .released

/-- One caller of a stream is engaged, the key of the stream is its key, or is free while its `SET`
has not arrived. -/
structure Owned (s : State) : Prop where
  call : ∀ (i : Nat) c, s.calls[i]? = some c → c.Sound
  unique : ∀ (i j : Nat) c d, s.calls[i]? = some c → s.calls[j]? = some d →
    c.streamId = d.streamId → c.Engaged → d.Engaged → i = j
  key : ∀ (i : Nat) c, s.calls[i]? = some c → c.Engaged → c.set = false →
    ∃ t ∈ c.since, s.keys (redisKey c.streamId) =
      some ⟨i, some (t + 1000 * redisClawbackTtlSeconds)⟩
  unconfirmed : ∀ (i : Nat) c, s.calls[i]? = some c → c.Unconfirmed →
    s.keys.live s.now (redisKey c.streamId) = none ∧
      ∀ (j : Nat) d, s.calls[j]? = some d → d.streamId = c.streamId → j ≠ i → d.set = false

theorem owned_start (now : Nat) : Owned (start now) := by
  constructor
  · intro i c h
    cases h
  · intro i j c d h
    cases h
  · intro i c h
    cases h
  · intro i c h
    cases h

theorem redisKey_inj {x y : String} (h : redisKey x = redisKey y) : x = y :=
  (String.append_right_inj _).1 h

theorem Call.Sound.unconfirmed {c : Call} (h : c.Sound) (engaged : c.Engaged) (hset : c.set = true) :
    c.Unconfirmed := by
  refine ⟨?_, hset⟩
  rcases h.set hset with hphase | hphase
  · exfalso
    rcases engaged with hheld | hanswered | hdel
    · rw [hphase] at hheld
      cases hheld
    · rw [hphase] at hanswered
      cases hanswered
    · have hreleased := h.del hdel
      rw [hphase] at hreleased
      cases hreleased
  · exact hphase

theorem Call.Sound.set_eq_false {c : Call} (h : c.Sound) (asking : c.phase ≠ .asking)
    (held : c.phase ≠ .held) : c.set = false := by
  rw [← Bool.not_eq_true]
  intro hset
  rcases h.set hset with hphase | hphase
  · exact asking hphase
  · exact held hphase

theorem Call.Sound.set_of_del {c : Call} (h : c.Sound) (hdel : c.del = true) : c.set = false := by
  have hreleased := h.del hdel
  exact h.set_eq_false (by rw [hreleased]; decide) (by rw [hreleased]; decide)

section Updates

variable {s : State} {i : Nat} {c c' : Call} {keys : Keys String Nat}
  {active : List (Nat × String)}

/-- A call goes on: the key changes only where no other call on the stream is engaged. -/
theorem Owned.replace (h : Owned s) (hc : s.calls[i]? = some c) (stream : c'.streamId = c.streamId)
    (sound : c'.Sound)
    (elsewhere : ∀ x, x ≠ c.streamId → keys (redisKey x) = s.keys (redisKey x))
    (here : keys (redisKey c.streamId) = s.keys (redisKey c.streamId) ∧
        (c'.set = true → c.set = true) ∧ (c'.Engaged → c.Engaged) ∨
      ∀ (j : Nat) d, s.calls[j]? = some d → d.streamId = c.streamId → j ≠ i → ¬ d.Engaged)
    (key : c'.Engaged → c'.set = false → ∃ t ∈ c'.since, keys (redisKey c.streamId) =
      some ⟨i, some (t + 1000 * redisClawbackTtlSeconds)⟩)
    (confirmed : ¬ c'.Unconfirmed) :
    Owned { s with active := active, keys := keys, calls := s.calls.set i c' } := by
  have found (j : Nat) (d : Call) (hd : (s.calls.set i c')[j]? = some d) :
      j = i ∧ d = c' ∨ j ≠ i ∧ s.calls[j]? = some d := by
    rcases eq_or_ne j i with rfl | hne
    · rw [List.getElem?_set_self (List.getElem?_eq_some_iff.1 hc).1] at hd
      exact .inl ⟨rfl, (Option.some.inj hd).symm⟩
    · rw [List.getElem?_set_ne hne.symm] at hd
      exact .inr ⟨hne, hd⟩
  -- the key of another engaged call on any stream is what it was
  have kept (j : Nat) (d : Call) (hd : s.calls[j]? = some d) (hne : j ≠ i) (engaged : d.Engaged) :
      keys (redisKey d.streamId) = s.keys (redisKey d.streamId) := by
    by_cases hstream : d.streamId = c.streamId
    · rcases here with ⟨same, -⟩ | alone
      · rw [hstream, same]
      · exact absurd engaged (alone j d hd hstream hne)
    · exact elsewhere _ hstream
  have apart (j : Nat) (d : Call) (hd : s.calls[j]? = some d) (hne : j ≠ i)
      (hstream : d.streamId = c.streamId) (engaged : c'.Engaged) : ¬ d.Engaged := by
    rcases here with ⟨-, -, before⟩ | alone
    · exact fun hd' => hne (h.unique j i d c hd hc hstream hd' (before engaged))
    · exact alone j d hd hstream hne
  refine ⟨fun j d hd => ?_, fun j k d e hd he hstream hd' he' => ?_, fun j d hd hd' hset => ?_,
    fun j d hd hd' => ?_⟩
  · rcases found j d hd with ⟨rfl, rfl⟩ | ⟨-, hd₀⟩
    · exact sound
    · exact h.call j d hd₀
  · rcases found j d hd with ⟨rfl, rfl⟩ | ⟨hj, hd₀⟩
    · rcases found k e he with ⟨rfl, -⟩ | ⟨hk, he₀⟩
      · rfl
      · exact absurd he' (apart k e he₀ hk (hstream.symm.trans stream) hd')
    · rcases found k e he with ⟨rfl, rfl⟩ | ⟨-, he₀⟩
      · exact absurd hd' (apart j d hd₀ hj (hstream.trans stream) he')
      · exact h.unique j k d e hd₀ he₀ hstream hd' he'
  · rcases found j d hd with ⟨rfl, rfl⟩ | ⟨hj, hd₀⟩
    · rw [stream]
      exact key hd' hset
    · show ∃ t ∈ d.since, keys (redisKey d.streamId) = _
      rw [kept j d hd₀ hj hd']
      exact h.key j d hd₀ hd' hset
  · rcases found j d hd with ⟨rfl, rfl⟩ | ⟨hj, hd₀⟩
    · exact absurd hd' confirmed
    · obtain ⟨hlive, hothers⟩ := h.unconfirmed j d hd₀ hd'
      have engaged : d.Engaged := .inl hd'.1
      refine ⟨(Keys.live_congr (kept j d hd₀ hj engaged)).trans hlive, fun k e he hstream hne => ?_⟩
      rcases found k e he with ⟨rfl, rfl⟩ | ⟨-, he₀⟩
      · rcases here with ⟨-, hset, -⟩ | alone
        · have hbefore := hothers k c hc (stream.symm.trans hstream) hne
          rw [← Bool.not_eq_true] at hbefore ⊢
          exact fun hset' => hbefore (hset hset')
        · exact absurd engaged (alone j d hd₀ (hstream.symm.trans stream) hj)
      · exact hothers k e he₀ hstream hne

/-- A call comes in. -/
theorem Owned.append (h : Owned s) (sound : c.Sound)
    (alone : c.Engaged → ∀ (j : Nat) d, s.calls[j]? = some d → d.streamId = c.streamId →
      ¬ d.Engaged ∧ d.set = false)
    (fresh : c.Engaged → c.set = true ∧ s.keys.live s.now (redisKey c.streamId) = none)
    (quiet : c.set = true → ∀ (j : Nat) d, s.calls[j]? = some d → d.streamId = c.streamId →
      ¬ d.Unconfirmed) :
    Owned { s with active := active, calls := s.calls ++ [c] } := by
  have found (j : Nat) (d : Call) (hd : (s.calls ++ [c])[j]? = some d) :
      j = s.calls.length ∧ d = c ∨ j ≠ s.calls.length ∧ s.calls[j]? = some d := by
    rcases Nat.lt_or_ge j s.calls.length with hlt | hge
    · rw [List.getElem?_append_left hlt] at hd
      exact .inr ⟨Nat.ne_of_lt hlt, hd⟩
    · rw [List.getElem?_append_right hge, List.getElem?_singleton] at hd
      split at hd
      · exact .inl ⟨by omega, (Option.some.inj hd).symm⟩
      · cases hd
  refine ⟨fun j d hd => ?_, fun j k d e hd he hstream hd' he' => ?_, fun j d hd hd' hset => ?_,
    fun j d hd hd' => ?_⟩
  · rcases found j d hd with ⟨-, rfl⟩ | ⟨-, hd₀⟩
    · exact sound
    · exact h.call j d hd₀
  · rcases found j d hd with ⟨hj, rfl⟩ | ⟨-, hd₀⟩
    · rcases found k e he with ⟨hk, -⟩ | ⟨-, he₀⟩
      · rw [hj, hk]
      · exact absurd he' (alone hd' k e he₀ hstream.symm).1
    · rcases found k e he with ⟨-, rfl⟩ | ⟨-, he₀⟩
      · exact absurd hd' (alone he' j d hd₀ hstream).1
      · exact h.unique j k d e hd₀ he₀ hstream hd' he'
  · rcases found j d hd with ⟨-, rfl⟩ | ⟨-, hd₀⟩
    · have hfresh := (fresh hd').1
      rw [hset] at hfresh
      cases hfresh
    · exact h.key j d hd₀ hd' hset
  · rcases found j d hd with ⟨hj, rfl⟩ | ⟨-, hd₀⟩
    · have engaged : d.Engaged := .inl hd'.1
      refine ⟨(fresh engaged).2, fun k e he hstream hne => ?_⟩
      rcases found k e he with ⟨hk, -⟩ | ⟨-, he₀⟩
      · exact absurd (hk.trans hj.symm) hne
      · exact (alone engaged k e he₀ hstream).2
    · obtain ⟨hlive, hothers⟩ := h.unconfirmed j d hd₀ hd'
      refine ⟨hlive, fun k e he hstream hne => ?_⟩
      rcases found k e he with ⟨-, rfl⟩ | ⟨-, he₀⟩
      · rw [← Bool.not_eq_true]
        exact fun hset => quiet hset j d hd₀ hstream.symm hd'
      · exact hothers k e he₀ hstream hne

/-- Where a `SET` finds no key, no other call on the stream is engaged. -/
theorem Owned.free (h : Owned s) (ttl : WithinTtl s) (hc : s.calls[i]? = some c)
    (hset : c.set = true) (free : s.keys.live s.now (redisKey c.streamId) = none) :
    ∀ (j : Nat) d, s.calls[j]? = some d → d.streamId = c.streamId → j ≠ i → ¬ d.Engaged := by
  intro j d hd hstream hne engaged
  cases hdset : d.set with
  | true =>
    have unconfirmed := (h.call j d hd).unconfirmed engaged hdset
    have hother := (h.unconfirmed j d hd unconfirmed).2 i c hc hstream.symm hne.symm
    rw [hset] at hother
    cases hother
  | false =>
    obtain ⟨t, ht, hkey⟩ := h.key j d hd engaged hdset
    have hlast := ttl d (List.mem_of_getElem? hd) engaged t ht
    rw [hstream] at hkey
    rw [Keys.live, hkey] at free
    simp [Option.filter, Entry.alive, hlast] at free

theorem Owned.others (h : Owned s) (hc : s.calls[i]? = some c) (engaged : c.Engaged) :
    ∀ (j : Nat) d, s.calls[j]? = some d → d.streamId = c.streamId → j ≠ i → ¬ d.Engaged :=
  fun j d hd hstream hne hd' => hne (h.unique j i d c hd hc hstream hd' engaged)

theorem afterSet_sound {now : Nat} {ok : Bool} {connection : Connection} (h : c.Sound)
    (hset : c.set = true) : (c.afterSet now ok connection).Sound := by
  refine ⟨nofun, fun hdel => ?_⟩
  have hunset := h.set_of_del hdel
  rw [hset] at hunset
  cases hunset

theorem not_unconfirmed_of_set (h : c.set = false) : ¬ c.Unconfirmed := by
  rintro ⟨-, hset⟩
  rw [h] at hset
  cases hset

/-- A call that is told nothing good is not engaged by that. -/
theorem engaged_of_afterSet {now : Nat} {connection : Connection}
    (h : (c.afterSet now false connection).Engaged) : c.Engaged := by
  by_cases hphase : c.phase = .asking
  · rcases h with hheld | hanswered | hdel
    · simp [Call.afterSet, hphase] at hheld
    · simp only [Call.afterSet, hphase, if_true] at hanswered
      split at hanswered
      · cases hanswered
      · cases hanswered
    · exact .inr (.inr hdel)
  · have hsame : (c.afterSet now false connection).phase = c.phase := by
      simp [Call.afterSet, hphase]
    rw [Call.Engaged, hsame] at h
    exact h

/-- A `SET` that does not put the key. -/
theorem Owned.unset (h : Owned s) (hc : s.calls[i]? = some c) (hset : c.set = true)
    (confirmed : ¬ c.Unconfirmed) (connection : Connection) :
    Owned { s with calls := s.calls.set i (c.afterSet s.now false connection) } := by
  refine h.replace hc rfl (afterSet_sound (h.call i c hc) hset) (fun _ _ => rfl)
    (.inl ⟨rfl, nofun, engaged_of_afterSet⟩) (fun engaged _ => ?_) (not_unconfirmed_of_set rfl)
  exact absurd ((h.call i c hc).unconfirmed (engaged_of_afterSet engaged) hset) confirmed

theorem owned_runSet (h : Owned s) (ttl : WithinTtl s) (hc : s.calls[i]? = some c)
    (hset : c.set = true) {connection : Connection}
    (alone : AcquiresAlone s (.runSet i connection)) : Owned (runSet s i c connection) := by
  have ran : Owned { s with
        keys := (setNx s.now s.keys (redisKey c.streamId) i redisClawbackTtlSeconds).2
        calls := s.calls.set i (c.afterSet s.now
          (setNx s.now s.keys (redisKey c.streamId) i redisClawbackTtlSeconds).1 connection) } := by
    unfold setNx
    split
    · next held =>
      refine h.unset hc hset (fun unconfirmed => ?_) connection
      rw [(h.unconfirmed i c hc unconfirmed).1] at held
      cases held
    · next free =>
      have hfree : s.keys.live s.now (redisKey c.streamId) = none := by simpa using free
      refine h.replace hc rfl (afterSet_sound (h.call i c hc) hset) (fun x hx => ?_)
        (.inr (h.free ttl hc hset hfree)) (fun _ _ => ⟨s.now, rfl, Keys.put_same ..⟩)
        (not_unconfirmed_of_set rfl)
      exact Keys.put_of_ne _ _ _ fun hkey => hx (redisKey_inj hkey)
  cases connection with
  | down => exact h.unset hc hset (alone rfl c hc) .down
  | heard => exact ran
  | unheard => exact ran

theorem owned_answer (h : Owned s) (hc : s.calls[i]? = some c) {ok : Option Bool}
    (hphase : c.phase = .answered ok) : Owned (answer s i c ok) := by
  have hset : c.set = false :=
    (h.call i c hc).set_eq_false (by rw [hphase]; exact nofun) (by rw [hphase]; exact nofun)
  have hdel : c.del = false := by
    rw [← Bool.not_eq_true]
    intro hdel
    have hother := (h.call i c hc).del hdel
    rw [hphase] at hother
    cases hother
  -- the call goes on without any command, and is engaged only if it was
  have goes (phase : Phase) (before : phase = .held → c.Engaged)
      (hnot : phase ≠ .answered (some true)) {active : List (Nat × String)} :
      Owned { s with active := active, calls := s.calls.set i { c with phase := phase } } := by
    have engaged (hd : ({ c with phase := phase } : Call).Engaged) : c.Engaged := by
      rcases hd with hheld | hanswered | hdel'
      · exact before hheld
      · exact absurd hanswered hnot
      · exact .inr (.inr hdel')
    refine h.replace hc rfl ⟨fun h => ?_, fun h => ?_⟩ (fun _ _ => rfl)
      (.inl ⟨rfl, fun h => h, engaged⟩) (fun hd _ => h.key i c hc (engaged hd) hset)
      (not_unconfirmed_of_set hset)
    · rw [hset] at h
      cases h
    · rw [hdel] at h
      cases h
  match ok with
  | some true => exact goes .held (fun _ => .inr (.inl hphase)) (by simp)
  | some false => exact goes _ (by simp) (by simp)
  | none => exact goes _ (by simp) (by simp)

theorem owned_release (h : Owned s) (hc : s.calls[i]? = some c) (held : c.phase = .held)
    (alone : AcquiresAlone s (.release i)) : Owned (release s i c) := by
  have hset : c.set = false := by
    rw [← Bool.not_eq_true]
    exact fun hset => alone c hc ⟨held, hset⟩
  refine h.replace hc rfl ⟨fun h => ?_, fun _ => rfl⟩ (fun _ _ => rfl)
    (.inl ⟨rfl, fun h => h, fun _ => .inl held⟩) (fun _ _ => h.key i c hc (.inl held) hset)
    (not_unconfirmed_of_set hset)
  rw [hset] at h
  cases h

theorem owned_runDel (h : Owned s) (hc : s.calls[i]? = some c) (hdel : c.del = true)
    (connection : Connection) : Owned (runDel s i c connection) := by
  have sound := h.call i c hc
  have hset := sound.set_of_del hdel
  have engaged : c.Engaged := .inr (.inr hdel)
  refine h.replace hc rfl ⟨fun h => ?_, nofun⟩ (fun x hx => ?_) (.inr (h.others hc engaged))
    (fun hd _ => ?_) (not_unconfirmed_of_set hset)
  · rw [hset] at h
    cases h
  · show (if connection = .down then s.keys else s.keys.remove (redisKey c.streamId)) _ = _
    split
    · rfl
    · exact Keys.remove_of_ne _ fun hkey => hx (redisKey_inj hkey)
  · rcases hd with hheld | hanswered | hdel'
    · have hreleased := sound.del hdel
      rw [show c.phase = .held from hheld] at hreleased
      cases hreleased
    · have hreleased := sound.del hdel
      rw [show c.phase = .answered (some true) from hanswered] at hreleased
      cases hreleased
    · cases hdel'

theorem owned_refused (h : Owned s) (pod : Nat) (streamId : String) (error : AppError) :
    Owned { s with calls := s.calls ++ [⟨pod, streamId, .refused error, false, false, none⟩] } := by
  have idle : ¬ (⟨pod, streamId, .refused error, false, false, none⟩ : Call).Engaged := by
    simp [Call.Engaged]
  exact h.append ⟨nofun, nofun⟩ (fun engaged => absurd engaged idle)
    (fun engaged => absurd engaged idle) nofun

theorem owned_acquire (h : Owned s) {pod : Nat} {streamId : String} {ready : Bool}
    (alone : AcquiresAlone s (.acquire pod streamId ready)) :
    Owned (step s (.acquire pod streamId ready)) := by
  simp only [step, acquire]
  by_cases taken : (pod, streamId) ∈ s.active
  · rw [if_pos taken]
    exact owned_refused h pod streamId _
  · rw [if_neg taken]
    by_cases unready : ready = false
    · rw [if_pos unready]
      exact owned_refused h pod streamId _
    · rw [if_neg unready]
      obtain ⟨free, others⟩ := alone taken (by simpa using unready)
      have quiet (j : Nat) (d : Call) (hd : s.calls[j]? = some d) (hstream : d.streamId = streamId) :
          ¬ d.Engaged ∧ d.set = false := others d (List.mem_of_getElem? hd) hstream
      exact h.append ⟨fun _ => .inr rfl, nofun⟩ (fun _ => quiet)
        (fun _ => ⟨rfl, Option.isNone_iff_eq_none.1 free⟩)
        fun _ j d hd hstream => not_unconfirmed_of_set (quiet j d hd hstream).2

theorem owned_acquireAsync (h : Owned s) {pod : Nat} {streamId : String}
    (alone : AcquiresAlone s (.acquireAsync pod streamId)) :
    Owned (step s (.acquireAsync pod streamId)) := by
  simp only [step]
  by_cases taken : (pod, streamId) ∈ s.active
  · rw [if_pos taken]
    exact owned_refused h pod streamId _
  · rw [if_neg taken]
    have idle : ¬ (⟨pod, streamId, .asking, true, false, none⟩ : Call).Engaged := by
      simp [Call.Engaged]
    exact h.append ⟨fun _ => .inl rfl, nofun⟩ (fun engaged => absurd engaged idle)
      (fun engaged => absurd engaged idle)
      fun _ j d hd hstream => alone taken d (List.mem_of_getElem? hd) hstream

theorem owned_elapse (h : Owned s) (ms : Nat) : Owned { s with now := s.now + ms } := by
  refine ⟨h.call, h.unique, h.key, fun i c hc unconfirmed => ?_⟩
  obtain ⟨hlive, hothers⟩ := h.unconfirmed i c hc unconfirmed
  refine ⟨?_, hothers⟩
  by_contra hsome
  have hnow := Keys.live_of_le (Option.isSome_iff_ne_none.2 hsome) (Nat.le_add_right s.now ms)
  rw [hlive] at hnow
  cases hnow

theorem owned_step (h : Owned s) (ttl : WithinTtl s) {a : Activity} (alone : AcquiresAlone s a) :
    Owned (step s a) := by
  cases a with
  | acquire pod streamId ready => exact owned_acquire h alone
  | acquireAsync pod streamId => exact owned_acquireAsync h alone
  | runSet i connection =>
    rw [step]
    split
    · next c hc =>
      split
      · next hset => exact owned_runSet h ttl hc hset alone
      · exact h
    · exact h
  | answer i =>
    rw [step]
    split
    · next c hc =>
      split
      · next ok hphase => exact owned_answer h hc hphase
      · exact h
    · exact h
  | release i =>
    rw [step]
    split
    · next c hc =>
      split
      · next held => exact owned_release h hc held alone
      · exact h
    · exact h
  | runDel i connection =>
    rw [step]
    split
    · next c hc =>
      split
      · next hdel => exact owned_runDel h hc hdel connection
      · exact h
    · exact h
  | elapse ms => exact owned_elapse h ms

end Updates

theorem Owned.exclusive {s : State} (h : Owned s) : Exclusive s :=
  fun i j c d hc hd hstream held held' => h.unique i j c d hc hd hstream (.inl held) (.inl held')

theorem Owned.not_frees {s : State} (h : Owned s) (a : Activity) : ¬ Frees s a := by
  rintro ⟨i, j, c, d, hc, hd, hstream, hne, held, ⟨-, held', -⟩ |
    ⟨connection, deadline, -, -, hdel, hlive⟩⟩
  · exact hne (h.exclusive i j c d hc hd hstream held' held)
  · have hset := (h.call i c hc).set_of_del hdel
    obtain ⟨t, -, hkey⟩ := h.key i c hc (.inr (.inr hdel)) hset
    obtain ⟨hkey', -⟩ := Option.filter_eq_some_iff.1 hlive
    rw [hkey] at hkey'
    exact hne (Entry.mk.inj (Option.some.inj hkey')).1

/-- Within the lifetime of the key, the lock excludes, and releases free no other lock, as long as
the `SET` of every `acquire` that returns takes effect before anything else happens to its
stream. -/
theorem clawback_exclusive (now : Nat) (as : List Activity)
    (ttl : ∀ p ∈ Machine.trail step (start now) as, WithinTtl p.1)
    (alone : ∀ p ∈ Machine.trail step (start now) as, AcquiresAlone p.1 p.2) :
    (∀ bs, bs <+: as → Exclusive (run now bs)) ∧
      ∀ p ∈ Machine.trail step (start now) as, ¬ Frees p.1 p.2 := by
  have owned (bs : List Activity) (hbs : bs <+: as) : Owned (run now bs) :=
    Machine.run_invariant step (owned_start now) fun p hp h =>
      owned_step h (ttl p (Machine.trail_of_isPrefix step hbs hp))
        (alone p (Machine.trail_of_isPrefix step hbs hp))
  refine ⟨fun bs hbs => (owned bs hbs).exclusive, ?_⟩
  rintro ⟨s, a⟩ hp
  obtain ⟨bs, cs, rfl, rfl⟩ := Machine.exists_append_of_mem_trail step hp
  exact (owned bs ⟨_, rfl⟩).not_frees a

namespace Sample

/-- Two pods ask one after the other, one by `acquireAsync` and one by `acquire`. -/
def oneByOne : List Activity :=
  [.acquireAsync 0 "s", .runSet 0 .heard, .answer 0, .release 0, .runDel 0 .heard,
    .acquire 1 "s" true, .runSet 1 .heard, .acquireAsync 0 "s", .runSet 2 .heard, .answer 2]

/-- Two pods acquire the lock at the same time. -/
def race : List Activity := [.acquire 0 "s" true, .acquire 1 "s" true]

end Sample

theorem clawback_exclusive_oneByOne :
    (∀ bs, bs <+: Sample.oneByOne → Exclusive (run 0 bs)) ∧
      ∀ p ∈ Machine.trail step (start 0) Sample.oneByOne, ¬ Frees p.1 p.2 :=
  clawback_exclusive 0 Sample.oneByOne (by decide +kernel) (by decide +kernel)

/-- Both hold the lock of the stream. -/
theorem not_exclusive : ¬ Exclusive (run 0 Sample.race) := fun h =>
  absurd (h 0 1 ⟨0, "s", .held, true, false, none⟩ ⟨1, "s", .held, true, false, none⟩
    (by decide +kernel) (by decide +kernel) rfl rfl rfl) (by decide)

end Amana.Backend.StreamClawback
