import Amana.Backend.IdempotentReplay

/-!
# Callers and their keys

The keys of the cache and of the lock do not name the caller.  What a caller gets depends on the
requests of another one only through keys that both use, and a stored response reaches requests of
its key only (`callers_apart`).
-/

namespace Amana.Backend.Idempotency

open Lib Lib.Expiring RequestState
open Lib.Database (Connection)

variable {B : Type} {json : Json B} {s t : State B} {id : RequestId} {now : Nat}
  {keys keys' : IdempotencyKeys B} {r : RequestState B} {event : Event B}

/-- The middleware acts on both, with one key of the cache. -/
def Request.Shares (r q : Request B) : Prop :=
  ∃ key ∈ r.key, ∃ key' ∈ q.key, cacheKey r key = cacheKey q key'

instance (r q : Request B) : Decidable (r.Shares q) := by
  unfold Request.Shares
  infer_instance

def Activity.caller : Activity B → Option String
  | .arrive id _ | .event id _ => some id.1
  | .elapse _ => none

/-- A run without the requests of a caller. -/
def without (caller : String) (as : List (Activity B)) : List (Activity B) :=
  as.filter fun a => a.caller ≠ some caller

/-- What `b` gets is the same whether or not `a` sends requests. -/
def NonInterfering (json : Json B) (now : Nat) (as : List (Activity B)) (a b : String) : Prop :=
  ∀ n, ((run json now as).requests.get (b, n)).bind RequestState.answer =
    ((run json now (without a as)).requests.get (b, n)).bind RequestState.answer

/-- No request of `a` shares its key with one of `b`. -/
def KeysApart (as : List (Activity B)) (a b : String) : Prop :=
  ∀ n request m other, .arrive (b, n) request ∈ as → .arrive (a, m) other ∈ as →
    ¬ request.Shares other

/-- A stored response led to answers of requests with its key only. -/
def ReplaysByKey (s : State B) : Prop :=
  ∀ id r answer producer, s.requests.get id = some r → r.answer = some answer →
    answer.origin.stored = some producer →
    ∃ p, s.requests.get producer = some p ∧ r.request.Shares p.request

/-! ### Replays -/

theorem Sound.shares_of_live (sound : Sound json s) {request : Request B} {key : String}
    {cached : CachedResponse B} {deadline : Option Nat} (hkey : request.key = some key)
    (found : s.keys.live s.now (cacheKey request key) = some ⟨.response cached, deadline⟩) :
    ∃ p, s.requests.get cached.producer = some p ∧ request.Shares p.request := by
  obtain ⟨hk, -⟩ := Option.filter_eq_some_iff.1 found
  obtain ⟨p, key', hp, hkey', hsame, -⟩ := sound.response _ _ _ hk
  exact ⟨p, hp, key, hkey, key', hkey', hsame⟩

theorem stored_of_cacheHit {cached : CachedResponse B} {answer : Answer B} {producer : RequestId}
    (h : (r.cacheHit json now cached).answer = some answer)
    (hproducer : answer.origin.stored = some producer) : producer = cached.producer := by
  obtain ⟨hit, -⟩ | ⟨hit, -⟩ := cacheHit_cases json now cached r
  · rw [hit] at h
    cases h
    exact (Option.some.inj hproducer).symm
  · rw [hit] at h
    cases h
    exact (Option.some.inj hproducer).symm

theorem replaysByKey_step (sound : Sound json s) (h : ReplaysByKey s) (a : Activity B) :
    ReplaysByKey (step json s a) := by
  intro id q answer producer hq hanswer hproducer
  have before : ∃ p, s.requests.get producer = some p ∧ q.request.Shares p.request := by
    rcases get_step hq with hq | ⟨request, -, -, rfl⟩ | ⟨r, event, rfl, hr, rfl⟩
    · exact h id q answer producer hq hanswer hproducer
    · cases hanswer
    · have after := handled json id s.now s.keys r event
      rw [after.request]
      rcases after.answer_cases hanswer with hanswer | hnone |
        ⟨key, cached, deadline, -, -, hkey, found, hanswer⟩ |
        ⟨key, cached, deadline, last, wake, -, -, -, hkey, found, hanswer⟩
      · exact h id r answer producer hr hanswer hproducer
      · rw [hnone] at hproducer
        cases hproducer
      · rw [stored_of_cacheHit hanswer hproducer]
        exact sound.shares_of_live hkey found
      · cases hanswer
        cases hproducer
        exact sound.shares_of_live hkey found
  obtain ⟨p, hp, shares⟩ := before
  obtain ⟨after, hafter, onward⟩ := onward_step sound a hp
  refine ⟨after, hafter, ?_⟩
  rw [onward.1]
  exact shares

theorem replaysByKey_run (json : Json B) (now : Nat) (as : List (Activity B)) :
    ReplaysByKey (run json now as) := by
  have hstart : ReplaysByKey (start now : State B) := by
    intro id r answer producer hr
    cases hr
  have hboth : Sound json (run json now as) ∧ ReplaysByKey (run json now as) :=
    Machine.run_invariant_of_step (step json) (P := fun s => Sound json s ∧ ReplaysByKey s) as
      ⟨sound_start json now, hstart⟩ fun _ a h => ⟨sound_step h.1 a, replaysByKey_step h.1 h.2 a⟩
  exact hboth.2

/-! ### What a request reads -/

theorem put_congr {k : String} (h : keys k = keys' k) (j : String) (value : Value B)
    (deadline : Option Nat) : keys.put j value deadline k = keys'.put j value deadline k := by
  by_cases same : k = j
  · rw [same, Keys.put_same, Keys.put_same]
  · rw [Keys.put_of_ne _ _ _ same, Keys.put_of_ne _ _ _ same, h]

theorem remove_congr {k : String} (h : keys k = keys' k) (j : String) :
    keys.remove j k = keys'.remove j k := by
  by_cases same : k = j
  · simp [same, Keys.remove]
  · rw [Keys.remove_of_ne _ same, Keys.remove_of_ne _ same, h]

theorem acquireScript_congr (now : Nat) {cacheKey lockKey : String}
    (hcache : keys cacheKey = keys' cacheKey)
    (hlock : keys lockKey = keys' lockKey) (seconds : Nat) :
    (acquireScript now keys cacheKey lockKey seconds).1 =
        (acquireScript now keys' cacheKey lockKey seconds).1 ∧
      ∀ k, keys k = keys' k → (acquireScript now keys cacheKey lockKey seconds).2 k =
        (acquireScript now keys' cacheKey lockKey seconds).2 k := by
  have hcache' : keys.live now cacheKey = keys'.live now cacheKey := Keys.live_congr hcache
  have hlock' : keys.live now lockKey = keys'.live now lockKey := Keys.live_congr hlock
  unfold acquireScript
  rw [hcache', hlock']
  split
  · exact ⟨rfl, fun _ h => h⟩
  · split
    · exact ⟨rfl, fun k h => put_congr h _ _ _⟩
    · exact ⟨rfl, fun _ h => h⟩

/-- The keys of a request hold the same in both. -/
def SameFor (keys keys' : IdempotencyKeys B) (request : Request B) : Prop :=
  ∀ key, request.key = some key → keys (cacheKey request key) = keys' (cacheKey request key) ∧
    keys (lockKey request key) = keys' (lockKey request key)

theorem acquire_congr {key : String} (hkey : r.request.key = some key)
    (same : SameFor keys keys' r.request) (connection : Connection) :
    (acquire json now keys r key connection).1 = (acquire json now keys' r key connection).1 ∧
      ∀ k, keys k = keys' k → (acquire json now keys r key connection).2 k =
        (acquire json now keys' r key connection).2 k := by
  obtain ⟨hran, hkeys⟩ := acquireScript_congr now (same key hkey).1 (same key hkey).2 idempotencyLockTtl
  cases connection with
  | down => exact ⟨rfl, fun _ h => h⟩
  | unheard => exact ⟨rfl, hkeys⟩
  | heard =>
    refine ⟨?_, hkeys⟩
    show r.acquired json now _ = r.acquired json now _
    rw [hran]

theorem poll_congr {key : String} (hkey : r.request.key = some key)
    (same : SameFor keys keys' r.request) (last : Nat) (connection : Connection) :
    poll now keys r key last connection = poll now keys' r key last connection := by
  have hlive : keys.live now (cacheKey r.request key) = keys'.live now (cacheKey r.request key) :=
    Keys.live_congr (same key hkey).1
  cases connection with
  | down => rfl
  | unheard => rfl
  | heard =>
    simp only [poll, hlive]

theorem deliver_congr (r : RequestState B) (key : String) (command : Command B)
    (connection : Connection) :
    (deliver now keys r key command connection).1 = (deliver now keys' r key command connection).1 ∧
      ∀ k, keys k = keys' k → (deliver now keys r key command connection).2 k =
        (deliver now keys' r key command connection).2 k := by
  cases command with
  | del =>
    cases connection with
    | down => exact ⟨rfl, fun _ h => h⟩
    | heard => exact ⟨rfl, fun k h => remove_congr h _⟩
    | unheard => exact ⟨rfl, fun k h => remove_congr h _⟩
  | commit response =>
    cases connection with
    | down => exact ⟨rfl, fun _ h => h⟩
    | heard => exact ⟨rfl, fun k h => remove_congr (put_congr h _ _ _) _⟩
    | unheard => exact ⟨rfl, fun k h => remove_congr (put_congr h _ _ _) _⟩

/-- An event of a request depends on the keys of the request only. -/
theorem handle_congr (json : Json B) (id : RequestId) (now : Nat)
    (same : SameFor keys keys' r.request) (event : Event B) :
    (handle json id now keys r event).1 = (handle json id now keys' r event).1 ∧
      ∀ k, keys k = keys' k → (handle json id now keys r event).2 k =
        (handle json id now keys' r event).2 k := by
  cases event with
  | acquire connection =>
    simp only [handle]
    split
    · next key _ hkey => exact acquire_congr hkey same connection
    · exact ⟨rfl, fun _ h => h⟩
  | check =>
    simp only [handle]
    split
    · split
      · exact ⟨rfl, fun _ h => h⟩
      · exact ⟨rfl, fun _ h => h⟩
    · exact ⟨rfl, fun _ h => h⟩
  | poll connection =>
    simp only [handle]
    split
    · next last wake key _ hkey =>
      split
      · exact ⟨poll_congr hkey same last connection, fun _ h => h⟩
      · exact ⟨rfl, fun _ h => h⟩
    · exact ⟨rfl, fun _ h => h⟩
  | respond requestBody status body headers => exact ⟨rfl, fun _ h => h⟩
  | finish =>
    simp only [handle]
    split
    · exact ⟨rfl, fun _ h => h⟩
    · exact ⟨rfl, fun _ h => h⟩
  | close => exact ⟨rfl, fun _ h => h⟩
  | deliver n connection =>
    simp only [handle]
    split
    · next command key _ hkey => exact deliver_congr _ key command connection
    · exact ⟨rfl, fun _ h => h⟩

/-- An event of a request writes the keys of the request only. -/
theorem handle_keys_of_ne (json : Json B) (id : RequestId) (now : Nat) (keys : IdempotencyKeys B)
    (r : RequestState B) (event : Event B) {k : String}
    (other : ∀ key, r.request.key = some key → k ≠ cacheKey r.request key ∧ k ≠ lockKey r.request key) :
    (handle json id now keys r event).2 k = keys k := by
  rcases (handled json id now keys r event).keys_cases with
    same | ⟨key, hkey, removed | put | ⟨response, -, committed⟩⟩
  · rw [same]
  · rw [removed, Keys.remove_of_ne _ (other key hkey).2]
  · rw [put, Keys.put_of_ne _ _ _ (other key hkey).2]
  · rw [committed, commitScript, Keys.remove_of_ne _ (other key hkey).2,
      Keys.put_of_ne _ _ _ (other key hkey).1]

/-! ### Two runs

`K` are the requests of the caller `a`. -/

section Runs

variable {K : Request B → Prop} {a : String} {request : Request B} {k : String}

/-- No key of the requests in `K`. -/
def Untouched (K : Request B → Prop) (k : String) : Prop :=
  ∀ other key, K other → other.key = some key → k ≠ cacheKey other key ∧ k ≠ lockKey other key

def Apart (K : Request B → Prop) (request : Request B) : Prop :=
  ∀ other, K other → ¬ request.Shares other

/-- The same request, and in the same state if it is apart from those in `K`. -/
def Alike (K : Request B → Prop) (r q : RequestState B) : Prop :=
  r.request = q.request ∧ (Apart K r.request → r = q)

/-- What remains the same without the requests of `a`. -/
structure Agree (K : Request B → Prop) (a : String) (s t : State B) : Prop where
  now : s.now = t.now
  keys : ∀ k, Untouched K k → s.keys k = t.keys k
  others : ∀ id : RequestId, id.1 ≠ a →
    Option.Rel (Alike K) (s.requests.get id) (t.requests.get id)
  own : ∀ (id : RequestId) r, id.1 = a → s.requests.get id = some r → K r.request

theorem Apart.untouched (h : Apart K request) {key : String} (hkey : request.key = some key) :
    Untouched K (cacheKey request key) ∧ Untouched K (lockKey request key) := by
  have unshared {other : Request B} {key' : String} (hother : K other)
      (hkey' : other.key = some key') : cacheKey request key ≠ cacheKey other key' := fun same =>
    h other hother ⟨key, hkey, key', hkey', same⟩
  refine ⟨fun other key' hother hkey' => ⟨unshared hother hkey', cacheKey_ne_lockKey hkey⟩,
    fun other key' hother hkey' => ⟨(cacheKey_ne_lockKey hkey').symm, fun same => ?_⟩⟩
  exact unshared hother hkey' (lockKey_eq_iff.1 same)

theorem Untouched.ne_of_shares (h : Untouched K k) {other : Request B} (hother : K other)
    (shares : request.Shares other) :
    ∀ key, request.key = some key → k ≠ cacheKey request key ∧ k ≠ lockKey request key := by
  intro key hkey
  obtain ⟨key₁, hkey₁, key', hkey', same⟩ := shares
  obtain rfl : key₁ = key := Option.some.inj (hkey₁.symm.trans hkey)
  rw [same, lockKey_eq_iff.2 same]
  exact h other key' hother hkey'

theorem agree_elapse (h : Agree K a s t) (ms : Nat) :
    Agree K a (step json s (.elapse ms)) (step json t (.elapse ms)) :=
  ⟨congrArg (· + ms) h.now, h.keys, h.others, h.own⟩

theorem Agree.found (h : Agree K a s t) {id : RequestId} (hid : id.1 ≠ a) :
    s.requests.get id = none ∧ t.requests.get id = none ∨
      ∃ r q, s.requests.get id = some r ∧ t.requests.get id = some q ∧ Alike K r q := by
  have hothers := h.others id hid
  generalize s.requests.get id = before, t.requests.get id = after at hothers
  cases hothers with
  | none => exact .inl ⟨rfl, rfl⟩
  | @some r q alike => exact .inr ⟨r, q, rfl, rfl, alike⟩

/-- Both runs go on with a request of another caller. -/
theorem Agree.set (h : Agree K a s t) {id : RequestId} (hid : id.1 ≠ a) {r q : RequestState B}
    (alike : Alike K r q) (hkeys : ∀ k, Untouched K k → keys k = keys' k) :
    Agree K a ⟨s.now, keys, s.requests.set id r⟩ ⟨s.now, keys', t.requests.set id q⟩ := by
  refine ⟨rfl, hkeys, fun id' hid' => ?_, fun id' r' hid' hr' => ?_⟩
  · by_cases same : id' = id
    · subst same
      rw [Store.get_set_self, Store.get_set_self]
      exact .some alike
    · rw [Store.get_set_ne _ _ same, Store.get_set_ne _ _ same]
      exact h.others id' hid'
  · have hne : id' ≠ id := by
      rintro rfl
      exact hid hid'
    rw [Store.get_set_ne _ _ hne] at hr'
    exact h.own id' r' hid' hr'

theorem agree_arrive (h : Agree K a s t) {id : RequestId} (hid : id.1 ≠ a) (request : Request B) :
    Agree K a (step json s (.arrive id request)) (step json t (.arrive id request)) := by
  rcases h.found hid with ⟨hs, ht⟩ | ⟨r, q, hs, ht, -⟩
  · have hhas : ¬ s.requests.has id = true := by simp [Store.has, hs]
    have hhas' : ¬ t.requests.has id = true := by simp [Store.has, ht]
    rw [step, step, if_neg hhas, if_neg hhas', ← h.now]
    exact h.set hid ⟨rfl, fun _ => rfl⟩ h.keys
  · have hhas : s.requests.has id = true := by simp [Store.has, hs]
    have hhas' : t.requests.has id = true := by simp [Store.has, ht]
    rw [step, step, if_pos hhas, if_pos hhas']
    exact h

theorem agree_event (h : Agree K a s t) {id : RequestId} (hid : id.1 ≠ a) (event : Event B) :
    Agree K a (step json s (.event id event)) (step json t (.event id event)) := by
  rcases h.found hid with ⟨hs, ht⟩ | ⟨r, q, hs, ht, hrequest, hsame⟩
  · rw [step_event_none json event hs, step_event_none json event ht]
    exact h
  · rw [step_event json event hs, step_event json event ht, ← h.now]
    have hafter := (handled json id s.now s.keys r event).request
    have hafter' := (handled json id s.now t.keys q event).request
    by_cases apart : Apart K r.request
    · obtain rfl := hsame apart
      have hfor : SameFor s.keys t.keys r.request := fun key hkey =>
        ⟨h.keys _ (apart.untouched hkey).1, h.keys _ (apart.untouched hkey).2⟩
      obtain ⟨hstate, hkeys⟩ := handle_congr json id s.now hfor event
      exact h.set hid ⟨by rw [hstate], fun _ => hstate⟩ fun k hk => hkeys k (h.keys k hk)
    · have shared := apart
      simp only [Apart, not_forall, not_not] at shared
      obtain ⟨other, hother, shares⟩ := shared
      refine h.set hid ⟨by rw [hafter, hafter', hrequest], fun h => ?_⟩ fun k hk => ?_
      · rw [hafter] at h
        exact absurd h apart
      · have hne := hk.ne_of_shares hother shares
        rw [handle_keys_of_ne json id s.now s.keys r event hne,
          handle_keys_of_ne json id s.now t.keys q event (hrequest ▸ hne)]
        exact h.keys k hk

/-- The requests of `a` leave the rest alone. -/
theorem agree_own (h : Agree K a s t) {activity : Activity B}
    (own : activity.caller = some a)
    (arrives : ∀ id request, activity = .arrive id request → K request) :
    Agree K a (step json s activity) t := by
  have kept (id : RequestId) (hid : id.1 = a) (r : RequestState B) (hr : K r.request)
      {keys : IdempotencyKeys B} (hkeys : ∀ k, Untouched K k → keys k = s.keys k) :
      Agree K a { s with keys := keys, requests := s.requests.set id r } t := by
    refine ⟨h.now, fun k hk => (hkeys k hk).trans (h.keys k hk), fun id' hid' => ?_,
      fun id' r' hid' hr' => ?_⟩
    · have hne : id' ≠ id := by
        rintro rfl
        exact hid' hid
      rw [Store.get_set_ne _ _ hne]
      exact h.others id' hid'
    · rcases Store.get_set_cases hr' with ⟨-, rfl⟩ | ⟨-, hr'⟩
      · exact hr
      · exact h.own id' r' hid' hr'
  cases activity with
  | elapse ms => cases own
  | arrive id request =>
    rw [step]
    split
    · exact h
    · exact kept id (Option.some.inj own) _ (arrives id request rfl) fun _ _ => rfl
  | event id event =>
    have hid : id.1 = a := Option.some.inj own
    cases hr : s.requests.get id with
    | none =>
      rw [step_event_none json event hr]
      exact h
    | some r =>
      have hK := h.own id r hid hr
      rw [step_event json event hr]
      refine kept id hid _ ?_ fun k hk => handle_keys_of_ne json id s.now s.keys r event
        fun key hkey => hk r.request key hK hkey
      rw [(handled json id s.now s.keys r event).request]
      exact hK

theorem agree_run (h : Agree K a s t) {as : List (Activity B)}
    (arrives : ∀ id request, .arrive id request ∈ as → id.1 = a → K request) :
    Agree K a (Machine.run (step json) s as) (Machine.run (step json) t (without a as)) := by
  induction as generalizing s t with
  | nil => exact h
  | cons activity as ih =>
    have rest := fun id request hmem => arrives id request (List.mem_cons_of_mem activity hmem)
    by_cases own : activity.caller = some a
    · have hwithout : without a (activity :: as) = without a as := by simp [without, own]
      rw [hwithout, Machine.run_cons]
      refine ih (agree_own h own fun id request harrive => ?_) rest
      subst harrive
      exact arrives id request (List.mem_cons_self ..) (Option.some.inj own)
    · have hwithout : without a (activity :: as) = activity :: without a as := by
        simp [without, own]
      rw [hwithout, Machine.run_cons, Machine.run_cons]
      refine ih ?_ rest
      cases activity with
      | elapse ms => exact agree_elapse h ms
      | arrive id request => exact agree_arrive h (fun hid => own (congrArg some hid)) request
      | event id event => exact agree_event h (fun hid => own (congrArg some hid)) event

end Runs

theorem arrived_run (json : Json B) (now : Nat) {as : List (Activity B)} {id : RequestId}
    {r : RequestState B} (hr : (run json now as).requests.get id = some r) :
    .arrive id r.request ∈ as := by
  have all : ∀ id r, (run json now as).requests.get id = some r → .arrive id r.request ∈ as := by
    refine Machine.run_invariant (step json)
      (P := fun s => ∀ id r, s.requests.get id = some r → .arrive id r.request ∈ as)
      ?_ fun p hp before id r hr => ?_
    · intro id r hr
      cases hr
    rcases get_step hr with hr | ⟨request, harrive, -, rfl⟩ | ⟨q, event, -, hq, rfl⟩
    · exact before id r hr
    · have hmem := Machine.mem_of_mem_trail (step json) hp
      rw [harrive] at hmem
      exact hmem
    · rw [(handled json id p.1.now p.1.keys q event).request]
      exact before id q hq
  exact all id r hr

theorem nonInterfering_of_keysApart (json : Json B) (now : Nat) {as : List (Activity B)}
    {a b : String} (ne : a ≠ b) (apart : KeysApart as a b) : NonInterfering json now as a b := by
  intro n
  let K : Request B → Prop := fun request => ∃ m, .arrive (a, m) request ∈ as
  have hstart : Agree K a (start now : State B) (start now) := by
    refine ⟨rfl, fun _ _ => rfl, fun _ _ => .none, fun id r _ hr => ?_⟩
    cases hr
  have hagree : Agree K a (run json now as) (run json now (without a as)) :=
    agree_run hstart fun id request harrive hid => ⟨id.2, hid ▸ harrive⟩
  have hb : ((b, n) : RequestId).1 ≠ a := ne.symm
  rcases hagree.found hb with ⟨hs, ht⟩ | ⟨r, q, hs, ht, -, hsame⟩
  · rw [hs, ht]
  · have hrq : r = q := hsame fun other ⟨m, hother⟩ =>
      apart n r.request m other (arrived_run json now hs) hother
    rw [hs, ht, hrq]

/-- Callers meet through their keys only: where `a` and `b` use different keys, what `b` gets does
not depend on `a`, and in all runs a stored response goes to requests with its key only. -/
theorem callers_apart (json : Json B) (now : Nat) (as : List (Activity B)) :
    (∀ a b, a ≠ b → KeysApart as a b → NonInterfering json now as a b) ∧
      ReplaysByKey (run json now as) :=
  ⟨fun _ _ ne apart => nonInterfering_of_keysApart json now ne apart, replaysByKey_run json now as⟩

namespace Sample

/-- The first request of another caller. -/
def foreign : RequestId := ("GB", 0)

def served (id : RequestId) (request : Request String) (body : String) : List (Activity String) :=
  [.arrive id request, .event id (.acquire .heard),
    .event id (.respond request.body 201 (some body) []), .event id (.deliver 0 .heard)]

/-- Two callers send the same request with the same key. -/
def crossed : List (Activity String) :=
  served first (request "1") "trade of GA" ++ served foreign (request "1") "trade of GB"

/-- They send it with keys of their own. -/
def separate : List (Activity String) :=
  served first (request "1") "trade of GA" ++
    served foreign { request "1" with idempotencyKey := some "l" } "trade of GB"

end Sample

theorem callers_apart_separate :
    NonInterfering Sample.plain 0 Sample.separate "GA" "GB" ∧
      ReplaysByKey (run Sample.plain 0 Sample.separate) := by
  obtain ⟨apart, bykey⟩ := callers_apart Sample.plain 0 Sample.separate
  have callers : "GA" ≠ "GB" := by decide
  refine ⟨apart "GA" "GB" callers fun n request m other hb ha => ?_, bykey⟩
  simp only [Sample.separate, Sample.served, List.cons_append, List.nil_append, List.mem_cons,
    Activity.arrive.injEq, reduceCtorEq, false_or, or_false, List.not_mem_nil] at hb ha
  rcases hb with ⟨hid, -⟩ | ⟨-, rfl⟩
  · exact absurd (congrArg Prod.fst hid) callers.symm
  · rcases ha with ⟨-, rfl⟩ | ⟨hid, -⟩
    · decide +kernel
    · exact absurd (congrArg Prod.fst hid) callers

/-- `GB` gets the response to `GA`. -/
theorem not_nonInterfering :
    ¬ NonInterfering Sample.plain 0 Sample.crossed "GA" "GB" ∧
      ((run Sample.plain 0 Sample.crossed).requests.get Sample.foreign).bind
        (fun r => r.answer.map Answer.origin) = some (.replay Sample.first) := by
  refine ⟨fun h => ?_, by decide +kernel⟩
  have hwith : (((run Sample.plain 0 Sample.crossed).requests.get ("GB", 0)).bind
      RequestState.answer).map (fun answer => answer.response.body) =
      some (some "trade of GA") := by decide +kernel
  rw [h 0] at hwith
  revert hwith
  decide +kernel

end Amana.Backend.Idempotency
