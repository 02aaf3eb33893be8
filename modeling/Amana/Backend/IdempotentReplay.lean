import Amana.Backend.Idempotency

/-!
# Responses that are replayed

`ACQUIRE` that finds a response compares the body of the request with the body as it was when the
response was given, which `validateRequest` has rewritten; the loop that waits for a request in
flight compares nothing.  A response is replayed to the same request only, all along a run, exactly
when no look of that loop finds a response for another body, and `ACQUIRE` finds one whose request
was answered with the body it had arrived with, or neither body is the one that is asked for
(`replays_faithful_iff`).
-/

namespace Amana.Backend.Idempotency

open Lib Lib.Expiring RequestState
open Lib.Database (Connection)

variable {B : Type} {json : Json B} {s : State B} {id : RequestId}

/-- The producer of the stored response that led to an answer. -/
def Origin.stored : Origin → Option RequestId
  | .replay producer | .keyReused producer => some producer
  | .handler | .inProgress => none

/-- A stored response leads to its replay where the hash of the body is the one of the request
that produced it, and to a 409 where it is not. -/
def Fits (json : Json B) (s : State B) (request : Request B) (answer : Answer B) : Prop :=
  ∀ producer, answer.origin.stored = some producer →
    ∃ p, s.requests.get producer = some p ∧
      (bodyHash json request.body = bodyHash json p.request.body ∧
          answer.origin = .replay producer ∨
        bodyHash json request.body ≠ bodyHash json p.request.body ∧
          answer.origin = .keyReused producer ∧ answer.response.status = 409)

def ReplaysFaithful (json : Json B) (s : State B) : Prop :=
  ∀ id r answer, s.requests.get id = some r → r.answer = some answer →
    Fits json s r.request answer

/-- If the request looks into the cache while it waits, it finds no response to a request with
another body. -/
def PollsOwnBody (json : Json B) (s : State B) (a : Activity B) : Prop :=
  ∀ id r key last wake cached deadline p, a = .event id (.poll .heard) →
    s.requests.get id = some r → r.phase = .sleeping last wake → wake ≤ s.now →
    r.request.key = some key →
    s.keys.live s.now (cacheKey r.request key) = some ⟨.response cached, deadline⟩ →
    s.requests.get cached.producer = some p →
    bodyHash json r.request.body = bodyHash json p.request.body

/-- If `ACQUIRE` finds a response, its request was answered with the body it had arrived with, or the
body that is asked for is neither the one it had arrived with nor the one it was answered with. -/
def HitsKeptBody (json : Json B) (s : State B) (a : Activity B) : Prop :=
  ∀ id r key cached deadline p, a = .event id (.acquire .heard) →
    s.requests.get id = some r → r.phase = .acquiring → r.request.key = some key →
    s.keys.live s.now (cacheKey r.request key) = some ⟨.response cached, deadline⟩ →
    s.requests.get cached.producer = some p →
    cached.requestBodyHash = some (bodyHash json p.request.body) ∨
      bodyHash json r.request.body ≠ bodyHash json p.request.body ∧
        cached.requestBodyHash ≠ some (bodyHash json r.request.body)

/-- What a step finds in the cache suits the body that is asked for. -/
def FindsOwnBody (json : Json B) (s : State B) (a : Activity B) : Prop :=
  PollsOwnBody json s a ∧ HitsKeptBody json s a

theorem fits_of_stored_none {request : Request B} {answer : Answer B}
    (h : answer.origin.stored = none) : Fits json s request answer := by
  intro producer hproducer
  rw [h] at hproducer
  cases hproducer

theorem Fits.step (sound : Sound json s) {request : Request B} {answer : Answer B}
    (h : Fits json s request answer) (a : Activity B) :
    Fits json (step json s a) request answer := by
  intro producer hproducer
  obtain ⟨p, hp, hfits⟩ := h producer hproducer
  obtain ⟨after, hafter, onward⟩ := onward_step sound a hp
  refine ⟨after, hafter, ?_⟩
  rw [onward.1]
  exact hfits

/-- What is found in the cache was given by a handler, and some body's hash is beside it. -/
theorem Sound.producer_of_live (sound : Sound json s) {k : String} {cached : CachedResponse B}
    {deadline : Option Nat} (found : s.keys.live s.now k = some ⟨.response cached, deadline⟩) :
    ∃ p requestBody, s.requests.get cached.producer = some p ∧
      cached.requestBodyHash = some (bodyHash json requestBody) := by
  obtain ⟨hk, -⟩ := Option.filter_eq_some_iff.1 found
  obtain ⟨p, key, hp, -, -, -, ⟨requestBody, hhash⟩, -⟩ := sound.response _ _ _ hk
  exact ⟨p, requestBody, hp, hhash⟩

/-- The path of `ACQUIRE` is right exactly when the body beside the response differs from the one
that is asked for as the body of its request does. -/
theorem fits_cacheHit_iff (sound : Sound json s) {r p : RequestState B} {k : String}
    {cached : CachedResponse B} {deadline : Option Nat}
    (found : s.keys.live s.now k = some ⟨.response cached, deadline⟩)
    (hp : s.requests.get cached.producer = some p) {answer : Answer B}
    (h : (r.cacheHit json s.now cached).answer = some answer) :
    Fits json s r.request answer ↔
      cached.requestBodyHash = some (bodyHash json p.request.body) ∨
        bodyHash json r.request.body ≠ bodyHash json p.request.body ∧
          cached.requestBodyHash ≠ some (bodyHash json r.request.body) := by
  obtain ⟨-, requestBody, -, hhash⟩ := sound.producer_of_live found
  rw [hhash, ne_eq, ne_eq, Option.some_inj, Option.some_inj]
  obtain ⟨hit, other⟩ | ⟨hit, same⟩ := cacheHit_cases json s.now cached r
  · rw [hit] at h
    cases h
    rw [hhash, ne_eq, Option.some_inj] at other
    constructor
    · intro hfits
      obtain ⟨p', hp', ⟨-, hreplay⟩ | ⟨hne, -, -⟩⟩ := hfits cached.producer rfl
      · cases hreplay
      · rw [hp] at hp'
        cases hp'
        exact .inr ⟨hne, other⟩
    · rintro hkept _ ⟨⟩
      refine ⟨p, hp, .inr ⟨?_, rfl, rfl⟩⟩
      rcases hkept with hkept | ⟨hne, -⟩
      · rw [← hkept]
        exact fun heq => other heq.symm
      · exact hne
  · rw [hit] at h
    cases h
    have same : bodyHash json requestBody = bodyHash json r.request.body := by
      rcases same with none | same
      · rw [hhash] at none
        cases none
      · rw [hhash] at same
        exact Option.some.inj same
    constructor
    · intro hfits
      obtain ⟨p', hp', ⟨heq, -⟩ | ⟨-, hreused, -⟩⟩ := hfits cached.producer rfl
      · rw [hp] at hp'
        cases hp'
        exact .inl (same.trans heq)
      · cases hreused
    · rintro hkept _ ⟨⟩
      rcases hkept with hkept | ⟨-, hother⟩
      · exact ⟨p, hp, .inl ⟨same.symm.trans hkept, rfl⟩⟩
      · exact absurd same hother

/-- What is found leads to an answer. -/
theorem cacheHit_answer (json : Json B) (now : Nat) (cached : CachedResponse B)
    (r : RequestState B) : ∃ answer, (r.cacheHit json now cached).answer = some answer ∧
      answer.origin.stored = some cached.producer := by
  obtain ⟨hit, -⟩ | ⟨hit, -⟩ := cacheHit_cases json now cached r
  · exact ⟨_, congrArg RequestState.answer hit, rfl⟩
  · exact ⟨_, congrArg RequestState.answer hit, rfl⟩

/-- A replay after waiting is right exactly when the bodies have one hash. -/
theorem fits_replay_iff {r p : RequestState B} {cached : CachedResponse B}
    (hp : s.requests.get cached.producer = some p) {answer : Answer B}
    (h : (r.replay s.now cached).answer = some answer) :
    Fits json s r.request answer ↔
      bodyHash json r.request.body = bodyHash json p.request.body := by
  cases h
  constructor
  · intro hfits
    obtain ⟨p', hp', ⟨same, -⟩ | ⟨-, hreused, -⟩⟩ := hfits cached.producer rfl
    · rw [hp] at hp'
      cases hp'
      exact same
    · cases hreused
  · rintro same _ ⟨⟩
    exact ⟨p, hp, .inl ⟨same, rfl⟩⟩

/-- The answer after an event is the one from before, has nothing to do with the cache, or comes
from one of the two replays. -/
theorem Handled.answer_cases {now : Nat} {keys : IdempotencyKeys B} {r : RequestState B}
    {event : Event B} {after : RequestState B × IdempotencyKeys B}
    (h : Handled json id now keys r event after) {answer : Answer B}
    (hanswer : after.1.answer = some answer) :
    r.answer = some answer ∨ answer.origin.stored = none ∨
      (∃ key cached deadline, event = .acquire .heard ∧ r.phase = .acquiring ∧
        r.request.key = some key ∧
        keys.live now (cacheKey r.request key) = some ⟨.response cached, deadline⟩ ∧
        (r.cacheHit json now cached).answer = some answer) ∨
      ∃ key cached deadline last wake, event = .poll .heard ∧ r.phase = .sleeping last wake ∧
        wake ≤ now ∧ r.request.key = some key ∧
        keys.live now (cacheKey r.request key) = some ⟨.response cached, deadline⟩ ∧
        (r.replay now cached).answer = some answer := by
  obtain hold | hhit | hreplay | hprogress | ⟨execution, given, -, rfl⟩ := h.answer_given hanswer
  · exact .inl hold
  · exact .inr (.inr (.inl hhit))
  · exact .inr (.inr (.inr hreplay))
  · cases hprogress
    exact .inr (.inl rfl)
  · exact .inr (.inl rfl)

theorem handle_poll {now : Nat} {keys : IdempotencyKeys B} {r : RequestState B} {key : String}
    {last wake : Nat} {cached : CachedResponse B} {deadline : Option Nat}
    (before : r.phase = .sleeping last wake) (woke : wake ≤ now)
    (hkey : r.request.key = some key)
    (found : keys.live now (cacheKey r.request key) = some ⟨.response cached, deadline⟩) :
    handle json id now keys r (.poll .heard) = (r.replay now cached, keys) := by
  simp only [handle, before, hkey, if_pos woke, poll, found]

theorem handle_acquire {now : Nat} {keys : IdempotencyKeys B} {r : RequestState B} {key : String}
    {cached : CachedResponse B} {deadline : Option Nat} (before : r.phase = .acquiring)
    (hkey : r.request.key = some key)
    (found : keys.live now (cacheKey r.request key) = some ⟨.response cached, deadline⟩) :
    handle json id now keys r (.acquire .heard) = (r.cacheHit json now cached, keys) := by
  simp only [handle, before, hkey, acquire, acquireScript, found, acquired]

/-- A step that looks for the body of its request only keeps replays faithful. -/
theorem replaysFaithful_step (sound : Sound json s) (h : ReplaysFaithful json s) {a : Activity B}
    (own : FindsOwnBody json s a) : ReplaysFaithful json (step json s a) := by
  obtain ⟨polls, hits⟩ := own
  intro id q answer hq hanswer
  rcases get_step hq with hq | ⟨request, -, -, rfl⟩ | ⟨r, event, rfl, hr, rfl⟩
  · exact (h id q answer hq hanswer).step sound a
  · cases hanswer
  · have after := handled json id s.now s.keys r event
    rw [((sound.request id r hr).handled after).1.1]
    refine Fits.step sound ?_ _
    rcases after.answer_cases hanswer with hanswer | hnone |
      ⟨key, cached, deadline, rfl, before, hkey, found, hanswer⟩ |
      ⟨key, cached, deadline, last, wake, rfl, before, woke, hkey, found, hanswer⟩
    · exact h id r answer hr hanswer
    · exact fits_of_stored_none hnone
    · obtain ⟨p, -, hp, -⟩ := sound.producer_of_live found
      exact (fits_cacheHit_iff sound found hp hanswer).2
        (hits id r key cached deadline p rfl hr before hkey found hp)
    · obtain ⟨p, -, hp, -⟩ := sound.producer_of_live found
      exact (fits_replay_iff hp hanswer).2
        (polls id r key last wake cached deadline p rfl hr before woke hkey found hp)

/-- An answer that an event has given fits if it does so afterwards. -/
theorem fits_of_step (sound : Sound json s) {r after p : RequestState B} {event : Event B}
    {producer : RequestId} {answer : Answer B} (hr : s.requests.get id = some r)
    (handled : (handle json id s.now s.keys r event).1 = after) (hanswer : after.answer = some answer)
    (hp : s.requests.get producer = some p) (stored : answer.origin.stored = some producer)
    (h : ReplaysFaithful json (step json s (.event id event))) :
    Fits json s r.request answer := by
  have hget : (step json s (.event id event)).requests.get id = some after := by
    rw [step_event json event hr, ← handled]
    exact Store.get_set_self ..
  obtain ⟨_, hafter, onward⟩ := onward_step sound (.event id event) hr
  rw [hget] at hafter
  cases hafter
  obtain ⟨p', hp', hfits⟩ := h id after answer hget hanswer producer stored
  obtain ⟨_, hproducer, honward⟩ := onward_step sound (.event id event) hp
  rw [hp'] at hproducer
  cases hproducer
  rw [onward.1, honward.1] at hfits
  intro other hother
  rw [stored] at hother
  cases hother
  exact ⟨p, hp, hfits⟩

/-- A step after which replays are faithful polls for the body of its request only. -/
theorem pollsOwnBody_of_step (sound : Sound json s) {a : Activity B}
    (h : ReplaysFaithful json (step json s a)) : PollsOwnBody json s a := by
  rintro id r key last wake cached deadline p rfl hr before woke hkey found hp
  have hfits := fits_of_step sound hr (congrArg Prod.fst (handle_poll before woke hkey found)) rfl hp
    rfl h
  exact (fits_replay_iff hp rfl).1 hfits

/-- A step after which replays are faithful finds a body that was kept, or is not asked for. -/
theorem hitsKeptBody_of_step (sound : Sound json s) {a : Activity B}
    (h : ReplaysFaithful json (step json s a)) : HitsKeptBody json s a := by
  rintro id r key cached deadline p rfl hr before hkey found hp
  have handled : (handle json id s.now s.keys r (.acquire .heard)).1 = r.cacheHit json s.now cached :=
    congrArg Prod.fst (handle_acquire before hkey found)
  obtain ⟨answer, hanswer, hstored⟩ := cacheHit_answer json s.now cached r
  exact (fits_cacheHit_iff sound found hp hanswer).1
    (fits_of_step sound hr handled hanswer hp hstored h)

theorem replays_faithful_iff (json : Json B) (now : Nat) (as : List (Activity B)) :
    (∀ bs, bs <+: as → ReplaysFaithful json (run json now bs)) ↔
      ∀ p ∈ Machine.trail (step json) (start now) as, FindsOwnBody json p.1 p.2 := by
  refine Machine.always_iff (step json) as (sound_start json now) ?_
    (fun _ a sound => sound_step sound a) (fun _ _ sound h own => replaysFaithful_step sound h own)
    fun _ _ sound _ h => ⟨pollsOwnBody_of_step sound h, hitsKeptBody_of_step sound h⟩
  intro id r answer hr
  cases hr

namespace Sample

/-- Two requests with one key and different bodies, the second while the first is in flight. -/
def together : List (Activity String) :=
  [.arrive first (request "1"), .event first (.acquire .heard),
    .arrive second (request "2"), .event second (.acquire .heard), .event second .check,
    .event first (.respond (some "1") 201 (some "trade of 1") []),
    .event first (.deliver 0 .heard), .elapse 25, .event second (.poll .heard)]

/-- One request after the other, of which the first is answered with another body than it arrived
with. -/
def rewritten (body : String) : List (Activity String) :=
  [.arrive first (request "1"), .event first (.acquire .heard),
    .event first (.respond (some "one") 201 (some "trade of 1") []),
    .event first (.deliver 0 .heard), .arrive second (request body),
    .event second (.acquire .heard)]

end Sample

/-- An answer that does not fit the bodies of two requests. -/
theorem not_replaysFaithful_of {s : State B} (id producer : RequestId) (asked given : Request B)
    (origin : Origin) (stored : origin.stored = some producer)
    (hasked : (s.requests.get id).map (fun r => (r.request, r.answer.map Answer.origin)) =
      some (asked, some origin))
    (hgiven : (s.requests.get producer).map RequestState.request = some given)
    (misfit : bodyHash json asked.body = bodyHash json given.body ↔ origin = .keyReused producer) :
    ¬ ReplaysFaithful json s := by
  intro h
  obtain ⟨r, hr, hr'⟩ := Option.map_eq_some_iff.1 hasked
  obtain ⟨rfl, horigin⟩ := Prod.mk.inj hr'
  obtain ⟨answer, hanswer, rfl⟩ := Option.map_eq_some_iff.1 horigin
  obtain ⟨p, hp, rfl⟩ := Option.map_eq_some_iff.1 hgiven
  obtain ⟨p', hp', hfits⟩ := h id r answer hr hanswer producer stored
  rw [hp] at hp'
  cases hp'
  obtain ⟨same, hreplay⟩ | ⟨hne, hreused, -⟩ := hfits
  · rw [misfit, hreplay] at same
    cases same
  · exact hne (misfit.2 hreused)

/-- A request that waits gets the response to another body.  Where the body was rewritten, the same
request is refused, and one that asks for the body it was rewritten to gets the response. -/
theorem not_replays_faithful :
    ¬ ReplaysFaithful Sample.plain (run Sample.plain 0 Sample.together) ∧
      ¬ ReplaysFaithful Sample.plain (run Sample.plain 0 (Sample.rewritten "1")) ∧
      ¬ ReplaysFaithful Sample.plain (run Sample.plain 0 (Sample.rewritten "one")) := by
  refine ⟨?_, ?_, ?_⟩
  · exact not_replaysFaithful_of Sample.second Sample.first (Sample.request "2")
      (Sample.request "1") (.replay Sample.first) rfl (by decide +kernel) (by decide +kernel)
      (by decide +kernel)
  · exact not_replaysFaithful_of Sample.second Sample.first (Sample.request "1")
      (Sample.request "1") (.keyReused Sample.first) rfl (by decide +kernel) (by decide +kernel)
      (by decide +kernel)
  · exact not_replaysFaithful_of Sample.second Sample.first (Sample.request "one")
      (Sample.request "1") (.replay Sample.first) rfl (by decide +kernel) (by decide +kernel)
      (by decide +kernel)

end Amana.Backend.Idempotency
