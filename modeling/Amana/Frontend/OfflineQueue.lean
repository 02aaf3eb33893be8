import Amana.Lib.Replay

/-!
# The offline queue

`offlineQueueStore.ts` keeps the actions of a user who is offline and replays them when the browser
is online again.  A replay goes through a copy of the queue, and nothing stops a second replay while
the first waits for its executor.  The queue with its replays refines the machine of
`Lib.Replay` over the ids of the actions (`idsOf_step`), and an action is not sent twice as long
as no replay starts that is not free to (`replays_deliver`).
-/

namespace Amana.Frontend

open Lib
open Lib.Machine (run trail)

inductive QueuedActionType where
  | createTrade
  | deposit
  | release
  | dispute
  | manifest
  deriving DecidableEq, Repr

variable {β : Type}

/-- A body is a value of an unknown type. -/
structure QueuedAction (β : Type) where
  id : String
  type : QueuedActionType
  endpoint : String
  method : String
  body : Option β
  idempotencyKey : String
  correlationId : String
  createdAt : String
  attempts : Nat
  deriving DecidableEq

/-- What `enqueue` is called with. -/
structure NewAction (β : Type) where
  type : QueuedActionType
  endpoint : String
  method : String
  body : Option β
  idempotencyKey : Option String
  correlationId : Option String

/-- What the browser makes up for an entry: the clock as the id, the correlation id and the date read
it, the four random characters of the id and a fresh idempotency key. -/
structure Stamp where
  idClock : Nat
  random : String
  createdAt : String
  idempotencyKey : String
  correlationClock : Nat

/-- `q-${Date.now()}-${Math.random().toString(36).slice(2, 6)}`. -/
def Stamp.id (stamp : Stamp) : String := "q-" ++ toString stamp.idClock ++ "-" ++ stamp.random

def entryOf (stamp : Stamp) (action : NewAction β) : QueuedAction β where
  id := stamp.id
  type := action.type
  endpoint := action.endpoint
  method := action.method
  body := action.body
  idempotencyKey := action.idempotencyKey.getD stamp.idempotencyKey
  correlationId := action.correlationId.getD ("corr-" ++ toString stamp.correlationClock)
  createdAt := stamp.createdAt
  attempts := 0

/-- A call of `replay`: the actions of its copy that the loop is done with, the one the executor has
been called with, those that come next, and the lists it returns. -/
structure ReplayCall (β : Type) where
  past : List (QueuedAction β)
  action : Option (QueuedAction β)
  rest : List (QueuedAction β)
  succeeded : List String
  failed : List String

/-- The store and the replays under way.  No step reads the last three fields: the ids that have been
enqueued, the actions the executor has been called with and the ids it has succeeded for. -/
structure OfflineQueueState (β : Type) where
  queue : List (QueuedAction β)
  isOnline : Bool
  replays : List (ReplayCall β)
  enqueued : List String
  executed : List (QueuedAction β)
  delivered : List String

def ids (actions : List (QueuedAction β)) : List String := actions.map QueuedAction.id

@[simp] theorem ids_append (xs ys : List (QueuedAction β)) : ids (xs ++ ys) = ids xs ++ ids ys :=
  List.map_append

@[simp] theorem ids_cons (a : QueuedAction β) (xs : List (QueuedAction β)) :
    ids (a :: xs) = a.id :: ids xs := rfl

@[simp] theorem ids_nil : ids ([] : List (QueuedAction β)) = [] := rfl

/-- The store of a page that finds a stored queue. -/
def OfflineQueueState.restored (queue : List (QueuedAction β)) : OfflineQueueState β :=
  ⟨queue, true, [], ids queue, [], []⟩

/-- A call of the store, or the executor of the `i`th replay that resolves or rejects. -/
inductive StoreAction (β : Type) where
  | enqueue (stamp : Stamp) (action : NewAction β)
  | dequeue (id : String)
  | clear
  | setOnline (online : Bool)
  | replay
  | settle (i : Nat) (ok : Bool)

def attempted (action : QueuedAction β) : QueuedAction β :=
  { action with attempts := action.attempts + 1 }

/-- The loop of the `i`th replay takes its next action up to the executor. -/
def OfflineQueueState.nextAction (s : OfflineQueueState β) (i : Nat) : OfflineQueueState β :=
  match s.replays[i]? with
  | some ⟨past, none, action :: rest, succeeded, failed⟩ =>
    { s with
      queue := s.queue.map fun a => if a.id = action.id then attempted a else a
      replays := s.replays.set i ⟨past, some action, rest, succeeded, failed⟩
      executed := s.executed ++ [attempted action] }
  | _ => s

/-- The executor of the `i`th replay is done with its action. -/
def OfflineQueueState.settled (s : OfflineQueueState β) (i : Nat) (ok : Bool) :
    OfflineQueueState β :=
  match s.replays[i]? with
  | some ⟨past, some action, rest, succeeded, failed⟩ =>
    if ok then
      { s with
        queue := s.queue.filter fun a => a.id ≠ action.id
        replays := s.replays.set i
          ⟨past ++ [action], none, rest, succeeded ++ [action.id], failed⟩
        delivered := s.delivered ++ [action.id] }
    else
      { s with
        replays := s.replays.set i
          ⟨past ++ [action], none, rest, succeeded, failed ++ [action.id]⟩ }
  | _ => s

/-- The action the executor of the `i`th replay has been called with. -/
def OfflineQueueState.executing (s : OfflineQueueState β) (i : Nat) : Option (QueuedAction β) :=
  s.replays[i]?.bind ReplayCall.action

namespace OfflineQueueState

def step (s : OfflineQueueState β) : StoreAction β → OfflineQueueState β
  | .enqueue stamp action =>
    { s with queue := s.queue ++ [entryOf stamp action], enqueued := s.enqueued ++ [stamp.id] }
  | .dequeue id => { s with queue := s.queue.filter fun a => a.id ≠ id }
  | .clear => { s with queue := [] }
  | .setOnline online => { s with isOnline := online }
  | .replay =>
    let begun : OfflineQueueState β :=
      { s with replays := s.replays ++ [⟨[], none, s.queue, [], []⟩] }
    begun.nextAction s.replays.length
  | .settle i ok => if (s.executing i).isSome then (s.settled i ok).nextAction i else s

end OfflineQueueState

/-- What a replay has still to do with. -/
def ReplayCall.pending (r : ReplayCall β) : List (QueuedAction β) := r.action.toList ++ r.rest

/-- What a replay copied. -/
def ReplayCall.copied (r : ReplayCall β) : List (QueuedAction β) :=
  r.past ++ r.action.toList ++ r.rest

/-! ## The machine it refines -/

def ReplayCall.walk (r : ReplayCall β) : Replay.Walk String :=
  ⟨ids r.past, r.action.map QueuedAction.id, ids r.rest⟩

@[simp] theorem trace_walk (r : ReplayCall β) : r.walk.trace = ids r.copied := by
  simp [ReplayCall.walk, Replay.Walk.trace, ReplayCall.copied, ids, Option.toList_map]

@[simp] theorem pending_walk (r : ReplayCall β) : r.walk.pending = ids r.pending := by
  simp [ReplayCall.walk, Replay.Walk.pending, ReplayCall.pending, ids, Option.toList_map]

namespace OfflineQueueState

/-- The ids of it all. -/
def idsOf (s : OfflineQueueState β) : Replay.State String :=
  ⟨s.enqueued, ids s.queue, s.replays.map ReplayCall.walk, ids s.executed, s.delivered⟩

end OfflineQueueState

def StoreAction.idsOf : StoreAction β → Replay.Action String
  | .enqueue stamp _ => .enqueue stamp.id
  | .dequeue id => .remove fun x => x ≠ id
  | .clear => .remove fun _ => false
  | .setOnline _ => .remove fun _ => true
  | .replay => .replay
  | .settle i ok => .settle i ok

@[simp] theorem attempted_id (action : QueuedAction β) : (attempted action).id = action.id := rfl

theorem ids_filter (queue : List (QueuedAction β)) (keep : String → Bool) :
    ids (queue.filter fun a => keep a.id) = (ids queue).filter keep := by
  rw [ids, ids, List.filter_map]
  rfl

/-- Attempts are counted in place. -/
theorem ids_attempted (queue : List (QueuedAction β)) (id : String) :
    ids (queue.map fun a => if a.id = id then attempted a else a) = ids queue := by
  rw [ids, List.map_map]
  refine List.map_congr_left fun a _ => ?_
  by_cases h : a.id = id <;> simp [h]

namespace OfflineQueueState

theorem walks_idsOf (s : OfflineQueueState β) (i : Nat) :
    s.idsOf.walks[i]? = s.replays[i]?.map ReplayCall.walk := List.getElem?_map

theorem idsOf_nextAction (s : OfflineQueueState β) (i : Nat) :
    (s.nextAction i).idsOf = s.idsOf.advance i := by
  rw [nextAction, Replay.State.advance, walks_idsOf]
  rcases s.replays[i]? with _ | ⟨past, _ | action, _ | ⟨next, rest⟩, succeeded, failed⟩
  case some.none.cons =>
    have hqueue := ids_attempted s.queue next.id
    simp [idsOf, hqueue, ReplayCall.walk, List.map_set]
  all_goals rfl

theorem idsOf_settled (s : OfflineQueueState β) (i : Nat) (ok : Bool) :
    (s.settled i ok).idsOf = s.idsOf.finish i ok := by
  rw [settled, Replay.State.finish, walks_idsOf]
  rcases s.replays[i]? with _ | ⟨past, _ | action, rest, succeeded, failed⟩
  case some.some =>
    have hqueue := ids_filter s.queue fun id => id ≠ action.id
    cases ok with
    | false => simp [idsOf, ReplayCall.walk, List.map_set]
    | true => simpa [idsOf, ReplayCall.walk, List.map_set] using hqueue
  all_goals rfl

theorem executing_idsOf (s : OfflineQueueState β) (i : Nat) :
    s.idsOf.walks[i]?.bind Replay.Walk.current = (s.executing i).map QueuedAction.id := by
  rw [walks_idsOf, executing]
  cases s.replays[i]? <;> rfl

/-- A step of the store is a step of the machine. -/
theorem idsOf_step (s : OfflineQueueState β) (a : StoreAction β) :
    (s.step a).idsOf = Replay.step s.idsOf a.idsOf := by
  cases a with
  | enqueue stamp action => simp [step, Replay.step, StoreAction.idsOf, idsOf, ids, entryOf]
  | dequeue id =>
    have hqueue := ids_filter s.queue fun x => x ≠ id
    simp only [step, Replay.step, StoreAction.idsOf, idsOf, hqueue]
  | clear => simp [step, Replay.step, StoreAction.idsOf, idsOf, ids]
  | setOnline online => simp [step, Replay.step, StoreAction.idsOf, idsOf]
  | replay =>
    rw [step, idsOf_nextAction]
    simp [StoreAction.idsOf, Replay.step, Replay.State.begin, idsOf, ReplayCall.walk, ids]
  | settle i ok =>
    rw [step, StoreAction.idsOf, Replay.step, executing_idsOf, Option.isSome_map]
    split
    · rw [idsOf_nextAction, idsOf_settled]
    · rfl

/-! ## What a run delivers -/

/-- A step that may take an action off the queue. -/
def Removes (s : OfflineQueueState β) (a : StoreAction β) (id : String) : Prop :=
  a = .dequeue id ∨ a = .clear ∨
    ∃ i, a = .settle i true ∧ (s.executing i).map QueuedAction.id = some id

theorem removes_of_left (s : OfflineQueueState β) (a : StoreAction β) {id : String}
    (queued : id ∈ ids s.queue) (left : id ∉ ids (s.step a).queue) : s.Removes a id := by
  have hleft : id ∉ (Replay.step s.idsOf a.idsOf).queue := by
    rw [← idsOf_step]
    exact left
  obtain ⟨keep, ha, hkeep⟩ | ⟨i, ha, hcurrent⟩ := Replay.leaves s.idsOf a.idsOf queued hleft
  · cases a with
    | dequeue id' =>
      obtain rfl : (fun x => decide (x ≠ id')) = keep := Replay.Action.remove.inj ha
      obtain rfl : id = id' := by simpa using hkeep
      exact .inl rfl
    | clear => exact .inr (.inl rfl)
    | setOnline online =>
      obtain rfl : (fun _ => true) = keep := Replay.Action.remove.inj ha
      cases hkeep
    | enqueue | replay | settle => cases ha
  · cases a with
    | settle j ok =>
      obtain ⟨rfl, rfl⟩ := Replay.Action.settle.inj ha
      rw [executing_idsOf] at hcurrent
      exact .inr (.inr ⟨j, rfl, hcurrent⟩)
    | enqueue | dequeue | clear | setOnline | replay => cases ha

/-- What is in the queue stays there until a step removes it. -/
theorem stays (s : OfflineQueueState β) (as : List (StoreAction β)) {id : String}
    (queued : id ∈ ids s.queue) :
    id ∈ ids (run step s as).queue ∨ ∃ p ∈ trail step s as, p.1.Removes p.2 id := by
  induction as generalizing s with
  | nil => exact .inl queued
  | cons a as ih =>
    by_cases hnext : id ∈ ids (s.step a).queue
    · obtain hstays | ⟨p, hp, hremoves⟩ := ih (s.step a) hnext
      · exact .inl hstays
      · exact .inr ⟨p, List.mem_cons_of_mem _ hp, hremoves⟩
    · exact .inr ⟨(s, a), List.mem_cons_self .., removes_of_left s a queued hnext⟩

/-- An action leaves the queue only when it is dequeued, when the queue is cleared, or when the
executor has succeeded for it, and so what is enqueued stays, also during a replay.  The executor
succeeds at most once for an action, actions are first executed in the order they were enqueued, and
each replay executes its own in that order. -/
structure Delivers (queue : List (QueuedAction β)) (as : List (StoreAction β)) : Prop where
  leaves : ∀ p ∈ trail step (restored queue) as, ∀ id ∈ ids p.1.queue,
    id ∉ ids (p.1.step p.2).queue → p.1.Removes p.2 id
  kept : ∀ bs stamp action cs, as = bs ++ .enqueue stamp action :: cs →
    stamp.id ∈ ids (run step (restored queue) as).queue ∨
      ∃ p ∈ trail step ((run step (restored queue) bs).step (.enqueue stamp action)) cs,
        p.1.Removes p.2 stamp.id
  once : (run step (restored queue) as).delivered.Nodup
  firsts : Replay.Ordered (run step (restored queue) as).enqueued
    (ids (run step (restored queue) as).executed).eraseDups
  replays : ∀ r ∈ (run step (restored queue) as).replays,
    Replay.Ordered (run step (restored queue) as).enqueued (ids r.copied)

/-- A replay may start: no replay has still to do with an action of the queue, or comes to an action
that was enqueued before one of the queue, neither of which has been executed. -/
def FreeToReplay (s : OfflineQueueState β) : Prop :=
  ∀ r ∈ s.replays, (∀ a ∈ r.pending, a.id ∉ ids s.queue) ∧
    ∀ a ∈ r.rest, ∀ b ∈ s.queue, Replay.Before s.enqueued a.id b.id →
      a.id ∈ ids s.executed ∨ b.id ∈ ids s.executed

instance (s : OfflineQueueState β) : Decidable s.FreeToReplay :=
  inferInstanceAs (Decidable (∀ r ∈ s.replays, (∀ a ∈ r.pending, a.id ∉ ids s.queue) ∧
    ∀ a ∈ r.rest, ∀ b ∈ s.queue, s.enqueued.idxOf a.id < s.enqueued.idxOf b.id →
      a.id ∈ ids s.executed ∨ b.id ∈ ids s.executed))

/-- The id of a new action is new, and a replay starts when it may. -/
def Allowed (s : OfflineQueueState β) : StoreAction β → Prop
  | .enqueue stamp _ => stamp.id ∉ s.enqueued
  | .replay => s.FreeToReplay
  | .dequeue _ | .clear | .setOnline _ | .settle .. => True

instance (s : OfflineQueueState β) (a : StoreAction β) : Decidable (s.Allowed a) :=
  match a with
  | .enqueue stamp _ => inferInstanceAs (Decidable (stamp.id ∉ s.enqueued))
  | .replay => inferInstanceAs (Decidable s.FreeToReplay)
  | .dequeue _ | .clear | .setOnline _ | .settle .. => inferInstanceAs (Decidable True)

theorem free_idsOf {s : OfflineQueueState β} (free : s.FreeToReplay) : Replay.Free s.idsOf := by
  intro w hw
  obtain ⟨r, hr, rfl⟩ := List.mem_map.1 hw
  obtain ⟨hpending, hrest⟩ := free r hr
  constructor
  · intro id hid
    rw [pending_walk] at hid
    obtain ⟨a, ha, rfl⟩ := List.mem_map.1 hid
    exact hpending a ha
  · intro id hid id' hid'
    obtain ⟨a, ha, rfl⟩ := List.mem_map.1 hid
    obtain ⟨b, hb, rfl⟩ := List.mem_map.1 hid'
    exact hrest a ha b hb

theorem allowed_idsOf {s : OfflineQueueState β} {a : StoreAction β} (allowed : s.Allowed a) :
    Replay.Allowed s.idsOf a.idsOf := by
  cases a with
  | enqueue stamp action => exact allowed
  | replay => exact free_idsOf allowed
  | dequeue | clear | setOnline | settle => trivial

/-- Whatever is done that is allowed when it is done, the queue delivers. -/
theorem replays_deliver {queue : List (QueuedAction β)} {as : List (StoreAction β)}
    (distinct : (ids queue).Nodup)
    (allowed : ∀ p ∈ trail step (restored queue) as, p.1.Allowed p.2) : Delivers queue as := by
  have hinv : Replay.Inv (run step (restored queue) as).idsOf := by
    rw [← Lib.Machine.run_map step idsOf_step]
    refine Replay.inv_run (Replay.inv_initial distinct) ?_
    rw [Lib.Machine.trail_map step idsOf_step]
    intro q hq
    obtain ⟨p, hp, rfl⟩ := List.mem_map.1 hq
    exact allowed_idsOf (allowed p hp)
  exact {
    leaves := fun p _ id => removes_of_left p.1 p.2
    kept := by
      rintro bs stamp action cs rfl
      rw [Lib.Machine.run_append, Lib.Machine.run_cons]
      exact stays _ cs (by simp [step, entryOf])
    once := hinv.succeeded
    firsts := hinv.firsts
    replays := fun r hr => by
      have hwalk := hinv.walks r.walk (List.mem_map_of_mem hr)
      rwa [trace_walk] at hwalk }

/-- A request without a body. -/
def tradeAction (type : QueuedActionType) (endpoint : String) : NewAction Unit :=
  ⟨type, endpoint, "POST", none, none, none⟩

def stampAt (clock : Nat) : Stamp :=
  ⟨clock, "k3x9", "2026-01-01T00:00:00.000Z", "idem-" ++ toString clock, clock⟩

def depositAndRelease : List (StoreAction Unit) :=
  [.enqueue (stampAt 1) (tradeAction .deposit "/trades/7/deposit"),
    .enqueue (stampAt 2) (tradeAction .release "/trades/7/release")]

/-- A replay that starts where another has ended goes on where that has failed. -/
theorem replays_deliver_retry :
    Delivers [] (depositAndRelease ++
      [.replay, .settle 0 false, .settle 0 true, .replay, .settle 1 true]) :=
  replays_deliver (by decide) (by decide +kernel)

/-- When the deposit has succeeded a second replay starts, and the executor of both releases. -/
theorem release_sent_twice :
    ¬ Delivers [] (depositAndRelease ++
      [.replay, .settle 0 true, .replay, .settle 0 true, .settle 1 true]) :=
  fun h => absurd h.once (by decide +kernel)

end OfflineQueueState

end Amana.Frontend
