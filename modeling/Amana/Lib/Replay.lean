import Amana.Lib.Machine
import Mathlib.Data.List.Nodup

/-!
# Replays of a queue

What is queued is replayed by walks, each over a snapshot of the queue: a walk starts one element
after the other, and an element whose execution succeeds leaves the queue.  Walks may overlap.  As
long as no element is queued twice, and a walk begins only when the others have nothing left to do
with the queue (`Free`), every element succeeds at most once and elements are started in the order
they were queued (`inv_run`).
-/

namespace Amana.Lib.Replay

open Machine

variable {ι : Type}

/-- A walk over a snapshot: what it has been through, what is being executed, what lies ahead. -/
structure Walk (ι : Type) where
  passed : List ι
  current : Option ι
  ahead : List ι

namespace Walk

variable (w : Walk ι)

def trace : List ι := w.passed ++ w.current.toList ++ w.ahead

def pending : List ι := w.current.toList ++ w.ahead

end Walk

/-- The queue and its walks, with what has been queued, started and executed successfully, in that
order. -/
structure State (ι : Type) where
  enqueued : List ι
  queue : List ι
  walks : List (Walk ι)
  started : List ι
  succeeded : List ι

/-- A queue that nothing has been started from. -/
def State.initial (queue : List ι) : State ι := ⟨queue, queue, [], [], []⟩

inductive Action (ι : Type) where
  | enqueue (x : ι)
  /-- Nothing stays in the queue but what is kept. -/
  | remove (keep : ι → Bool)
  | replay
  /-- What the `i`th walk executes succeeds or fails, and the walk goes on. -/
  | settle (i : Nat) (ok : Bool)

/-- A walk over the queue begins. -/
def State.begin (s : State ι) : State ι :=
  { s with walks := s.walks ++ [⟨[], none, s.queue⟩] }

/-- The `i`th walk starts the next element. -/
def State.advance (s : State ι) (i : Nat) : State ι :=
  match s.walks[i]? with
  | some ⟨passed, none, x :: ahead⟩ =>
    { s with walks := s.walks.set i ⟨passed, some x, ahead⟩, started := s.started ++ [x] }
  | _ => s

theorem advance_cases (s : State ι) (i : Nat) :
    s.advance i = s ∨ ∃ passed x ahead, s.walks[i]? = some ⟨passed, none, x :: ahead⟩ ∧
      s.advance i = { s with
        walks := s.walks.set i ⟨passed, some x, ahead⟩, started := s.started ++ [x] } := by
  unfold State.advance
  split
  · next passed x ahead h => exact .inr ⟨passed, x, ahead, h, rfl⟩
  · exact .inl rfl

theorem mem_snoc {l : List ι} {x y : ι} (h : x ∈ l ++ [y]) : x ∈ l ∨ x = y := by
  simpa using h

theorem getElem?_set_cases {walks : List (Walk ι)} {i j : Nat} {w v : Walk ι}
    (h : (walks.set i w)[j]? = some v) : j = i ∧ v = w ∨ j ≠ i ∧ walks[j]? = some v := by
  by_cases hij : i = j
  · rw [hij, List.getElem?_set_self'] at h
    simp only [Option.map_eq_map, Option.map_eq_some_iff, Function.const_apply] at h
    obtain ⟨-, -, rfl⟩ := h
    exact .inl ⟨hij.symm, rfl⟩
  · rw [List.getElem?_set_ne hij] at h
    exact .inr ⟨Ne.symm hij, h⟩

theorem getElem?_concat_cases {walks : List (Walk ι)} {j : Nat} {w v : Walk ι}
    (h : (walks ++ [w])[j]? = some v) :
    j = walks.length ∧ v = w ∨ j ≠ walks.length ∧ walks[j]? = some v := by
  rw [List.getElem?_append] at h
  split at h
  · exact .inr ⟨by omega, h⟩
  · rw [List.getElem?_singleton] at h
    split at h
    · exact .inl ⟨by omega, (Option.some.inj h).symm⟩
    · cases h

theorem mem_walks_begin {s : State ι} {w : Walk ι}
    (h : w ∈ s.begin.walks) : w ∈ s.walks ∨ w = ⟨[], none, s.queue⟩ := mem_snoc h

@[simp] theorem advance_queue (s : State ι) (i : Nat) : (s.advance i).queue = s.queue := by
  obtain h | ⟨passed, x, ahead, -, h⟩ := advance_cases s i <;> rw [h]

section Step

variable [DecidableEq ι]

/-- What the `i`th walk executes has succeeded or failed. -/
def State.finish (s : State ι) (i : Nat) (ok : Bool) : State ι :=
  match s.walks[i]? with
  | some ⟨passed, some x, ahead⟩ =>
    { s with
      queue := if ok then s.queue.filter fun y => y ≠ x else s.queue
      walks := s.walks.set i ⟨passed ++ [x], none, ahead⟩
      succeeded := if ok then s.succeeded ++ [x] else s.succeeded }
  | _ => s

def step (s : State ι) : Action ι → State ι
  | .enqueue x => { s with enqueued := s.enqueued ++ [x], queue := s.queue ++ [x] }
  | .remove keep => { s with queue := s.queue.filter keep }
  | .replay => s.begin.advance s.walks.length
  | .settle i ok =>
    if (s.walks[i]?.bind Walk.current).isSome then (s.finish i ok).advance i else s

theorem finish_cases (s : State ι) (i : Nat) (ok : Bool) :
    s.finish i ok = s ∨ ∃ passed x ahead, s.walks[i]? = some ⟨passed, some x, ahead⟩ ∧
      s.finish i ok = { s with
        queue := if ok then s.queue.filter fun y => y ≠ x else s.queue
        walks := s.walks.set i ⟨passed ++ [x], none, ahead⟩
        succeeded := if ok then s.succeeded ++ [x] else s.succeeded } := by
  unfold State.finish
  split
  · next passed x ahead h => exact .inr ⟨passed, x, ahead, h, rfl⟩
  · exact .inl rfl

/-- Nothing leaves the queue but what is removed, or executed successfully. -/
theorem leaves (s : State ι) (a : Action ι) {x : ι} (queued : x ∈ s.queue)
    (left : x ∉ (step s a).queue) :
    (∃ keep, a = .remove keep ∧ keep x = false) ∨
      ∃ i, a = .settle i true ∧ s.walks[i]?.bind Walk.current = some x := by
  cases a with
  | enqueue y => exact absurd (List.mem_append_left _ queued) left
  | remove keep =>
    refine .inl ⟨keep, rfl, ?_⟩
    by_contra hkeep
    exact left (List.mem_filter.2 ⟨queued, by simpa using hkeep⟩)
  | replay =>
    rw [step, advance_queue] at left
    exact absurd queued left
  | settle i ok =>
    rw [step] at left
    split at left
    · rw [advance_queue] at left
      obtain h | ⟨passed, y, ahead, hwalk, h⟩ := finish_cases s i ok
      · rw [h] at left
        exact absurd queued left
      · rw [h] at left
        cases ok with
        | false => exact absurd queued left
        | true =>
          refine .inr ⟨i, rfl, ?_⟩
          have hsame : x = y := by
            by_contra hne
            exact left (List.mem_filter.2 ⟨queued, by simpa using hne⟩)
          rw [hwalk, hsame]
          rfl
    · exact absurd queued left

/-! ## The invariant -/

/-- `x` was queued before `y`. -/
def Before (order : List ι) (x y : ι) : Prop := order.idxOf x < order.idxOf y

/-- In the order of `order`, and from it. -/
structure Ordered (order l : List ι) : Prop where
  sorted : l.Pairwise (Before order)
  known : ∀ x ∈ l, x ∈ order

section Order

variable {order l m : List ι} {x y z : ι}

theorem Before.irrefl (order : List ι) (x : ι) : ¬ Before order x x := Nat.lt_irrefl _

/-- What is queued next comes after everything. -/
theorem before_new (hx : x ∈ order) (hz : z ∉ order) : Before (order ++ [z]) x z := by
  have hlt := List.idxOf_lt_length_iff.2 hx
  rw [Before, List.idxOf_append_of_mem hx, List.idxOf_append_of_notMem hz]
  omega

theorem Before.snoc (hx : x ∈ order) (hy : y ∈ order) (h : Before order x y) :
    Before (order ++ [z]) x y := by
  rwa [Before, List.idxOf_append_of_mem hx, List.idxOf_append_of_mem hy]

theorem Ordered.nil (order : List ι) : Ordered order [] := ⟨.nil, by simp⟩

theorem Ordered.sublist (h : Ordered order l) (sub : m.Sublist l) : Ordered order m :=
  ⟨h.sorted.sublist sub, fun x hx => h.known x (sub.subset hx)⟩

theorem Ordered.nodup (h : Ordered order l) : l.Nodup := by
  rw [List.nodup_iff_pairwise_ne]
  refine h.sorted.imp fun {x y} hlt heq => ?_
  rw [heq] at hlt
  exact Before.irrefl order y hlt

/-- The order goes on. -/
theorem Ordered.grow (h : Ordered order l) (z : ι) : Ordered (order ++ [z]) l where
  sorted := h.sorted.imp_of_mem fun {x y} hx hy hlt => hlt.snoc (h.known x hx) (h.known y hy)
  known := fun x hx => List.mem_append_left _ (h.known x hx)

theorem Ordered.append_singleton (h : Ordered order l) (hx : x ∈ order)
    (after : ∀ y ∈ l, Before order y x) : Ordered order (l ++ [x]) where
  sorted := List.pairwise_append.2 ⟨h.sorted, List.pairwise_singleton _ _, fun y hy z hz => by
    rw [List.mem_singleton.1 hz]
    exact after y hy⟩
  known := fun y hy => by
    obtain hy | rfl := mem_snoc hy
    · exact h.known y hy
    · exact hx

end Order

/-- No element succeeds twice, and the elements are started in the order they were queued: what has
not been started comes after everything that has, in the queue and in the walks.  Of two walks only
one can have such elements ahead, and no such element of the queue comes before an element that lies
ahead of a walk and is not ahead of the walk itself. -/
structure Inv (s : State ι) : Prop where
  queue : Ordered s.enqueued s.queue
  walks : ∀ w ∈ s.walks, Ordered s.enqueued w.trace
  firsts : Ordered s.enqueued s.started.eraseDups
  current : ∀ w ∈ s.walks, ∀ x ∈ w.current, x ∈ s.started
  succeeded : s.succeeded.Nodup
  gone : ∀ x ∈ s.succeeded, x ∈ s.started ∧ x ∉ s.queue ∧ ∀ w ∈ s.walks, x ∉ w.pending
  apart : ∀ (i j : Nat) (w v : Walk ι), i ≠ j → s.walks[i]? = some w → s.walks[j]? = some v →
    ∀ x ∈ w.pending, x ∉ v.pending
  lateQueue : ∀ x ∈ s.queue, x ∉ s.started → ∀ y ∈ s.started, Before s.enqueued y x
  lateWalk : ∀ w ∈ s.walks, ∀ x ∈ w.ahead, x ∉ s.started → ∀ y ∈ s.started,
    Before s.enqueued y x
  follows : ∀ w ∈ s.walks, ∀ x ∈ w.ahead, ∀ y ∈ s.queue,
    y ∈ s.started ∨ y ∈ w.ahead ∨ Before s.enqueued x y
  oneAhead : ∀ (i j : Nat) (w v : Walk ι), i ≠ j → s.walks[i]? = some w → s.walks[j]? = some v →
    ∀ x ∈ w.ahead, ∀ y ∈ v.ahead, x ∈ s.started ∨ y ∈ s.started

/-- A walk may begin: no walk that is under way still has to do with an element of the queue, or has
one ahead that was queued before one of the queue, when neither has been started. -/
def Free (s : State ι) : Prop :=
  ∀ w ∈ s.walks, (∀ x ∈ w.pending, x ∉ s.queue) ∧
    ∀ x ∈ w.ahead, ∀ y ∈ s.queue, Before s.enqueued x y → x ∈ s.started ∨ y ∈ s.started

/-- An element is queued once, and a walk begins when it may. -/
def Allowed (s : State ι) : Action ι → Prop
  | .enqueue x => x ∉ s.enqueued
  | .replay => Free s
  | .remove _ | .settle .. => True

theorem inv_initial {queue : List ι} (nodup : queue.Nodup) : Inv (State.initial queue) := by
  have hordered : Ordered queue queue := by
    refine ⟨?_, fun x hx => hx⟩
    rw [List.pairwise_iff_getElem]
    intro i j hi hj hij
    rwa [Before, List.Nodup.idxOf_getElem nodup, List.Nodup.idxOf_getElem nodup]
  constructor <;> simp [State.initial, hordered, Ordered.nil]

namespace Inv

variable {s : State ι} {x : ι} {w : Walk ι}

theorem started_known (h : Inv s) (hx : x ∈ s.started) : x ∈ s.enqueued :=
  h.firsts.known x (List.mem_eraseDups.2 hx)

theorem ahead_known (h : Inv s) (hw : w ∈ s.walks) (hx : x ∈ w.ahead) : x ∈ s.enqueued :=
  (h.walks w hw).known x (List.mem_append_right _ hx)

theorem enqueue (h : Inv s) (hnew : x ∉ s.enqueued) : Inv (step s (.enqueue x)) where
  queue := by
    refine (h.queue.grow x).append_singleton (by simp) fun y hy => ?_
    exact before_new (h.queue.known y hy) hnew
  walks := fun w hw => (h.walks w hw).grow x
  firsts := h.firsts.grow x
  current := h.current
  succeeded := h.succeeded
  gone := fun y hy => by
    obtain ⟨hstarted, hqueue, hwalks⟩ := h.gone y hy
    refine ⟨hstarted, ?_, hwalks⟩
    intro hy
    obtain hy | rfl := mem_snoc hy
    · exact hqueue hy
    · exact hnew (h.started_known hstarted)
  apart := h.apart
  lateQueue := fun y hy hfresh z hz => by
    have hz' := h.started_known hz
    obtain hy | rfl := mem_snoc hy
    · exact (h.lateQueue y hy hfresh z hz).snoc hz' (h.queue.known y hy)
    · exact before_new hz' hnew
  lateWalk := fun w hw y hy hfresh z hz =>
    (h.lateWalk w hw y hy hfresh z hz).snoc (h.started_known hz) (h.ahead_known hw hy)
  follows := fun w hw y hy z hz => by
    have hy' := h.ahead_known hw hy
    obtain hz | rfl := mem_snoc hz
    · obtain hz' | hz' | hlt := h.follows w hw y hy z hz
      · exact .inl hz'
      · exact .inr (.inl hz')
      · exact .inr (.inr (hlt.snoc hy' (h.queue.known z hz)))
    · exact .inr (.inr (before_new hy' hnew))
  oneAhead := h.oneAhead

/-- The queue may lose elements. -/
theorem shrink (h : Inv s) {queue : List ι} (sub : queue.Sublist s.queue) :
    Inv { s with queue := queue } where
  queue := h.queue.sublist sub
  walks := h.walks
  firsts := h.firsts
  current := h.current
  succeeded := h.succeeded
  gone := fun y hy => by
    obtain ⟨hstarted, hqueue, hwalks⟩ := h.gone y hy
    exact ⟨hstarted, fun hy => hqueue (sub.subset hy), hwalks⟩
  apart := h.apart
  lateQueue := fun y hy => h.lateQueue y (sub.subset hy)
  lateWalk := h.lateWalk
  follows := fun w hw y hy z hz => h.follows w hw y hy z (sub.subset hz)
  oneAhead := h.oneAhead

theorem begin (h : Inv s) (free : Free s) : Inv s.begin where
  queue := h.queue
  walks := fun w hw => by
    obtain hw | rfl := mem_walks_begin hw
    · exact h.walks w hw
    · exact h.queue
  firsts := h.firsts
  current := fun w hw => by
    obtain hw | rfl := mem_walks_begin hw
    · exact h.current w hw
    · simp
  succeeded := h.succeeded
  gone := fun x hx => by
    obtain ⟨hstarted, hqueue, hwalks⟩ := h.gone x hx
    refine ⟨hstarted, hqueue, fun w hw => ?_⟩
    obtain hw | rfl := mem_walks_begin hw
    · exact hwalks w hw
    · simpa [Walk.pending] using hqueue
  apart := fun i j w v hij hi hj x hx hx' => by
    obtain ⟨rfl, rfl⟩ | ⟨-, hi⟩ := getElem?_concat_cases hi <;>
      obtain ⟨rfl, rfl⟩ | ⟨-, hj⟩ := getElem?_concat_cases hj
    · exact hij rfl
    · exact (free v (List.mem_of_getElem? hj)).1 x hx' (by simpa [Walk.pending] using hx)
    · exact (free w (List.mem_of_getElem? hi)).1 x hx (by simpa [Walk.pending] using hx')
    · exact h.apart i j w v hij hi hj x hx hx'
  lateQueue := h.lateQueue
  lateWalk := fun w hw => by
    obtain hw | rfl := mem_walks_begin hw
    · exact h.lateWalk w hw
    · exact h.lateQueue
  follows := fun w hw x hx y hy => by
    obtain hw | rfl := mem_walks_begin hw
    · exact h.follows w hw x hx y hy
    · exact .inr (.inl hy)
  oneAhead := by
    -- what the new walk has ahead is the queue
    have hnew : ∀ w ∈ s.walks, ∀ x ∈ w.ahead, ∀ y ∈ s.queue, x ∈ s.started ∨ y ∈ s.started :=
      fun w hw x hx y hy => by
        obtain hy' | hy' | hlt := h.follows w hw x hx y hy
        · exact .inr hy'
        · exact absurd hy ((free w hw).1 y (List.mem_append_right _ hy'))
        · exact (free w hw).2 x hx y hy hlt
    intro i j w v hij hi hj x hx y hy
    obtain ⟨rfl, rfl⟩ | ⟨-, hi⟩ := getElem?_concat_cases hi <;>
      obtain ⟨rfl, rfl⟩ | ⟨-, hj⟩ := getElem?_concat_cases hj
    · exact absurd rfl hij
    · exact (hnew v (List.mem_of_getElem? hj) y hy x hx).symm
    · exact hnew w (List.mem_of_getElem? hi) x hx y hy
    · exact h.oneAhead i j w v hij hi hj x hx y hy

/-- A walk changes, with no more to do than before. -/
theorem replace (h : Inv s) {i : Nat} {w' : Walk ι} (hi : s.walks[i]? = some w)
    (trace : w'.trace = w.trace) (pending : ∀ x ∈ w'.pending, x ∈ w.pending)
    (ahead : ∀ x ∈ w'.ahead, x ∈ w.ahead) (current : ∀ x ∈ w'.current, x ∈ s.started)
    (left : ∀ x ∈ w.ahead, x ∈ w'.ahead ∨ x ∈ s.started) :
    Inv { s with walks := s.walks.set i w' } := by
  have hmem := List.mem_of_getElem? hi
  constructor
  case queue => exact h.queue
  case walks =>
    intro v hv
    obtain hv | rfl := List.mem_or_eq_of_mem_set hv
    · exact h.walks v hv
    · rw [trace]
      exact h.walks w hmem
  case firsts => exact h.firsts
  case current =>
    intro v hv
    obtain hv | rfl := List.mem_or_eq_of_mem_set hv
    · exact h.current v hv
    · exact current
  case succeeded => exact h.succeeded
  case gone =>
    intro x hx
    obtain ⟨hstarted, hqueue, hwalks⟩ := h.gone x hx
    refine ⟨hstarted, hqueue, fun v hv => ?_⟩
    obtain hv | rfl := List.mem_or_eq_of_mem_set hv
    · exact hwalks v hv
    · exact fun hx => hwalks w hmem (pending x hx)
  case apart =>
    intro j k v u hjk hj hk x hx hx'
    obtain ⟨rfl, rfl⟩ | ⟨-, hj'⟩ := getElem?_set_cases hj <;>
      obtain ⟨rfl, rfl⟩ | ⟨-, hk'⟩ := getElem?_set_cases hk
    · exact hjk rfl
    · exact h.apart _ k w u hjk hi hk' x (pending x hx) hx'
    · exact h.apart j _ v w hjk hj' hi x hx (pending x hx')
    · exact h.apart j k v u hjk hj' hk' x hx hx'
  case lateQueue => exact h.lateQueue
  case lateWalk =>
    intro v hv x hx
    obtain hv | rfl := List.mem_or_eq_of_mem_set hv
    · exact h.lateWalk v hv x hx
    · exact h.lateWalk w hmem x (ahead x hx)
  case follows =>
    intro v hv x hx y hy
    obtain hv | rfl := List.mem_or_eq_of_mem_set hv
    · exact h.follows v hv x hx y hy
    · obtain hy' | hy' | hlt := h.follows w hmem x (ahead x hx) y hy
      · exact .inl hy'
      · obtain hy' | hy' := left y hy'
        · exact .inr (.inl hy')
        · exact .inl hy'
      · exact .inr (.inr hlt)
  case oneAhead =>
    intro j k v u hjk hj hk x hx y hy
    obtain ⟨rfl, rfl⟩ | ⟨-, hj'⟩ := getElem?_set_cases hj <;>
      obtain ⟨rfl, rfl⟩ | ⟨-, hk'⟩ := getElem?_set_cases hk
    · exact absurd rfl hjk
    · exact h.oneAhead _ k w u hjk hi hk' x (ahead x hx) y hy
    · exact h.oneAhead j _ v w hjk hj' hi x hx y (ahead y hy)
    · exact h.oneAhead j k v u hjk hj' hk' x hx y hy

/-- What a walk has next is started: it was queued before all that has not been started. -/
theorem start (h : Inv s) {i : Nat} {passed ahead : List ι}
    (hi : s.walks[i]? = some ⟨passed, none, x :: ahead⟩) :
    Inv { s with started := s.started ++ [x] } := by
  have hmem := List.mem_of_getElem? hi
  have hx : x ∈ (⟨passed, none, x :: ahead⟩ : Walk ι).ahead := List.mem_cons_self ..
  have hnext : ∀ y ∈ ahead, Before s.enqueued x y := by
    have hsorted := (h.walks _ hmem).sorted
    simp only [Walk.trace, Option.toList_none, List.append_nil] at hsorted
    exact (List.pairwise_cons.1 (List.pairwise_append.1 hsorted).2.1).1
  constructor
  case queue => exact h.queue
  case walks => exact h.walks
  case firsts =>
    rw [List.eraseDups_append]
    by_cases hold : x ∈ s.started
    · simpa [List.removeAll, hold] using h.firsts
    · have hlast := h.firsts.append_singleton (h.ahead_known hmem hx) fun y hy =>
        h.lateWalk _ hmem x hx hold y (List.mem_eraseDups.1 hy)
      simpa [List.removeAll, hold, List.eraseDups_cons] using hlast
  case current => exact fun w hw y hy => List.mem_append_left _ (h.current w hw y hy)
  case succeeded => exact h.succeeded
  case gone =>
    intro y hy
    obtain ⟨hstarted, hrest⟩ := h.gone y hy
    exact ⟨List.mem_append_left _ hstarted, hrest⟩
  case apart => exact h.apart
  case lateQueue =>
    intro y hy hfresh z hz
    rw [List.mem_append, List.mem_singleton, not_or] at hfresh
    obtain hz | rfl := mem_snoc hz
    · exact h.lateQueue y hy hfresh.1 z hz
    · obtain hy' | hy' | hlt := h.follows _ hmem z hx y hy
      · exact absurd hy' hfresh.1
      · exact hnext y (List.mem_of_ne_of_mem hfresh.2 hy')
      · exact hlt
  case lateWalk =>
    intro w hw y hy hfresh z hz
    rw [List.mem_append, List.mem_singleton, not_or] at hfresh
    obtain hz | rfl := mem_snoc hz
    · exact h.lateWalk w hw y hy hfresh.1 z hz
    · obtain ⟨j, hj⟩ := List.mem_iff_getElem?.1 hw
      by_cases hij : i = j
      · subst hij
        obtain rfl := Option.some.inj (hi.symm.trans hj)
        exact hnext y (List.mem_of_ne_of_mem hfresh.2 hy)
      · obtain hold | hold := h.oneAhead i j _ w hij hi hj z hx y hy
        · exact h.lateWalk w hw y hy hfresh.1 z hold
        · exact absurd hold hfresh.1
  case follows =>
    intro w hw y hy z hz
    obtain hz' | hz' := h.follows w hw y hy z hz
    · exact .inl (List.mem_append_left _ hz')
    · exact .inr hz'
  case oneAhead =>
    intro j k w v hjk hj hk y hy z hz
    obtain hold | hold := h.oneAhead j k w v hjk hj hk y hy z hz
    · exact .inl (List.mem_append_left _ hold)
    · exact .inr (List.mem_append_left _ hold)

theorem advance (h : Inv s) (i : Nat) : Inv (s.advance i) := by
  obtain hstill | ⟨passed, x, ahead, hi, hadvance⟩ := advance_cases s i
  · rwa [hstill]
  · rw [hadvance]
    refine (h.start hi).replace hi ?_ ?_ ?_ ?_ ?_
    · simp [Walk.trace]
    · simp [Walk.pending]
    · exact fun y hy => List.mem_cons_of_mem _ hy
    · simp
    · intro y hy
      obtain rfl | hy := List.mem_cons.1 hy
      · exact .inr (by simp)
      · exact .inl hy

theorem finish (h : Inv s) (i : Nat) (ok : Bool) : Inv (s.finish i ok) := by
  obtain hstill | ⟨passed, x, ahead, hi, hfinish⟩ := finish_cases s i ok
  · rwa [hstill]
  have hmem := List.mem_of_getElem? hi
  have hpassed : Inv { s with walks := s.walks.set i ⟨passed ++ [x], none, ahead⟩ } := by
    refine h.replace hi ?_ ?_ ?_ ?_ ?_
    · simp [Walk.trace]
    · exact fun y hy => List.mem_append_right _ (by simpa [Walk.pending] using hy)
    · exact fun y hy => hy
    · simp
    · exact fun y hy => .inl hy
  rw [hfinish]
  cases ok with
  | false => exact hpassed
  | true =>
    have hx : x ∈ (⟨passed, some x, ahead⟩ : Walk ι).pending := by simp [Walk.pending]
    have hshrunk := hpassed.shrink (List.filter_sublist (p := fun y => decide (y ≠ x)))
    refine { hshrunk with succeeded := ?_, gone := ?_ }
    · have hfresh : x ∉ s.succeeded := fun hold => (h.gone x hold).2.2 _ hmem hx
      simpa using h.succeeded.concat hfresh
    · intro y hy
      simp only [if_true, List.mem_append, List.mem_singleton] at hy
      obtain hy | rfl := hy
      · exact hshrunk.gone y hy
      · refine ⟨h.current _ hmem y rfl, by simp, fun v hv => ?_⟩
        obtain ⟨j, hj⟩ := List.mem_iff_getElem?.1 hv
        obtain ⟨rfl, rfl⟩ | ⟨hne, hj⟩ := getElem?_set_cases hj
        · have hnodup := (h.walks _ hmem).nodup
          simp only [Walk.trace, Option.toList_some] at hnodup
          have hdisj := (List.nodup_append.1 hnodup).2.2
          intro hy
          exact hdisj y (by simp) y (by simpa [Walk.pending] using hy) rfl
        · exact h.apart i j _ v hne.symm hi hj y hx

theorem step (h : Inv s) {a : Action ι} (allowed : Allowed s a) : Inv (step s a) := by
  cases a with
  | enqueue x => exact h.enqueue allowed
  | remove keep => exact h.shrink List.filter_sublist
  | replay => exact (h.begin allowed).advance _
  | settle i ok =>
    rw [Replay.step]
    split
    · exact (h.finish i ok).advance i
    · exact h

end Inv

/-- Whatever is done that is allowed when it is done, the invariant is kept. -/
theorem inv_run {s : State ι} {as : List (Action ι)} (start : Inv s)
    (allowed : ∀ p ∈ trail step s as, Allowed p.1 p.2) : Inv (run step s as) :=
  run_invariant step start fun p hp h => h.step (allowed p hp)

end Step

end Amana.Lib.Replay
