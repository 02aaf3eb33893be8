import Mathlib
import Amana.Lib.Machine

/-!
# Optimistic changes of trades

The store shows a change of a trade before the server has confirmed it, and takes it back from a
snapshot when the server refuses.  Where changes of one trade do not overlap, and those that are
taken back with the whole list meet no other, the store shows what the server has confirmed, with
the changes in flight on top (`optimistic_run`): a refused change leaves nothing behind, whatever was
changed at other trades meanwhile.
-/

namespace Amana.Frontend.TradeStore

open Lib Lib.Machine

structure TradeResponse where
  tradeId : String
  buyerAddress : String
  sellerAddress : String
  amountCngn : String
  buyerLossBps : Int
  sellerLossBps : Int
  status : String
  createdAt : String
  updatedAt : String
  eta : Option String
  carrier : Option String
  /-- The inner `none` is a `null`. -/
  expiresAt : Option (Option String)
  deliveryDays : Option Int
  deriving DecidableEq

/-- `Partial<TradeResponse>`; no caller changes the identifier. -/
structure TradePatch where
  buyerAddress : Option String
  sellerAddress : Option String
  amountCngn : Option String
  buyerLossBps : Option Int
  sellerLossBps : Option Int
  status : Option String
  createdAt : Option String
  updatedAt : Option String
  eta : Option String
  carrier : Option String
  expiresAt : Option (Option String)
  deliveryDays : Option Int

/-- `{ ...t, ...patch }`. -/
def TradePatch.apply (patch : TradePatch) (t : TradeResponse) : TradeResponse where
  tradeId := t.tradeId
  buyerAddress := patch.buyerAddress.getD t.buyerAddress
  sellerAddress := patch.sellerAddress.getD t.sellerAddress
  amountCngn := patch.amountCngn.getD t.amountCngn
  buyerLossBps := patch.buyerLossBps.getD t.buyerLossBps
  sellerLossBps := patch.sellerLossBps.getD t.sellerLossBps
  status := patch.status.getD t.status
  createdAt := patch.createdAt.getD t.createdAt
  updatedAt := patch.updatedAt.getD t.updatedAt
  eta := patch.eta.orElse fun _ => t.eta
  carrier := patch.carrier.orElse fun _ => t.carrier
  expiresAt := patch.expiresAt.orElse fun _ => t.expiresAt
  deliveryDays := patch.deliveryDays.orElse fun _ => t.deliveryDays

structure ActionIds where
  correlationId : String
  idempotencyKey : String
  deriving DecidableEq

structure DedupEntry where
  ids : ActionIds
  timestamp : Nat

/-- `DEDUP_WINDOW_MS`. -/
def dedupWindowMs : Nat := 3000

/-- A change that the server has not answered yet, with what is kept to take it back. -/
inductive Pending where
  | update (tradeId : String) (patch : TradePatch) (actionKey : String)
      (snapshot : Option TradeResponse) (prevTrades : List TradeResponse)
  | removal (tradeId : String) (actionKey : String) (prevTrades : List TradeResponse)
      (prevTotal : Int)

def Pending.tradeId : Pending → String
  | update tradeId .. => tradeId
  | removal tradeId .. => tradeId

def Pending.actionKey : Pending → String
  | update _ _ actionKey _ _ => actionKey
  | removal _ actionKey _ _ => actionKey

structure StoreState where
  trades : List TradeResponse
  total : Int
  pendingActions : String → Option ActionIds
  /-- `dedupMap`. -/
  dedup : String → Option DedupEntry
  inFlight : List Pending

inductive StoreStep where
  /-- `updateTradeOptimistic` up to its server call, with the identifiers it generates. -/
  | update (tradeId : String) (patch : TradePatch) (ids : ActionIds) (now : Nat)
  /-- `removeTrade` up to its server call. -/
  | remove (tradeId : String) (ids : ActionIds) (now : Nat)
  /-- The server answers the change at the position. -/
  | settled (i : Nat) (success : Bool)
  /-- The timer of `registerAction`. -/
  | expired (actionKey : String) (correlationId : String)
  | addTrade (trade : TradeResponse)
  /-- `fetchTrades` gets its answer. -/
  | fetched (items : List TradeResponse) (total : Int)

section

variable (stringify : TradePatch → String)

/-- The key of an update, with `JSON.stringify` of the patch. -/
def updateKey (tradeId : String) (patch : TradePatch) : String :=
  "update:" ++ tradeId ++ ":" ++ stringify patch

def shouldDedup (s : StoreState) (actionKey : String) (now : Nat) : Option DedupEntry :=
  (s.dedup actionKey).filter fun existing => now < existing.timestamp + dedupWindowMs

/-- The state with an action registered and pending. -/
def begin (s : StoreState) (actionKey : String) (ids : ActionIds) (now : Nat) : StoreState :=
  { s with
    dedup := Function.update s.dedup actionKey (some ⟨ids, now⟩)
    pendingActions := Function.update s.pendingActions actionKey (some ids) }

def updateTradeOptimistic (s : StoreState) (tradeId : String) (patch : TradePatch)
    (ids : ActionIds) (now : Nat) : StoreState :=
  let actionKey := updateKey stringify tradeId patch
  if (shouldDedup s actionKey now).isSome then s
  else
    let snapshot := s.trades.find? fun t => t.tradeId = tradeId
    { begin s actionKey ids now with
      trades := s.trades.map fun t => if t.tradeId = tradeId then patch.apply t else t
      inFlight := s.inFlight ++ [.update tradeId patch actionKey snapshot s.trades] }

def removeTrade (s : StoreState) (tradeId : String) (ids : ActionIds) (now : Nat) : StoreState :=
  let actionKey := "remove:" ++ tradeId
  if (shouldDedup s actionKey now).isSome then s
  else { begin s actionKey ids now with
    trades := s.trades.filter fun t => t.tradeId ≠ tradeId
    total := s.total - 1
    inFlight := s.inFlight ++ [.removal tradeId actionKey s.trades s.total] }

/-- What happens to the list when the server refuses a change. -/
def Pending.rollBack (s : StoreState) : Pending → StoreState
  | update tradeId _ _ (some snapshot) _ =>
    { s with trades := s.trades.map fun t => if t.tradeId = tradeId then snapshot else t }
  | update _ _ _ none prevTrades => { s with trades := prevTrades }
  | removal _ _ prevTrades prevTotal => { s with trades := prevTrades, total := prevTotal }

def settle (s : StoreState) (i : Nat) (success : Bool) : StoreState :=
  match s.inFlight[i]? with
  | none => s
  | some p =>
    let cleared : StoreState := { s with
      pendingActions := Function.update s.pendingActions p.actionKey none
      inFlight := s.inFlight.eraseIdx i }
    if success then cleared else p.rollBack cleared

def storeStep (s : StoreState) : StoreStep → StoreState
  | .update tradeId patch ids now => updateTradeOptimistic stringify s tradeId patch ids now
  | .remove tradeId ids now => removeTrade s tradeId ids now
  | .settled i success => settle s i success
  | .expired actionKey correlationId =>
    if (s.dedup actionKey).any fun cur => cur.ids.correlationId = correlationId then
      { s with dedup := Function.update s.dedup actionKey none }
    else s
  | .addTrade trade => { s with trades := trade :: s.trades, total := s.total + 1 }
  | .fetched items total => { s with trades := items, total }

end

/-! ## What the server has confirmed -/

/-- The trades of the store, and how many there are on the server. -/
structure Listing where
  trades : List TradeResponse
  total : Int

def StoreState.listing (s : StoreState) : Listing := ⟨s.trades, s.total⟩

/-- A change, applied to the trades it is about. -/
def Pending.apply (p : Pending) (l : Listing) : Listing :=
  match p with
  | update tradeId patch _ _ _ =>
    { l with trades := l.trades.map fun t => if t.tradeId = tradeId then patch.apply t else t }
  | removal tradeId _ _ _ => ⟨l.trades.filter fun t => t.tradeId ≠ tradeId, l.total - 1⟩

/-- What is confirmed when a step is: the changes the server accepts, and what it lists itself. -/
def confirm (s : StoreState) (a : StoreStep) (confirmed : Listing) : Listing :=
  match a with
  | .settled i true => (s.inFlight[i]?).elim confirmed fun p => p.apply confirmed
  | .addTrade trade => ⟨trade :: confirmed.trades, confirmed.total + 1⟩
  | .fetched items total => ⟨items, total⟩
  | _ => confirmed

/-- The store, and what is confirmed, after some steps. -/
def storeAfter (stringify : TradePatch → String) (s : StoreState) (as : List StoreStep) :
    StoreState × Listing :=
  run (shadow (storeStep stringify) confirm) (s, s.listing) as

/-- Whether the change is taken back at its own trade only: it is an update of a trade that was
listed. -/
def Pending.IsLocal : Pending → Prop
  | update _ _ _ (some _) _ => True
  | update _ _ _ none _ | removal .. => False

/-- Each trade once. -/
def Distinct (trades : List TradeResponse) : Prop := (trades.map TradeResponse.tradeId).Nodup

/-- The step does not meet a change of the same trade in flight, and where it is about the whole list
no change at all: an update of a trade that is not listed is taken back with the whole list, and so is
a removal. -/
def Apart (stringify : TradePatch → String) (s : StoreState) : StoreStep → Prop
  | .update tradeId patch _ now =>
    (shouldDedup s (updateKey stringify tradeId patch) now).isSome = true ∨
      ((∃ t ∈ s.trades, t.tradeId = tradeId) ∧
        ∀ p ∈ s.inFlight, p.IsLocal ∧ p.tradeId ≠ tradeId) ∨ s.inFlight = []
  | .remove tradeId _ now =>
    (shouldDedup s ("remove:" ++ tradeId) now).isSome = true ∨ s.inFlight = []
  | .addTrade trade =>
    (∀ t ∈ s.trades, t.tradeId ≠ trade.tradeId) ∧ ∀ p ∈ s.inFlight, p.IsLocal
  | .fetched items _ => s.inFlight = [] ∧ Distinct items
  | _ => True

instance : DecidablePred Pending.IsLocal
  | .update _ _ _ (some _) _ => isTrue trivial
  | .update _ _ _ none _ => isFalse id
  | .removal .. => isFalse id

instance (trades : List TradeResponse) : Decidable (Distinct trades) :=
  inferInstanceAs (Decidable (List.Nodup _))

instance (stringify : TradePatch → String) (s : StoreState) :
    DecidablePred (Apart stringify s)
  | .update .. => inferInstanceAs (Decidable (_ ∨ (_ ∧ _) ∨ _))
  | .remove .. => inferInstanceAs (Decidable (_ ∨ _))
  | .settled .. => isTrue trivial
  | .expired .. => isTrue trivial
  | .addTrade .. => inferInstanceAs (Decidable (_ ∧ _))
  | .fetched .. => inferInstanceAs (Decidable (_ ∧ _))

variable {stringify : TradePatch → String} {s : StoreState} {c : Listing} {p q : Pending}
  {ps : List Pending} {t : TradeResponse}

/-- What an update does to a trade. -/
def Pending.patch (t : TradeResponse) : Pending → TradeResponse
  | update tradeId patch _ _ _ => if t.tradeId = tradeId then patch.apply t else t
  | removal .. => t

@[simp] theorem tradeId_apply (patch : TradePatch) : (patch.apply t).tradeId = t.tradeId := rfl

@[simp] theorem tradeId_patch : (p.patch t).tradeId = t.tradeId := by
  cases p with
  | update =>
    simp only [Pending.patch]
    split <;> rfl
  | removal => rfl

theorem patch_of_ne (h : p.tradeId ≠ t.tradeId) : p.patch t = t := by
  cases p with
  | update => exact if_neg (Ne.symm h)
  | removal => rfl

theorem apply_of_isLocal (h : p.IsLocal) :
    p.apply c = { c with trades := c.trades.map fun t => p.patch t } := by
  cases p with
  | update => rfl
  | removal => cases h

/-- All changes, one after the other. -/
def patchAll (ps : List Pending) (t : TradeResponse) : TradeResponse :=
  ps.foldl (fun t p => p.patch t) t

@[simp] theorem patchAll_nil : patchAll [] = id := rfl

@[simp] theorem tradeId_patchAll : (patchAll ps t).tradeId = t.tradeId := by
  induction ps generalizing t with
  | nil => rfl
  | cons p ps ih => rw [patchAll, List.foldl_cons, ← patchAll, ih, tradeId_patch]

theorem patchAll_of_ne (h : ∀ p ∈ ps, p.tradeId ≠ t.tradeId) : patchAll ps t = t := by
  induction ps with
  | nil => rfl
  | cons p ps ih =>
    rw [patchAll, List.foldl_cons, patch_of_ne (h p (List.mem_cons_self ..))]
    exact ih fun q hq => h q (List.mem_cons_of_mem _ hq)

theorem foldl_apply (h : ∀ p ∈ ps, p.IsLocal) : ps.foldl (fun c p => p.apply c) c =
    { c with trades := c.trades.map (patchAll ps) } := by
  induction ps generalizing c with
  | nil => simp
  | cons p ps ih =>
    rw [List.foldl_cons, apply_of_isLocal (h p (List.mem_cons_self ..)),
      ih fun q hq => h q (List.mem_cons_of_mem _ hq)]
    simp [patchAll, Function.comp_def]

/-- Changes of different trades can be taken in any order. -/
theorem patchAll_perm {qs : List Pending} (h : ps.Perm qs)
    (apart : (ps.map Pending.tradeId).Nodup) : patchAll ps t = patchAll qs t := by
  refine h.foldl_eq' (fun p hp q hq t => ?_) t
  by_cases hpq : p.tradeId = q.tradeId
  · rw [List.inj_on_of_nodup_map apart hp hq hpq]
  · by_cases hpt : p.tradeId = t.tradeId
    · have hqt : q.tradeId ≠ t.tradeId := fun h => hpq (hpt.trans h.symm)
      rw [patch_of_ne (by simpa using hqt), patch_of_ne hqt]
    · rw [patch_of_ne hpt, patch_of_ne (p := p) (t := q.patch t) (by simpa using hpt)]

theorem patchAll_snoc : patchAll (ps ++ [p]) t = p.patch (patchAll ps t) := by
  rw [patchAll, List.foldl_append]
  rfl

/-! ## The store shows what is confirmed -/

/-- The changes in flight are updates of different trades, each with the snapshot of what is
confirmed, and they are what the store shows beyond it. -/
structure Overlaid (s : StoreState) (c : Listing) : Prop where
  snapshots : ∀ p ∈ s.inFlight, ∃ t ∈ c.trades, ∃ patch actionKey prevTrades,
    p = .update t.tradeId patch actionKey (some t) prevTrades
  apart : (s.inFlight.map Pending.tradeId).Nodup
  trades : s.trades = c.trades.map (patchAll s.inFlight)
  total : s.total = c.total

/-- The one change in flight keeps all that is confirmed, which takes its place when it is refused. -/
structure Alone (s : StoreState) (c : Listing) (p : Pending) : Prop where
  inFlight : s.inFlight = [p]
  whole : ¬ p.IsLocal
  shown : s.listing = p.apply c
  restores : ∀ s', s'.listing = s.listing → (p.rollBack s').listing = c

structure Sound (s : StoreState) (c : Listing) : Prop where
  distinct : Distinct c.trades
  shown : Overlaid s c ∨ ∃ p, Alone s c p

theorem Overlaid.isLocal (h : Overlaid s c) : ∀ p ∈ s.inFlight, p.IsLocal := fun p hp => by
  obtain ⟨t, -, patch, actionKey, prevTrades, rfl⟩ := h.snapshots p hp
  trivial

theorem Overlaid.of_idle (trades : s.trades = c.trades) (total : s.total = c.total)
    (idle : s.inFlight = []) : Overlaid s c :=
  ⟨by simp [idle], by simp [idle], by simp [idle, trades], total⟩

theorem Sound.listing (h : Sound s c) :
    s.listing = s.inFlight.foldl (fun c p => p.apply c) c := by
  obtain ⟨-, h | ⟨p, h⟩⟩ := h
  · rw [foldl_apply h.isLocal, StoreState.listing, h.trades, h.total]
  · rw [h.inFlight, h.shown]
    rfl

/-- With nothing in flight, the store shows what is confirmed. -/
theorem Sound.of_idle (h : Sound s c) (idle : s.inFlight = []) :
    s.trades = c.trades ∧ s.total = c.total := by
  have hlisting := h.listing
  rw [idle] at hlisting
  exact ⟨congrArg Listing.trades hlisting, congrArg Listing.total hlisting⟩

variable {trades : List TradeResponse}

theorem find?_of_mem (distinct : Distinct trades) (ht : t ∈ trades) :
    trades.find? (fun u => u.tradeId = t.tradeId) = some t := by
  cases hfind : trades.find? fun u => u.tradeId = t.tradeId with
  | none => simpa using List.find?_eq_none.1 hfind t ht
  | some u =>
    have hid : u.tradeId = t.tradeId := by simpa using List.find?_some hfind
    rw [List.inj_on_of_nodup_map distinct (List.mem_of_find?_eq_some hfind) ht hid]

theorem distinct_map {f : TradeResponse → TradeResponse} (hf : ∀ t, (f t).tradeId = t.tradeId)
    (distinct : Distinct trades) : Distinct (trades.map f) := by
  have hids : TradeResponse.tradeId ∘ f = TradeResponse.tradeId := funext hf
  simpa [Distinct, hids] using distinct

/-- A change keeps each trade once. -/
theorem distinct_apply (distinct : Distinct c.trades) (p : Pending) :
    Distinct (p.apply c).trades := by
  cases p with
  | update =>
    refine distinct_map (fun t => ?_) distinct
    split <;> rfl
  | removal => exact distinct.sublist (List.filter_sublist.map _)

/-- An update of a listed trade, beside updates of others. -/
theorem Overlaid.update (h : Overlaid s c) (distinct : Distinct c.trades) {tradeId : String}
    (listed : ∃ t ∈ s.trades, t.tradeId = tradeId) (others : ∀ p ∈ s.inFlight, p.tradeId ≠ tradeId)
    (patch : TradePatch) (actionKey : String) (ids : ActionIds) (now : Nat) :
    Overlaid { begin s actionKey ids now with
      trades := s.trades.map fun t => if t.tradeId = tradeId then patch.apply t else t
      inFlight := s.inFlight ++ [.update tradeId patch actionKey
        (s.trades.find? fun t => t.tradeId = tradeId) s.trades] } c := by
  obtain ⟨u, hu, hid⟩ := listed
  rw [h.trades] at hu
  obtain ⟨t, ht, rfl⟩ := List.mem_map.1 hu
  rw [tradeId_patchAll] at hid
  subst hid
  have hsame : patchAll s.inFlight t = t := patchAll_of_ne others
  have hfind : s.trades.find? (fun v => v.tradeId = t.tradeId) = some t := by
    refine find?_of_mem ?_ ?_
    · rw [h.trades]
      exact distinct_map (fun _ => tradeId_patchAll) distinct
    · rw [h.trades]
      exact List.mem_map.2 ⟨t, ht, hsame⟩
  refine ⟨fun p hp => ?_, ?_, ?_, h.total⟩
  · obtain hp | hp := List.mem_append.1 hp
    · exact h.snapshots p hp
    · exact ⟨t, ht, patch, _, _, by rw [List.mem_singleton.1 hp, hfind]⟩
  · rw [List.map_append, List.nodup_append]
    exact ⟨h.apart, by simp, by simpa [Pending.tradeId] using others⟩
  · dsimp only
    rw [h.trades, List.map_map]
    refine List.map_congr_left fun v _ => ?_
    rw [patchAll_snoc]
    simp [Pending.patch]

/-- An update of a trade that is not listed changes nothing, and is taken back with the whole list. -/
theorem Sound.updateUnlisted (h : Sound s c) (idle : s.inFlight = []) {tradeId : String}
    (unlisted : ¬ ∃ t ∈ s.trades, t.tradeId = tradeId) (patch : TradePatch) (actionKey : String)
    (ids : ActionIds) (now : Nat) :
    ∃ p, Alone { begin s actionKey ids now with
      trades := s.trades.map fun t => if t.tradeId = tradeId then patch.apply t else t
      inFlight := s.inFlight ++ [.update tradeId patch actionKey
        (s.trades.find? fun t => t.tradeId = tradeId) s.trades] } c p := by
  obtain ⟨htrades, htotal⟩ := h.of_idle idle
  have hfind : s.trades.find? (fun t => t.tradeId = tradeId) = none :=
    List.find?_eq_none.2 fun t ht hid => unlisted ⟨t, ht, by simpa using hid⟩
  refine ⟨.update tradeId patch actionKey none s.trades, ?_, id, ?_, fun s' hs' => ?_⟩
  · simp [idle, hfind]
  · simp [StoreState.listing, Pending.apply, begin, htrades, htotal]
  · have htotal' : s'.total = s.total := congrArg Listing.total hs'
    simp [Pending.rollBack, StoreState.listing, htrades, htotal, htotal']

theorem Sound.update (h : Sound s c) (tradeId : String) (patch : TradePatch) (ids : ActionIds)
    (now : Nat) (apart : Apart stringify s (.update tradeId patch ids now)) :
    Sound (updateTradeOptimistic stringify s tradeId patch ids now) c := by
  unfold updateTradeOptimistic
  dsimp only
  split
  · exact h
  · next hdedup =>
    refine ⟨h.distinct, ?_⟩
    by_cases hlisted : ∃ t ∈ s.trades, t.tradeId = tradeId
    · have hlocal : ∀ p ∈ s.inFlight, p.IsLocal ∧ p.tradeId ≠ tradeId := by
        obtain ⟨-, hlocal⟩ | hidle := apart.resolve_left hdedup
        · exact hlocal
        · simp [hidle]
      obtain hover | ⟨p, halone⟩ := h.shown
      · exact .inl (hover.update h.distinct hlisted (fun p hp => (hlocal p hp).2) ..)
      · have hmem : p ∈ s.inFlight := by simp [halone.inFlight]
        exact absurd (hlocal p hmem).1 halone.whole
    · have hidle := (apart.resolve_left hdedup).resolve_left fun happly => hlisted happly.1
      exact .inr (h.updateUnlisted hidle hlisted ..)

theorem Sound.remove (h : Sound s c) (tradeId : String) (ids : ActionIds) (now : Nat)
    (apart : Apart stringify s (.remove tradeId ids now)) :
    Sound (removeTrade s tradeId ids now) c := by
  unfold removeTrade
  dsimp only
  split
  · exact h
  · next hdedup =>
    have hidle := apart.resolve_left hdedup
    obtain ⟨htrades, htotal⟩ := h.of_idle hidle
    refine ⟨h.distinct, .inr ⟨.removal tradeId ("remove:" ++ tradeId) s.trades s.total, ?_, id, ?_,
      fun s' _ => ?_⟩⟩
    · simp [hidle]
    · simp [StoreState.listing, Pending.apply, htrades, htotal]
    · simp [Pending.rollBack, StoreState.listing, htrades, htotal]

/-- What is left in flight when an update is answered. -/
structure Rest (s : StoreState) (p : Pending) (qs : List Pending) : Prop where
  perm : (p :: qs).Perm s.inFlight
  others : ∀ q ∈ qs, q.tradeId ≠ p.tradeId
  apart : (qs.map Pending.tradeId).Nodup

theorem Overlaid.rest {i : Nat} (h : Overlaid s c) (found : s.inFlight[i]? = some p) :
    Rest s p (s.inFlight.eraseIdx i) := by
  obtain ⟨hlt, rfl⟩ := List.getElem?_eq_some_iff.1 found
  have hperm := List.getElem_cons_eraseIdx_perm hlt
  have hnodup := (hperm.map Pending.tradeId).nodup_iff.2 h.apart
  rw [List.map_cons, List.nodup_cons] at hnodup
  exact ⟨hperm, fun q hq heq => hnodup.1 (List.mem_map.2 ⟨q, hq, heq⟩), hnodup.2⟩

theorem Overlaid.patchAll_rest {qs : List Pending} (h : Overlaid s c) (rest : Rest s p qs)
    (t : TradeResponse) : patchAll s.inFlight t = patchAll qs (p.patch t) :=
  (patchAll_perm rest.perm.symm h.apart).trans rfl

/-- An update that the server accepts is confirmed as it was shown. -/
theorem Overlaid.accept {qs : List Pending} (h : Overlaid s c) (rest : Rest s p qs)
    (pendingActions : String → Option ActionIds) :
    Overlaid { s with pendingActions, inFlight := qs } (p.apply c) := by
  have hp := h.isLocal p (rest.perm.subset (List.mem_cons_self ..))
  rw [apply_of_isLocal hp]
  refine ⟨fun q hq => ?_, rest.apart, ?_, h.total⟩
  · obtain ⟨t, ht, patch, actionKey, prevTrades, rfl⟩ :=
      h.snapshots q (rest.perm.subset (List.mem_cons_of_mem _ hq))
    have hother : p.patch t = t := patch_of_ne (Ne.symm (rest.others _ hq))
    exact ⟨t, List.mem_map.2 ⟨t, ht, hother⟩, patch, actionKey, prevTrades, rfl⟩
  · dsimp only
    rw [h.trades, List.map_map]
    exact List.map_congr_left fun t _ => h.patchAll_rest rest t

/-- An update that the server refuses is taken back, and nothing else is. -/
theorem Overlaid.refuse {qs : List Pending} (h : Overlaid s c) (distinct : Distinct c.trades)
    (rest : Rest s p qs) (pendingActions : String → Option ActionIds) :
    Overlaid (p.rollBack { s with pendingActions, inFlight := qs }) c := by
  obtain ⟨kept, hkept, patch, actionKey, prevTrades, rfl⟩ :=
    h.snapshots p (rest.perm.subset (List.mem_cons_self ..))
  refine ⟨fun q hq => h.snapshots q (rest.perm.subset (List.mem_cons_of_mem _ hq)), rest.apart,
    ?_, h.total⟩
  simp only [Pending.rollBack]
  rw [h.trades, List.map_map]
  refine List.map_congr_left fun t ht => ?_
  simp only [Function.comp_apply, tradeId_patchAll]
  split
  · next hid =>
    obtain rfl := List.inj_on_of_nodup_map distinct ht hkept hid
    exact (patchAll_of_ne rest.others).symm
  · next hid => rw [h.patchAll_rest rest, patch_of_ne (Ne.symm hid)]

/-- With nothing left in flight, the store shows what is confirmed. -/
theorem Sound.of_listing (distinct : Distinct c.trades) (listing : s.listing = c)
    (idle : s.inFlight = []) : Sound s c :=
  ⟨distinct, .inl (Overlaid.of_idle (congrArg Listing.trades listing)
    (congrArg Listing.total listing) idle)⟩

@[simp] theorem inFlight_rollBack (p : Pending) (s : StoreState) :
    (p.rollBack s).inFlight = s.inFlight := by
  unfold Pending.rollBack
  split <;> rfl

theorem Sound.settled (h : Sound s c) (i : Nat) (success : Bool) :
    Sound (settle s i success) (confirm s (.settled i success) c) := by
  unfold TradeStore.settle
  cases hfound : s.inFlight[i]? with
  | none => cases success <;> simpa [confirm, hfound] using h
  | some p =>
    have hconfirm : confirm s (.settled i true) c = p.apply c := by simp [confirm, hfound]
    obtain ⟨hdistinct, h | ⟨q, h⟩⟩ := h
    · have hrest := h.rest hfound
      cases success with
      | true =>
        rw [hconfirm]
        exact ⟨distinct_apply hdistinct p, .inl (h.accept hrest _)⟩
      | false => exact ⟨hdistinct, .inl (h.refuse hdistinct hrest _)⟩
    · rw [h.inFlight] at hfound
      obtain ⟨hlt, hq⟩ := List.getElem?_eq_some_iff.1 hfound
      obtain rfl : i = 0 := by simpa using hlt
      obtain rfl : q = p := hq
      cases success with
      | true =>
        rw [hconfirm]
        exact .of_listing (distinct_apply hdistinct q) h.shown (by simp [h.inFlight])
      | false =>
        exact .of_listing hdistinct (h.restores _ rfl) (by simp [h.inFlight])

theorem Sound.step (h : Sound s c) (a : StoreStep) (apart : Apart stringify s a) :
    Sound (storeStep stringify s a) (confirm s a c) := by
  cases a with
  | update tradeId patch ids now => exact h.update tradeId patch ids now apart
  | remove tradeId ids now => exact h.remove tradeId ids now apart
  | settled i success => exact h.settled i success
  | expired actionKey correlationId =>
    simp only [storeStep, confirm]
    split
    · exact ⟨h.distinct, h.shown.imp (fun h => ⟨h.1, h.2, h.3, h.4⟩) fun ⟨p, h⟩ =>
        ⟨p, h.1, h.2, h.3, h.4⟩⟩
    · exact h
  | addTrade trade =>
    obtain ⟨hnew, hlocal⟩ := apart
    obtain ⟨hdistinct, h | ⟨p, h⟩⟩ := h
    · have hfresh : ∀ t ∈ c.trades, t.tradeId ≠ trade.tradeId := fun t ht => by
        rw [h.trades] at hnew
        simpa using hnew _ (List.mem_map_of_mem ht)
      have hsame : patchAll s.inFlight trade = trade := patchAll_of_ne fun p hp => by
        obtain ⟨t, ht, patch, actionKey, prevTrades, rfl⟩ := h.snapshots p hp
        exact hfresh t ht
      refine ⟨?_, .inl ⟨fun p hp => ?_, h.apart, ?_, ?_⟩⟩
      · rw [confirm, Distinct, List.map_cons, List.nodup_cons]
        exact ⟨by simpa using hfresh, hdistinct⟩
      · obtain ⟨t, ht, hp⟩ := h.snapshots p hp
        exact ⟨t, List.mem_cons_of_mem _ ht, hp⟩
      · simp only [storeStep, confirm, List.map_cons, hsame, h.trades]
      · simp only [storeStep, confirm, h.total]
    · have hmem : p ∈ s.inFlight := by simp [h.inFlight]
      exact absurd (hlocal p hmem) h.whole
  | fetched items total =>
    obtain ⟨hidle, hitems⟩ := apart
    exact ⟨hitems, .inl (Overlaid.of_idle rfl rfl hidle)⟩

/-- Where changes of one trade do not overlap, and changes of the whole list meet no other, the store
shows what is confirmed with the changes in flight on top. -/
theorem optimistic_run (stringify : TradePatch → String) (s : StoreState) (as : List StoreStep)
    (idle : s.inFlight = []) (distinct : Distinct s.trades)
    (apart : ∀ p ∈ trail (storeStep stringify) s as, Apart stringify p.1 p.2) :
    (storeAfter stringify s as).1.listing =
      (storeAfter stringify s as).1.inFlight.foldl (fun c p => p.apply c)
        (storeAfter stringify s as).2 := by
  refine Sound.listing ?_
  refine run_invariant (P := fun p => Sound p.1 p.2) (shadow (storeStep stringify) confirm)
    ⟨distinct, .inl (Overlaid.of_idle rfl rfl idle)⟩ fun p hp h => h.step p.2 ?_
  have hmem : (p.1.1, p.2) ∈ trail (storeStep stringify) s as := by
    rw [← trail_shadow (storeStep stringify) confirm (s, s.listing) as]
    exact List.mem_map.2 ⟨p, hp, rfl⟩
  exact apart _ hmem

/-! ## A refused change -/

def sampleTrade (tradeId : String) : TradeResponse :=
  ⟨tradeId, "GBUYER", "GSELLER", "100", 0, 0, "PENDING", "2026-01-01", "2026-01-01", none, none,
    none, none⟩

def statusPatch (status : String) : TradePatch :=
  ⟨none, none, none, none, none, some status, none, none, none, none, none, none⟩

def sampleStore : StoreState :=
  ⟨[sampleTrade "t1", sampleTrade "t2"], 2, fun _ => none, fun _ => none, []⟩

/-- Two trades are changed at once, and the first change is refused; then one that is not listed. -/
def refused : List StoreStep :=
  [.update "t1" (statusPatch "SETTLED") ⟨"corr-1", "a"⟩ 5,
    .update "t2" (statusPatch "SETTLED") ⟨"corr-2", "b"⟩ 6, .settled 0 false, .settled 0 true,
    .update "t3" (statusPatch "SETTLED") ⟨"corr-3", "c"⟩ 7, .settled 0 false]

theorem optimistic_run_refused :
    (storeAfter (fun _ => "") sampleStore refused).1.trades =
      (storeAfter (fun _ => "") sampleStore refused).2.trades := by
  have hapart : ∀ p ∈ trail (storeStep fun _ => "") sampleStore refused,
      Apart (fun _ => "") p.1 p.2 := by decide
  have hshown := optimistic_run (fun _ => "") sampleStore refused rfl (by decide) hapart
  exact congrArg Listing.trades hshown

end Amana.Frontend.TradeStore
