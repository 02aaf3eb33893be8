import Amana.Backend.Schema
import Amana.Lib.Machine
import Amana.Lib.Text
import Mathlib.Data.List.Nodup

/-!
# The watchlist

`trade.watchlist.service.ts`: a user can watch the trades he is a party of.  Whatever calls come in,
a user watches each trade at most once, and only trades of his own (`watchlistKept_run`).
Addresses are of ASCII characters.
-/

namespace Amana.Backend

open Lib Lib.Machine

/-- The columns of a trade that is listed. -/
structure ListedTrade where
  id : Nat
  tradeId : String
  buyerAddress : String
  sellerAddress : String
  amountUsdc : String
  status : TradeStatus
  createdAt : Nat
  updatedAt : Nat
  deriving DecidableEq, Repr

/-- A row of `UserWatchlist`. -/
structure WatchEntry where
  id : Nat
  userAddress : String
  tradeId : String
  createdAt : Nat
  deriving DecidableEq, Repr

/-- The table, and the id of the next row. -/
structure Watchlist where
  entries : List WatchEntry
  nextId : Nat
  deriving DecidableEq, Repr

def Watchlist.empty : Watchlist := ⟨[], 1⟩

inductive WatchError where
  /-- `WatchTradeNotFoundError`, status 404. -/
  | notFound
  /-- `WatchTradeAccessDeniedError`, status 403. -/
  | accessDenied
  deriving DecidableEq, Repr

def WatchError.message : WatchError → String
  | .notFound => "Trade not found"
  | .accessDenied => "Forbidden"

inductive WatchCall where
  | add (tradeId userAddress : String) (now : Nat)
  | remove (tradeId userAddress : String)
  deriving DecidableEq, Repr

section Service

variable (trades : List ListedTrade)

def assertTradeAccess (tradeId userAddress : String) : Except WatchError ListedTrade :=
  match trades.find? fun trade => trade.tradeId == tradeId with
  | none => .error .notFound
  | some trade =>
    let caller := Text.toLowerCase userAddress
    if Text.toLowerCase trade.buyerAddress ≠ caller ∧ Text.toLowerCase trade.sellerAddress ≠ caller then
      .error .accessDenied
    else .ok trade

/-- The row of a user and a trade, which are unique together. -/
def WatchEntry.Is (entry : WatchEntry) (userAddress tradeId : String) : Prop :=
  entry.userAddress = userAddress ∧ entry.tradeId = tradeId

instance WatchEntry.decidableIs (entry : WatchEntry) (userAddress tradeId : String) :
    Decidable (entry.Is userAddress tradeId) :=
  inferInstanceAs (Decidable (_ ∧ _))

/-- `add` of the service: an upsert that updates nothing. -/
def Watchlist.add (watchlist : Watchlist) (tradeId userAddress : String) (now : Nat) :
    Except WatchError (WatchEntry × Watchlist) := do
  let trade ← assertTradeAccess trades tradeId userAddress
  let userAddressNormalized := Text.toLowerCase userAddress
  match watchlist.entries.find? fun entry => entry.Is userAddressNormalized trade.tradeId with
  | some item => return (item, watchlist)
  | none =>
    let item : WatchEntry := ⟨watchlist.nextId, userAddressNormalized, trade.tradeId, now⟩
    return (item, ⟨watchlist.entries ++ [item], watchlist.nextId + 1⟩)

/-- `remove` of the service. -/
def Watchlist.remove (watchlist : Watchlist) (tradeId userAddress : String) :
    Except WatchError (Bool × Watchlist) := do
  let trade ← assertTradeAccess trades tradeId userAddress
  let kept := watchlist.entries.filter fun entry =>
    ¬ entry.Is (Text.toLowerCase userAddress) trade.tradeId
  return (decide (kept.length < watchlist.entries.length), { watchlist with entries := kept })

/-- A call that fails changes nothing. -/
def Watchlist.step (watchlist : Watchlist) : WatchCall → Watchlist
  | .add tradeId userAddress now =>
    match watchlist.add trades tradeId userAddress now with
    | .ok (_, next) => next
    | .error _ => watchlist
  | .remove tradeId userAddress =>
    match watchlist.remove trades tradeId userAddress with
    | .ok (_, next) => next
    | .error _ => watchlist

/-- The caller is a party of the trade. -/
def ListedTrade.HasParty (trade : ListedTrade) (caller : String) : Prop :=
  Text.toLowerCase trade.buyerAddress = caller ∨ Text.toLowerCase trade.sellerAddress = caller

/-- Users watch each trade once, and only trades of their own. -/
structure WatchlistKept (watchlist : Watchlist) : Prop where
  ids : (watchlist.entries.map WatchEntry.id).Nodup
  fresh : ∀ entry ∈ watchlist.entries, entry.id < watchlist.nextId
  unique : (watchlist.entries.map fun entry => (entry.userAddress, entry.tradeId)).Nodup
  access : ∀ entry ∈ watchlist.entries, ∃ trade ∈ trades,
    trade.tradeId = entry.tradeId ∧ trade.HasParty entry.userAddress

variable {trades} {watchlist : Watchlist}

/-- Who gets past the check is a party of the trade. -/
theorem assertTradeAccess_eq_ok {tradeId userAddress : String} {trade : ListedTrade}
    (h : assertTradeAccess trades tradeId userAddress = .ok trade) :
    trade ∈ trades ∧ trade.tradeId = tradeId ∧ trade.HasParty (Text.toLowerCase userAddress) := by
  unfold assertTradeAccess at h
  split at h
  · cases h
  · next found hfind =>
    dsimp only at h
    split at h
    · cases h
    · next hparty =>
      obtain rfl := Except.ok.inj h
      refine ⟨List.mem_of_find?_eq_some hfind, by simpa using List.find?_some hfind, ?_⟩
      by_contra hno
      obtain ⟨hbuyer, hseller⟩ := not_or.1 hno
      exact hparty ⟨hbuyer, hseller⟩

theorem watchlistKept_empty : WatchlistKept trades .empty := by
  constructor <;> simp [Watchlist.empty]

/-- What a call does to the table: nothing, one more row for a trade of the caller, or fewer rows. -/
theorem step_cases (trades : List ListedTrade) (watchlist : Watchlist) (call : WatchCall) :
    watchlist.step trades call = watchlist ∨
    (∃ item, ∃ trade ∈ trades, item.id = watchlist.nextId ∧ trade.tradeId = item.tradeId ∧
      trade.HasParty item.userAddress ∧
      (∀ entry ∈ watchlist.entries, ¬ entry.Is item.userAddress item.tradeId) ∧
      watchlist.step trades call = ⟨watchlist.entries ++ [item], watchlist.nextId + 1⟩) ∨
    ∃ p : WatchEntry → Bool,
      watchlist.step trades call = { watchlist with entries := watchlist.entries.filter p } := by
  cases call with
  | add tradeId userAddress now =>
    rw [Watchlist.step, Watchlist.add]
    cases hassert : assertTradeAccess trades tradeId userAddress with
    | error e => exact .inl rfl
    | ok trade =>
      obtain ⟨hmem, -, hparty⟩ := assertTradeAccess_eq_ok hassert
      cases hfind : watchlist.entries.find? fun entry =>
          entry.Is (Text.toLowerCase userAddress) trade.tradeId with
      | some item =>
        left
        simp only [bind, Except.bind, hfind]
        rfl
      | none =>
        refine .inr (.inl ⟨⟨watchlist.nextId, Text.toLowerCase userAddress, trade.tradeId, now⟩, trade,
          hmem, rfl, rfl, hparty, ?_, ?_⟩)
        · intro entry hentry
          simpa using List.find?_eq_none.1 hfind entry hentry
        · simp only [bind, Except.bind, hfind]
          rfl
  | remove tradeId userAddress =>
    rw [Watchlist.step, Watchlist.remove]
    cases assertTradeAccess trades tradeId userAddress with
    | error e => exact .inl rfl
    | ok trade => exact .inr (.inr ⟨_, rfl⟩)

theorem WatchlistKept.step (h : WatchlistKept trades watchlist) (call : WatchCall) :
    WatchlistKept trades (watchlist.step trades call) := by
  obtain heq | ⟨item, trade, htrade, hid, htradeId, hparty, hnew, heq⟩ | ⟨p, heq⟩ :=
    step_cases trades watchlist call
  · rwa [heq]
  · rw [heq]
    constructor
    · rw [List.map_append, List.map_singleton, ← List.concat_eq_append]
      refine List.Nodup.concat (fun hmem => ?_) h.ids
      obtain ⟨entry, hentry, hsame⟩ := List.mem_map.1 hmem
      have hlt := h.fresh entry hentry
      omega
    · intro entry hentry
      rw [List.mem_append, List.mem_singleton] at hentry
      obtain hentry | rfl := hentry
      · exact (h.fresh entry hentry).trans (Nat.lt_succ_self _)
      · exact hid ▸ Nat.lt_succ_self _
    · rw [List.map_append, List.map_singleton, ← List.concat_eq_append]
      refine List.Nodup.concat (fun hmem => ?_) h.unique
      obtain ⟨entry, hentry, hsame⟩ := List.mem_map.1 hmem
      obtain ⟨huser, htrade'⟩ := Prod.mk.inj hsame
      exact hnew entry hentry ⟨huser, htrade'⟩
    · intro entry hentry
      rw [List.mem_append, List.mem_singleton] at hentry
      obtain hentry | rfl := hentry
      · exact h.access entry hentry
      · exact ⟨trade, htrade, htradeId, hparty⟩
  · rw [heq]
    constructor
    · exact h.ids.sublist (List.filter_sublist.map _)
    · intro entry hentry
      exact h.fresh entry (List.mem_filter.1 hentry).1
    · exact h.unique.sublist (List.filter_sublist.map _)
    · intro entry hentry
      exact h.access entry (List.mem_filter.1 hentry).1

/-- Whatever the calls, the watchlist keeps in order. -/
theorem watchlistKept_run (trades : List ListedTrade) (calls : List WatchCall) :
    WatchlistKept trades (run (Watchlist.step trades) .empty calls) := by
  apply run_invariant_of_step
  · exact watchlistKept_empty
  · intro watchlist call h
    exact h.step call

end Service

end Amana.Backend
