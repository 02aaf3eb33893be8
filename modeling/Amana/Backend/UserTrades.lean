import Amana.Backend.AuditPages
import Amana.Backend.Watchlist
import Amana.Lib.Slices
import Mathlib.Data.List.Sort

/-!
# The trades of a user

`listUserTrades` lists the trades of a user a page at a time, those he watches first.  A page is put
together from the watched trades and from a query for the others, whose offset is what is left of the
page's.  As a watched trade is always one of the user's own, and every order ends in the id, the
pages are slices of one list (`items_eq_slice`), and so they show every trade once
(`pages_complete`).  Addresses are of ASCII characters.
-/

namespace Amana.Backend

open Lib Lib.Machine Lib.Pages

/-! ## The order -/

inductive TradeField where
  | id
  | tradeId
  | buyerAddress
  | sellerAddress
  | amountUsdc
  | status
  | createdAt
  | updatedAt
  deriving DecidableEq, Repr

/-- `allowedFields`. -/
def TradeField.ofName : String → Option TradeField
  | "id" => some .id
  | "tradeId" => some .tradeId
  | "buyerAddress" => some .buyerAddress
  | "sellerAddress" => some .sellerAddress
  | "amountUsdc" => some .amountUsdc
  | "status" => some .status
  | "createdAt" => some .createdAt
  | "updatedAt" => some .updatedAt
  | _ => none

abbrev TradeOrder := List (TradeField × SortOrder)

/-- `parseSort`. -/
def parseSort (sort : Option String) : TradeOrder :=
  let newest : TradeOrder := [(.createdAt, .desc), (.id, .desc)]
  match sort with
  | none => newest
  | some sort =>
    if sort = "" then newest
    else
      let parts := (sort.toList.splitOn ':').map String.ofList
      let direction : SortOrder :=
        if parts[1]?.map Text.toLowerCase = some "asc" then .asc else .desc
      match TradeField.ofName (parts.headD "") with
      | none => newest
      | some .id => [(.id, direction)]
      | some field => [(field, direction), (.id, direction)]

example : parseSort (some "amountUsdc:ASC") = [(.amountUsdc, .asc), (.id, .asc)] := by decide

/-- The way the database compares texts. -/
structure Collation where
  le : String → String → Prop
  ranks : Ranks le

/-- The order of the enumeration. -/
def TradeStatus.rank : TradeStatus → Nat
  | .pendingSignature => 0
  | .created => 1
  | .funded => 2
  | .delivered => 3
  | .completed => 4
  | .disputed => 5
  | .cancelled => 6
  | .expired => 7

def TradeField.le (collation : Collation) (a b : ListedTrade) : TradeField → Prop
  | .id => a.id ≤ b.id
  | .tradeId => collation.le a.tradeId b.tradeId
  | .buyerAddress => collation.le a.buyerAddress b.buyerAddress
  | .sellerAddress => collation.le a.sellerAddress b.sellerAddress
  | .amountUsdc => collation.le a.amountUsdc b.amountUsdc
  | .status => a.status.rank ≤ b.status.rank
  | .createdAt => a.createdAt ≤ b.createdAt
  | .updatedAt => a.updatedAt ≤ b.updatedAt

/-- By a field, in a direction. -/
def fieldOrder (collation : Collation) (by_ : TradeField × SortOrder) (a b : ListedTrade) : Prop :=
  match by_.2 with
  | .asc => by_.1.le collation a b
  | .desc => by_.1.le collation b a

/-- The order an `orderBy` stands for. -/
def tradeOrder (collation : Collation) : TradeOrder → ListedTrade → ListedTrade → Prop
  | [] => fun _ _ => True
  | by_ :: rest => thenBy (fieldOrder collation by_) (tradeOrder collation rest)

/-! ## The list -/

/-- `where` of the query. -/
structure TradeWhere where
  address : String
  status : Option TradeStatus
  deriving DecidableEq, Repr

def TradeWhere.selects (query : TradeWhere) (trade : ListedTrade) : Bool :=
  (trade.buyerAddress == query.address || trade.sellerAddress == query.address) &&
    query.status.all fun status => trade.status == status

structure FindTrades where
  query : TradeWhere
  /-- The trades of `NOT`. -/
  excluded : List String
  orderBy : TradeOrder
  skip : Nat
  take : Nat
  deriving DecidableEq, Repr

/-- The queries, of which that for the watchlist may not be there. -/
structure TradeDatabase where
  watchlist : Option (String → List (WatchEntry × ListedTrade))
  count : TradeWhere → Nat
  findMany : FindTrades → List ListedTrade

structure TradeListFilters where
  status : Option TradeStatus
  page : Option Int
  limit : Option Int
  sort : Option String
  deriving DecidableEq, Repr

structure TradePagination where
  page : Nat
  limit : Nat
  total : Nat
  totalPages : Nat
  deriving DecidableEq, Repr

structure TradePage where
  items : List ListedTrade
  pagination : TradePagination
  deriving DecidableEq, Repr

def listUserTrades (db : TradeDatabase) (address : String) (filters : TradeListFilters) :
    TradePage :=
  let page := (max 1 (filters.page.getD 1)).toNat
  let limit := (min 100 (max 1 (filters.limit.getD 20))).toNat
  let skip := (page - 1) * limit
  let orderBy := parseSort filters.sort
  let query : TradeWhere := ⟨address, filters.status⟩
  let total := db.count query
  let pagination : TradePagination := ⟨page, limit, total, pagesOf total limit⟩
  match db.watchlist with
  | some findEntries =>
    let entries := findEntries (Text.toLowerCase address)
    let watched := (entries.map Prod.snd).filter fun trade =>
      filters.status.all fun status => trade.status == status
    let watchedIds := watched.map ListedTrade.tradeId
    let watchedPage := slice watched skip limit
    let remainingSlots := limit - watchedPage.length
    -- `Math.max(0, …)` of the difference.
    let remainingSkip := skip - watched.length
    let unwatchlisted :=
      if 0 < remainingSlots then
        db.findMany ⟨query, watchedIds, orderBy, remainingSkip, remainingSlots⟩
      else []
    ⟨watchedPage ++ unwatchlisted, pagination⟩
  | none => ⟨db.findMany ⟨query, [], orderBy, skip, limit⟩, pagination⟩

/-! ## What the database answers -/

/-- The trades, with addresses in lower case. -/
structure TradeTable where
  rows : List ListedTrade
  ids : (rows.map ListedTrade.id).Nodup
  tradeIds : (rows.map ListedTrade.tradeId).Nodup
  lower : ∀ trade ∈ rows, Text.toLowerCase trade.buyerAddress = trade.buyerAddress ∧
    Text.toLowerCase trade.sellerAddress = trade.sellerAddress

/-- The newest entry first. -/
def newestEntry : WatchEntry → WatchEntry → Prop :=
  thenBy (fun a b => b.createdAt ≤ a.createdAt) fun a b => b.id ≤ a.id

/-- What is found of a user: his entries, each with its trade. -/
structure FindsEntries (table : TradeTable) (entries : List WatchEntry) (address : String)
    (found : List (WatchEntry × ListedTrade)) : Prop where
  perm : (found.map Prod.fst).Perm (entries.filter fun entry => entry.userAddress == address)
  sorted : (found.map Prod.fst).Pairwise newestEntry
  trades : ∀ p ∈ found, p.2 ∈ table.rows ∧ p.2.tradeId = p.1.tradeId

/-- The queries are answered from the two tables.  Among rows that the order does not tell apart,
the database may answer in any way. -/
structure Answers (collation : Collation) (table : TradeTable) (entries : List WatchEntry)
    (db : TradeDatabase) : Prop where
  watchlist : ∃ find, db.watchlist = some find ∧
    ∀ address, FindsEntries table entries address (find address)
  count : ∀ query, db.count query = table.rows.countP query.selects
  findMany : ∀ args, ∃ sorted, sorted.Perm (table.rows.filter fun trade =>
      args.query.selects trade && !args.excluded.contains trade.tradeId) ∧
    sorted.Pairwise (tradeOrder collation args.orderBy) ∧
    db.findMany args = slice sorted args.skip args.take

theorem ranks_field (collation : Collation) (field : TradeField) :
    Ranks fun a b => field.le collation a b := by
  have hnat : ∀ f : ListedTrade → Nat, Ranks fun a b => f a ≤ f b := fun f =>
    ⟨fun a b => Nat.le_total _ _, fun hab hbc => Nat.le_trans hab hbc⟩
  have htext : ∀ f : ListedTrade → String, Ranks fun a b => collation.le (f a) (f b) := fun f =>
    ⟨fun a b => collation.ranks.total _ _, fun hab hbc => collation.ranks.trans hab hbc⟩
  cases field
  · exact hnat ListedTrade.id
  · exact htext ListedTrade.tradeId
  · exact htext ListedTrade.buyerAddress
  · exact htext ListedTrade.sellerAddress
  · exact htext ListedTrade.amountUsdc
  · exact hnat fun trade => trade.status.rank
  · exact hnat ListedTrade.createdAt
  · exact hnat ListedTrade.updatedAt

theorem ranks_fieldOrder (collation : Collation) (field : TradeField) (direction : SortOrder) :
    Ranks (fieldOrder collation (field, direction)) := by
  cases direction
  · exact ranks_field collation field
  · exact (ranks_field collation field).flip

theorem endsIn_id (collation : Collation) (direction : SortOrder) :
    EndsIn ListedTrade.id (tradeOrder collation [(.id, direction)]) := by
  refine EndsIn.mk ?_ ?_ ?_
  · intro a b
    cases direction <;>
      simp only [tradeOrder, thenBy, fieldOrder, TradeField.le, implies_true, and_true] <;> omega
  · intro a b c hab hbc
    cases direction <;>
      simp only [tradeOrder, thenBy, fieldOrder, TradeField.le, implies_true, and_true] at * <;>
      omega
  · intro a b hab hba
    cases direction <;>
      simp only [tradeOrder, thenBy, fieldOrder, TradeField.le, implies_true, and_true] at * <;>
      omega

/-- Every order ends in the id. -/
theorem endsIn_parseSort (collation : Collation) (sort : Option String) :
    EndsIn ListedTrade.id (tradeOrder collation (parseSort sort)) := by
  have hfield : ∀ field direction last,
      EndsIn ListedTrade.id (tradeOrder collation [(field, direction), (.id, last)]) :=
    fun field direction last =>
      (endsIn_id collation last).thenBy (ranks_fieldOrder collation field direction)
  unfold parseSort
  split
  · exact hfield _ _ _
  · dsimp only
    split
    · exact hfield _ _ _
    · split
      · exact hfield _ _ _
      · exact endsIn_id collation _
      · exact hfield _ _ _

theorem endsIn_newestEntry : EndsIn WatchEntry.id newestEntry := by
  refine EndsIn.mk ?_ ?_ ?_
  · intro a b
    simp only [newestEntry, thenBy]
    omega
  · intro a b c hab hbc
    simp only [newestEntry, thenBy] at *
    omega
  · intro a b hab hba
    simp only [newestEntry, thenBy] at *
    omega

/-! ## The watched trades -/

section Pages

variable {collation : Collation} {table : TradeTable} {watchlist : Watchlist} {db db' : TradeDatabase}
  {address : String} {status : Option TradeStatus}

theorem TradeTable.eq_of_tradeId {t u : ListedTrade} (ht : t ∈ table.rows) (hu : u ∈ table.rows)
    (h : t.tradeId = u.tradeId) : t = u :=
  List.inj_on_of_nodup_map table.tradeIds ht hu h

theorem TradeTable.nodup (table : TradeTable) : table.rows.Nodup := table.ids.of_map _

/-- The watched trades, as they are listed before the others. -/
def watchedOf (find : String → List (WatchEntry × ListedTrade)) (address : String)
    (status : Option TradeStatus) : List ListedTrade :=
  ((find address).map Prod.snd).filter fun trade => status.all fun status => trade.status == status

/-- The caller watches a trade. -/
def Watches (watchlist : Watchlist) (address : String) (trade : ListedTrade) : Prop :=
  ∃ entry ∈ watchlist.entries, entry.Is address trade.tradeId

/-- Lists of pairs are equal if their first parts are, and these fix the second ones. -/
theorem eq_of_map_fst {α β : Type} {R : α × β → Prop}
    (fixes : ∀ a b b', R (a, b) → R (a, b') → b = b') : ∀ {l m : List (α × β)},
    l.map Prod.fst = m.map Prod.fst → (∀ p ∈ l, R p) → (∀ p ∈ m, R p) → l = m
  | [], [], _, _, _ => rfl
  | [], _ :: _, h, _, _ => by simp at h
  | _ :: _, [], h, _, _ => by simp at h
  | (a, b) :: l, (a', b') :: m, h, hl, hm => by
    rw [List.map_cons, List.map_cons, List.cons.injEq] at h
    obtain ⟨rfl, hrest⟩ := h
    rw [fixes a b b' (hl _ List.mem_cons_self) (hm _ List.mem_cons_self),
      eq_of_map_fst fixes hrest (fun p hp => hl p (List.mem_cons_of_mem _ hp))
        fun p hp => hm p (List.mem_cons_of_mem _ hp)]

variable {find find' : String → List (WatchEntry × ListedTrade)}

/-- The entries of a user can be answered in one way only. -/
theorem entries_unique (kept : WatchlistKept table.rows watchlist)
    {found other : List (WatchEntry × ListedTrade)}
    (h : FindsEntries table watchlist.entries address found)
    (h' : FindsEntries table watchlist.entries address other) : found = other := by
  have hids : ((found.map Prod.fst).map WatchEntry.id).Nodup :=
    (h.perm.map WatchEntry.id).nodup_iff.2 (kept.ids.sublist (List.filter_sublist.map _))
  have hfst := eq_of_ends endsIn_newestEntry (h.perm.trans h'.perm.symm) hids h.sorted h'.sorted
  apply eq_of_map_fst _ hfst h.trades h'.trades
  rintro a b b' ⟨hb, hid⟩ ⟨hb', hid'⟩
  exact TradeTable.eq_of_tradeId hb hb' (hid.trans hid'.symm)

/-- The trade of an entry is one of the user's own. -/
theorem selects_of_found (kept : WatchlistKept table.rows watchlist)
    {found : List (WatchEntry × ListedTrade)}
    (h : FindsEntries table watchlist.entries address found) {p : WatchEntry × ListedTrade}
    (mem : p ∈ found) :
    p.1 ∈ watchlist.entries ∧ p.1.Is address p.2.tradeId ∧
      (TradeWhere.mk address none).selects p.2 = true := by
  obtain ⟨hrow, htradeId⟩ := h.trades p mem
  have hentry := h.perm.mem_iff.1 (List.mem_map_of_mem mem)
  rw [List.mem_filter, beq_iff_eq] at hentry
  obtain ⟨trade, htrade, hsame, hparty⟩ := kept.access p.1 hentry.1
  obtain rfl := TradeTable.eq_of_tradeId htrade hrow (hsame.trans htradeId.symm)
  obtain ⟨hbuyer, hseller⟩ := table.lower p.2 hrow
  refine ⟨hentry.1, ⟨hentry.2, htradeId.symm⟩, ?_⟩
  rw [ListedTrade.HasParty, hbuyer, hseller, hentry.2] at hparty
  simpa [TradeWhere.selects] using hparty

variable (status) in
/-- The watched trades of a list are those of its trades that it names. -/
theorem watched_perm (kept : WatchlistKept table.rows watchlist)
    (h : FindsEntries table watchlist.entries address (find address)) :
    (watchedOf find address status).Perm (table.rows.filter fun trade =>
      (TradeWhere.mk address status).selects trade &&
        ((watchedOf find address status).map ListedTrade.tradeId).contains trade.tradeId) := by
  have hmem : ∀ trade ∈ watchedOf find address status,
      trade ∈ table.rows ∧ (TradeWhere.mk address status).selects trade = true := by
    intro trade htrade
    obtain ⟨hfound, hstatus⟩ := List.mem_filter.1 htrade
    obtain ⟨p, hp, rfl⟩ := List.mem_map.1 hfound
    have hselects := (selects_of_found kept h hp).2.2
    refine ⟨(h.trades p hp).1, ?_⟩
    rw [TradeWhere.selects, Bool.and_eq_true] at hselects ⊢
    exact ⟨hselects.1, hstatus⟩
  have hnodup : (watchedOf find address status).Nodup := by
    have hkeys : ((find address).map fun p => (address, p.2.tradeId)).Nodup := by
      have hunique := (h.perm.map fun entry => (entry.userAddress, entry.tradeId)).nodup_iff.2
        (kept.unique.sublist (List.filter_sublist.map _))
      rw [List.map_map] at hunique
      refine (List.map_congr_left fun p hp => ?_) ▸ hunique
      obtain ⟨huser, htradeId⟩ := (selects_of_found kept h hp).2.1
      exact Prod.ext huser htradeId
    have htrades : ((find address).map Prod.snd).Nodup := by
      apply List.Nodup.of_map fun trade : ListedTrade => (address, trade.tradeId)
      rwa [List.map_map]
    exact htrades.sublist List.filter_sublist
  apply (List.perm_ext_iff_of_nodup hnodup (table.nodup.sublist List.filter_sublist)).2
  intro trade
  rw [List.mem_filter, Bool.and_eq_true, List.contains_iff_mem, List.mem_map]
  constructor
  · intro htrade
    obtain ⟨hrow, hselects⟩ := hmem trade htrade
    exact ⟨hrow, hselects, trade, htrade, rfl⟩
  · rintro ⟨hrow, -, watched, hwatched, hid⟩
    rwa [← TradeTable.eq_of_tradeId (hmem watched hwatched).1 hrow hid]

/-- A trade of the list is among the watched ones just when the caller watches it. -/
theorem mem_watchedOf_iff (kept : WatchlistKept table.rows watchlist)
    (h : FindsEntries table watchlist.entries address (find address)) {trade : ListedTrade}
    (row : trade ∈ table.rows) (selected : (TradeWhere.mk address status).selects trade = true) :
    trade ∈ watchedOf find address status ↔ Watches watchlist address trade := by
  constructor
  · intro htrade
    obtain ⟨p, hp, rfl⟩ := List.mem_map.1 (List.mem_filter.1 htrade).1
    obtain ⟨hentry, his, -⟩ := selects_of_found kept h hp
    exact ⟨p.1, hentry, his⟩
  · rintro ⟨entry, hentry, huser, hid⟩
    have hin : entry ∈ watchlist.entries.filter fun entry => entry.userAddress == address :=
      List.mem_filter.2 ⟨hentry, by simpa using huser⟩
    obtain ⟨p, hp, rfl⟩ := List.mem_map.1 (h.perm.mem_iff.2 hin)
    obtain ⟨hrow, hpid⟩ := h.trades p hp
    obtain rfl := TradeTable.eq_of_tradeId hrow row (hpid.trans hid)
    rw [TradeWhere.selects, Bool.and_eq_true] at selected
    exact List.mem_filter.2 ⟨List.mem_map_of_mem hp, selected.2⟩

/-! ## The pages -/

/-- All the trades of a list: those the caller watches, and the others in order. -/
structure ListsAll (collation : Collation) (table : TradeTable) (watchlist : Watchlist)
    (address : String) (status : Option TradeStatus) (sort : Option String)
    (watched others : List ListedTrade) : Prop where
  watches : ∃ find : String → List (WatchEntry × ListedTrade),
    FindsEntries table watchlist.entries address (find address) ∧
      watchedOf find address status = watched
  sorted : others.Pairwise (tradeOrder collation (parseSort sort))
  perm : others.Perm (table.rows.filter fun trade =>
    (TradeWhere.mk address status).selects trade &&
      !(watched.map ListedTrade.tradeId).contains trade.tradeId)

variable {sort : Option String} {watched others watched' others' : List ListedTrade}

/-- The trades can be listed in one way only. -/
theorem ListsAll.unique (kept : WatchlistKept table.rows watchlist)
    (h : ListsAll collation table watchlist address status sort watched others)
    (h' : ListsAll collation table watchlist address status sort watched' others') :
    watched = watched' ∧ others = others' := by
  obtain ⟨find, hfinds, rfl⟩ := h.watches
  obtain ⟨find', hfinds', rfl⟩ := h'.watches
  have hwatched : watchedOf find address status = watchedOf find' address status := by
    rw [watchedOf, watchedOf, entries_unique kept hfinds hfinds']
  refine ⟨hwatched, ?_⟩
  have hperm := h'.perm
  rw [← hwatched] at hperm
  have hids : (others.map ListedTrade.id).Nodup :=
    (h.perm.map ListedTrade.id).nodup_iff.2 (table.ids.sublist (List.filter_sublist.map _))
  exact eq_of_ends (endsIn_parseSort collation sort) (h.perm.trans hperm.symm) hids h.sorted
    h'.sorted

/-- The list has every trade of the caller once. -/
theorem ListsAll.perm_all (kept : WatchlistKept table.rows watchlist)
    (h : ListsAll collation table watchlist address status sort watched others) :
    (watched ++ others).Perm (table.rows.filter (TradeWhere.mk address status).selects) := by
  obtain ⟨find, hfinds, rfl⟩ := h.watches
  have hwatched := watched_perm status kept hfinds
  have hsplit := List.filter_append_perm
    (fun trade => ((watchedOf find address status).map ListedTrade.tradeId).contains trade.tradeId)
    (table.rows.filter (TradeWhere.mk address status).selects)
  rw [List.filter_filter, List.filter_filter] at hsplit
  refine (hwatched.append h.perm).trans (List.Perm.trans ?_ hsplit)
  simp only [Bool.and_comm]
  exact List.Perm.refl _

/-- The first part of the list are the trades the caller watches. -/
theorem ListsAll.mem_watched_iff (kept : WatchlistKept table.rows watchlist)
    (h : ListsAll collation table watchlist address status sort watched others)
    {trade : ListedTrade} (mem : trade ∈ watched ++ others) :
    trade ∈ watched ↔ Watches watchlist address trade := by
  obtain ⟨hrow, hselected⟩ := List.mem_filter.1 ((h.perm_all kept).mem_iff.1 mem)
  obtain ⟨find, hfinds, rfl⟩ := h.watches
  exact mem_watchedOf_iff kept hfinds hrow hselected

theorem ListsAll.not_mem_watched
    (h : ListsAll collation table watchlist address status sort watched others)
    {trade : ListedTrade} (mem : trade ∈ others) : trade ∉ watched := by
  intro hwatched
  have hexcluded := (List.mem_filter.1 (h.perm.mem_iff.1 mem)).2
  rw [Bool.and_eq_true, Bool.not_eq_true'] at hexcluded
  have hin : (watched.map ListedTrade.tradeId).contains trade.tradeId = true :=
    List.contains_iff_mem.2 (List.mem_map_of_mem hwatched)
  rw [hin] at hexcluded
  cases hexcluded.2

/-- A page is a slice of the list. -/
theorem items_eq_slice (answers : Answers collation table watchlist.entries db)
    (lower : Text.toLowerCase address = address) (filters : TradeListFilters) :
    ∃ watched others,
      ListsAll collation table watchlist address filters.status filters.sort watched others ∧
      (listUserTrades db address filters).items = slice (watched ++ others)
        (((listUserTrades db address filters).pagination.page - 1) *
          (listUserTrades db address filters).pagination.limit)
        (listUserTrades db address filters).pagination.limit := by
  obtain ⟨find, hfind, hfinds⟩ := answers.watchlist
  have hpage : ∀ page limit : Nat, ∃ others : List ListedTrade,
      ListsAll collation table watchlist address filters.status filters.sort
        (watchedOf find address filters.status) others ∧
      slice (watchedOf find address filters.status) ((page - 1) * limit) limit ++
          (if 0 < limit - (slice (watchedOf find address filters.status) ((page - 1) * limit)
              limit).length then
            db.findMany ⟨⟨address, filters.status⟩,
              (watchedOf find address filters.status).map ListedTrade.tradeId,
              parseSort filters.sort,
              (page - 1) * limit - (watchedOf find address filters.status).length,
              limit - (slice (watchedOf find address filters.status) ((page - 1) * limit)
                limit).length⟩
          else []) =
        slice (watchedOf find address filters.status ++ others) ((page - 1) * limit) limit := by
    intro page limit
    obtain ⟨others, hperm, hsorted, hresult⟩ := answers.findMany ⟨⟨address, filters.status⟩,
      (watchedOf find address filters.status).map ListedTrade.tradeId, parseSort filters.sort,
      (page - 1) * limit - (watchedOf find address filters.status).length,
      limit - (slice (watchedOf find address filters.status) ((page - 1) * limit) limit).length⟩
    refine ⟨others, ⟨⟨find, hfinds address, rfl⟩, hsorted, hperm⟩, ?_⟩
    rw [slice_append]
    split
    · rw [hresult]
    · next hfull =>
      have hnone : limit - (slice (watchedOf find address filters.status) ((page - 1) * limit)
          limit).length = 0 := by omega
      have hempty : ∀ skip, slice others skip 0 = [] := fun skip => List.take_zero
      rw [hnone, hempty]
  obtain ⟨others, hlists, heq⟩ := hpage (max 1 (filters.page.getD 1)).toNat
    (min 100 (max 1 (filters.limit.getD 20))).toNat
  refine ⟨_, others, hlists, ?_⟩
  simp only [listUserTrades, hfind, lower]
  exact heq

/-- The page with this number; each page is answered on its own. -/
def pageAt (db : Nat → TradeDatabase) (address : String) (status : Option TradeStatus) (limit : Int)
    (sort : Option String) (n : Nat) : TradePage :=
  listUserTrades (db n) address ⟨status, some n, some limit, sort⟩

/-- What the first `n` pages show. -/
def shownOn (pages : Nat → TradePage) (n : Nat) : List ListedTrade :=
  (List.range n).flatMap fun i => (pages (i + 1)).items

variable (sort) in
theorem pagination_pageAt {dbs : Nat → TradeDatabase} {limit : Int} {n : Nat} (positive : 0 < n)
    (answers : Answers collation table watchlist.entries (dbs n)) :
    (pageAt dbs address status limit sort n).pagination =
      ⟨n, (min 100 (max 1 limit)).toNat,
        table.rows.countP (TradeWhere.mk address status).selects,
        pagesOf (table.rows.countP (TradeWhere.mk address status).selects)
          (min 100 (max 1 limit)).toNat⟩ := by
  obtain ⟨find, hfind, -⟩ := answers.watchlist
  have hpage : (max 1 (n : Int)).toNat = n := by omega
  simp only [pageAt, listUserTrades, hfind, answers.count, Option.getD_some, hpage]

/-- On an unchanged database the pages show every trade of the caller once and no other, the watched
ones first; every page but the last is full, and the total is the number of trades that are shown. -/
theorem pages_complete (table : TradeTable) (calls : List WatchCall) (collation : Collation)
    (address : String) (lower : Text.toLowerCase address = address) (status : Option TradeStatus)
    (sort : Option String) (limit : Int) (db : Nat → TradeDatabase)
    (answers : ∀ n, Answers collation table (run (Watchlist.step table.rows) .empty calls).entries
      (db n)) :
    let pages := pageAt db address status limit sort
    let totalPages := (pages 1).pagination.totalPages
    (shownOn pages totalPages).Perm (table.rows.filter (TradeWhere.mk address status).selects) ∧
    (∃ watched others, shownOn pages totalPages = watched ++ others ∧
      (∀ trade ∈ watched,
        Watches (run (Watchlist.step table.rows) .empty calls) address trade) ∧
      ∀ trade ∈ others,
        ¬ Watches (run (Watchlist.step table.rows) .empty calls) address trade) ∧
    (∀ n, 1 ≤ n → n < totalPages → (pages n).items.length = (pages n).pagination.limit) ∧
    ∀ n, 1 ≤ n →
      (pages n).pagination.total = (shownOn pages totalPages).length ∧
        (pages n).pagination.totalPages = totalPages := by
  intro pages totalPages
  have hkept := watchlistKept_run table.rows calls
  obtain ⟨watched, others, hlists, -⟩ := items_eq_slice (answers 0) lower ⟨status, none, none, sort⟩
  have hall := hlists.perm_all hkept
  have hlength : (watched ++ others).length =
      table.rows.countP (TradeWhere.mk address status).selects := by
    rw [hall.length_eq, List.countP_eq_length_filter]
  have hpagination : ∀ n, 1 ≤ n → (pages n).pagination = _ := fun n hn =>
    pagination_pageAt sort hn (answers n)
  generalize hsize : (min 100 (max 1 limit)).toNat = size at hpagination
  have hpositive : 0 < size := by omega
  have htotalPages : totalPages = pagesOf (watched ++ others).length size := by
    rw [hlength]
    exact congrArg TradePagination.totalPages (hpagination 1 (Nat.le_refl 1))
  have hitems : ∀ n, 1 ≤ n → (pages n).items = slice (watched ++ others) ((n - 1) * size) size := by
    intro n hn
    obtain ⟨watched', others', hlists', hslice⟩ :=
      items_eq_slice (answers n) lower ⟨status, some n, some limit, sort⟩
    obtain ⟨rfl, rfl⟩ := hlists.unique hkept hlists'
    have hpage : (listUserTrades (db n) address ⟨status, some n, some limit, sort⟩).pagination = _ :=
      hpagination n hn
    rw [hpage] at hslice
    exact hslice
  have hshown : shownOn pages totalPages = watched ++ others := by
    have hpages : shownOn pages totalPages =
        (List.range totalPages).flatMap fun i => slice (watched ++ others) (i * size) size := by
      apply List.flatMap_congr
      intro i _
      exact hitems (i + 1) (Nat.le_add_left 1 i)
    rw [hpages, flatMap_slice]
    apply List.take_of_length_le
    rw [htotalPages]
    exact le_pagesOf_mul hpositive
  refine ⟨?_, ?_, ?_, ?_⟩
  · rw [hshown]
    exact hall
  · refine ⟨watched, others, hshown, ?_, ?_⟩
    · intro trade htrade
      exact (hlists.mem_watched_iff hkept (List.mem_append_left _ htrade)).1 htrade
    · intro trade htrade hwatches
      exact hlists.not_mem_watched htrade
        ((hlists.mem_watched_iff hkept (List.mem_append_right _ htrade)).2 hwatches)
  · intro n hn hlt
    rw [hitems n hn, hpagination n hn]
    apply length_slice_of_le
    rw [htotalPages] at hlt
    have hle := mul_le_of_lt_pagesOf (n := n - 1) hpositive (by rwa [Nat.sub_add_cancel hn])
    rwa [Nat.succ_mul] at hle
  · intro n hn
    rw [hshown, hlength, hpagination n hn, htotalPages, hlength]
    exact ⟨rfl, rfl⟩

end Pages

/-! ## A sample -/

theorem ranks_tradeOrder (collation : Collation) :
    ∀ orderBy : TradeOrder, Ranks (tradeOrder collation orderBy)
  | [] => ⟨fun _ _ => .inl trivial, fun _ _ => trivial⟩
  | (field, direction) :: rest =>
    (ranks_fieldOrder collation field direction).thenBy (ranks_tradeOrder collation rest)

namespace Sample

/-- A collation that tells no texts apart. -/
def noCollation : Collation where
  le _ _ := True
  ranks := ⟨fun _ _ => .inl trivial, fun _ _ => trivial⟩

instance (field : TradeField) (a b : ListedTrade) : Decidable (field.le noCollation a b) :=
  match field with
  | .id => inferInstanceAs (Decidable (a.id ≤ b.id))
  | .status => inferInstanceAs (Decidable (a.status.rank ≤ b.status.rank))
  | .createdAt => inferInstanceAs (Decidable (a.createdAt ≤ b.createdAt))
  | .updatedAt => inferInstanceAs (Decidable (a.updatedAt ≤ b.updatedAt))
  | .tradeId | .buyerAddress | .sellerAddress | .amountUsdc => inferInstanceAs (Decidable True)

instance (by_ : TradeField × SortOrder) (a b : ListedTrade) :
    Decidable (fieldOrder noCollation by_ a b) :=
  match by_ with
  | (field, .asc) => inferInstanceAs (Decidable (field.le noCollation a b))
  | (field, .desc) => inferInstanceAs (Decidable (field.le noCollation b a))

instance decidableTradeOrder :
    ∀ orderBy : TradeOrder, DecidableRel (tradeOrder noCollation orderBy)
  | [], _, _ => inferInstanceAs (Decidable True)
  | by_ :: rest, a, b =>
    have := decidableTradeOrder rest
    inferInstanceAs (Decidable (fieldOrder noCollation by_ a b ∧
      (fieldOrder noCollation by_ b a → tradeOrder noCollation rest a b)))

def boughtTrade (id : Nat) (tradeId : String) (createdAt : Nat) : ListedTrade :=
  ⟨id, tradeId, "gb", "gs", "5", .funded, createdAt, createdAt⟩

def boughtTrades : TradeTable where
  rows := [boughtTrade 1 "t1" 10, boughtTrade 2 "t2" 20, boughtTrade 3 "t3" 30]
  ids := by decide
  tradeIds := by decide
  lower := by decide

/-- The buyer watches the oldest trade, and the seller the newest one. -/
def watchCalls : List WatchCall := [.add "t1" "GB" 35, .add "t3" "GS" 36]

def watchedBy (address : String) : List (WatchEntry × ListedTrade) :=
  if address = "gb" then [(⟨1, "gb", "t1", 35⟩, boughtTrade 1 "t1" 10)]
  else if address = "gs" then [(⟨2, "gs", "t3", 36⟩, boughtTrade 3 "t3" 30)]
  else []

def selectedTrades (args : FindTrades) : List ListedTrade :=
  boughtTrades.rows.filter fun trade =>
    args.query.selects trade && !args.excluded.contains trade.tradeId

def sortedTrades (args : FindTrades) : List ListedTrade :=
  (selectedTrades args).insertionSort (tradeOrder noCollation args.orderBy)

def tradeDatabase : TradeDatabase where
  watchlist := some watchedBy
  count query := boughtTrades.rows.countP query.selects
  findMany args := slice (sortedTrades args) args.skip args.take

theorem pairwise_sortedTrades (args : FindTrades) :
    (sortedTrades args).Pairwise (tradeOrder noCollation args.orderBy) := by
  have hranks := ranks_tradeOrder noCollation args.orderBy
  have : Std.Total (tradeOrder noCollation args.orderBy) := ⟨hranks.total⟩
  have : IsTrans ListedTrade (tradeOrder noCollation args.orderBy) := ⟨fun _ _ _ => hranks.trans⟩
  exact List.pairwise_insertionSort _ _

theorem watchedBy_finds (address : String) :
    FindsEntries boughtTrades [⟨1, "gb", "t1", 35⟩, ⟨2, "gs", "t3", 36⟩] address
      (watchedBy address) := by
  unfold watchedBy
  split
  · next h =>
    subst h
    exact ⟨by decide, List.pairwise_singleton _ _, by decide⟩
  · next hbuyer =>
    split
    · next h =>
      subst h
      exact ⟨by decide, List.pairwise_singleton _ _, by decide⟩
    · next hseller => constructor <;> simp [Ne.symm hbuyer, Ne.symm hseller]

theorem tradeDatabase_answers :
    Answers noCollation boughtTrades (run (Watchlist.step boughtTrades.rows) .empty watchCalls).entries
      tradeDatabase := by
  have hentries : (run (Watchlist.step boughtTrades.rows) .empty watchCalls).entries =
      [⟨1, "gb", "t1", 35⟩, ⟨2, "gs", "t3", 36⟩] := by decide
  rw [hentries]
  exact ⟨⟨_, rfl, watchedBy_finds⟩, fun query => rfl, fun args =>
    ⟨sortedTrades args, List.perm_insertionSort _ _, pairwise_sortedTrades args, rfl⟩⟩

end Sample

/-- The buyer's three trades on two pages: the one that he watches first, though it is the oldest. -/
theorem pages_complete_watched :
    let pages := pageAt (fun _ => Sample.tradeDatabase) "gb" none 2 none
    (pages 1).items.map ListedTrade.tradeId = ["t1", "t3"] ∧
    (pages 2).items.map ListedTrade.tradeId = ["t2"] ∧
    (shownOn pages (pages 1).pagination.totalPages).Perm
      (Sample.boughtTrades.rows.filter (TradeWhere.mk "gb" none).selects) :=
  ⟨by decide, by decide, (pages_complete Sample.boughtTrades Sample.watchCalls Sample.noCollation "gb"
    (by decide) none none 2 (fun _ => Sample.tradeDatabase) fun _ => Sample.tradeDatabase_answers).1⟩

end Amana.Backend
