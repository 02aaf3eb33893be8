import Amana.Lib.Capped
import Amana.Lib.Machine
import Amana.Lib.OrderedMap
import Amana.Lib.Text

/-!
# The offline cache

`offlineCache.ts` keeps what a page has fetched in the storage of the browser, and evicts the oldest
entries when a new one would take it over its quota.  It tries that a hundred times, then writes
whatever the usage is, and it counts the entry it is about to overwrite: the quota is kept, and no
entry is evicted without need, as long as neither matters (`quota_kept_iff`).
-/

namespace Amana.Frontend

open Lib
open Lib.Machine (run trail)
open Lib.Text (utf16Length)

/-! ## The storage -/

inductive CacheDomain where
  | tradesList
  | tradeDetail
  | notifications
  deriving DecidableEq, Repr

def CacheDomain.name : CacheDomain → String
  | .tradesList => "trades_list"
  | .tradeDetail => "trade_detail"
  | .notifications => "notifications"

/-- In milliseconds. -/
def ttlMs : CacheDomain → Int
  | .tradesList => 5 * 60 * 1000
  | .tradeDetail => 10 * 60 * 1000
  | .notifications => 2 * 60 * 1000

def quotaBytes : Nat := 2 * 1024 * 1024

def storagePrefix : String := "amana_cache_v1"

/-- The data are given by their JSON text; `undefined` has none. -/
structure CacheEntry where
  data : Option String
  cachedAt : Int
  isStale : Bool
  deriving DecidableEq, Repr

/-- `JSON.stringify(entry)`. -/
def CacheEntry.serialised (entry : CacheEntry) : String :=
  "\x7b" ++ (entry.data.elim "" fun text => "\"data\":" ++ text ++ ",") ++
    "\"cachedAt\":" ++ toString entry.cachedAt ++
    ",\"isStale\":" ++ toString entry.isStale ++ "\x7d"

/-- A text in the storage: that of an entry, which `JSON.parse` reads back, or one that it throws
at. -/
inductive StoredText where
  | entry (entry : CacheEntry)
  | corrupt (text : String)
  deriving DecidableEq, Repr

def StoredText.text : StoredText → String
  | .entry e => e.serialised
  | .corrupt text => text

abbrev LocalStorage := OrderedMap String StoredText

/-- In which order `localStorage.key` has the keys is up to the browser. -/
structure KeyOrder where
  arrange : List (String × StoredText) → List (String × StoredText)
  perm : ∀ items, (arrange items).Perm items

def storageKey (domain : CacheDomain) (key : String) : String :=
  storagePrefix ++ ":" ++ domain.name ++ ":" ++ key

/-- `k.startsWith(STORAGE_PREFIX)`. -/
def inNamespace (k : String) : Bool := storagePrefix.toList.isPrefixOf k.toList

def itemBytes (item : String × StoredText) : Nat :=
  if inNamespace item.1 then utf16Length item.2.text * 2 else 0

def getCacheUsageBytes (s : LocalStorage) : Nat := s.total itemBytes

/-- The loop of `evictLRU`; `best` is the oldest key so far with its time. -/
def oldestKey : List (String × StoredText) → Option (String × Int) → Option String
  | [], best => best.map Prod.fst
  | (k, stored) :: rest, best =>
    if inNamespace k = false ∨ stored.text = "" then oldestKey rest best
    else match stored with
      | .corrupt _ => some k
      | .entry entry =>
        if best.all fun b => entry.cachedAt < b.2 then oldestKey rest (some (k, entry.cachedAt))
        else oldestKey rest best

def evictLRU (order : KeyOrder) (s : LocalStorage) : LocalStorage :=
  match oldestKey (order.arrange s.items) none with
  | some k => s.erase k
  | none => s

/-- The condition of the loop in `cacheWrite` to end before its attempts do. -/
def hasRoom (entryBytes : Nat) (s : LocalStorage) : Bool :=
  getCacheUsageBytes s + entryBytes ≤ quotaBytes

def makeRoom (order : KeyOrder) (entryBytes : Nat) (s : LocalStorage) : LocalStorage :=
  Capped.loop (evictLRU order) (hasRoom entryBytes) 100 s

def newEntry (data : Option String) (now : Int) : CacheEntry := ⟨data, now, false⟩

def entryBytes (data : Option String) (now : Int) : Nat :=
  utf16Length (newEntry data now).serialised * 2

/-- `accepted` says that `localStorage.setItem` does not throw. -/
def cacheWrite (order : KeyOrder) (domain : CacheDomain) (key : String) (data : Option String)
    (now : Int) (accepted : Bool) (s : LocalStorage) : LocalStorage :=
  let room := makeRoom order (entryBytes data now) s
  if accepted then room.set (storageKey domain key) (.entry (newEntry data now)) else room

structure CacheReadResult where
  entry : Option CacheEntry
  isStale : Bool
  isMiss : Bool
  deriving DecidableEq, Repr

def cacheRead (domain : CacheDomain) (key : String) (now : Int) (s : LocalStorage) :
    CacheReadResult × LocalStorage :=
  let miss : CacheReadResult := ⟨none, false, true⟩
  match s.get (storageKey domain key) with
  | none => (miss, s)
  | some stored =>
    if stored.text = "" then (miss, s)
    else match stored with
      | .corrupt _ => (miss, s.erase (storageKey domain key))
      | .entry entry =>
        -- `undefined` is not written, and an entry without data is malformed
        if entry.data.isNone then (miss, s.erase (storageKey domain key))
        else
          let isStale := decide (ttlMs domain < now - entry.cachedAt)
          (⟨some { entry with isStale := isStale }, isStale, false⟩, s)

def cacheInvalidate (domain : CacheDomain) (key : String) (s : LocalStorage) : LocalStorage :=
  s.erase (storageKey domain key)

def cacheClearDomain (domain : CacheDomain) (s : LocalStorage) : LocalStorage :=
  s.restrict fun k => !((storageKey domain "").toList.isPrefixOf k.toList)

def cacheClearAll (s : LocalStorage) : LocalStorage := s.restrict fun k => !inNamespace k

inductive CacheCall where
  | write (domain : CacheDomain) (key : String) (data : Option String) (now : Int) (accepted : Bool)
  | read (domain : CacheDomain) (key : String) (now : Int)
  | invalidate (domain : CacheDomain) (key : String)
  | clearDomain (domain : CacheDomain)
  | clearAll

def cacheStep (order : KeyOrder) (s : LocalStorage) : CacheCall → LocalStorage
  | .write domain key data now accepted => cacheWrite order domain key data now accepted s
  | .read domain key now => (cacheRead domain key now s).2
  | .invalidate domain key => cacheInvalidate domain key s
  | .clearDomain domain => cacheClearDomain domain s
  | .clearAll => cacheClearAll s

/-! ## Evictions -/

/-- What the cache has in its namespace are entries. -/
def OnlyEntries (items : List (String × StoredText)) : Prop :=
  ∀ item ∈ items, inNamespace item.1 = true → ∃ entry, item.2 = .entry entry

/-- No entry is older. -/
def NotAfter (items : List (String × StoredText)) (time : Int) : Prop :=
  ∀ k entry, (k, .entry entry) ∈ items → inNamespace k = true → time ≤ entry.cachedAt

/-- The entry of the key is not newer than any other. -/
structure Oldest (items : List (String × StoredText)) (k : String) (entry : CacheEntry) : Prop where
  mem : (k, .entry entry) ∈ items
  cached : inNamespace k = true
  least : NotAfter items entry.cachedAt

theorem serialised_ne_empty (entry : CacheEntry) : entry.serialised ≠ "" := by
  intro h
  have hlist := congrArg String.toList h
  simp [CacheEntry.serialised] at hlist

theorem oldestKey_cons {k : String} {entry : CacheEntry} (cached : inNamespace k = true)
    (rest : List (String × StoredText)) (best : Option (String × Int)) :
    oldestKey ((k, .entry entry) :: rest) best =
      if best.all fun b => entry.cachedAt < b.2 then oldestKey rest (some (k, entry.cachedAt))
      else oldestKey rest best := by
  rw [oldestKey, if_neg]
  simp [cached, StoredText.text, serialised_ne_empty]

theorem oldestKey_skip {item : String × StoredText} (h : inNamespace item.1 = false)
    (rest : List (String × StoredText)) (best : Option (String × Int)) :
    oldestKey (item :: rest) best = oldestKey rest best := by
  obtain ⟨k, entry | text⟩ := item <;> rw [oldestKey, if_pos (.inl h)]

section Oldest

variable {rest : List (String × StoredText)} {k : String} {stored : StoredText} {entry : CacheEntry}
  {time : Int}

theorem notAfter_skip (h : inNamespace k = false) :
    NotAfter ((k, stored) :: rest) time ↔ NotAfter rest time := by
  refine ⟨fun hall k' e hmem => hall k' e (List.mem_cons_of_mem _ hmem), ?_⟩
  intro hrest k' e hmem hk
  obtain heq | hmem := List.mem_cons.1 hmem
  · rw [(Prod.mk.inj heq).1, h] at hk
    cases hk
  · exact hrest k' e hmem hk

theorem notAfter_cons (cached : inNamespace k = true) :
    NotAfter ((k, .entry entry) :: rest) time ↔ time ≤ entry.cachedAt ∧ NotAfter rest time := by
  constructor
  · intro hall
    exact ⟨hall k entry (List.mem_cons_self ..) cached,
      fun k' e hmem => hall k' e (List.mem_cons_of_mem _ hmem)⟩
  · rintro ⟨hhead, hrest⟩ k' e hmem hk
    obtain heq | hmem := List.mem_cons.1 hmem
    · rwa [StoredText.entry.inj (Prod.mk.inj heq).2]
    · exact hrest k' e hmem hk

theorem Oldest.cons {item : String × StoredText} (h : Oldest rest k entry)
    (least : NotAfter (item :: rest) entry.cachedAt) : Oldest (item :: rest) k entry :=
  ⟨List.mem_cons_of_mem _ h.mem, h.cached, least⟩

end Oldest

/-- The loop ends with the oldest key so far, or with one that is older still. -/
theorem oldestKey_cases {items : List (String × StoredText)} (entries : OnlyEntries items)
    {best : Option (String × Int)} {k : String} (h : oldestKey items best = some k) :
    (∃ time, best = some (k, time) ∧ NotAfter items time) ∨
      ∃ entry, Oldest items k entry ∧ ∀ b ∈ best, entry.cachedAt < b.2 := by
  induction items generalizing best with
  | nil =>
    rw [oldestKey, Option.map_eq_some_iff] at h
    obtain ⟨⟨k', time⟩, hbest, rfl⟩ := h
    exact .inl ⟨time, hbest, by simp [NotAfter]⟩
  | cons item rest ih =>
    obtain ⟨hitem, hrest⟩ := List.forall_mem_cons.1 entries
    obtain ⟨k0, stored⟩ := item
    cases hcached : inNamespace k0 with
    | false =>
      rw [oldestKey_skip hcached] at h
      obtain ⟨time, hbest, hleast⟩ | ⟨entry, holdest, hbest⟩ := ih hrest h
      · exact .inl ⟨time, hbest, (notAfter_skip hcached).2 hleast⟩
      · exact .inr ⟨entry, holdest.cons ((notAfter_skip hcached).2 holdest.least), hbest⟩
    | true =>
      obtain ⟨entry, rfl⟩ := hitem hcached
      rw [oldestKey_cons hcached] at h
      split at h
      · next holder =>
        have hall : ∀ b ∈ best, entry.cachedAt < b.2 := by
          intro b hb
          rw [hb] at holder
          simpa using holder
        obtain ⟨time, hbest, hleast⟩ | ⟨e, holdest, hbest⟩ := ih hrest h
        · obtain ⟨rfl, rfl⟩ := Prod.mk.inj (Option.some.inj hbest)
          exact .inr ⟨entry, ⟨List.mem_cons_self .., hcached,
            (notAfter_cons hcached).2 ⟨le_rfl, hleast⟩⟩, hall⟩
        · have hlt : e.cachedAt < entry.cachedAt := hbest _ rfl
          exact .inr ⟨e, holdest.cons ((notAfter_cons hcached).2 ⟨hlt.le, holdest.least⟩),
            fun b hb => hlt.trans (hall b hb)⟩
      · next holder =>
        obtain ⟨b, rfl, hb⟩ : ∃ b, best = some b ∧ b.2 ≤ entry.cachedAt := by
          cases best with
          | none => simp at holder
          | some b => exact ⟨b, rfl, by simpa using holder⟩
        obtain ⟨time, hbest, hleast⟩ | ⟨e, holdest, hbest⟩ := ih hrest h
        · obtain rfl := Option.some.inj hbest
          exact .inl ⟨time, rfl, (notAfter_cons hcached).2 ⟨hb, hleast⟩⟩
        · have hlt : e.cachedAt < b.2 := hbest b rfl
          exact .inr ⟨e, holdest.cons ((notAfter_cons hcached).2 ⟨hlt.le.trans hb, holdest.least⟩),
            hbest⟩

theorem oldestKey_isSome {items : List (String × StoredText)} (entries : OnlyEntries items)
    {best : Option (String × Int)}
    (h : best.isSome = true ∨ ∃ item ∈ items, inNamespace item.1 = true) :
    (oldestKey items best).isSome = true := by
  induction items generalizing best with
  | nil => simpa [oldestKey] using h
  | cons item rest ih =>
    obtain ⟨hitem, hrest⟩ := List.forall_mem_cons.1 entries
    obtain ⟨k0, stored⟩ := item
    cases hcached : inNamespace k0 with
    | false =>
      rw [oldestKey_skip hcached]
      refine ih hrest (h.imp_right fun ⟨item, hmem, hk⟩ => ⟨item, ?_, hk⟩)
      obtain rfl | hmem := List.mem_cons.1 hmem
      · rw [hcached] at hk
        cases hk
      · exact hmem
    | true =>
      obtain ⟨entry, rfl⟩ := hitem hcached
      rw [oldestKey_cons hcached]
      split
      · exact ih hrest (.inl rfl)
      · next holder =>
        refine ih hrest (.inl ?_)
        cases best with
        | none => simp at holder
        | some b => rfl

section Evict

variable (order : KeyOrder) {s : LocalStorage}

theorem evictLRU_cases (s : LocalStorage) :
    evictLRU order s = s ∨ ∃ k, evictLRU order s = s.erase k := by
  unfold evictLRU
  split
  · exact .inr ⟨_, rfl⟩
  · exact .inl rfl

/-- An eviction takes the oldest entry, if there is one. -/
theorem evictLRU_oldest (entries : OnlyEntries s.items) (used : 0 < getCacheUsageBytes s) :
    ∃ k entry, evictLRU order s = s.erase k ∧ Oldest s.items k entry := by
  have hmem : ∀ item, item ∈ order.arrange s.items ↔ item ∈ s.items := fun item =>
    (order.perm s.items).mem_iff
  have harranged : OnlyEntries (order.arrange s.items) := fun item h =>
    entries item ((hmem item).1 h)
  have hsome : ∃ item ∈ order.arrange s.items, inNamespace item.1 = true := by
    by_contra hnone
    have hzero : getCacheUsageBytes s = 0 := OrderedMap.total_eq_zero fun item h => by
      rw [itemBytes, if_neg]
      exact fun hk => hnone ⟨item, (hmem item).2 h, hk⟩
    omega
  have hfound : (oldestKey (order.arrange s.items) none).isSome = true :=
    oldestKey_isSome harranged (.inr hsome)
  obtain ⟨k, hk⟩ := Option.isSome_iff_exists.1 hfound
  obtain ⟨time, hbest, -⟩ | ⟨entry, holdest, -⟩ := oldestKey_cases harranged hk
  · cases hbest
  · refine ⟨k, entry, by rw [evictLRU, hk], (hmem _).1 holdest.mem, holdest.cached, ?_⟩
    exact fun k' e h => holdest.least k' e ((hmem _).2 h)

theorem usage_evictLRU_le (s : LocalStorage) :
    getCacheUsageBytes (evictLRU order s) ≤ getCacheUsageBytes s := by
  obtain h | ⟨k, h⟩ := evictLRU_cases order s
  · rw [h]
  · rw [h]
    exact OrderedMap.total_restrict_le ..

theorem usage_erase_evictLRU_le (s : LocalStorage) (key : String) :
    getCacheUsageBytes ((evictLRU order s).erase key) ≤ getCacheUsageBytes (s.erase key) := by
  obtain h | ⟨k, h⟩ := evictLRU_cases order s
  · rw [h]
  · rw [h, OrderedMap.erase_comm]
    exact OrderedMap.total_restrict_le ..

theorem OnlyEntries.restrict (h : OnlyEntries s.items) (p : String → Bool) :
    OnlyEntries (s.restrict p).items := fun item hitem =>
  h item (OrderedMap.mem_restrict.1 hitem).1

theorem OnlyEntries.evictLRU (h : OnlyEntries s.items) :
    OnlyEntries (evictLRU order s).items := by
  obtain heq | ⟨k, heq⟩ := evictLRU_cases order s
  · rwa [heq]
  · rw [heq]
    exact h.restrict _

end Evict

/-! ## One write -/

section Write

variable (order : KeyOrder) (s : LocalStorage) (key : String) (bytes : Nat)

/-- The storage as it is before each eviction. -/
def evictions : List LocalStorage := Capped.rounds (evictLRU order) (hasRoom bytes) 100 s

/-- What is left when the oldest entries are evicted, so many. -/
def withoutOldest (n : Nat) : LocalStorage := (evictLRU order)^[n] s

/-- There is room for an entry that overwrites that of the key. -/
def Fits (t : LocalStorage) : Prop := getCacheUsageBytes (t.erase key) + bytes ≤ quotaBytes

/-- Each eviction takes the oldest entry that is still there, and is made while the entry that is
written does not fit yet. -/
structure EvictsAsNeeded : Prop where
  oldest : ∀ t ∈ evictions order s bytes, ∃ k entry, evictLRU order t = t.erase k ∧
    Oldest t.items k entry
  needed : ∀ t ∈ evictions order s bytes, ¬ Fits key bytes t

/-- Wherever the entry would fit if the one it overwrites were gone, it fits as it is. -/
def CountsNothingTwice : Prop :=
  ∀ n < 100, Fits key bytes (withoutOldest order s n) →
    hasRoom bytes (withoutOldest order s n) = true

variable {order s key bytes}

theorem fits_evictLRU {t : LocalStorage} (h : Fits key bytes t) :
    Fits key bytes (evictLRU order t) :=
  (Nat.add_le_add_right (usage_erase_evictLRU_le order t key) bytes).trans h

theorem hasRoom_evictLRU {t : LocalStorage} (h : hasRoom bytes t = true) :
    hasRoom bytes (evictLRU order t) = true := by
  rw [hasRoom, decide_eq_true_eq] at h ⊢
  exact (Nat.add_le_add_right (usage_evictLRU_le order t) bytes).trans h

theorem fits_of_hasRoom {t : LocalStorage} (h : hasRoom bytes t = true) : Fits key bytes t := by
  rw [hasRoom, decide_eq_true_eq] at h
  exact (Nat.add_le_add_right (OrderedMap.total_restrict_le ..) bytes).trans h

theorem fits_makeRoom_iff :
    Fits key bytes (makeRoom order bytes s) ↔ Fits key bytes (withoutOldest order s 100) := by
  have keep : ∀ t, Fits key bytes t → Fits key bytes (evictLRU order t) := fun _ => fits_evictLRU
  exact Capped.enough_loop_iff keep (fun _ => fits_of_hasRoom) 100 s

/-- A write evicts as needed exactly when it does not count the entry it overwrites. -/
theorem evictsAsNeeded_iff (entries : OnlyEntries s.items) (small : bytes ≤ quotaBytes) :
    EvictsAsNeeded order s key bytes ↔ CountsNothingTwice order s key bytes := by
  have stable : ∀ t, hasRoom bytes t = true → hasRoom bytes (evictLRU order t) = true :=
    fun _ => hasRoom_evictLRU
  have hneeded := Capped.rounds_needed_iff (Fits key bytes) stable 100 s
  refine ⟨fun h => hneeded.1 h.needed, fun h => ⟨fun t ht => ?_, hneeded.2 h⟩⟩
  have hentries : OnlyEntries t.items := (Capped.loop_invariant
    (P := fun t => OnlyEntries t.items) (fun _ h => h.evictLRU order) 100 entries).2 t ht
  have hfull : hasRoom bytes t = false := Capped.not_done_of_mem_rounds ht
  rw [hasRoom, decide_eq_false_iff_not] at hfull
  exact evictLRU_oldest order hentries (by omega)

/-- Where there is room at once, the quota is kept and nothing is evicted. -/
theorem roomy_of_hasRoom (h : hasRoom bytes s = true) :
    Fits key bytes (withoutOldest order s 100) ∧ CountsNothingTwice order s key bytes := by
  have stable : ∀ t, hasRoom bytes t = true → hasRoom bytes (evictLRU order t) = true :=
    fun _ => hasRoom_evictLRU
  have hroom : ∀ n, hasRoom bytes (withoutOldest order s n) = true :=
    Capped.enough_iterate stable h
  exact ⟨fits_of_hasRoom (hroom 100), fun n _ _ => hroom n⟩

/-- Where one eviction makes room that is needed, the quota is kept and nothing more is evicted. -/
theorem roomy_of_evictLRU (full : ¬ Fits key bytes s)
    (room : hasRoom bytes (evictLRU order s) = true) :
    Fits key bytes (withoutOldest order s 100) ∧ CountsNothingTwice order s key bytes := by
  have stable : ∀ t, hasRoom bytes t = true → hasRoom bytes (evictLRU order t) = true :=
    fun _ => hasRoom_evictLRU
  have hroom : ∀ n, hasRoom bytes (withoutOldest order s (n + 1)) = true :=
    Capped.enough_iterate stable room
  refine ⟨fits_of_hasRoom (hroom 99), fun n _ hfits => ?_⟩
  cases n with
  | zero => exact absurd hfits full
  | succ n => exact hroom n

theorem makeRoom_of_hasRoom (h : hasRoom bytes s = true) : makeRoom order bytes s = s := by
  rw [makeRoom, Capped.loop, if_pos h]

theorem makeRoom_of_evictLRU (full : hasRoom bytes s = false)
    (room : hasRoom bytes (evictLRU order s) = true) :
    makeRoom order bytes s = evictLRU order s := by
  rw [makeRoom, Capped.loop, if_neg (Bool.eq_false_iff.1 full), Capped.loop, if_pos room]

/-- What is too large for the quota is not written over anything. -/
theorem countsNothingTwice_of_large (large : quotaBytes < bytes) :
    CountsNothingTwice order s key bytes := by
  intro n _ hfits
  rw [Fits] at hfits
  omega

end Write

/-! ## A run -/

section Run

variable (order : KeyOrder) {s : LocalStorage}

/-- What keeps a write in its quota: when the hundred oldest entries are gone there is room for it,
and it counts nothing twice. -/
def Roomy (s : LocalStorage) : CacheCall → Prop
  | .write domain key data now accepted =>
    (accepted = true →
      Fits (storageKey domain key) (entryBytes data now) (withoutOldest order s 100)) ∧
    CountsNothingTwice order s (storageKey domain key) (entryBytes data now)
  | _ => True

/-- A write that is not too large for the quota evicts as needed. -/
def WritesAsNeeded (s : LocalStorage) : CacheCall → Prop
  | .write domain key data now _ =>
    entryBytes data now ≤ quotaBytes →
      EvictsAsNeeded order s (storageKey domain key) (entryBytes data now)
  | _ => True

/-- The usage never exceeds the quota, and no entry is evicted out of turn or without need. -/
structure KeepsQuota (s : LocalStorage) (as : List CacheCall) : Prop where
  usage : ∀ bs, bs <+: as → getCacheUsageBytes (run (cacheStep order) s bs) ≤ quotaBytes
  evictions : ∀ p ∈ trail (cacheStep order) s as, WritesAsNeeded order p.1 p.2

theorem inNamespace_storageKey (domain : CacheDomain) (key : String) :
    inNamespace (storageKey domain key) = true := by
  rw [inNamespace, List.isPrefixOf_iff_prefix]
  simp [storageKey, List.append_assoc]

theorem usage_set (s : LocalStorage) (domain : CacheDomain) (key : String) (data : Option String)
    (now : Int) : getCacheUsageBytes
      (s.set (storageKey domain key) (.entry (newEntry data now))) =
        getCacheUsageBytes (s.erase (storageKey domain key)) + entryBytes data now := by
  rw [getCacheUsageBytes, OrderedMap.total_set, itemBytes, if_pos (inNamespace_storageKey ..)]
  rfl

theorem makeRoom_spec (bytes : Nat) (entries : OnlyEntries s.items) :
    OnlyEntries (makeRoom order bytes s).items ∧
      getCacheUsageBytes (makeRoom order bytes s) ≤ getCacheUsageBytes s :=
  (Capped.loop_invariant (P := fun t : LocalStorage => OnlyEntries t.items ∧
    getCacheUsageBytes t ≤ getCacheUsageBytes s) (fun t h => ⟨h.1.evictLRU order,
      (usage_evictLRU_le order t).trans h.2⟩) 100 ⟨entries, le_rfl⟩).1

/-- A call that is not a write is not bound to anything, and leaves entries out if it changes
anything. -/
theorem cacheStep_cases (s : LocalStorage) (a : CacheCall) :
    (∃ domain key data now accepted, a = .write domain key data now accepted) ∨
      (WritesAsNeeded order s a ∧ Roomy order s a) ∧
        (cacheStep order s a = s ∨ ∃ p, cacheStep order s a = s.restrict p) := by
  cases a with
  | write domain key data now accepted => exact .inl ⟨domain, key, data, now, accepted, rfl⟩
  | read domain key now =>
    refine .inr ⟨⟨trivial, trivial⟩, ?_⟩
    have hleaves : ∃ p, s.erase (storageKey domain key) = s.restrict p :=
      ⟨fun k => k ≠ storageKey domain key, rfl⟩
    rw [cacheStep, cacheRead]
    split
    · exact .inl rfl
    · split
      · exact .inl rfl
      · split
        · exact .inr hleaves
        · split
          · exact .inr hleaves
          · exact .inl rfl
  | invalidate domain key =>
    exact .inr ⟨⟨trivial, trivial⟩, .inr ⟨fun k => k ≠ storageKey domain key, rfl⟩⟩
  | clearDomain domain =>
    exact .inr ⟨⟨trivial, trivial⟩,
      .inr ⟨fun k => !((storageKey domain "").toList.isPrefixOf k.toList), rfl⟩⟩
  | clearAll => exact .inr ⟨⟨trivial, trivial⟩, .inr ⟨fun k => !inNamespace k, rfl⟩⟩

theorem cacheWrite_rejected (domain : CacheDomain) (key : String) (data : Option String) (now : Int)
    (s : LocalStorage) : cacheWrite order domain key data now false s =
      makeRoom order (entryBytes data now) s := by
  simp only [cacheWrite, Bool.false_eq_true, if_false]

theorem cacheWrite_accepted (domain : CacheDomain) (key : String) (data : Option String) (now : Int)
    (s : LocalStorage) : cacheWrite order domain key data now true s =
      (makeRoom order (entryBytes data now) s).set (storageKey domain key)
        (.entry (newEntry data now)) := by
  simp only [cacheWrite, if_true]

theorem onlyEntries_cacheStep (entries : OnlyEntries s.items) (a : CacheCall) :
    OnlyEntries (cacheStep order s a).items := by
  obtain ⟨domain, key, data, now, accepted, rfl⟩ | ⟨-, h | ⟨p, h⟩⟩ := cacheStep_cases order s a
  · have hroom := (makeRoom_spec order (entryBytes data now) entries).1
    rw [cacheStep]
    cases accepted with
    | true =>
      rw [cacheWrite_accepted]
      intro item hitem hcached
      obtain rfl | ⟨hitem, -⟩ := OrderedMap.mem_set.1 hitem
      · exact ⟨_, rfl⟩
      · exact hroom item hitem hcached
    | false =>
      rw [cacheWrite_rejected]
      exact hroom
  · rwa [h]
  · rw [h]
    exact entries.restrict p

/-- A call keeps the quota and evicts as needed exactly when it is roomy. -/
theorem cacheStep_iff (entries : OnlyEntries s.items) (within : getCacheUsageBytes s ≤ quotaBytes)
    (a : CacheCall) : getCacheUsageBytes (cacheStep order s a) ≤ quotaBytes ∧
      WritesAsNeeded order s a ↔ Roomy order s a := by
  obtain ⟨domain, key, data, now, accepted, rfl⟩ | ⟨⟨hwrites, hroomy⟩, hleaves⟩ :=
    cacheStep_cases order s a
  · refine and_congr ?_ ?_
    · cases accepted with
      | true =>
        rw [← fits_makeRoom_iff, cacheStep, cacheWrite_accepted, usage_set]
        exact ⟨fun h _ => h, fun h => h rfl⟩
      | false =>
        have hroom := (makeRoom_spec order (entryBytes data now) entries).2
        rw [cacheStep, cacheWrite_rejected]
        exact iff_of_true (hroom.trans within) fun h => absurd h Bool.false_ne_true
    · by_cases hsmall : entryBytes data now ≤ quotaBytes
      · rw [WritesAsNeeded, imp_iff_right hsmall, evictsAsNeeded_iff entries hsmall]
      · exact iff_of_true (fun h => absurd h hsmall)
          (countsNothingTwice_of_large (not_le.1 hsmall))
  · refine iff_of_true ⟨?_, hwrites⟩ hroomy
    obtain h | ⟨p, h⟩ := hleaves
    · rwa [h]
    · rw [h]
      exact (OrderedMap.total_restrict_le ..).trans within

/-- From an empty namespace, a run keeps the quota exactly when all its writes are roomy. -/
theorem quota_kept_iff (empty : ∀ item ∈ s.items, inNamespace item.1 = false)
    (as : List CacheCall) :
    KeepsQuota order s as ↔ ∀ p ∈ trail (cacheStep order) s as, Roomy order p.1 p.2 := by
  have hentries : OnlyEntries s.items := fun item h hcached => by
    rw [empty item h] at hcached
    cases hcached
  have hzero : getCacheUsageBytes s = 0 := OrderedMap.total_eq_zero fun item h => by
    rw [itemBytes, empty item h, if_neg Bool.false_ne_true]
  have hiff := Machine.always_step_iff (cacheStep order) (W := fun s => OnlyEntries s.items)
    (P := fun s => getCacheUsageBytes s ≤ quotaBytes) (C := Roomy order)
    (D := WritesAsNeeded order) as hentries (hzero.trans_le (Nat.zero_le _))
    (fun s a h => onlyEntries_cacheStep order h a)
    fun s a h within => cacheStep_iff order h within a
  exact ⟨fun h => hiff.1 ⟨h.usage, h.evictions⟩, fun h => ⟨(hiff.2 h).1, (hiff.2 h).2⟩⟩

end Run

def inOrder : KeyOrder := ⟨id, fun _ => .refl _⟩

/-- Another part of the application has left its theme in the storage. -/
def themed : LocalStorage := ⟨[("amana-theme-preference", .corrupt "dark")], by decide⟩

theorem utf16Length_append (a b : String) :
    utf16Length (a ++ b) = utf16Length a + utf16Length b := by
  simp [utf16Length, String.toList_append]

/-- The JSON text of a text of so many letters. -/
def letters (n : Nat) : String := "\"" ++ String.ofList (List.replicate n 'x') ++ "\""

theorem entryBytes_letters (n : Nat) (now : Int) :
    entryBytes (some (letters n)) now = 2 * (n + utf16Length (toString now) + 39) := by
  have hx : utf16Length (String.ofList (List.replicate n 'x')) = n := by
    simp [utf16Length, show Text.utf16Units 'x' = 1 from rfl]
  have htexts : utf16Length "\x7b" + utf16Length "\"data\":" + utf16Length "\"" + utf16Length "\"" +
      utf16Length "," + utf16Length "\"cachedAt\":" + utf16Length ",\"isStale\":" +
      utf16Length (toString false) + utf16Length "\x7d" = 39 := by decide +kernel
  simp only [entryBytes, newEntry, CacheEntry.serialised, letters, Option.elim, utf16Length_append,
    hx]
  omega

theorem entryBytes_pos (data : Option String) (now : Int) : 0 < entryBytes data now := by
  have hbrace : utf16Length "\x7b" = 1 := by decide
  simp only [entryBytes, CacheEntry.serialised, utf16Length_append, hbrace]
  omega

section Evicting

variable (order : KeyOrder) {s : LocalStorage} (domain : CacheDomain) (key key' : String)
  (data data' : Option String) (now now' : Int)

/-- Where there is one entry only, it is the one that is evicted. -/
theorem evictLRU_set (empty : ∀ item ∈ s.items, inNamespace item.1 = false) :
    evictLRU order (s.set (storageKey domain key) (.entry (newEntry data now))) =
        (s.set (storageKey domain key) (.entry (newEntry data now))).erase (storageKey domain key) ∧
      getCacheUsageBytes ((s.set (storageKey domain key) (.entry (newEntry data now))).erase
        (storageKey domain key)) = 0 := by
  have hitems : ∀ item ∈ (s.set (storageKey domain key) (.entry (newEntry data now))).items,
      inNamespace item.1 = true → item = (storageKey domain key, .entry (newEntry data now)) := by
    intro item hitem hcached
    refine (OrderedMap.mem_set.1 hitem).resolve_right fun hold => ?_
    rw [empty item hold.1] at hcached
    cases hcached
  have hused := entryBytes_pos data now
  obtain ⟨k, evicted, heq, holdest⟩ := evictLRU_oldest order
    (s := s.set (storageKey domain key) (.entry (newEntry data now)))
    (fun item hitem hcached => ⟨_, congrArg Prod.snd (hitems item hitem hcached)⟩)
    (by rw [usage_set]; omega)
  obtain ⟨rfl, -⟩ := Prod.mk.inj (hitems _ holdest.mem holdest.cached)
  refine ⟨heq, OrderedMap.total_eq_zero fun item hitem => ?_⟩
  obtain ⟨hset, hother⟩ := OrderedMap.mem_restrict.1 hitem
  rw [itemBytes, if_neg]
  intro hcached
  rw [hitems item hset hcached] at hother
  simp at hother

/-- An entry that does not fit next to the only one there is takes its place. -/
theorem cacheWrite_evicting (empty : ∀ item ∈ s.items, inNamespace item.1 = false)
    (differ : storageKey domain key ≠ storageKey domain key')
    (full : quotaBytes < entryBytes data now + entryBytes data' now')
    (small : entryBytes data' now' ≤ quotaBytes) :
    Roomy order (s.set (storageKey domain key) (.entry (newEntry data now)))
        (.write domain key' data' now' true) ∧
      cacheWrite order domain key' data' now' true
          (s.set (storageKey domain key) (.entry (newEntry data now))) =
        ((s.set (storageKey domain key) (.entry (newEntry data now))).erase
          (storageKey domain key)).set (storageKey domain key') (.entry (newEntry data' now')) := by
  obtain ⟨hevicts, hzero⟩ := evictLRU_set order domain key data now empty
  have hroom : hasRoom (entryBytes data' now')
      (evictLRU order (s.set (storageKey domain key) (.entry (newEntry data now)))) = true := by
    rw [hevicts, hasRoom, hzero, decide_eq_true_eq]
    omega
  have hnotFits : ¬ Fits (storageKey domain key') (entryBytes data' now')
      (s.set (storageKey domain key) (.entry (newEntry data now))) := by
    have hstays : (storageKey domain key, StoredText.entry (newEntry data now)) ∈
        ((s.set (storageKey domain key) (.entry (newEntry data now))).erase
          (storageKey domain key')).items :=
      OrderedMap.mem_restrict.2 ⟨OrderedMap.mem_set.2 (.inl rfl), decide_eq_true differ⟩
    have hbytes := OrderedMap.le_total (f := itemBytes) hstays
    rw [itemBytes, if_pos (inNamespace_storageKey ..)] at hbytes
    intro hfits
    rw [Fits, getCacheUsageBytes] at hfits
    exact absurd ((Nat.add_le_add_right hbytes _).trans hfits) (not_le.2 full)
  have hfull : hasRoom (entryBytes data' now')
      (s.set (storageKey domain key) (.entry (newEntry data now))) = false :=
    Bool.eq_false_iff.2 fun h => hnotFits (fits_of_hasRoom h)
  refine ⟨(roomy_of_evictLRU hnotFits hroom).imp_left fun h _ => h, ?_⟩
  rw [cacheWrite_accepted, makeRoom_of_evictLRU hfull hroom, hevicts]

end Evicting

/-- The second entry takes the place of the first one, which leaves no room for it, and is then
overwritten. -/
theorem quota_kept_evicting :
    let calls : List CacheCall :=
      [.write .tradeDetail "1" (some (letters 700000)) 1000 true,
        .write .tradeDetail "2" (some (letters 700000)) 2000 true,
        .write .tradeDetail "2" (some "\x7b\"status\":\"DELIVERED\"\x7d") 3000 true]
    KeepsQuota inOrder themed calls ∧
      (run (cacheStep inOrder) themed (calls.take 2)).get (storageKey .tradeDetail "1") = none := by
  have hempty : ∀ item ∈ themed.items, inNamespace item.1 = false := by decide +kernel
  have hdiffer : storageKey .tradeDetail "1" ≠ storageKey .tradeDetail "2" := by decide
  have hfirst : entryBytes (some (letters 700000)) 1000 = 1400086 := by
    rw [entryBytes_letters]
    decide +kernel
  have hsecond : entryBytes (some (letters 700000)) 2000 = 1400086 := by
    rw [entryBytes_letters]
    decide +kernel
  generalize some (letters 700000) = data at hfirst hsecond ⊢
  intro calls
  have hroom : hasRoom (entryBytes data 1000) themed = true := by
    rw [hfirst]
    decide +kernel
  have hone : cacheStep inOrder themed (.write .tradeDetail "1" data 1000 true) =
      themed.set (storageKey .tradeDetail "1") (.entry (newEntry data 1000)) := by
    rw [cacheStep, cacheWrite_accepted, makeRoom_of_hasRoom hroom]
  obtain ⟨hroomy, hwrite⟩ := cacheWrite_evicting inOrder .tradeDetail "1" "2" data data 1000 2000
    hempty hdiffer (by rw [hfirst, hsecond]; decide) (by rw [hsecond]; decide)
  have htwo : cacheStep inOrder (themed.set (storageKey .tradeDetail "1")
      (.entry (newEntry data 1000))) (.write .tradeDetail "2" data 2000 true) = _ := hwrite
  have hover : hasRoom (entryBytes (some "\x7b\"status\":\"DELIVERED\"\x7d") 3000)
      (((themed.set (storageKey .tradeDetail "1") (.entry (newEntry data 1000))).erase
        (storageKey .tradeDetail "1")).set (storageKey .tradeDetail "2")
          (.entry (newEntry data 2000))) = true := by
    have hzero := (evictLRU_set inOrder .tradeDetail "1" data 1000 hempty).2
    have hless : getCacheUsageBytes (((themed.set (storageKey .tradeDetail "1")
        (.entry (newEntry data 1000))).erase (storageKey .tradeDetail "1")).erase
          (storageKey .tradeDetail "2")) ≤ _ := OrderedMap.total_restrict_le ..
    have hsmall : entryBytes (some "\x7b\"status\":\"DELIVERED\"\x7d") 3000 ≤ 200 := by
      decide +kernel
    rw [hasRoom, usage_set, hsecond, decide_eq_true_eq, quotaBytes]
    rw [getCacheUsageBytes] at hzero
    rw [hzero] at hless
    omega
  refine ⟨(quota_kept_iff inOrder hempty _).2 fun p hp => ?_, ?_⟩
  · simp only [calls, trail, hone, htwo, List.mem_cons, List.not_mem_nil, or_false] at hp
    obtain rfl | rfl | rfl := hp
    · exact (roomy_of_hasRoom hroom).imp_left fun h _ => h
    · exact hroomy
    · exact (roomy_of_hasRoom hover).imp_left fun h _ => h
  · have hrun : run (cacheStep inOrder) themed (calls.take 2) = _ :=
      (congrArg (cacheStep inOrder · (.write .tradeDetail "2" data 2000 true)) hone).trans htwo
    rw [hrun, OrderedMap.get_set, if_neg hdiffer, OrderedMap.get_erase, if_pos rfl]

theorem length_le_utf16Length (text : String) : text.length ≤ utf16Length text := by
  rw [utf16Length, ← String.length_toList]
  refine (List.length_map _).symm.trans_le (List.length_le_sum_of_one_le _ fun n hn => ?_)
  obtain ⟨c, -, rfl⟩ := List.mem_map.1 hn
  exact Text.utf16Units_pos c

/-- The JSON text of a text of a megabyte. -/
def megabyte : String := "\"" ++ String.ofList (List.replicate (1024 * 1024) 'x') ++ "\""

theorem megabyte_not_kept :
    ¬ KeepsQuota inOrder themed [.write .tradeDetail "4294967297" (some megabyte) 1000 true] := by
  intro h
  have husage := h.usage _ List.prefix_rfl
  rw [Machine.run_cons, Machine.run_nil, cacheStep, cacheWrite_accepted, usage_set] at husage
  have hlength : 1024 * 1024 < (newEntry (some megabyte) 1000).serialised.length := by
    simp only [CacheEntry.serialised, newEntry, megabyte, Option.elim, String.length_append,
      String.length_ofList, List.length_replicate]
    have hquote : "\"".length = 1 := rfl
    omega
  have hutf16 := length_le_utf16Length (newEntry (some megabyte) 1000).serialised
  have hbytes : quotaBytes < entryBytes (some megabyte) 1000 := by
    rw [quotaBytes, entryBytes]
    omega
  omega

end Amana.Frontend
