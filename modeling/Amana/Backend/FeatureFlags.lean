import Mathlib
import Amana.Backend.RequestBodies
import Amana.Lib.Machine
import Amana.Lib.OrderedMap

/-!
# Feature flags

`feature-flags.service.ts` keeps the flags in Redis, and `requireFeature.ts` asks them.  A flag is
on for a share of the users, told by a hash of the flag and the user.  Whoever asks, and whatever
else is written, the last accepted update of a flag alone decides (`flags_run`), and while a share
only grows nobody is switched off (`ramp_run`).
-/

namespace Amana.Backend.FeatureFlags

open Lib Lib.Machine

/-! ## The source -/

structure FeatureFlagRecord where
  enabled : Bool
  rolloutPercentage : Option Rat
  updatedAt : Nat
  deriving DecidableEq

structure FeatureFlagUpdate where
  enabled : Bool
  rolloutPercentage : Option Rat
  deriving DecidableEq

/-- What stands under a key of Redis: a record that `JSON.stringify` wrote, or a text that is no
JSON. -/
inductive RedisText where
  | json (record : FeatureFlagRecord)
  | corrupt
  deriving DecidableEq

abbrev FlagStore := OrderedMap String RedisText

def FlagStore.empty : FlagStore := ⟨[], List.nodup_nil⟩

def flagKeyPrefix : String := "feature:"

def flagKey (name : String) : String := flagKeyPrefix ++ name

/-- The code units of a text in JavaScript. -/
def charCodes (text : String) : List Nat :=
  text.toList.flatMap fun c =>
    if c.toNat < 0x10000 then [c.toNat]
    else [0xd800 + (c.toNat - 0x10000) / 0x400, 0xdc00 + (c.toNat - 0x10000) % 0x400]

/-- One round of FNV-1a on 32-bit integers. -/
def hashRound (hash : Int) (code : Nat) : Int :=
  ((BitVec.ofInt 32 hash ^^^ BitVec.ofNat 32 code) * 0x01000193#32).toInt

def hashToBucket (input : String) : Nat :=
  ((charCodes input).foldl hashRound 0x811c9dc5).natAbs % 100

example : hashToBucket "new-checkout:user-1" = 63 := by decide +kernel

def getFlag (store : FlagStore) (name : String) : Option FeatureFlagRecord :=
  match store.get (flagKey name) with
  | some (.json record) => some record
  | some .corrupt => none
  | none => none

/-- A corrupt entry is skipped. -/
def listFlags (store : FlagStore) : List (String × FeatureFlagRecord) :=
  (store.items.filter fun item => flagKeyPrefix.toList.isPrefixOf item.1.toList).filterMap
    fun item =>
      match item.2 with
      | .json record =>
        assignField (String.ofList (item.1.toList.drop flagKeyPrefix.toList.length)) record
      | .corrupt => none

def setFlag (store : FlagStore) (name : String) (update : FeatureFlagUpdate) (now : Nat) :
    Except String (FeatureFlagRecord × FlagStore) :=
  if update.rolloutPercentage.any fun rollout => rollout < 0 ∨ 100 < rollout then
    .error "rolloutPercentage must be between 0 and 100"
  else
    let record := ⟨update.enabled, update.rolloutPercentage, now⟩
    .ok (record, store.set (flagKey name) (.json record))

def deleteFlag (store : FlagStore) (name : String) : FlagStore := store.erase (flagKey name)

def isEnabled (store : FlagStore) (name : String) (userId : Option String) : Bool :=
  match getFlag store name with
  | none => false
  | some flag =>
    if !flag.enabled then false
    else
      match flag.rolloutPercentage with
      | none => true
      | some rollout =>
        if 100 ≤ rollout then true
        else if rollout ≤ 0 then false
        else
          match userId with
          | none => false
          | some userId =>
            if userId = "" then false
            else (hashToBucket (name ++ ":" ++ userId) : Rat) < rollout

/-- The user of a request, as the token tells it. -/
structure FlagUser where
  sub : Option String
  walletAddress : Option String

structure Disabled where
  status : Nat
  code : String
  error : String
  deriving DecidableEq

/-- `none` stands for `next()`. -/
def requireFeature (store : FlagStore) (name : String) (user : Option FlagUser) : Option Disabled :=
  let userId := user.bind fun user => user.sub <|> user.walletAddress
  if isEnabled store name userId then none
  else some ⟨503, "FEATURE_DISABLED", "Feature '" ++ name ++ "' is currently disabled"⟩

/-- Calls of the service, and a text that somebody else puts under a key. -/
inductive FlagStep where
  | setFlag (name : String) (update : FeatureFlagUpdate) (now : Nat)
  | deleteFlag (name : String)
  | corrupt (key : String)

def flagStep (store : FlagStore) : FlagStep → FlagStore
  | .setFlag name update now =>
    match setFlag store name update now with
    | .ok (_, store) => store
    | .error _ => store
  | .deleteFlag name => deleteFlag store name
  | .corrupt key => store.set key .corrupt

def flagsAfter (as : List FlagStep) : FlagStore := run flagStep .empty as

/-! ## Shares -/

variable {store : FlagStore} {name userId : String} {update : FeatureFlagUpdate} {as bs : List FlagStep}
  {a : FlagStep}

/-- The share a flag is on for. -/
def rollout (rolloutPercentage : Option Rat) : Rat := rolloutPercentage.getD 100

/-- Whether a share reaches a user; the whole share reaches also who is not known. -/
def Reaches (share : Rat) (name : String) (userId : Option String) : Prop :=
  100 ≤ share ∨ ∃ id ∈ userId, id ≠ "" ∧ (hashToBucket (name ++ ":" ++ id) : Rat) < share

theorem Reaches.mono {share share' : Rat} {userId : Option String} (le : share ≤ share')
    (h : Reaches share name userId) : Reaches share' name userId := by
  obtain h | ⟨id, hid, hne, hlt⟩ := h
  · exact .inl (h.trans le)
  · exact .inr ⟨id, hid, hne, hlt.trans_le le⟩

theorem isEnabled_iff {userId : Option String} : isEnabled store name userId = true ↔
    ∃ flag ∈ getFlag store name, flag.enabled = true ∧
      Reaches (rollout flag.rolloutPercentage) name userId := by
  rw [isEnabled]
  cases getFlag store name with
  | none => simp
  | some flag =>
    simp only [Option.mem_def, Option.some.injEq, exists_eq_left']
    cases flag.enabled with
    | false => simp
    | true =>
      simp only [Bool.not_true, Bool.false_eq_true, if_false, true_and]
      cases flag.rolloutPercentage with
      | none => exact iff_of_true rfl (.inl le_rfl)
      | some share =>
        simp only [rollout, Option.getD_some, Reaches]
        by_cases hwhole : 100 ≤ share
        · simp [hwhole]
        by_cases hnone : share ≤ 0
        · -- No bucket is below a share of nothing.
          have hbucket (id : String) : ¬ (hashToBucket (name ++ ":" ++ id) : Rat) < share :=
            fun h => absurd (h.trans_le hnone) (not_lt.2 (Nat.cast_nonneg _))
          simp [hwhole, hnone, hbucket]
        · cases userId with
          | none => simp [hwhole, hnone]
          | some id => by_cases hid : id = "" <;> simp [hwhole, hnone, hid]

/-! ## Runs -/

/-- Whether an update is accepted. -/
def Accepted (update : FeatureFlagUpdate) : Prop :=
  ∀ share ∈ update.rolloutPercentage, 0 ≤ share ∧ share ≤ 100

/-- Whether a step writes under the key of a flag. -/
def Touches (name : String) : FlagStep → Prop
  | .setFlag other update _ => other = name ∧ Accepted update
  | .deleteFlag other => other = name
  | .corrupt key => key = flagKey name

theorem flagKey_inj {name other : String} : flagKey name = flagKey other ↔ name = other :=
  String.append_right_inj _

theorem setFlag_cases (store : FlagStore) (name : String) (update : FeatureFlagUpdate) (now : Nat) :
    (¬ Accepted update ∧ flagStep store (.setFlag name update now) = store) ∨
      (Accepted update ∧ flagStep store (.setFlag name update now) =
        store.set (flagKey name) (.json ⟨update.enabled, update.rolloutPercentage, now⟩)) := by
  have hguard : (update.rolloutPercentage.any fun rollout => rollout < 0 ∨ 100 < rollout) = true ↔
      ¬ Accepted update := by
    cases hrollout : update.rolloutPercentage with
    | none => simp [Accepted, hrollout]
    | some share =>
      simp only [Accepted, hrollout, Option.any_some, decide_eq_true_eq, Option.mem_def,
        Option.some.injEq, forall_eq', not_and_or, not_le]
  by_cases h : Accepted update
  · exact .inr ⟨h, by rw [flagStep, setFlag, if_neg fun hg => hguard.1 hg h]⟩
  · exact .inl ⟨h, by rw [flagStep, setFlag, if_pos (hguard.2 h)]⟩

/-- A step that does not write under the key of a flag leaves it as it is. -/
theorem getFlag_step_of_not_touches (h : ¬ Touches name a) :
    getFlag (flagStep store a) name = getFlag store name := by
  have hget : (flagStep store a).get (flagKey name) = store.get (flagKey name) := by
    cases a with
    | setFlag other update now =>
      obtain ⟨-, hstep⟩ | ⟨haccepted, hstep⟩ := setFlag_cases store other update now
      · rw [hstep]
      · rw [hstep, OrderedMap.get_set, if_neg fun hkey => h ⟨(flagKey_inj.1 hkey).symm, haccepted⟩]
    | deleteFlag other =>
      rw [flagStep, deleteFlag, OrderedMap.get_erase,
        if_neg fun hkey => h (flagKey_inj.1 hkey).symm]
    | corrupt key => rw [flagStep, OrderedMap.get_set, if_neg fun hkey => h hkey.symm]
  rw [getFlag, hget, getFlag]

/-- The record a step writes for a flag. -/
def FlagStep.record? : FlagStep → Option FeatureFlagRecord
  | .setFlag _ update now => some ⟨update.enabled, update.rolloutPercentage, now⟩
  | .deleteFlag _ | .corrupt _ => none

theorem getFlag_step_of_touches (h : Touches name a) :
    getFlag (flagStep store a) name = a.record? := by
  cases a with
  | setFlag other update now =>
    obtain ⟨rfl, haccepted⟩ := h
    obtain ⟨hrefused, -⟩ | ⟨-, hstep⟩ := setFlag_cases store other update now
    · exact absurd haccepted hrefused
    · rw [getFlag, hstep, OrderedMap.get_set, if_pos rfl]
      rfl
  | deleteFlag other =>
    obtain rfl : other = name := h
    rw [getFlag, flagStep, deleteFlag, OrderedMap.get_erase, if_pos rfl]
    rfl
  | corrupt key =>
    obtain rfl : key = flagKey name := h
    rw [getFlag, flagStep, OrderedMap.get_set, if_pos rfl]
    rfl

/-- The record of a flag is the one that was written last, if nothing was written over it. -/
theorem getFlag_run (as : List FlagStep) (name : String) (flag : FeatureFlagRecord) :
    getFlag (flagsAfter as) name = some flag ↔
      Since flagStep (fun _ a => Touches name a ∧ a.record? = some flag)
        (fun _ a => ¬ Touches name a) .empty as := by
  induction as using List.reverseRecOn with
  | nil =>
    exact iff_of_false (by simp [flagsAfter, getFlag, FlagStore.empty, OrderedMap.get])
      (not_since_nil _)
  | append_singleton as a ih =>
    rw [flagsAfter, run_snoc, ← flagsAfter, since_snoc_iff]
    by_cases h : Touches name a
    · rw [getFlag_step_of_touches h]
      simp [h]
    · rw [getFlag_step_of_not_touches h, ih]
      simp [h]

/-- A flag is listed exactly as it is asked for, unless its name is that of the prototype. -/
theorem mem_listFlags {flag : FeatureFlagRecord} : (name, flag) ∈ listFlags store ↔
    name ≠ "__proto__" ∧ getFlag store name = some flag := by
  have hget : getFlag store name = some flag ↔ store.get (flagKey name) = some (.json flag) := by
    rw [getFlag]
    cases store.get (flagKey name) with
    | none => simp
    | some text => cases text <;> simp
  have hassign (key : String) (record : FeatureFlagRecord) :
      assignField key record = some (name, flag) ↔ key ≠ "__proto__" ∧ key = name ∧ record = flag := by
    rw [assignField]
    split <;> simp [*]
  rw [hget, OrderedMap.get_eq_some_iff]
  simp only [listFlags, List.mem_filterMap, List.mem_filter, List.isPrefixOf_iff_prefix]
  constructor
  · rintro ⟨⟨key, text⟩, ⟨hmem, rest, hprefix⟩, hflag⟩
    cases text with
    | corrupt => cases hflag
    | json record =>
      obtain ⟨hproto, rfl, rfl⟩ := (hassign _ _).1 hflag
      have hkey : key = flagKey (String.ofList (key.toList.drop flagKeyPrefix.toList.length)) := by
        rw [← String.toList_inj, flagKey, String.toList_append, String.toList_ofList, ← hprefix,
          List.drop_left]
      rw [← hkey]
      exact ⟨hproto, hmem⟩
  · rintro ⟨hproto, h⟩
    refine ⟨_, ⟨h, name.toList, by rw [flagKey, String.toList_append]⟩, (hassign _ _).2 ?_⟩
    simp [flagKey, String.toList_append, hproto]

/-- Who asks for a flag is let through exactly when its last accepted update switches it on for a
share that reaches them, and neither a deletion nor a corrupt text came after it; and the flags are
listed as they were updated last, but for one name. -/
theorem flags_run (as : List FlagStep) (name : String) :
    (∀ user, requireFeature (flagsAfter as) name user = none ↔
      Since flagStep
        (fun _ a => ∃ update now, a = .setFlag name update now ∧ Accepted update ∧
          update.enabled = true ∧ Reaches (rollout update.rolloutPercentage) name
            (user.bind fun user => user.sub <|> user.walletAddress))
        (fun _ a => ¬ Touches name a) .empty as) ∧
      ∀ flag, (name, flag) ∈ listFlags (flagsAfter as) ↔ name ≠ "__proto__" ∧
        Since flagStep (fun _ a => Touches name a ∧ a.record? = some flag)
          (fun _ a => ¬ Touches name a) .empty as := by
  refine ⟨fun user => ?_, fun flag => by rw [mem_listFlags, getFlag_run]⟩
  have hnone : requireFeature (flagsAfter as) name user = none ↔
      isEnabled (flagsAfter as) name (user.bind fun user => user.sub <|> user.walletAddress) =
        true := by
    rw [requireFeature]
    split <;> simp_all
  simp only [hnone, isEnabled_iff, Option.mem_def, getFlag_run]
  constructor
  · rintro ⟨flag, ⟨bs, a, cs, hsplit, ⟨htouches, hrecord⟩, hlater⟩, henabled, hreaches⟩
    cases a with
    | setFlag other update now =>
      obtain ⟨rfl, haccepted⟩ := htouches
      obtain rfl := Option.some.inj hrecord
      exact ⟨bs, _, cs, hsplit, ⟨update, now, rfl, haccepted, henabled, hreaches⟩, hlater⟩
    | deleteFlag other => cases hrecord
    | corrupt key => cases hrecord
  · rintro ⟨bs, a, cs, hsplit, ⟨update, now, rfl, haccepted, henabled, hreaches⟩, hlater⟩
    exact ⟨_, ⟨bs, _, cs, hsplit, ⟨⟨rfl, haccepted⟩, rfl⟩, hlater⟩, henabled, hreaches⟩

/-! ## Growing shares -/

/-- The share of a flag only grows from `share` on, and the flag stays on. -/
def Grows (name : String) : Rat → List FlagStep → Prop
  | _, [] => True
  | share, a :: as =>
    (¬ Touches name a ∧ Grows name share as) ∨
      ∃ update now, a = .setFlag name update now ∧ Accepted update ∧ update.enabled = true ∧
        share ≤ rollout update.rolloutPercentage ∧ Grows name (rollout update.rolloutPercentage) as

theorem grows_run {share : Rat} {user : Option String} (reaches : Reaches share name user)
    {flag : FeatureFlagRecord} (hflag : getFlag store name = some flag)
    (enabled : flag.enabled = true) (hshare : rollout flag.rolloutPercentage = share)
    (grows : Grows name share bs) : isEnabled (run flagStep store bs) name user = true := by
  induction bs generalizing store share flag with
  | nil => exact isEnabled_iff.2 ⟨flag, hflag, enabled, hshare ▸ reaches⟩
  | cons a bs ih =>
    obtain ⟨hquiet, hgrows⟩ | ⟨update, now, rfl, haccepted, henabled, hle, hgrows⟩ := grows
    · exact ih reaches ((getFlag_step_of_not_touches hquiet).trans hflag) enabled hshare hgrows
    · exact ih (reaches.mono hle) (getFlag_step_of_touches ⟨rfl, haccepted⟩) henabled rfl hgrows

/-- While the share of a flag that is on only grows, it stays on for everyone it is on for. -/
theorem ramp_run (as bs : List FlagStep) {name : String} (flag : FeatureFlagRecord)
    {user : Option String} (hflag : getFlag (flagsAfter as) name = some flag)
    (grows : Grows name (rollout flag.rolloutPercentage) bs)
    (on : isEnabled (flagsAfter as) name user = true) :
    isEnabled (flagsAfter (as ++ bs)) name user = true := by
  obtain ⟨flag', hflag', enabled, reaches⟩ := isEnabled_iff.1 on
  obtain rfl := Option.some.inj (hflag.symm.trans hflag')
  rw [flagsAfter, run_append]
  exact grows_run reaches hflag enabled rfl grows

theorem ramp_run_twice :
    isEnabled (flagsAfter ([.setFlag "x" ⟨true, some 20⟩ 1] ++
      [.deleteFlag "y", .setFlag "x" ⟨true, some 50⟩ 2])) "x" (some "GA") = true := by
  refine ramp_run [.setFlag "x" ⟨true, some 20⟩ 1] _ ⟨true, some 20, 1⟩ (by decide +kernel)
    (.inl ⟨by simp [Touches], .inr ⟨_, _, rfl, ?_, rfl, ?_, trivial⟩⟩)
    (by decide +kernel)
  · simp [Accepted]
    norm_num
  · norm_num [rollout]

end Amana.Backend.FeatureFlags
