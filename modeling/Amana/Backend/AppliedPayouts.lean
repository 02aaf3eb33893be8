import Amana.Backend.MilestoneRelease

/-!
# Applied payouts that are marked as failed

A sweep looks up the transactions whose hashes were recorded, and fails the intents without one: for
these it takes a transaction that was built, and perhaps submitted, for one that never was.  Where
this does not happen to an intent whose transaction applies, no such intent is ever marked as failed
(`applied_never_failed_iff`).
-/

namespace Amana.Backend

open Lib Lib.Database Lib.Jobs

variable {config : PayoutConfig} {hash sha256 : String → String} {i : Nat} {key k txHash : String}
  {s s' : Payouts} {w : PayoutWorld} {as : List PayoutStep}

/-- The hash of the transaction that was built for an intent. -/
def Payouts.transaction (s : Payouts) (key : String) : Option String :=
  (s.creator key).bind s.built

/-- The intent is marked as failed. -/
def Payouts.Failed (s : Payouts) (key : String) : Prop :=
  (s.intents key).map PayoutIntent.status = some .failed

instance (s : Payouts) (key : String) : Decidable (s.Failed key) :=
  inferInstanceAs (Decidable (_ = _))

/-- The transaction of the intent was applied. -/
def Payouts.Applied (s : Payouts) (key : String) : Prop :=
  (s.transaction key).bind s.settled = some true

instance (s : Payouts) (key : String) : Decidable (s.Applied key) :=
  inferInstanceAs (Decidable (_ = _))

/-- No payout was claimed yet. -/
structure Payouts.Start (s : Payouts) : Prop where
  intents : ∀ key, s.intents key = none
  creator : ∀ key, s.creator key = none

/-- The chain answers `SUCCESS` only for what was applied, and `FAILED` only for what failed. -/
def Truthful (given : PayoutInput) (s : Payouts) : PayoutOp → Prop
  | .lookup txHash => given.connection = .heard →
    (given.outcome = .success → s.settled txHash = some true) ∧
      (given.outcome = .failed → s.settled txHash = some false)
  | _ => True

instance (given : PayoutInput) (s : Payouts) (op : PayoutOp) : Decidable (Truthful given s op) := by
  cases op <;> unfold Truthful <;> infer_instance

/-- The hashes that are recorded are those of the transactions, and a payout is only failed by hand
when its transaction is known to have failed. -/
def Warranted (s : Payouts) : PayoutCall → Prop
  | .recordSubmission key txHash => s.transaction key = some txHash
  | .confirm key txHash => ∀ txHash' ∈ txHash, s.transaction key = some txHash'
  | .fail key _ => (s.transaction key).bind s.settled = some false
  | _ => True

instance (s : Payouts) (c : PayoutCall) : Decidable (Warranted s c) := by
  cases c <;> unfold Warranted <;> infer_instance

/-- The chain is truthful, and the callers of the service keep to its documentation. -/
def Honest (w : PayoutWorld) (a : PayoutStep) : Prop :=
  Permits (fun _ op given s => Truthful given s op) (fun c s => Warranted s c) (fun _ _ => True) w a

instance (w : PayoutWorld) (a : PayoutStep) : Decidable (Honest w a) :=
  inferInstanceAs (Decidable (Permits ..))

/-- A sweep fails the intent for want of a hash. -/
def SweepsAway (key : String) (w : PayoutWorld) : PayoutStep → Prop
  | .advance i given => given.connection ≠ .down ∧ (w.shared.intents key).isSome = true ∧
    ∃ olderThanMs limit next, w.workers[i]? = some (.reconcile olderThanMs limit,
      some (.ask (.updateIntent key (.failed neverSubmitted)) next))
  | _ => False

/-! ## What every step keeps -/

/-- What is settled, created and built stays. -/
structure Grows (s s' : Payouts) : Prop where
  creator : ∀ key i, s.creator key = some i → s'.creator key = some i
  built : ∀ i txHash, s.built i = some txHash → s'.built i = some txHash
  settled : ∀ txHash applied, s.settled txHash = some applied → s'.settled txHash = some applied

theorem Grows.refl (s : Payouts) : Grows s s := ⟨fun _ _ => id, fun _ _ => id, fun _ _ => id⟩

theorem Grows.trans {s'' : Payouts} (h : Grows s s') (h' : Grows s' s'') : Grows s s'' where
  creator key i hi := h'.creator key i (h.creator key i hi)
  built i txHash hb := h'.built i txHash (h.built i txHash hb)
  settled txHash applied hs := h'.settled txHash applied (h.settled txHash applied hs)

theorem Grows.transaction (grows : Grows s s') (h : s.transaction key = some txHash) :
    s'.transaction key = some txHash := by
  obtain ⟨i, hi, hbuilt⟩ := Option.bind_eq_some_iff.1 h
  exact Option.bind_eq_some_iff.2 ⟨i, grows.creator key i hi, grows.built i txHash hbuilt⟩

/-- What became of the transaction of an intent. -/
theorem Grows.outcome {applied : Bool} (grows : Grows s s')
    (h : (s.transaction key).bind s.settled = some applied) :
    (s'.transaction key).bind s'.settled = some applied := by
  obtain ⟨txHash, htx, hs⟩ := Option.bind_eq_some_iff.1 h
  exact Option.bind_eq_some_iff.2
    ⟨txHash, grows.transaction htx, grows.settled txHash applied hs⟩

/-- The invariant: the hashes that are recorded are those of the transactions, and where the intent
under `key` is marked as failed, its transaction has failed. -/
structure PayoutSound (key : String) (s : Payouts) : Prop where
  named : ∀ k row, s.intents k = some row → row.idempotencyKey = k
  free : ∀ k, s.intents k = none → s.creator k = none
  recorded : ∀ k row txHash, s.intents k = some row → row.txHash = some txHash →
    s.transaction k = some txHash
  failed : s.Failed key → (s.transaction key).bind s.settled = some false

/-- What all steps keep. -/
def KeepsSound (key : String) (s s' : Payouts) : Prop :=
  PayoutSound key s → PayoutSound key s' ∧ Grows s s'

theorem keepsSound_onward (key : String) : Onward (KeepsSound key) where
  refl s sound := ⟨sound, .refl s⟩
  trans h h' sound := ⟨(h' (h sound).1).1, (h sound).2.trans (h' (h sound).1).2⟩

theorem PayoutSound.of_start (start : s.Start) : PayoutSound key s where
  named k row hrow := by cases (start.intents k).symm.trans hrow
  free k _ := start.creator k
  recorded k row txHash hrow := by cases (start.intents k).symm.trans hrow
  failed h := by
    rw [Payouts.Failed, start.intents] at h
    cases h

/-- A step that leaves the table alone. -/
theorem keepsSound_of_grows (same : s'.intents = s.intents) (creators : s'.creator = s.creator)
    (grows : Grows s s') : KeepsSound key s s' := by
  refine fun sound => ⟨⟨?_, ?_, ?_, ?_⟩, grows⟩
  · rw [same]
    exact sound.named
  · rw [same, creators]
    exact sound.free
  · rw [same]
    exact fun k row txHash hrow hhash => grows.transaction (sound.recorded k row txHash hrow hhash)
  · rw [Payouts.Failed, same]
    exact fun hfailed => grows.outcome (sound.failed hfailed)

theorem keepsSound_insert {input : PayoutIntentInput} (free : s.intents k = none) :
    KeepsSound key s (s.insert i k (input.row k s.now)) := by
  intro sound
  have hgrows : Grows s (s.insert i k (input.row k s.now)) := by
    refine ⟨fun k' j hj => ?_, fun _ _ => id, fun _ _ => id⟩
    have hne : k' ≠ k := by
      rintro rfl
      rw [sound.free k' free] at hj
      cases hj
    simpa [Payouts.insert, hne] using hj
  refine ⟨⟨fun k' row hrow => ?_, fun k' hnone => ?_, fun k' row txHash hrow hhash => ?_,
    fun hfailed => ?_⟩, hgrows⟩
  · by_cases hk : k' = k
    · obtain rfl : input.row k s.now = row := by simpa [Payouts.insert, hk] using hrow
      exact hk.symm
    · exact sound.named k' row (by simpa [Payouts.insert, hk] using hrow)
  · by_cases hk : k' = k
    · simp [Payouts.insert, hk] at hnone
    · simpa [Payouts.insert, hk] using sound.free k' (by simpa [Payouts.insert, hk] using hnone)
  · by_cases hk : k' = k
    · obtain rfl : input.row k s.now = row := by simpa [Payouts.insert, hk] using hrow
      cases hhash
    · exact hgrows.transaction
        (sound.recorded k' row txHash (by simpa [Payouts.insert, hk] using hrow) hhash)
  · by_cases hk : key = k
    · simp [Payouts.Failed, Payouts.insert, hk, PayoutIntentInput.row] at hfailed
    · exact hgrows.outcome (sound.failed (by simpa [Payouts.Failed, Payouts.insert, hk] using hfailed))

/-- An update has to bring the right hash, and to fail the intent for good reason. -/
theorem keepsSound_put {data : IntentUpdate} {row : PayoutIntent} (hrow : s.intents k = some row)
    (hashes : PayoutSound key s → ∀ txHash, (data.apply s.now row).txHash = some txHash →
      row.txHash = some txHash ∨ s.transaction k = some txHash)
    (reason : PayoutSound key s → k = key → (data.apply s.now row).status = .failed →
      row.status = .failed ∨ (s.transaction key).bind s.settled = some false) :
    KeepsSound key s (s.put k (data.apply s.now row)) := by
  intro sound
  have hname : (data.apply s.now row).idempotencyKey = row.idempotencyKey := by cases data <;> rfl
  refine ⟨⟨fun k' row' hrow' => ?_, fun k' hnone => ?_, fun k' row' txHash hrow' hhash => ?_,
    fun hfailed => ?_⟩, ⟨fun _ _ => id, fun _ _ => id, fun _ _ => id⟩⟩
  · by_cases hk : k' = k
    · subst hk
      obtain rfl : data.apply s.now row = row' := by simpa [Payouts.put] using hrow'
      rw [hname]
      exact sound.named k' row hrow
    · exact sound.named k' row' (by simpa [Payouts.put, hk] using hrow')
  · by_cases hk : k' = k
    · simp [Payouts.put, hk] at hnone
    · exact sound.free k' (by simpa [Payouts.put, hk] using hnone)
  · by_cases hk : k' = k
    · subst hk
      obtain rfl : data.apply s.now row = row' := by simpa [Payouts.put] using hrow'
      obtain hsame | hright := hashes sound txHash hhash
      · exact sound.recorded k' row txHash hrow hsame
      · exact hright
    · exact sound.recorded k' row' txHash (by simpa [Payouts.put, hk] using hrow') hhash
  · by_cases hk : k = key
    · subst hk
      have hstatus : (data.apply s.now row).status = .failed := by
        simpa [Payouts.Failed, Payouts.put] using hfailed
      obtain hsame | hright := reason sound rfl hstatus
      · exact sound.failed (by simp [Payouts.Failed, hrow, hsame])
      · exact hright
    · exact sound.failed (by simpa [Payouts.Failed, Payouts.put, Ne.symm hk] using hfailed)

/-! ## The calls -/

/-- The chain is truthful, and no sweep fails the intent for want of a hash. -/
def SparesIntent (key : String) (c : PayoutCall) (op : PayoutOp) (given : PayoutInput)
    (s : Payouts) : Prop :=
  Truthful given s op ∧ ((∃ olderThanMs limit, c = .reconcile olderThanMs limit) →
    op = .updateIntent key (.failed neverSubmitted) → given.connection ≠ .down →
      s.intents key = none)

/-- What a job has to do with all this. -/
abbrev KeepsAll {α : Type} (hash : String → String) (i : Nat) (key : String) (c : PayoutCall)
    (job : PayoutJob α) (s : Payouts) : Prop :=
  Wp (answer hash i) (KeepsSound key) (SparesIntent key c) (fun _ _ => True) job.run s

section Calls

variable {c : PayoutCall}

theorem updateIntent_keeps {data : IntentUpdate}
    (hashes : ∀ s' row, KeepsSound key s s' → PayoutSound key s' → s'.intents k = some row →
      ∀ txHash, (data.apply s'.now row).txHash = some txHash →
        row.txHash = some txHash ∨ s'.transaction k = some txHash)
    (reason : ∀ s' given row, KeepsSound key s s' → SparesIntent key c (.updateIntent k data) given s' →
      given.connection ≠ .down → PayoutSound key s' → s'.intents k = some row → k = key →
        (data.apply s'.now row).status = .failed →
          row.status = .failed ∨ (s'.transaction key).bind s'.settled = some false) :
    KeepsAll hash i key c (PayoutOp.updateIntent k data).ask s := by
  apply wp_updateIntent (keepsSound_onward key)
  · intro s' given row hR hallowed hrow hc
    refine ⟨keepsSound_put hrow ?_ ?_, trivial⟩
    · exact fun sound => hashes s' row hR sound hrow
    · exact fun sound => reason s' given row hR hallowed hc sound hrow
  · exact fun _ _ _ => trivial
  · exact fun _ _ => trivial

theorem claim_keeps (input : PayoutIntentInput) : KeepsAll hash i key c (claim sha256 input) s := by
  apply wp_claim (keepsSound_onward key)
  · exact fun s' given _ _ free _ => ⟨keepsSound_insert free, trivial⟩
  · intro s' given row _ _ hrow _
    refine ⟨keepsSound_put hrow ?_ ?_, trivial⟩
    · exact fun _ txHash hhash => .inl hhash
    · exact fun _ _ hstatus => .inl hstatus
  · exact fun _ _ _ => trivial
  · exact fun _ _ => trivial

theorem recordSubmission_keeps (sound : PayoutSound key s) (h : s.transaction k = some txHash) :
    KeepsAll hash i key c (recordSubmission k txHash) s := by
  apply updateIntent_keeps
  · intro s' row hR _ _ txHash' hhash
    cases hhash
    exact .inr ((hR sound).2.transaction h)
  · intro s' given row _ _ _ _ _ _ hstatus
    cases hstatus

theorem confirm_keeps {txHash : Option String} (sound : PayoutSound key s)
    (h : ∀ txHash' ∈ txHash, s.transaction k = some txHash') :
    KeepsAll hash i key c (confirm k txHash) s := by
  apply updateIntent_keeps
  · intro s' row hR _ _ txHash' hhash
    simp only [IntentUpdate.apply] at hhash
    cases hgiven : txHash.filter (· ≠ "") with
    | none =>
      rw [hgiven] at hhash
      exact .inl hhash
    | some given =>
      rw [hgiven] at hhash
      obtain rfl : given = txHash' := Option.some.inj hhash
      obtain ⟨hmem, -⟩ := Option.filter_eq_some_iff.1 hgiven
      exact .inr ((hR sound).2.transaction (h given hmem))
  · intro s' given row _ _ _ _ _ _ hstatus
    cases hstatus

/-- Failing an intent whose transaction has failed. -/
theorem fail_keeps {reason : String} (sound : PayoutSound key s)
    (h : k = key → (s.transaction key).bind s.settled = some false) :
    KeepsAll hash i key c (fail k reason) s := by
  apply updateIntent_keeps
  · exact fun s' row _ _ _ txHash hhash => .inl hhash
  · exact fun s' given row hR _ _ _ _ hk _ => .inr ((hR sound).2.outcome (h hk))

/-- The reason is short. -/
theorem fail_neverSubmitted (k : String) :
    fail k neverSubmitted = (PayoutOp.updateIntent k (.failed neverSubmitted)).ask := by
  rw [fail, Text.slice_of_le (by decide)]

/-- Failing an intent for want of a hash. -/
theorem sweep_keeps (hc : ∃ olderThanMs limit, c = .reconcile olderThanMs limit) :
    KeepsAll hash i key c (fail k neverSubmitted) s := by
  rw [fail_neverSubmitted]
  apply updateIntent_keeps
  · exact fun s' row _ _ _ txHash hhash => .inl hhash
  · rintro s' given row _ hallowed hreached _ hrow rfl _
    have hnone := hallowed.2 hc rfl hreached
    cases hrow.symm.trans hnone

/-- What was read about an intent. -/
def Known (s : Payouts) (intent : PayoutIntent) : Prop :=
  ∀ txHash, intent.txHash = some txHash → s.transaction intent.idempotencyKey = some txHash

theorem Known.later {intent : PayoutIntent} (sound : PayoutSound key s) (hR : KeepsSound key s s')
    (h : Known s intent) : Known s' intent :=
  fun txHash hhash => (hR sound).2.transaction (h txHash hhash)

/-- One job after the other. -/
theorem KeepsAll.andThen {α β : Type} {x : PayoutJob α} {f : α → PayoutJob β}
    (h : KeepsAll hash i key c x s)
    (next : ∀ a s', KeepsSound key s s' → KeepsAll hash i key c (f a) s') :
    KeepsAll hash i key c (x >>= f) s := by
  refine wp_except_bind.2 ((h.reaches (keepsSound_onward key)
    ((keepsSound_onward key).refl s)).mono ?_)
  rintro (e | a) s' ⟨hR, -⟩
  · trivial
  · exact next a s' hR

theorem resolveIntents_keeps (hc : ∃ olderThanMs limit, c = .reconcile olderThanMs limit)
    (intents : List PayoutIntent) (counts : SweepCounts) (sound : PayoutSound key s)
    (known : ∀ intent ∈ intents, Known s intent) :
    KeepsAll hash i key c (resolveIntents intents counts) s := by
  induction intents generalizing s counts with
  | nil => trivial
  | cons intent rest ih =>
    have hrest (s' : Payouts) (hR : KeepsSound key s s') (counts : SweepCounts) :
        KeepsAll hash i key c (resolveIntents rest counts) s' := by
      apply ih counts (hR sound).1
      exact fun intent hmem => (known intent (List.mem_cons_of_mem _ hmem)).later sound hR
    rw [resolveIntents]
    cases hhash : intent.txHash.filter (· ≠ "") with
    | none => exact (sweep_keeps hc).andThen fun _ s' hR => hrest s' hR _
    | some txHash =>
      have hknown : s.transaction intent.idempotencyKey = some txHash :=
        known intent (List.mem_cons_self ..) txHash (Option.filter_eq_some_iff.1 hhash).1
      refine wp_except_bind.2 (wp_ask.2 ?_)
      intro s' hR given hallowed
      obtain ⟨sound', grows⟩ := hR sound
      rw [answer, deliver_read]
      refine ⟨(keepsSound_onward key).refl s', ?_⟩
      cases hc' : given.connection with
      | unheard | down => trivial
      | heard =>
        cases houtcome : given.outcome with
        | success =>
          apply (confirm_keeps sound' (by simp)).andThen
          exact fun _ s'' hR' => hrest s'' ((keepsSound_onward key).trans hR hR') _
        | failed =>
          have hfailed : s'.settled txHash = some false := (hallowed.1 hc').2 houtcome
          refine (fail_keeps sound' ?_).andThen fun _ s'' hR' =>
            hrest s'' ((keepsSound_onward key).trans hR hR') _
          rintro rfl
          exact Option.bind_eq_some_iff.2 ⟨txHash, grows.transaction hknown, hfailed⟩
        | notFound => exact hrest s' hR _

end Calls

/-- What is unresolved is in the table. -/
theorem exists_of_unresolved {olderThanMs limit : Nat} {row : PayoutIntent}
    (h : row ∈ s.unresolved olderThanMs limit) : ∃ k, s.intents k = some row := by
  have hsorted := (List.mem_insertionSort _).1 (List.mem_of_mem_take h)
  obtain ⟨k, -, hrow⟩ := List.mem_filterMap.1 (List.mem_of_mem_filter hsorted)
  exact ⟨k, hrow⟩

theorem reconcile_keeps {c : PayoutCall} {olderThanMs limit : Option Nat}
    (hc : ∃ olderThanMs limit, c = .reconcile olderThanMs limit) (sound : PayoutSound key s) :
    KeepsAll hash i key c (reconcile olderThanMs limit) s := by
  refine wp_except_bind.2 (wp_ask.2 ?_)
  intro s' hR given hallowed
  obtain ⟨sound', -⟩ := hR sound
  rw [answer, deliver_read]
  refine ⟨(keepsSound_onward key).refl s', ?_⟩
  cases given.connection with
  | unheard | down => trivial
  | heard =>
    apply resolveIntents_keeps hc _ _ sound'
    intro intent hmem txHash hhash
    obtain ⟨k, hrow⟩ := exists_of_unresolved hmem
    rw [sound'.named k intent hrow]
    exact sound'.recorded k intent txHash hrow hhash

theorem keepsSound_build : KeepsSound key s (s.build i txHash) := by
  refine keepsSound_of_grows (by rfl) (by rfl)
    ⟨fun _ _ => id, fun j txHash' hj => ?_, fun _ _ => id⟩
  by_cases h : j = i
  · subst h
    simp [Payouts.build, hj]
  · simpa [Payouts.build, h] using hj

theorem releaseMilestone_keeps {c : PayoutCall} (request : ReleaseRequest) :
    KeepsAll config.hash i key c (releaseMilestone config request) s := by
  apply wp_releaseMilestone (keepsSound_onward key)
  · intro s' hR trade milestone walletAddress
    apply (claim_keeps _).mono
    intro r s'' _
    apply wp_respondClaimed (keepsSound_onward key)
    · exact fun _ _ _ _ _ _ _ => ⟨keepsSound_build, trivial⟩
    · exact fun _ _ _ _ => trivial
  · exact fun _ _ _ _ => trivial

theorem job_keeps {c : PayoutCall} (sound : PayoutSound key s) (warranted : Warranted s c) :
    Wp (answer config.hash i) (KeepsSound key) (SparesIntent key c) (fun _ _ => True)
      (c.job config) s := by
  cases c with
  | claim input => exact wp_map.2 (claim_keeps input)
  | recordSubmission k txHash => exact wp_map.2 (recordSubmission_keeps sound warranted)
  | confirm k txHash => exact wp_map.2 (confirm_keeps sound warranted)
  | fail k reason => exact wp_map.2 (fail_keeps sound fun hk => hk ▸ warranted)
  | reconcile olderThanMs limit =>
    exact wp_map.2 (reconcile_keeps ⟨olderThanMs, limit, rfl⟩ sound)
  | releaseMilestone request => exact wp_map.2 (releaseMilestone_keeps request)

theorem drift_keeps (e : PayoutChange) : KeepsSound key s (e.apply s) := by
  cases e with
  | elapse ms => exact keepsSound_of_grows rfl rfl ⟨fun _ _ => id, fun _ _ => id, fun _ _ => id⟩
  | edit trades schedule =>
    exact keepsSound_of_grows rfl rfl ⟨fun _ _ => id, fun _ _ => id, fun _ _ => id⟩
  | settle txHash applied =>
    refine keepsSound_of_grows (by rfl) (by rfl)
      ⟨fun _ _ => id, fun _ _ => id, fun txHash' applied' h => ?_⟩
    by_cases hsame : txHash' = txHash
    · subst hsame
      simp [PayoutChange.apply, h]
    · simpa [PayoutChange.apply, hsame] using h

/-! ## Whole runs -/

/-- No intent whose transaction applies in the run is marked as failed at any time. -/
def AppliedNeverFailed (config : PayoutConfig) (s : Payouts) (as : List PayoutStep) : Prop :=
  ∀ key, (run (payouts config) (.fresh s) as).shared.Applied key →
    ∀ before, before <+: as → ¬ (run (payouts config) (.fresh s) before).shared.Failed key

theorem failed_of_sweepsAway {a : PayoutStep} (h : SweepsAway key w a) :
    (step (payouts config) w a).shared.Failed key := by
  cases a with
  | advance i given =>
    obtain ⟨hc, hrow, olderThanMs, limit, next, found⟩ := h
    obtain ⟨row, hrow⟩ := Option.isSome_iff_exists.1 hrow
    have hput : (answer config.hash i (.updateIntent key (.failed neverSubmitted)) given
        w.shared).2 =
          w.shared.put key ((IntentUpdate.failed neverSubmitted).apply w.shared.now row) := by
      rw [answer, Payouts.updateIntent, hrow]
      cases hgiven : given.connection with
      | down => exact absurd hgiven hc
      | heard | unheard => rfl
    simp only [step, found]
    rw [show (payouts config).serve = answer config.hash from rfl, hput]
    simp [Payouts.Failed, Payouts.put, IntentUpdate.apply]
  | call | crash | outside => exact h.elim

theorem permits_of_honest {a : PayoutStep} (honest : Honest w a) (spares : ¬ SweepsAway key w a) :
    Permits (SparesIntent key) (fun c s => Warranted s c) (fun _ _ => True) w a := by
  cases a with
  | call c => exact honest
  | crash | outside => trivial
  | advance i given =>
    intro c op next found
    refine ⟨honest c op next found, ?_⟩
    rintro ⟨olderThanMs, limit, rfl⟩ rfl hreached
    by_contra hrow
    exact spares ⟨hreached, Option.isSome_iff_ne_none.2 hrow, olderThanMs, limit, next, found⟩

/-- The jobs of a run keep the invariant. -/
theorem run_keepsSound
    (ok : w.Ok (payouts config) (KeepsSound key) (SparesIntent key) fun _ _ _ _ => True)
    (sound : PayoutSound key w.shared)
    (permits : ∀ p ∈ trail (payouts config) w as,
      Permits (SparesIntent key) (fun c s => Warranted s c) (fun _ _ => True) p.1 p.2) :
    (run (payouts config) w as).Ok (payouts config) (KeepsSound key) (SparesIntent key)
        (fun _ _ _ _ => True) ∧
      KeepsSound key w.shared (run (payouts config) w as).shared := by
  apply run_keeps (keepsSound_onward key) (fun _ _ _ _ _ _ _ => trivial) ok permits
  · exact fun s _ e _ => drift_keeps e
  · exact fun s hR i c warranted => job_keeps (hR sound).1 warranted

/-- An applied payout is never marked as failed exactly when no sweep fails it for want of a
hash. -/
theorem applied_never_failed_iff (config : PayoutConfig) (s : Payouts) (as : List PayoutStep)
    (start : s.Start)
    (honest : ∀ p ∈ trail (payouts config) (.fresh s) as, Honest p.1 p.2) :
    AppliedNeverFailed config s as ↔
      ∀ key, (run (payouts config) (.fresh s) as).shared.Applied key →
        ∀ p ∈ trail (payouts config) (.fresh s) as, ¬ SweepsAway key p.1 p.2 := by
  constructor
  · rintro hnever key happlied ⟨w, a⟩ hp hsweeps
    obtain ⟨before, later, rfl, rfl⟩ := Machine.exists_append_of_mem_trail _ hp
    apply hnever key happlied (before ++ [a]) ⟨later, by simp⟩
    rw [run, Machine.run_snoc]
    exact failed_of_sweepsAway hsweeps
  · rintro hspares key happlied before ⟨later, rfl⟩ hfailed
    have hpermits : ∀ p ∈ trail (payouts config) (.fresh s) (before ++ later),
        Permits (SparesIntent key) (fun c s => Warranted s c) (fun _ _ => True) p.1 p.2 :=
      fun p hp => permits_of_honest (honest p hp) (hspares key happlied p hp)
    rw [trail, Machine.trail_append] at hpermits
    have hsound : PayoutSound key s := .of_start start
    have hfresh : (World.fresh s).Ok (payouts config) (KeepsSound key) (SparesIntent key)
        fun _ _ _ _ => True := by
      intro i c job found
      simp [World.fresh] at found
    obtain ⟨hok, hbefore⟩ := run_keepsSound hfresh hsound
      fun p hp => hpermits p (List.mem_append_left _ hp)
    obtain ⟨hsound', -⟩ := hbefore hsound
    obtain ⟨-, hlater⟩ := run_keepsSound hok hsound'
      fun p hp => hpermits p (List.mem_append_right _ hp)
    -- The transaction has failed, for good.
    have hend := (hlater hsound').2.outcome (hsound'.failed hfailed)
    rw [run, Machine.run_append] at happlied
    cases hend.symm.trans happlied

/-- The transaction of a release is built and applied, and then a sweep finds the intent without a
hash. -/
def Sample.appliedAndSwept : List PayoutStep :=
  .call (.releaseMilestone (Sample.request "k")) :: Sample.released 0 ++
    [.outside (.settle "xdr" true), .outside (.elapse 60001), .call (.reconcile none none),
      .advance 1 Sample.reached, .advance 1 Sample.reached]

theorem applied_of_swept : (run (payouts Sample.payoutConfig) (.fresh Sample.unpaid)
    Sample.appliedAndSwept).shared.Applied "k" := by
  decide

theorem failed_of_swept : (run (payouts Sample.payoutConfig) (.fresh Sample.unpaid)
    Sample.appliedAndSwept).shared.Failed "k" := by
  decide

/-- The payout was applied, and a sweep has marked it as failed. -/
theorem not_applied_never_failed :
    ¬ AppliedNeverFailed Sample.payoutConfig Sample.unpaid Sample.appliedAndSwept :=
  fun hnever => hnever "k" applied_of_swept _ List.prefix_rfl failed_of_swept

/-- It is a sweep for want of a hash: nothing else is wrong in this run. -/
theorem applied_never_failed_swept :
    ¬ ∀ key, (run (payouts Sample.payoutConfig) (.fresh Sample.unpaid)
        Sample.appliedAndSwept).shared.Applied key →
      ∀ p ∈ trail (payouts Sample.payoutConfig) (.fresh Sample.unpaid) Sample.appliedAndSwept,
        ¬ SweepsAway key p.1 p.2 := by
  intro hspares
  have hnever := (applied_never_failed_iff Sample.payoutConfig Sample.unpaid
    Sample.appliedAndSwept ⟨fun _ => rfl, fun _ => rfl⟩ (by decide)).2 hspares
  exact hnever "k" applied_of_swept _ List.prefix_rfl failed_of_swept

end Amana.Backend
