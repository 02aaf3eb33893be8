import Amana.Backend.MilestoneRelease

/-!
# Confirmed and failed payouts

The updates of an intent do not look at its status.  A confirmed payout is final as long as no
submission and no failure is recorded on it any more (`confirmed_final_iff`).  A failed one keeps
its row, and with it its key: no later claim of the key is granted (`never_granted_of_failed`).
-/

namespace Amana.Backend

open Lib Lib.Database Lib.Jobs

variable {config : PayoutConfig} {hash sha256 : String → String} {i : Nat} {key : String}
  {s s' : Payouts} {w : PayoutWorld} {as : List PayoutStep}

/-- The intent under a key is confirmed. -/
def Payouts.Confirmed (s : Payouts) (key : String) : Prop :=
  (s.intents key).map PayoutIntent.status = some .confirmed

instance (s : Payouts) (key : String) : Decidable (s.Confirmed key) :=
  inferInstanceAs (Decidable (_ = _))

/-- The update sets another status than `CONFIRMED`. -/
def IntentUpdate.unsettles : IntentUpdate → Bool
  | .submitted _ | .failed _ => true
  | .duplicate | .confirmed _ => false

/-- A submission or a failure reaches the intent under the key. -/
def unsettles (key : String) (given : PayoutInput) : PayoutOp → Bool
  | .updateIntent k data => k = key && data.unsettles && given.connection ≠ .down
  | _ => false

/-- The step does not record a submission or a failure on the intent while it is confirmed. -/
def LeavesConfirmed (key : String) (w : PayoutWorld) (a : PayoutStep) : Prop :=
  Permits (fun _ op given s => unsettles key given op = true → ¬ s.Confirmed key)
    (fun _ _ => True) (fun _ _ => True) w a

/-- Steps that leave the intent confirmed go along this relation. -/
def KeepsConfirmed (key : String) (s s' : Payouts) : Prop := s.Confirmed key → s'.Confirmed key

theorem keepsConfirmed_onward (key : String) : Onward (KeepsConfirmed key) :=
  ⟨fun _ h => h, fun h h' confirmed => h' (h confirmed)⟩

theorem confirmed_apply {data : IntentUpdate} {row : PayoutIntent} {now : Nat}
    (h : row.status = .confirmed) (keeps : data.unsettles = false) :
    (data.apply now row).status = .confirmed := by
  cases data with
  | duplicate => exact h
  | confirmed => rfl
  | submitted | failed => cases keeps

/-- Only a submission or a failure makes a confirmed intent unconfirmed. -/
theorem Payouts.Confirmed.answered {op : PayoutOp} {given : PayoutInput} (h : s.Confirmed key)
    (keeps : unsettles key given op = false) : (answer hash i op given s).2.Confirmed key := by
  unfold Payouts.Confirmed at h ⊢
  have heffect := answer_effect hash i op given s
  generalize (answer hash i op given s).2 = s' at heffect ⊢
  cases heffect with
  | nothing | build => exact h
  | create data k free reached =>
    have hne : key ≠ k := by
      rintro rfl
      rw [free] at h
      cases h
    simpa [Payouts.insert, hne] using h
  | update k data row found reached =>
    by_cases hk : key = k
    · subst hk
      have hdata : data.unsettles = false := by simpa [unsettles, reached] using keeps
      rw [found] at h
      simpa [Payouts.put] using confirmed_apply (by simpa using h) hdata
    · simpa [Payouts.put, hk] using h

theorem keepsConfirmed_answer {op : PayoutOp} {given : PayoutInput}
    (leaves : unsettles key given op = true → ¬ s.Confirmed key) :
    KeepsConfirmed key s (answer hash i op given s).2 := by
  intro h
  apply h.answered
  by_contra hunsettles
  exact leaves (by simpa using hunsettles) h

/-- Whatever a job does, it keeps a confirmed intent that it leaves alone. -/
theorem wp_of_leaves {α : Type} {Φ : α → Payouts → Prop} (returns : ∀ r s, Φ r s)
    (job : Job PayoutAnswer α) (s : Payouts) :
    Wp (answer hash i) (KeepsConfirmed key)
      (fun op given s => unsettles key given op = true → ¬ s.Confirmed key) Φ job s := by
  refine wp_of_keeps ?_ returns job s
  intro op given s leaves
  exact keepsConfirmed_answer leaves

theorem Payouts.Confirmed.drifted {e : PayoutChange} (h : s.Confirmed key) :
    (e.apply s).Confirmed key := by
  cases e <;> exact h

/-- A confirmed intent stays confirmed. -/
def StaysConfirmed (config : PayoutConfig) (key : String) (w : PayoutWorld)
    (as : List PayoutStep) : Prop :=
  ∀ before later, before <+: later → later <+: as →
    (run (payouts config) w before).shared.Confirmed key →
      (run (payouts config) w later).shared.Confirmed key

/-- A claim on the key raises `DuplicatePayoutError`, if its connection is not lost. -/
def Refuses (sha256 : String → String) (key : String) : PayoutCall → PayoutReturn → Prop
  | .claim input, r => input.key sha256 = key →
    (∃ intent, intent.status = .confirmed ∧ r = .claimed (.error (.duplicatePayout intent))) ∨
      r = .claimed (.error (.fault .lost))
  | _, _ => True

/-- Once the intent is confirmed, every claim on the key that comes in later is refused. -/
def RefusesLater (config : PayoutConfig) (key : String) (w : PayoutWorld)
    (as : List PayoutStep) : Prop :=
  ∀ before, before <+: as → (run (payouts config) w before).shared.Confirmed key →
    ∀ i c job r, (run (payouts config) w before).workers.length ≤ i →
      (run (payouts config) w as).workers[i]? = some (c, some job) → job.result = some r →
        Refuses config.sha256 key c r

theorem claim_refused {input : PayoutIntentInput}
    {allowed : PayoutOp → PayoutInput → Payouts → Prop} (confirmed : s.Confirmed (input.key sha256)) :
    Wp (answer hash i) (KeepsConfirmed (input.key sha256)) allowed
      (fun r _ => Refuses sha256 (input.key sha256) (.claim input) (.claimed r))
      (claim sha256 input).run s := by
  apply wp_claim (keepsConfirmed_onward _)
  · intro s' given hR hallowed free _
    have habsent := hR confirmed
    rw [Payouts.Confirmed, free] at habsent
    cases habsent
  · intro s' given row hR hallowed hrow _
    have hstatus : row.status = .confirmed := by
      have := hR confirmed
      rw [Payouts.Confirmed, hrow] at this
      simpa using this
    refine ⟨fun _ => ?_, fun _ => .inl ⟨IntentUpdate.duplicate.apply s'.now row, hstatus, ?_⟩⟩
    · simp [Payouts.Confirmed, Payouts.put, IntentUpdate.apply, hstatus]
    · rw [foundResult, if_pos]
      simp [terminalStatuses, IntentUpdate.apply, hstatus]
  · intro s' hR free
    have habsent := hR confirmed
    rw [Payouts.Confirmed, free] at habsent
    cases habsent
  · exact fun s' _ _ => .inr rfl

/-- A step that leaves a confirmed intent alone. -/
theorem confirmed_step {a : PayoutStep} (leaves : LeavesConfirmed key w a)
    (h : w.shared.Confirmed key) : (step (payouts config) w a).shared.Confirmed key := by
  refine shared_step (P := fun s : Payouts => s.Confirmed key) h ?_ ?_
  · rintro i given c op next rfl found
    exact keepsConfirmed_answer (leaves c op next found) h
  · intro e _
    exact h.drifted

/-- A submission or a failure that reaches a confirmed intent makes it unconfirmed. -/
theorem not_confirmed_of_unsettles {op : PayoutOp} {given : PayoutInput}
    (h : s.Confirmed key) (unsettles : unsettles key given op = true) :
    ¬ (answer hash i op given s).2.Confirmed key := by
  obtain ⟨row, hrow, -⟩ := Option.map_eq_some_iff.1 h
  cases op with
  | updateIntent k data =>
    obtain ⟨⟨rfl, hdata⟩, hc⟩ : (k = key ∧ data.unsettles = true) ∧ given.connection ≠ .down := by
      simpa [Backend.unsettles] using unsettles
    have hput : (answer hash i (.updateIntent k data) given s).2 =
        s.put k (data.apply s.now row) := by
      rw [answer, Payouts.updateIntent, hrow]
      cases hgiven : given.connection with
      | down => exact absurd hgiven hc
      | heard | unheard => rfl
    rw [hput]
    cases data with
    | submitted | failed => simp [Payouts.Confirmed, Payouts.put, IntentUpdate.apply]
    | duplicate | confirmed => cases hdata
  | _ => cases unsettles

/-- A confirmed payout is final, and its key closed, exactly as long as no submission and no failure
is recorded on it any more. -/
theorem confirmed_final_iff (config : PayoutConfig) (key : String) (w : PayoutWorld)
    (as : List PayoutStep) :
    StaysConfirmed config key w as ∧ RefusesLater config key w as ↔
      ∀ p ∈ trail (payouts config) w as, LeavesConfirmed key p.1 p.2 := by
  constructor
  · rintro ⟨hstays, -⟩ ⟨w', a⟩ hp
    obtain ⟨before, later, rfl, rfl⟩ := Machine.exists_append_of_mem_trail _ hp
    cases a with
    | call | crash | outside => trivial
    | advance i given =>
      intro c op next found hunsettles hconfirmed
      have hafter := hstays before (before ++ [.advance i given]) ⟨_, rfl⟩ ⟨later, by simp⟩
        hconfirmed
      rw [run, Machine.run_snoc] at hafter
      simp only [step, found] at hafter
      exact not_confirmed_of_unsettles hconfirmed hunsettles hafter
  · intro hleaves
    have hsuffix {before later : List PayoutStep} (h : before ++ later <+: as) :
        ∀ p ∈ trail (payouts config) (run (payouts config) w before) later,
          LeavesConfirmed key p.1 p.2 := by
      intro p hp
      apply hleaves p
      apply Machine.trail_of_isPrefix _ h
      rw [Machine.trail_append]
      exact List.mem_append_right _ hp
    constructor
    · rintro before _ ⟨rest, rfl⟩ hlater hconfirmed
      rw [run, Machine.run_append]
      exact Machine.run_invariant _ (P := fun w => w.shared.Confirmed key) hconfirmed
        fun p hp h => confirmed_step (hsuffix hlater p hp) h
    · rintro before ⟨rest, rfl⟩ hconfirmed i c job r hnew found hresult
      rw [run, Machine.run_append] at found
      apply run_returns_later (keepsConfirmed_onward key)
        (ok_of_keeps (fun _ _ _ _ _ hleaves => keepsConfirmed_answer hleaves) _)
        (hsuffix List.prefix_rfl) (fun s _ e _ h => h.drifted) ?_ hnew found hresult
      intro s hR j c _
      cases c with
      | claim input =>
        refine wp_map.2 ?_
        by_cases hkey : input.key config.sha256 = key
        · subst hkey
          exact claim_refused (hR hconfirmed)
        · apply wp_of_leaves
          exact fun r s hsame => absurd hsame hkey
      | _ => exact wp_of_leaves (fun _ _ => trivial) _ s

/-! A sweep reads the intent before it is confirmed, and fails it afterwards. -/

/-- The payout is claimed, and confirmed after a sweep has read it. -/
def Sample.confirmedInSweep : List PayoutStep :=
  [.call (.claim Sample.payoutInput), .advance 0 Sample.reached, .outside (.elapse 60001),
    .call (.reconcile none none), .advance 1 Sample.reached,
    .call (.confirm "k" (some "tx")), .advance 2 Sample.reached]

/-- The sweep goes on, and the payout is claimed again. -/
def Sample.staleSweep : List PayoutStep :=
  [.advance 1 Sample.reached, .call (.claim Sample.payoutInput), .advance 3 Sample.reached,
    .advance 3 Sample.reached]

/-- The confirmed payout has failed in the end, and the second claim of it is not refused. -/
theorem not_final_of_stale_sweep :
    (run (payouts Sample.payoutConfig) (.fresh Sample.unpaid) Sample.confirmedInSweep).shared.Confirmed
        "k" ∧
      ((run (payouts Sample.payoutConfig) (.fresh Sample.unpaid)
          (Sample.confirmedInSweep ++ Sample.staleSweep)).shared.intents "k").map
            PayoutIntent.status = some .failed ∧
      ¬ (StaysConfirmed Sample.payoutConfig "k" (.fresh Sample.unpaid)
          (Sample.confirmedInSweep ++ Sample.staleSweep) ∧
        RefusesLater Sample.payoutConfig "k" (.fresh Sample.unpaid)
          (Sample.confirmedInSweep ++ Sample.staleSweep)) := by
  have hbefore : (run (payouts Sample.payoutConfig) (.fresh Sample.unpaid)
      Sample.confirmedInSweep).shared.Confirmed "k" := by
    decide
  have hafter : ((run (payouts Sample.payoutConfig) (.fresh Sample.unpaid)
      (Sample.confirmedInSweep ++ Sample.staleSweep)).shared.intents "k").map
        PayoutIntent.status = some .failed := by
    decide
  refine ⟨hbefore, hafter, ?_⟩
  rintro ⟨hstays, -⟩
  have hconfirmed := hstays Sample.confirmedInSweep _ ⟨_, rfl⟩ List.prefix_rfl hbefore
  cases hafter.symm.trans hconfirmed

/-! ## Failed payouts -/

/-- There is an intent under the key. -/
def Payouts.Claimed (s : Payouts) (key : String) : Prop := (s.intents key).isSome = true

instance (s : Payouts) (key : String) : Decidable (s.Claimed key) :=
  inferInstanceAs (Decidable (_ = _))

/-- What a call returns grants the key: to its caller, or to the release of a milestone. -/
def grants (sha256 : String → String) (key : String) : PayoutCall → PayoutReturn → Bool
  | .claim input, .claimed (.ok result) => input.key sha256 = key && !result.duplicate
  | .releaseMilestone _, .responded (.ok (.ok _ k)) => k = key
  | _, _ => false

/-- How many of the calls that came in after the first `n` were granted the key. -/
def grantsAfter (sha256 : String → String) (key : String) (n : Nat) (w : PayoutWorld) : Nat :=
  (w.workers.drop n).countP fun p => (p.2.bind Job.result).any (grants sha256 key p.1)

/-- The step marks the intent under the key as failed. -/
def Fails (key : String) (w : PayoutWorld) : PayoutStep → Prop
  | .advance i given => given.connection ≠ .down ∧ w.shared.Claimed key ∧ ∃ c reason next,
      w.workers[i]? = some (c, some (.ask (.updateIntent key (.failed reason)) next))
  | _ => False

/-- Intents are never deleted. -/
def KeepsClaimed (key : String) (s s' : Payouts) : Prop := s.Claimed key → s'.Claimed key

theorem keepsClaimed_onward (key : String) : Onward (KeepsClaimed key) :=
  ⟨fun _ h => h, fun h h' claimed => h' (h claimed)⟩

theorem keepsClaimed_insert {k : String} {row : PayoutIntent} :
    KeepsClaimed key s (s.insert i k row) := by
  intro h
  by_cases hk : key = k
  · simp [Payouts.Claimed, Payouts.insert, hk]
  · simpa [Payouts.Claimed, Payouts.insert, hk] using h

theorem keepsClaimed_put {k : String} {row : PayoutIntent} : KeepsClaimed key s (s.put k row) := by
  intro h
  by_cases hk : key = k
  · simp [Payouts.Claimed, Payouts.put, hk]
  · simpa [Payouts.Claimed, Payouts.put, hk] using h

theorem keepsClaimed_answer {op : PayoutOp} {given : PayoutInput} :
    KeepsClaimed key s (answer hash i op given s).2 := by
  have heffect := answer_effect hash i op given s
  generalize (answer hash i op given s).2 = s' at heffect
  cases heffect with
  | nothing | build => exact id
  | create => exact keepsClaimed_insert
  | update => exact keepsClaimed_put

/-- What a claim grants it creates, under a key that is not taken. -/
theorem claim_of_claimed {input : PayoutIntentInput} (claimed : s.Claimed key) :
    Wp (answer hash i) (KeepsClaimed key) (fun _ _ _ => True)
      (fun r _ => ∀ result, r = .ok result → result.duplicate = false →
        result.intent.idempotencyKey ≠ key ∧ input.key sha256 ≠ key)
      (claim sha256 input).run s := by
  have hfree {s' : Payouts} (hR : KeepsClaimed key s s')
      (free : s'.intents (input.key sha256) = none) : input.key sha256 ≠ key := by
    rintro rfl
    have htaken := hR claimed
    rw [Payouts.Claimed, free] at htaken
    cases htaken
  apply wp_claim (keepsClaimed_onward key)
  · intro s' given hR _ free _
    refine ⟨keepsClaimed_insert, ?_⟩
    rintro result hresult -
    cases hresult
    exact ⟨hfree hR free, hfree hR free⟩
  · intro s' given row hR _ hrow _
    refine ⟨keepsClaimed_put, ?_⟩
    intro result hresult hfresh
    rw [foundResult] at hresult
    split at hresult
    · cases hresult
    · cases hresult
      cases hfresh
  · intro s' hR _ result hresult
    cases hresult
  · intro s' hR result hresult
    cases hresult

/-- A claim on the key counts as a duplicate, or raises an error. -/
def Declines (sha256 : String → String) (key : String) : PayoutCall → PayoutReturn → Prop
  | .claim input, r => input.key sha256 = key →
    (∃ intent, r = .claimed (.ok ⟨intent, true⟩)) ∨ ∃ e, r = .claimed (.error e)
  | _, _ => True

/-- No call is granted a key that is taken. -/
theorem job_of_claimed (c : PayoutCall) (claimed : s.Claimed key) :
    Wp (answer config.hash i) (KeepsClaimed key) (fun _ _ _ => True)
      (fun r _ => grants config.sha256 key c r = false ∧ Declines config.sha256 key c r)
      (c.job config) s := by
  cases c with
  | claim input =>
    refine wp_map.2 ((claim_of_claimed claimed).mono fun r s₁ h => ?_)
    match r with
    | .error e => exact ⟨rfl, fun _ => .inr ⟨e, rfl⟩⟩
    | .ok ⟨intent, true⟩ => exact ⟨by simp [grants], fun _ => .inl ⟨intent, rfl⟩⟩
    | .ok ⟨intent, false⟩ =>
      have hkey := (h _ rfl rfl).2
      exact ⟨by simp [grants, hkey], fun hsame => absurd hsame hkey⟩
  | releaseMilestone request =>
    apply wp_map.2
    have hother (r : Except PayoutError ReleaseResponse) (s₁ : Payouts) (h : Unpaid r) :
        grants config.sha256 key (.releaseMilestone request) (.responded r) = false ∧
          Declines config.sha256 key (.releaseMilestone request) (.responded r) := by
      refine ⟨?_, trivial⟩
      match r with
      | .ok (.ok xdr k) => exact absurd rfl (h xdr k)
      | .ok (.error ..) | .ok (.inProgress ..) | .ok (.alreadyReleased ..) | .error _ => rfl
    apply wp_releaseMilestone (keepsClaimed_onward key)
    · intro s₁ hR trade milestone walletAddress
      refine (claim_of_claimed (hR claimed)).mono fun r s₂ h => ?_
      apply wp_respondClaimed (keepsClaimed_onward key)
      · rintro intent rfl s₃ given xdr _ _
        refine ⟨id, ?_, trivial⟩
        simpa [grants] using (h _ rfl rfl).1
      · exact fun r s₃ _ => hother r s₃
    · exact fun r s₁ _ => hother r s₁
  | recordSubmission | confirm | fail | reconcile =>
    apply wp_map.2
    refine wp_of_keeps ?_ ?_ _ s
    · intro op given s _
      exact keepsClaimed_answer
    · intro r s
      exact ⟨rfl, trivial⟩

/-- Where the key is taken, the calls that come in are granted nothing. -/
theorem grantsAfter_of_claimed (config : PayoutConfig) (w : PayoutWorld) (later : List PayoutStep)
    (claimed : w.shared.Claimed key) :
    grantsAfter config.sha256 key w.workers.length (run (payouts config) w later) = 0 ∧
      ∀ i c job r, w.workers.length ≤ i →
        (run (payouts config) w later).workers[i]? = some (c, some job) →
          job.result = some r → Declines config.sha256 key c r := by
  have hreturned : ∀ i c job r, w.workers.length ≤ i →
      (run (payouts config) w later).workers[i]? = some (c, some job) → job.result = some r →
        grants config.sha256 key c r = false ∧ Declines config.sha256 key c r := by
    intro i c job r hlater found hresult
    apply run_returns_later (keepsClaimed_onward key)
      (ok_of_keeps (fun _ _ _ _ _ _ => keepsClaimed_answer) _) (fun _ _ => permits_any) ?_ ?_ hlater
      found hresult
    · intro s _ e _ h
      cases e <;> exact h
    · exact fun s hR i c _ => job_of_claimed c (hR claimed)
  refine ⟨?_, fun i c job r hlater found hresult =>
    (hreturned i c job r hlater found hresult).2⟩
  apply List.countP_eq_zero.2
  intro p hp
  obtain ⟨j, hj⟩ := List.mem_iff_getElem?.1 hp
  rw [List.getElem?_drop] at hj
  obtain ⟨c, _ | job⟩ := p
  · simp
  · cases hresult : job.result with
    | none => simp [hresult]
    | some r =>
      have hdeclined := (hreturned _ c job r (Nat.le_add_right ..) hj hresult).1
      simp [hresult, hdeclined]

theorem claimed_of_fails {a : PayoutStep} (h : Fails key w a) :
    (step (payouts config) w a).shared.Claimed key := by
  cases a with
  | advance i given =>
    obtain ⟨-, hclaimed, c, reason, next, found⟩ := h
    simp only [step, found]
    exact keepsClaimed_answer hclaimed
  | call | crash | outside => exact h.elim

/-- Exactly one of the calls that come in after a failure is granted the key again. -/
def RetriedOnce (config : PayoutConfig) (key : String) (w : PayoutWorld) (before : List PayoutStep)
    (a : PayoutStep) (later : List PayoutStep) : Prop :=
  Fails key (run (payouts config) w before) a →
    grantsAfter config.sha256 key (run (payouts config) w (before ++ [a])).workers.length
      (run (payouts config) w (before ++ a :: later)) = 1

/-- After a failure no call is granted the key any more: a later claim that returns has counted as a
duplicate, or raised an error. -/
theorem never_granted_of_failed (config : PayoutConfig) (key : String) (w : PayoutWorld)
    (before : List PayoutStep) (a : PayoutStep) (later : List PayoutStep)
    (fails : Fails key (run (payouts config) w before) a) :
    ¬ RetriedOnce config key w before a later ∧
      grantsAfter config.sha256 key (run (payouts config) w (before ++ [a])).workers.length
        (run (payouts config) w (before ++ a :: later)) = 0 ∧
      ∀ i c job r, (run (payouts config) w (before ++ [a])).workers.length ≤ i →
        (run (payouts config) w (before ++ a :: later)).workers[i]? = some (c, some job) →
          job.result = some r → Declines config.sha256 key c r := by
  have hclaimed : (run (payouts config) w (before ++ [a])).shared.Claimed key := by
    rw [run, Machine.run_snoc]
    exact claimed_of_fails fails
  have hsplit : run (payouts config) w (before ++ a :: later) =
      run (payouts config) (run (payouts config) w (before ++ [a])) later := by
    rw [run, run, run, ← Machine.run_append, List.append_assoc, List.singleton_append]
  obtain ⟨hnone, hdeclines⟩ := grantsAfter_of_claimed config _ later hclaimed
  rw [← hsplit] at hnone hdeclines
  refine ⟨fun honce => ?_, hnone, hdeclines⟩
  have hone := honce fails
  omega

/-- A payout is claimed, and a sweep fails it. -/
def Sample.claimedAndSwept : List PayoutStep :=
  [.call (.claim Sample.payoutInput), .advance 0 Sample.reached, .outside (.elapse 60001),
    .call (.reconcile none none), .advance 1 Sample.reached]

/-- Two retries. -/
def Sample.retries : List PayoutStep :=
  [.call (.claim Sample.payoutInput), .advance 2 Sample.reached, .advance 2 Sample.reached,
    .call (.claim Sample.payoutInput), .advance 3 Sample.reached, .advance 3 Sample.reached]

theorem fails_of_sweep :
    Fails "k" (run (payouts Sample.payoutConfig) (.fresh Sample.unpaid) Sample.claimedAndSwept)
      (.advance 1 Sample.reached) :=
  ⟨by decide, by decide, .reconcile none none, neverSubmitted, _, rfl⟩

/-- Both retries of a payout that the sweep has failed are duplicates. -/
theorem never_granted_of_sweep :
    ¬ RetriedOnce Sample.payoutConfig "k" (.fresh Sample.unpaid) Sample.claimedAndSwept
      (.advance 1 Sample.reached) Sample.retries :=
  (never_granted_of_failed Sample.payoutConfig "k" (.fresh Sample.unpaid) Sample.claimedAndSwept
    (.advance 1 Sample.reached) Sample.retries fails_of_sweep).1

theorem not_retriedOnce :
    grantsAfter Sample.payoutConfig.sha256 "k" 2 (run (payouts Sample.payoutConfig)
        (.fresh Sample.unpaid)
        (Sample.claimedAndSwept ++ .advance 1 Sample.reached :: Sample.retries)) = 0 ∧
      ¬ RetriedOnce Sample.payoutConfig "k" (.fresh Sample.unpaid) Sample.claimedAndSwept
        (.advance 1 Sample.reached) Sample.retries := by
  have hnone : grantsAfter Sample.payoutConfig.sha256 "k" 2 (run (payouts Sample.payoutConfig)
      (.fresh Sample.unpaid)
      (Sample.claimedAndSwept ++ .advance 1 Sample.reached :: Sample.retries)) = 0 := by
    decide
  refine ⟨hnone, fun honce => ?_⟩
  cases hnone.symm.trans (honce fails_of_sweep)

end Amana.Backend
