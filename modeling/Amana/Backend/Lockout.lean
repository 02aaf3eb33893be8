import Amana.Backend.AuthRoutes
import Amana.Lib.Noted

/-!
# Locking a wallet out

A verification looks at the count of failures before it takes the challenge, and a failed one reads
the count again and writes the next one.  All of these are commands of their own: other verifications
can fail in between.  Where none does, no signature is evaluated any more once the threshold is
reached (`locks_out`).
-/

namespace Amana.Backend.Lockout

open Lib Lib.Database Lib.Expiring Lib.Jobs AuthService

/-- The count of failures, as a verification reads it. -/
def failures (identity : String) (s : AuthState) : Nat :=
  parseFailures ((s.keys.live s.now (failureKey identity)).map Entry.value)

/-- How many of the times are within the last failure window. -/
def recent (now : Nat) (times : List Nat) : Nat :=
  times.countP fun time => now ≤ time + 1000 * authFailureWindowSeconds

/-! ## Notes of the attempts -/

/-- Whether the signature is valid that a worker evaluates once it is answered. -/
def evaluates (config : AuthConfig) (c : AuthCall) (op : AuthOp) (given : AuthInput)
    (s : AuthState) : Option Bool :=
  match c, op with
  | .verify walletAddress signedChallenge, .redis (.getdel key) =>
    if given.connection = .heard then
      (parseChallenge ((s.keys.live s.now key).map Entry.value)).bind fun challenge =>
        (config.fromPublicKey walletAddress).map fun verify => verify challenge signedChallenge
    else none
  | _, _ => none

/-- The attempts since the last success.  A verification succeeds when it ends the count. -/
structure Attempts where
  /-- The count that each worker has read last. -/
  found : Nat → Nat
  /-- Who has evaluated an invalid signature that is not counted yet, and when. -/
  uncounted : List (Nat × Nat)
  /-- When the invalid signatures were evaluated that are counted. -/
  counted : List Nat

/-- When invalid signatures were evaluated. -/
def Attempts.evaluated (t : Attempts) : List Nat := t.uncounted.map Prod.snd ++ t.counted

/-- The failure of worker `i` is counted. -/
def Attempts.count (i : Nat) (t : Attempts) : Attempts :=
  match t.uncounted.find? fun failure => failure.1 = i with
  | some failure =>
    { t with
      uncounted := t.uncounted.eraseP fun failure => failure.1 = i
      counted := failure.2 :: t.counted }
  | none => t

def Attempts.none : Attempts := ⟨fun _ => 0, [], []⟩

/-- What is noted when worker `i` is answered. -/
def note (config : AuthConfig) (identity : String) (c : AuthCall) (i : Nat) (op : AuthOp)
    (given : AuthInput) (s : AuthState) (t : Attempts) : Attempts :=
  match op with
  | .redis (.get key) =>
    if key = failureKey identity then
      { t with found := Function.update t.found i (failures identity s) }
    else t
  | .redis (.getdel _) =>
    if evaluates config c op given s = some false then
      { t with uncounted := (i, s.now) :: t.uncounted }
    else t
  | .redis (.setEx key ..) =>
    if key = failureKey identity ∧ given.connection ≠ .down then t.count i else t
  | .redis (.del key) =>
    if key = failureKey identity ∧ given.connection ≠ .down then
      { t with uncounted := [], counted := [] }
    else t
  | _ => t

/-- The calls of authentication, with the notes. -/
abbrev attempt (config : AuthConfig) (identity : String) :
    AuthWorld × Attempts → AuthStep → AuthWorld × Attempts :=
  stepNoted (auth config) (note config identity)

/-- The notes make no difference to the calls. -/
theorem run_attempt (config : AuthConfig) (identity : String) (s : AuthState) (as : List AuthStep) :
    (Machine.run (attempt config identity) (.fresh s, .none) as).1 = run (auth config) (.fresh s) as :=
  run_noted (.fresh s, Attempts.none) as

/-- Whether the signature is valid that a step evaluates. -/
def evaluatedBy (config : AuthConfig) (w : AuthWorld) : AuthStep → Option Bool
  | .advance i given => (w.waiting i).bind fun p => evaluates config p.1 p.2 given w.shared
  | _ => none

/-- A wallet's challenge or its verification. -/
def Attempted (identity : String) : AuthCall → Prop
  | .generateChallenge walletAddress | .verify walletAddress _ =>
    Text.toLowerCase walletAddress = identity
  | _ => False

/-- No failure that is counted is lost, and once the threshold is reached within a failure window,
no signature is evaluated. -/
def LocksOutAt (config : AuthConfig) (identity : String) (p : AuthWorld × Attempts) (a : AuthStep) :
    Prop :=
  recent p.1.shared.now p.2.counted ≤ failures identity p.1.shared ∧
    ((evaluatedBy config p.1 a).isSome = true →
      recent p.1.shared.now p.2.evaluated < authLockoutThreshold)

/-- The wallet is locked out all along a run. -/
def LocksOut (config : AuthConfig) (identity : String) (s : AuthState) (as : List AuthStep) : Prop :=
  ∀ p ∈ Machine.trail (attempt config identity) (.fresh s, .none) as,
    LocksOutAt config identity p.1 p.2

/-- What worker `i` asks is not disturbed by the others: when a signature is evaluated, no failures
have come in since the worker has read the count, and when the count is written, it has not grown
since then. -/
def Undisturbed (config : AuthConfig) (identity : String) (c : AuthCall) (i : Nat) (op : AuthOp)
    (given : AuthInput) (s : AuthState) (t : Attempts) : Prop :=
  match op with
  | .redis (.getdel _) => (evaluates config c op given s).isSome = true →
      failures identity s + recent s.now (t.uncounted.map Prod.snd) ≤ t.found i
  | .redis (.setEx key ..) => key = failureKey identity → given.connection ≠ .down →
      failures identity s ≤ t.found i
  | _ => True

/-- The step is not disturbed. -/
def InTurn (config : AuthConfig) (identity : String) (p : AuthWorld × Attempts) : AuthStep → Prop
  | .advance i given =>
    ∀ waits ∈ p.1.waiting i,
      Undisturbed config identity waits.1 i waits.2 given p.1.shared p.2
  | _ => True

section Decidable

variable (config : AuthConfig) (identity : String)

instance (p : AuthWorld × Attempts) (a : AuthStep) : Decidable (LocksOutAt config identity p a) :=
  inferInstanceAs (Decidable (_ ∧ (_ → _)))

instance (s : AuthState) (as : List AuthStep) : Decidable (LocksOut config identity s as) :=
  inferInstanceAs (Decidable (∀ p ∈ Machine.trail _ _ as, LocksOutAt config identity p.1 p.2))

instance (c : AuthCall) (i : Nat) (op : AuthOp) (given : AuthInput) (s : AuthState) (t : Attempts) :
    Decidable (Undisturbed config identity c i op given s t) :=
  match op with
  | .redis (.getdel _) => inferInstanceAs (Decidable (_ → _))
  | .redis (.setEx ..) => inferInstanceAs (Decidable (_ → _ → _))
  | .redis (.get _) | .redis (.existsKey _) | .redis (.del _) | .redis (.incr _) | .redis (.ttl _)
  | .redis (.expire ..) | .redis (.sadd ..) | .redis (.srem ..) | .redis (.smembers _)
  | .now | .tokenVersion .. | .randomUUID | .randomBytes | .findOrCreateUser _ | .audit ..
  | .completed .. => .isTrue trivial

instance (p : AuthWorld × Attempts) : (a : AuthStep) → Decidable (InTurn config identity p a)
  | .advance i given =>
    match hwaits : p.1.waiting i with
    | some waits =>
      decidable_of_iff (Undisturbed config identity waits.1 i waits.2 given p.1.shared p.2)
        (by simp [InTurn, hwaits])
    | none => .isTrue (by simp [InTurn, hwaits])
  | .call _ | .crash _ | .outside _ => .isTrue trivial

end Decidable

/-! ## What an attempt asks -/

section Asking

variable {config : AuthConfig} {identity : String} {c : AuthCall} {i j : Nat} {op : AuthOp}
  {given : AuthInput} {s : AuthState × Attempts}

theorem challengeKey_ne_failureKey (identity : String) :
    challengeKey identity ≠ failureKey identity := ne_of_head rfl rfl (by decide)

/-- What attempt `i` asks: a challenge is taken only where the count was below the threshold, and what
is written in place of the count is one more than what was read, and lasts for the failure window. -/
def Asks (identity : String) (i : Nat) (op : AuthOp) (_ : AuthInput) (s : AuthState × Attempts) :
    Prop :=
  match op with
  | .redis (.get _) => True
  | .redis (.getdel key) => key = challengeKey identity ∧ s.2.found i < authLockoutThreshold
  | .redis (.setEx key value seconds) => key = challengeKey identity ∨
      key = failureKey identity ∧ value = .number (s.2.found i + 1) ∧
        seconds = authFailureWindowSeconds
  | .redis (.del key) => key = failureKey identity
  | .redis _ => False
  | _ => True

/-- What attempt `i` relies on: nobody else reads its count. -/
def KeepsFound (i : Nat) (s s' : AuthState × Attempts) : Prop := s'.2.found i = s.2.found i

theorem keepsFound_onward (i : Nat) : Onward (KeepsFound i) where
  refl _ := rfl
  trans h h' := Eq.trans h' h

@[simp] theorem found_count (i : Nat) (t : Attempts) : (t.count i).found = t.found := by
  unfold Attempts.count
  split <;> rfl

theorem found_note (h : j ≠ i) (given : AuthInput) (s : AuthState) (t : Attempts) :
    (note config identity c i op given s t).found j = t.found j := by
  unfold note
  split
  · split
    · exact Function.update_of_ne h ..
    · rfl
  · split <;> rfl
  · split
    · rw [found_count]
    · rfl
  · split <;> rfl
  · rfl

/-- What is asked, whatever the answer is. -/
theorem does_ask (op : AuthOp) (asks : ∀ given s, Asks identity i op given s)
    {P : op.Res → AuthState × Attempts → Prop} (h : ∀ r s', P r s') :
    Does ((auth config).answer (note config identity) c i) (KeepsFound i) (fun _ _ _ => True)
      (Asks identity i) (Returns P) op.ask.run s :=
  does_authAsk op fun s' given _ => ⟨asks given s', fun r _ => h r _⟩

theorem does_issueToken (walletAddress : String) :
    Does ((auth config).answer (note config identity) c i) (KeepsFound i) (fun _ _ _ => True)
      (Asks identity i) (Returns fun _ _ => True) (issueToken config walletAddress).run s := by
  unfold issueToken
  split
  · trivial
  apply does_returns_bind.2
  apply does_ask .now (fun _ _ => trivial)
  intro now s₁
  apply does_returns_bind.2
  apply does_ask .randomUUID (fun _ _ => trivial)
  intro uuid s₂
  apply does_returns_bind.2
  refine Does.returns_tryCatch ?_ fun _ => ⟨_, rfl⟩
  apply does_returns_bind.2
  apply does_ask (.tokenVersion walletAddress true) (fun _ _ => trivial)
  intro raw s₃
  trivial

theorem does_acceptSignature {walletAddress : String}
    (wallet : Text.toLowerCase walletAddress = identity) :
    Does ((auth config).answer (note config identity) c i) (KeepsFound i) (fun _ _ _ => True)
      (Asks identity i) (Returns fun _ _ => True) (acceptSignature config walletAddress).run s := by
  unfold acceptSignature
  apply does_returns_bind.2
  apply does_ask (.redis (.del _)) (fun _ _ => congrArg failureKey wallet)
  intro _ s₁
  apply does_returns_bind.2
  apply does_ask (.findOrCreateUser walletAddress) (fun _ _ => trivial)
  rintro (error | _) s₂
  · trivial
  · exact does_issueToken walletAddress

/-- A signature is evaluated for a challenge that is taken. -/
theorem of_evaluates {walletAddress signedChallenge key : String} {valid : Bool}
    (h : evaluates config (.verify walletAddress signedChallenge) (.redis (.getdel key)) given s.1 =
      some valid) :
    ∃ raw challenge verify, (authAnswer (.redis (.getdel key)) given s.1).1 = .ok raw ∧
      parseChallenge raw = some challenge ∧ config.fromPublicKey walletAddress = some verify ∧
      verify challenge signedChallenge = valid := by
  rw [evaluates] at h
  split at h
  swap
  · cases h
  rename_i heard
  obtain ⟨challenge, hchallenge, h⟩ := Option.bind_eq_some_iff.1 h
  obtain ⟨verify, hverify, rfl⟩ := Option.map_eq_some_iff.1 h
  refine ⟨_, challenge, verify, ?_, hchallenge, hverify, rfl⟩
  rw [authAnswer, heard, RedisCommand.exec]
  cases hlive : s.1.keys.live s.1.now key with
  | none => rfl
  | some entry =>
    obtain ⟨value, deadline⟩ := entry
    rw [hlive] at hchallenge
    cases value with
    | text text => rfl
    | number n | session record | members members => cases hchallenge

/-- What is noted is what the verification goes by: it ends the count if the signature is valid, and
else reads it again. -/
theorem goes_on_of_evaluates {walletAddress signedChallenge : String} {raw : Option RedisValue}
    {valid : Bool} (below : parseFailures raw < authLockoutThreshold)
    (evaluated : evaluates config (.verify walletAddress signedChallenge)
      (.redis (.getdel (challengeKey (Text.toLowerCase walletAddress)))) given s.1 = some valid) :
    ∃ look, (AuthCall.verify walletAddress signedChallenge).job config =
        .ask (.redis (.get (failureKey (Text.toLowerCase walletAddress)))) look ∧
      ∃ take, look (.ok raw) =
        .ask (.redis (.getdel (challengeKey (Text.toLowerCase walletAddress)))) take ∧
      ∃ next, take (authAnswer (.redis (.getdel (challengeKey (Text.toLowerCase walletAddress)))) given
          s.1).1 =
        .ask (.redis (if valid then .del (failureKey (Text.toLowerCase walletAddress))
          else .get (failureKey (Text.toLowerCase walletAddress)))) next := by
  obtain ⟨taken, challenge, verify, htaken, hchallenge, hverify, rfl⟩ := of_evaluates evaluated
  have hbelow : ¬ authLockoutThreshold ≤ parseFailures raw := by omega
  rw [htaken]
  refine ⟨_, rfl, ?_⟩
  dsimp only [Except.mapError, Job.bind, ExceptT.bindCont]
  rw [if_neg hbelow]
  refine ⟨_, rfl, ?_⟩
  dsimp only [Except.mapError, Job.bind, ExceptT.bindCont]
  rw [hchallenge, hverify]
  dsimp only
  cases verify challenge signedChallenge with
  | true => exact ⟨_, rfl⟩
  | false => exact ⟨_, rfl⟩

theorem failures_of_get {s : AuthState} {raw : Option RedisValue}
    (h : (authAnswer (.redis (.get (failureKey identity))) given s).1 = .ok raw) :
    failures identity s = parseFailures raw := by
  obtain ⟨-, keys, hexec⟩ := heard_of_ok h
  rw [RedisCommand.exec] at hexec
  cases hplain : RedisCommand.plain (s.keys.live s.now (failureKey identity)) with
  | error fault =>
    rw [hplain] at hexec
    cases hexec
  | ok value =>
    rw [hplain] at hexec
    cases hexec
    rw [RedisCommand.eq_of_plain hplain, failures]

theorem found_of_get (config : AuthConfig) (identity : String) (c : AuthCall) (i : Nat)
    (given : AuthInput) (s : AuthState) (t : Attempts) :
    (note config identity c i (.redis (.get (failureKey identity))) given s t).found i =
      failures identity s := by
  simp [note]

theorem does_rejectSignature :
    Does ((auth config).answer (note config identity) c i) (KeepsFound i) (fun _ _ _ => True)
      (Asks identity i) (Returns fun _ _ => True) (rejectSignature identity).run s := by
  unfold rejectSignature
  apply does_returns_bind.2
  apply does_authAsk (.redis (.get _))
  intro s₁ given _
  refine ⟨trivial, fun raw hread => ?_⟩
  have hfound := (found_of_get config _ c i given s₁.1 s₁.2).trans (failures_of_get hread)
  apply does_returns_bind.2
  apply does_authAsk (.redis (.setEx ..))
  intro s₂ given hkept
  refine ⟨.inr ⟨rfl, ?_, ?_⟩, fun _ _ => trivial⟩
  · rw [hkept.trans hfound]
  · split <;> rfl

theorem does_verifySignature {walletAddress signedChallenge : String}
    (wallet : Text.toLowerCase walletAddress = identity) :
    Does ((auth config).answer (note config identity) c i) (KeepsFound i) (fun _ _ _ => True)
      (Asks identity i) (Returns fun _ _ => True)
      (verifySignatureAndIssueJWT config walletAddress signedChallenge).run s := by
  obtain rfl := wallet
  refine Does.returns_tryCatch ?_ (orElse_raises _)
  apply does_returns_bind.2
  apply does_authAsk (.redis (.get _))
  intro s₁ given _
  refine ⟨trivial, fun raw hread => ?_⟩
  have hfound := (found_of_get config _ c i given s₁.1 s₁.2).trans (failures_of_get hread)
  split
  · trivial
  rename_i hbelow
  apply does_returns_bind.2
  apply does_authAsk (.redis (.getdel _))
  intro s₂ given hkept
  refine ⟨⟨rfl, ?_⟩, fun challenge _ => ?_⟩
  · rw [hkept.trans hfound]
    omega
  split
  · trivial
  · trivial
  · split
    · exact does_acceptSignature rfl
    · exact does_rejectSignature

theorem does_generateChallenge {walletAddress : String}
    (wallet : Text.toLowerCase walletAddress = identity) :
    Does ((auth config).answer (note config identity) c i) (KeepsFound i) (fun _ _ _ => True)
      (Asks identity i) (Returns fun _ _ => True) (generateChallenge config walletAddress).run s := by
  unfold generateChallenge
  split
  · trivial
  refine Does.returns_tryCatch ?_ (orElse_raises _)
  apply does_returns_bind.2
  apply does_ask .randomBytes (fun _ _ => trivial)
  intro challenge s₁
  apply does_returns_bind.2
  apply does_ask (.redis (.setEx ..)) (fun _ _ => .inl (congrArg challengeKey wallet))
  intro _ s₂
  trivial

theorem does_job (attempted : Attempted identity c) (i : Nat) (s : AuthState × Attempts) :
    Does ((auth config).answer (note config identity) c i) (KeepsFound i) (fun _ _ _ => True)
      (Asks identity i) (fun _ _ => True) (c.job config) s := by
  cases c with
  | generateChallenge walletAddress =>
    exact does_map.2 ((does_generateChallenge attempted).mono fun _ _ _ => trivial)
  | verify walletAddress signedChallenge =>
    exact does_map.2 ((does_verifySignature attempted).mono fun _ _ _ => trivial)
  | _ => exact attempted.elim

end Asking

/-! ## Whole runs -/

section Runs

variable {config : AuthConfig} {identity : String} {c : AuthCall} {i : Nat} {op : AuthOp}
  {given : AuthInput} {s s' : AuthState × Attempts} {t : Attempts}

theorem recent_append (now : Nat) (times times' : List Nat) :
    recent now (times ++ times') = recent now times + recent now times' := List.countP_append

theorem recent_cons_le (now time : Nat) (times : List Nat) :
    recent now (time :: times) ≤ recent now times + 1 := by
  unfold recent
  rw [List.countP_cons]
  split <;> omega

theorem recent_later (now ms : Nat) (times : List Nat) :
    recent (now + ms) times ≤ recent now times := by
  apply List.countP_mono_left
  intro time _ hrecent
  simp only [decide_eq_true_eq] at hrecent ⊢
  omega

theorem failures_of_key {n deadline : Nat} {s : AuthState}
    (h : s.keys (failureKey identity) = some ⟨.number n, some deadline⟩) (live : s.now ≤ deadline) :
    failures identity s = n := by
  have hlive : s.keys.live s.now (failureKey identity) = some ⟨.number n, some deadline⟩ := by
    rw [Keys.live, h]
    simpa [Entry.alive] using live
  rw [failures, hlive]
  rfl

theorem failures_congr {s s' : AuthState} (now : s'.now = s.now)
    (key : s'.keys (failureKey identity) = s.keys (failureKey identity)) :
    failures identity s' = failures identity s := by
  rw [failures, failures, now, Keys.live_congr key]

theorem counted_count (i : Nat) (t : Attempts) :
    (t.count i).counted = t.counted ∨
      ∃ failure ∈ t.uncounted, (t.count i).counted = failure.2 :: t.counted := by
  unfold Attempts.count
  split
  · exact .inr ⟨_, List.mem_of_find?_eq_some ‹_›, rfl⟩
  · exact .inl rfl

theorem evaluated_count (i : Nat) (t : Attempts) : (t.count i).evaluated ⊆ t.evaluated := by
  have huncounted : (t.count i).uncounted ⊆ t.uncounted := by
    unfold Attempts.count
    split
    · exact List.eraseP_subset
    · exact fun _ => id
  intro time htime
  obtain h | h := List.mem_append.1 htime
  · exact List.mem_append_left _ (List.map_subset _ huncounted h)
  obtain hsame | ⟨failure, hfailure, hcounted⟩ := counted_count i t
  · exact List.mem_append_right _ (hsame ▸ h)
  · rw [hcounted] at h
    obtain rfl | h := List.mem_cons.1 h
    · exact List.mem_append_left _ (List.mem_map_of_mem hfailure)
    · exact List.mem_append_right _ h

/-- The failures that are counted are in the count, which lasts for their failure window. -/
structure Kept (identity : String) (s : AuthState × Attempts) : Prop where
  past : ∀ time ∈ s.2.evaluated, time ≤ s.1.now
  lasts : ∀ time ∈ s.2.counted, ∃ n deadline,
    s.1.keys (failureKey identity) = some ⟨.number n, some deadline⟩ ∧
      time + 1000 * authFailureWindowSeconds ≤ deadline
  counted : recent s.1.now s.2.counted ≤ failures identity s.1

theorem Kept.frame (h : Kept identity s) (now : s'.1.now = s.1.now)
    (key : s'.1.keys (failureKey identity) = s.1.keys (failureKey identity))
    (counted : s'.2.counted = s.2.counted)
    (past : ∀ time ∈ s'.2.evaluated, time ∈ s.2.evaluated ∨ time = s.1.now) : Kept identity s' where
  past time htime := by
    rw [now]
    obtain hold | rfl := past time htime
    · exact h.past time hold
    · exact Nat.le_refl _
  lasts := by
    rw [key, counted]
    exact h.lasts
  counted := by
    rw [now, counted, failures_congr now key]
    exact h.counted

/-- A failure is counted by a greater count. -/
theorem Kept.count {n : Nat} (h : Kept identity s) (i : Nat) (greater : failures identity s.1 < n) :
    Kept identity
      ({ s.1 with
          keys := s.1.keys.put (failureKey identity) (.number n)
            (some (s.1.now + 1000 * authFailureWindowSeconds)) }, s.2.count i) where
  past time htime := h.past time (evaluated_count i s.2 htime)
  lasts time htime := by
    have hpast := h.past time (evaluated_count i s.2 (List.mem_append_right _ htime))
    exact ⟨n, _, Keys.put_same .., by omega⟩
  counted := by
    show recent s.1.now (s.2.count i).counted ≤ _
    rw [failures_of_key (Keys.put_same ..) (Nat.le_add_right ..)]
    have hbefore := h.counted
    obtain hsame | ⟨failure, -, hcounted⟩ := counted_count i s.2
    · rw [hsame]
      omega
    · rw [hcounted]
      have hone := recent_cons_le s.1.now failure.2 s.2.counted
      omega

theorem Kept.elapse (h : Kept identity s) (ms : Nat) : Kept identity (s.1.elapse ms, s.2) where
  past time htime := (h.past time htime).trans (Nat.le_add_right ..)
  lasts := h.lasts
  counted := by
    by_cases hnone : recent (s.1.now + ms) s.2.counted = 0
    · exact hnone.trans_le (Nat.zero_le _)
    obtain ⟨time, htime, hrecent⟩ := List.countP_pos_iff.1 (Nat.pos_of_ne_zero hnone)
    have hlater : s.1.now + ms ≤ time + 1000 * authFailureWindowSeconds := of_decide_eq_true hrecent
    obtain ⟨n, deadline, hkey, hlasts⟩ := h.lasts time htime
    have hthen : failures identity (s.1.elapse ms) = n :=
      failures_of_key hkey (show s.1.now + ms ≤ deadline by omega)
    calc recent (s.1.now + ms) s.2.counted
      _ ≤ recent s.1.now s.2.counted := recent_later ..
      _ ≤ failures identity s.1 := h.counted
      _ = n := failures_of_key hkey (by omega)
      _ = failures identity (s.1.elapse ms) := hthen.symm

section Noted

variable (config : AuthConfig) (identity : String) (c : AuthCall) (i : Nat) (given : AuthInput)
  (s : AuthState) (t : Attempts)

theorem note_get (key : String) :
    (note config identity c i (.redis (.get key)) given s t).counted = t.counted ∧
      (note config identity c i (.redis (.get key)) given s t).evaluated = t.evaluated := by
  rw [note]
  split <;> exact ⟨rfl, rfl⟩

theorem note_getdel (key : String) :
    (note config identity c i (.redis (.getdel key)) given s t).counted = t.counted ∧
      ∀ time ∈ (note config identity c i (.redis (.getdel key)) given s t).evaluated,
        time ∈ t.evaluated ∨ time = s.now := by
  rw [note]
  split
  · refine ⟨rfl, fun time htime => ?_⟩
    obtain rfl | hold := List.mem_cons.1 htime
    · exact .inr rfl
    · exact .inl hold
  · exact ⟨rfl, fun _ => .inl⟩

theorem note_setEx {key : String} (h : key ≠ failureKey identity) (value : RedisValue)
    (seconds : Nat) : note config identity c i (.redis (.setEx key value seconds)) given s t = t :=
  if_neg fun hkey => h hkey.1

end Noted

/-- What is asked without being disturbed keeps the count. -/
theorem Kept.answer (h : Kept identity s) (asks : Asks identity i op given s)
    (undisturbed : Undisturbed config identity c i op given s.1 s.2) :
    Kept identity ((auth config).answer (note config identity) c i op given s).2 := by
  have hnow := now_of_asks op given s.1
  have hother : failureKey identity ≠ challengeKey identity :=
    (challengeKey_ne_failureKey identity).symm
  cases op with
  | redis command =>
    cases command with
    | get key =>
      have hnoted := note_get config identity c i given s.1 s.2 key
      exact h.frame hnow (key_of_asks (by rintro _ ⟨⟩ _ ⟨⟩)) hnoted.1
        fun time htime => .inl (hnoted.2 ▸ htime)
    | getdel key =>
      obtain ⟨rfl, -⟩ := asks
      have hnoted := note_getdel config identity c i given s.1 s.2 (challengeKey identity)
      exact h.frame hnow (key_of_asks (by rintro _ ⟨⟩ _ ⟨⟩; exact hother)) hnoted.1 hnoted.2
    | setEx key value seconds =>
      obtain rfl | ⟨rfl, rfl, rfl⟩ := asks
      · have hnoted := note_setEx config identity c i given s.1 s.2
          (challengeKey_ne_failureKey identity) value seconds
        exact h.frame hnow (key_of_asks (by rintro _ ⟨⟩ _ ⟨⟩; exact hother))
          (congrArg Attempts.counted hnoted) fun time htime => .inl (hnoted ▸ htime)
      · obtain ⟨hdown, hstate⟩ | ⟨hruns, hstate⟩ := authAnswer_runs
          (.setEx (failureKey identity) (.number (s.2.found i + 1)) authFailureWindowSeconds) given s.1
          rfl
        · show Kept identity ((authAnswer _ given s.1).2, if _ then _ else s.2)
          rw [hstate, if_neg fun hkey => hkey.2 hdown]
          exact h
        · show Kept identity ((authAnswer _ given s.1).2, if _ then s.2.count i else _)
          rw [hstate, if_pos ⟨rfl, hruns⟩]
          exact h.count i (Nat.lt_succ_of_le (undisturbed rfl hruns))
    | del key =>
      obtain rfl := asks
      obtain ⟨hdown, hstate⟩ | ⟨hruns, hstate⟩ :=
        authAnswer_runs (.del (failureKey identity)) given s.1 rfl
      · show Kept identity ((authAnswer _ given s.1).2, if _ then _ else s.2)
        rw [hstate, if_neg fun hkey => hkey.2 hdown]
        exact h
      · show Kept identity ((authAnswer _ given s.1).2,
          if _ then { s.2 with uncounted := [], counted := [] } else _)
        rw [if_pos ⟨rfl, hruns⟩]
        exact ⟨nofun, nofun, Nat.zero_le _⟩
    | _ => exact asks.elim
  | _ => exact h.frame hnow (key_of_asks nofun) rfl fun _ => .inl

/-- What holds of a world with its notes all along. -/
structure Holds (config : AuthConfig) (identity : String) (p : AuthWorld × Attempts) : Prop where
  does : DoesNoted (auth config) (note config identity) KeepsFound (Asks identity) p
  kept : Kept identity (p.1.shared, p.2)

theorem Holds.step {p : AuthWorld × Attempts} {a : AuthStep} (h : Holds config identity p)
    (attempted : ∀ c, a = .call c → Attempted identity c) (inTurn : InTurn config identity p a) :
    Holds config identity (attempt config identity p a) where
  does := by
    refine h.does.step keepsFound_onward (fun c i op given s _ j hne => found_note hne given s.1 s.2)
      (fun ms j _ => rfl) fun c i s hcall => does_job (attempted c hcall) i s
  kept := by
    obtain hsame | ⟨hother, hnotes, hmoves⟩ | ⟨i, given, c, op, next, rfl, found, -, shared⟩ :=
      stepNoted_cases (auth config) (note config identity) p a
    · rw [attempt, hsame]
      exact h.kept
    · rw [attempt, hnotes]
      cases hmoves with
      | call c workers same | crash i c op next found workers same =>
        rw [same]
        exact h.kept
      | advance i given => exact absurd rfl (hother i given)
      | outside ms workers shared =>
        rw [shared]
        exact h.kept.elapse ms
    · rw [attempt, shared]
      exact h.kept.answer (h.does.asked keepsFound_onward found given)
        (inTurn (c, op) (World.waiting_eq found))

/-- A signature is evaluated by a worker that takes the challenge. -/
theorem getdel_of_evaluates {s : AuthState} (h : (evaluates config c op given s).isSome = true) :
    ∃ key, op = .redis (.getdel key) := by
  unfold evaluates at h
  split at h
  · exact ⟨_, rfl⟩
  · cases h

/-- A signature is evaluated only where the count that was read was below the threshold. -/
theorem Holds.locksOutAt {p : AuthWorld × Attempts} {a : AuthStep} (h : Holds config identity p)
    (inTurn : InTurn config identity p a) : LocksOutAt config identity p a := by
  refine ⟨h.kept.counted, fun hevaluates => ?_⟩
  cases a with
  | advance i given =>
    cases hwaits : p.1.waiting i with
    | none => simp [evaluatedBy, hwaits] at hevaluates
    | some waits =>
      obtain ⟨c, op⟩ := waits
      obtain ⟨next, found⟩ := World.exists_of_waiting hwaits
      have hsome : (evaluates config c op given p.1.shared).isSome = true := by
        simpa [evaluatedBy, hwaits] using hevaluates
      obtain ⟨key, rfl⟩ := getdel_of_evaluates hsome
      have hbelow := (h.does.asked keepsFound_onward found given).2
      have hundisturbed := inTurn _ hwaits hsome
      have hcounted := h.kept.counted
      rw [Attempts.evaluated, recent_append]
      dsimp only at hbelow hundisturbed hcounted
      omega
  | call c | crash i | outside ms => cases hevaluates

/-- Where no attempt is disturbed, the wallet is locked out in time. -/
theorem locks_out (config : AuthConfig) (identity : String) (s : AuthState) (as : List AuthStep)
    (attempted : ∀ c, .call c ∈ as → Attempted identity c)
    (inTurn : ∀ p ∈ Machine.trail (attempt config identity) (.fresh s, .none) as,
      InTurn config identity p.1 p.2) : LocksOut config identity s as := by
  rintro ⟨p, a⟩ hp
  have hinTurn := inTurn _ hp
  obtain ⟨bs, cs, rfl, rfl⟩ := Machine.exists_append_of_mem_trail _ hp
  have hstart : Holds config identity (.fresh s, .none) :=
    ⟨doesNoted_fresh s Attempts.none, nofun, nofun, Nat.zero_le _⟩
  have hholds := Machine.run_invariant (attempt config identity) hstart fun q hq h =>
    h.step (fun c hc => attempted c (List.mem_append_left _ (hc ▸ Machine.mem_of_mem_trail _ hq)))
      (inTurn q (Machine.trail_of_isPrefix _ ⟨_, rfl⟩ hq))
  exact hholds.locksOutAt hinTurn

end Runs

namespace Sample

/-- Signatures are checked. -/
def guarded : AuthConfig :=
  { Backend.Sample.authConfig with fromPublicKey := fun _ => some fun _ signature => signature == "signature" }

def given : AuthInput := Backend.Sample.given "j0"

/-- Attempt `k` asks for a challenge, looks at the count and has a signature evaluated. -/
def guess (signature : String) (k : Nat) : List AuthStep :=
  .call (.generateChallenge "GA") :: List.replicate 2 (.advance (2 * k) given) ++
    .call (.verify "GA" signature) :: List.replicate 2 (.advance (2 * k + 1) given)

/-- The failure is counted. -/
def fail (k : Nat) : List AuthStep := guess "guess" k ++ List.replicate 2 (.advance (2 * k + 1) given)

def failsInTurn : List AuthStep := (List.range 6).flatMap fail

/-- Six attempts side by side read the count before one of them writes it. -/
def failsAtOnce : List AuthStep :=
  (List.range 6).flatMap (guess "guess") ++
    (List.range 6).map (fun k => .advance (2 * k + 1) given) ++
    (List.range 6).map (fun k => .advance (2 * k + 1) given) ++ guess "guess" 6

theorem attempted_of_mem {c : AuthCall} (h : .call c ∈ failsInTurn) : Attempted "ga" c := by
  obtain ⟨k, -, hk⟩ := List.mem_flatMap.1 h
  have hlower : Text.toLowerCase "GA" = "ga" := by decide +kernel
  obtain rfl | rfl : c = .generateChallenge "GA" ∨ c = .verify "GA" "guess" := by
    simpa [fail, guess] using hk
  · exact hlower
  · exact hlower

end Sample

theorem locks_out_wallet :
    LocksOut Sample.guarded "ga" Backend.Sample.loggedOut Sample.failsInTurn :=
  locks_out Sample.guarded "ga" Backend.Sample.loggedOut Sample.failsInTurn
    (fun _ => Sample.attempted_of_mem) (by decide +kernel)

/-- Six failures are counted as one, and another signature is evaluated. -/
theorem not_locksOut :
    ¬ LocksOut Sample.guarded "ga" Backend.Sample.loggedOut Sample.failsAtOnce := by
  decide +kernel

end Amana.Backend.Lockout
