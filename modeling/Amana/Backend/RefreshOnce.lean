import Amana.Backend.Revocation

/-!
# Refreshing a token once

A refresh looks its token up in the denylist, and then writes the entry that the next one finds.
These are two commands: another refresh can look the token up in between.  Where no refresh does,
and none comes after the entry has run out, a token is refreshed at most once (`refreshed_once`).
-/

namespace Amana.Backend

open Lib Lib.Database Lib.Jobs AuthService

/-- The claims of a token, if it is signed and has all that a refresh needs. -/
def AuthConfig.refreshClaims (config : AuthConfig) (token : String) : Option RefreshClaims :=
  (config.payload token).bind AuthService.refreshClaims

/-- Until when a token can be refreshed, in seconds. -/
def AuthConfig.refreshDeadline (config : AuthConfig) (token : String) : Int :=
  (config.refreshClaims token).elim 0 fun claims => claims.exp + refreshExpiryGraceSeconds

/-! ## A record of the refreshes -/

/-- Which workers have found their token not revoked, unless their own revocation failed, and which
of these have not completed it. -/
structure Refreshes where
  passed : List Nat
  revoking : List Nat

/-- Worker `i` asks. -/
def Refreshes.record (i : Nat) (op : AuthOp) (given : AuthInput) (s : AuthState) (r : Refreshes) :
    Refreshes :=
  match op with
  | .redis (.existsKey key) =>
    if given.connection = .heard ∧ (s.keys.live s.now key).isNone = true then
      ⟨i :: r.passed, i :: r.revoking⟩
    else r
  | .redis (.setEx ..) =>
    if given.connection = .heard then r
    else ⟨r.passed.filter (· ≠ i), r.revoking.filter (· ≠ i)⟩
  | .completed .. => { r with revoking := r.revoking.filter (· ≠ i) }
  | _ => r

section Record

variable {i j : Nat} {op : AuthOp} {given : AuthInput} {s : AuthState} {r : Refreshes}

/-- What the others ask does not undo that a refresh has passed. -/
theorem passed_record (h : i ≠ j) (hi : i ∈ r.passed) : i ∈ (r.record j op given s).passed := by
  unfold Refreshes.record
  split
  · split
    · exact List.mem_cons_of_mem _ hi
    · exact hi
  · split
    · exact hi
    · simp [hi, h]
  · exact hi
  · exact hi

end Record

/-- The calls of authentication, with the record. -/
abbrev refreshes (config : AuthConfig) :
    Service AuthCall AuthAnswer (AuthState × Refreshes) AuthInput Nat AuthReturn :=
  (auth config).watch Refreshes.record

section Served

variable {config : AuthConfig} {i : Nat} {given : AuthInput} {s : AuthState × Refreshes} {key : String}

theorem refreshes_of_heard {value : RedisValue} {seconds : Nat} (heard : given.connection = .heard) :
    ((refreshes config).serve i (.redis (.setEx key value seconds)) given s).2.2 = s.2 :=
  if_pos heard

/-- A refresh finds its token not revoked. -/
theorem refreshes_of_free (heard : given.connection = .heard)
    (free : (s.1.keys.live s.1.now key).isNone = true) :
    ((refreshes config).serve i (.redis (.existsKey key)) given s).2.2 =
      ⟨i :: s.2.passed, i :: s.2.revoking⟩ := if_pos ⟨heard, free⟩

end Served

abbrev RefreshWorld := World AuthCall AuthAnswer (AuthState × Refreshes) AuthReturn

/-- A refresh that finds its token not revoked comes after the revocation of any other that has
found so and is not gone, and while the entry of that one lasts. -/
def ChecksInTurn (deadline : Int) (w : RefreshWorld) : AuthStep → Prop
  | .advance i given =>
    match w.workers[i]? with
    | some (_, some (.ask (.redis (.existsKey key)) _)) =>
      given.connection = .heard → (w.shared.1.keys.live w.shared.1.now key).isNone = true →
        ∀ j ∈ w.shared.2.passed, j ≠ i → w.gone j = false →
          j ∉ w.shared.2.revoking ∧ w.shared.1.now < 1000 * deadline
    | _ => True
  | _ => True

instance (deadline : Int) (w : RefreshWorld) (a : AuthStep) :
    Decidable (ChecksInTurn deadline w a) := by
  induction a using Activity.casesOn with
  | advance i given =>
    dsimp only [ChecksInTurn]
    generalize w.workers[i]? = worker
    match worker with
    | none | some (_, none) | some (_, some (.done _)) => exact .isTrue trivial
    | some (_, some (.ask op _)) =>
      induction op using AuthOp.casesOn with
      | redis command =>
        induction command using RedisCommand.casesOn with
        | existsKey key => exact instDecidableForall
        | _ => exact .isTrue trivial
      | _ => exact .isTrue trivial
  | _ => exact .isTrue trivial

/-- At most one refresh returns a token. -/
def RefreshedOnce (w : AuthWorld) : Prop :=
  ∀ i j token token', w.result i = some (.token (.ok token)) →
    w.result j = some (.token (.ok token')) → i = j

/-! ## What a refresh asks -/

section Asking

variable {config : AuthConfig} {jti : String} {deadline : Int} {i j : Nat} {op : AuthOp}
  {given : AuthInput} {s s' : AuthState × Refreshes}

/-- What a refresh of the token asks. -/
def AsksOnce (jti : String) (deadline : Int) (op : AuthOp) (_ : AuthInput)
    (s : AuthState × Refreshes) : Prop :=
  match op with
  | .redis (.existsKey key) => key = revokedKey jti
  | .redis (.setEx key _ seconds) =>
    key = revokedKey jti ∧ 1000 * deadline ≤ s.1.now + 1000 * (seconds : Int)
  | .redis _ => False
  | .completed .. => s.1.Denied jti deadline
  | _ => True

/-- What refresh `i` relies on. -/
structure KeepsPassed (jti : String) (deadline : Int) (i : Nat) (s s' : AuthState × Refreshes) :
    Prop where
  now : s.1.now ≤ s'.1.now
  denied : s.1.Denied jti deadline → s'.1.Denied jti deadline
  passed : i ∈ s.2.passed → i ∈ s'.2.passed

theorem keepsPassed_onward (jti : String) (deadline : Int) (i : Nat) :
    Onward (KeepsPassed jti deadline i) where
  refl _ := ⟨Nat.le_refl _, id, id⟩
  trans h h' := ⟨h.now.trans h'.now, h'.denied ∘ h.denied, h'.passed ∘ h.passed⟩

/-- Once the entry is written, the token is denied. -/
theorem denied_of_setEx {key : String} {value : RedisValue} {seconds : Nat}
    (asks : AsksOnce jti deadline (.redis (.setEx key value seconds)) given s)
    (runs : given.connection ≠ .down) :
    (authAnswer (.redis (.setEx key value seconds)) given s.1).2.Denied jti deadline := by
  obtain ⟨rfl, hlasts⟩ := asks
  obtain ⟨hdown, -⟩ | ⟨-, hstate⟩ :=
    authAnswer_runs (.setEx (revokedKey jti) value seconds) given s.1 rfl
  · exact absurd hdown runs
  · rw [hstate]
    right
    apply (Expiring.Keys.live_put_iff _ _).2
    omega

/-- What is asked leaves the token denied. -/
theorem denied_of_asks (asks : AsksOnce jti deadline op given s) (denied : s.1.Denied jti deadline) :
    (authAnswer op given s.1).2.Denied jti deadline := by
  have heffect := authAnswer_effect op given s.1
  generalize hstate : (authAnswer op given s.1).2 = s' at heffect
  cases heffect with
  | nothing => exact denied
  | completed => exact denied
  | redis command r keys h =>
    cases command with
    | existsKey key =>
      cases h
      exact denied
    | setEx key value seconds =>
      by_cases hdown : given.connection = .down
      · have hdenied := denied
        obtain ⟨-, hsame⟩ | ⟨hruns, -⟩ :=
          authAnswer_runs (.setEx key value seconds) given s.1 rfl
        · rw [← hstate, hsame]
          exact denied
        · exact absurd hdown hruns
      · rw [← hstate]
        exact denied_of_setEx asks hdown
    | _ => exact asks.elim

/-- What one refresh asks keeps what the others rely on. -/
theorem keepsPassed_of_asks (asks : AsksOnce jti deadline op given s) (h : j ≠ i) :
    KeepsPassed jti deadline j s ((refreshes config).serve i op given s).2 where
  now := (now_of_asks op given s.1).ge
  denied := denied_of_asks asks
  passed := passed_record h

variable {allowed : AuthOp → AuthInput → AuthState × Refreshes → Prop}

theorem does_now {P : Nat → AuthState × Refreshes → Prop}
    (h : ∀ s', KeepsPassed jti deadline i s s' → P s'.1.now s') :
    Does ((refreshes config).serve i) (KeepsPassed jti deadline i) allowed (AsksOnce jti deadline)
      (Returns P) AuthOp.now.ask.run s :=
  fun s' hR _ _ => ⟨trivial, h s' hR⟩

/-- What is asked but not recorded. -/
theorem does_ask (op : AuthOp) {P : op.Res → AuthState × Refreshes → Prop}
    (asks : ∀ given s, AsksOnce jti deadline op given s)
    (plain : ∀ given s r, Refreshes.record i op given s r = r)
    (h : ∀ r s', KeepsPassed jti deadline i s s' → P r s') :
    Does ((refreshes config).serve i) (KeepsPassed jti deadline i) allowed (AsksOnce jti deadline)
      (Returns P) op.ask.run s := by
  apply does_authAsk
  intro s₁ given hR
  refine ⟨asks given s₁, fun r _ => h r _ ((keepsPassed_onward jti deadline i).trans hR ?_)⟩
  refine ⟨(now_of_asks op given s₁.1).ge, denied_of_asks (asks given s₁), fun hi => ?_⟩
  show i ∈ (Refreshes.record i op given s₁.1 s₁.2).passed
  rwa [plain]

/-- A token is issued to a refresh that has passed. -/
theorem does_issueToken (walletAddress : String) (passed : i ∈ s.2.passed) :
    Does ((refreshes config).serve i) (KeepsPassed jti deadline i) allowed (AsksOnce jti deadline)
      (Returns fun _ s' => i ∈ s'.2.passed) (issueToken config walletAddress).run s := by
  unfold issueToken
  split
  · trivial
  apply does_returns_bind.2
  apply does_now
  intro s₁ hR₁
  apply does_returns_bind.2
  apply does_ask .randomUUID (fun _ _ => trivial) (fun _ _ _ => rfl)
  intro uuid s₂ hR₂
  apply does_returns_bind.2
  refine Does.returns_tryCatch ?_ fun _ => ⟨_, rfl⟩
  apply does_returns_bind.2
  apply does_ask (.tokenVersion walletAddress true) (fun _ _ => trivial) (fun _ _ _ => rfl)
  intro raw s₃ hR₃
  exact hR₃.passed (hR₂.passed (hR₁.passed passed))

/-- The entry is written, or has run out before. -/
theorem does_deny {claims : RefreshClaims} {now clock : Nat}
    (lasts : claims.exp + refreshExpiryGraceSeconds = deadline) (before : clock ≤ s.1.now)
    (passed : i ∈ s.2.passed) :
    Does ((refreshes config).serve i) (KeepsPassed claims.jti deadline i) allowed
      (AsksOnce claims.jti deadline)
      (Returns fun _ s' => s'.1.Denied claims.jti deadline ∧ i ∈ s'.2.passed)
      (deny claims.jti
        (max claims.exp (seconds now) + refreshExpiryGraceSeconds - seconds clock)).run s := by
  have hfloor : seconds clock = (clock / 1000 : Nat) := rfl
  unfold deny
  split
  · apply does_authAsk
    intro s₁ given hR
    have hnow := hR.now
    have hasks : AsksOnce claims.jti deadline (.redis (.setEx (revokedKey claims.jti) (.text "1")
        (max claims.exp (seconds now) + refreshExpiryGraceSeconds - seconds clock).toNat))
        given s₁ := by
      refine ⟨rfl, ?_⟩
      omega
    refine ⟨hasks, fun r hok => ?_⟩
    have hheard := (heard_of_ok hok).1
    refine ⟨denied_of_setEx hasks (by rw [hheard]; decide), ?_⟩
    rw [refreshes_of_heard hheard]
    exact hR.passed passed
  · refine ⟨.inl ?_, passed⟩
    omega

theorem does_revokeToken {claims : RefreshClaims} {now : Nat}
    (lasts : claims.exp + refreshExpiryGraceSeconds = deadline) (passed : i ∈ s.2.passed) :
    Does ((refreshes config).serve i) (KeepsPassed claims.jti deadline i) allowed
      (AsksOnce claims.jti deadline)
      (Returns fun _ s' => i ∈ s'.2.passed)
      (revokeToken claims.jti (max claims.exp (seconds now) + refreshExpiryGraceSeconds)).run s := by
  refine Does.returns_tryCatch ?_ (orElse_raises _)
  apply does_returns_bind.2
  apply does_now
  intro s₁ hR₁
  apply does_returns_bind.2
  apply (does_deny lasts (Nat.le_refl _) (hR₁.passed passed)).mono
  rintro (e | _) s₂ h
  · trivial
  obtain ⟨hdenied, hpassed⟩ := h
  apply does_authAsk
  intro s₃ given hR₃
  exact ⟨hR₃.denied hdenied, fun _ _ => hR₃.passed hpassed⟩

/-- A token is looked up. -/
theorem does_isTokenRevoked :
    Does ((refreshes config).serve i) (KeepsPassed jti deadline i) allowed (AsksOnce jti deadline)
      (Returns fun revoked s' => revoked = false → i ∈ s'.2.passed) (isTokenRevoked jti).run s := by
  refine Does.returns_tryCatch ?_ (orElse_raises _)
  apply does_authAsk
  intro s₁ given _
  refine ⟨rfl, fun revoked hok hfree => ?_⟩
  obtain ⟨hheard, keys, hexec⟩ := heard_of_ok hok
  cases hexec
  rw [refreshes_of_free hheard (by simpa using hfree)]
  exact List.mem_cons_self ..

theorem does_refreshToken {token : String}
    (claimed : ∀ claims, config.refreshClaims token = some claims →
      claims.jti = jti ∧ claims.exp + refreshExpiryGraceSeconds = deadline) :
    Does ((refreshes config).serve i) (KeepsPassed jti deadline i) allowed (AsksOnce jti deadline)
      (Returns fun _ s' => i ∈ s'.2.passed) (refreshToken config token).run s := by
  unfold refreshToken
  split
  · trivial
  rename_i secret hsecret
  refine Does.returns_tryCatch ?_ (orElse_raises _)
  apply does_returns_bind.2
  apply does_now
  intro s₁ hR₁
  split
  · trivial
  rename_i decoded hverify
  split
  · trivial
  rename_i claims hclaims
  have hpayload : config.payload token = some decoded := by
    rw [AuthConfig.payload, hsecret]
    exact Jwt.decode_of_verify hverify
  obtain ⟨rfl, hlasts⟩ := claimed claims (by rwa [AuthConfig.refreshClaims, hpayload])
  apply does_returns_bind.2
  apply does_now
  intro s₂ hR₂
  unfold renew
  split
  · trivial
  apply does_returns_bind.2
  apply does_isTokenRevoked.mono
  rintro (e | revoked) s₃ hpassed
  · trivial
  cases revoked with
  | true => trivial
  | false =>
    apply does_returns_bind.2
    apply (does_revokeToken hlasts (hpassed rfl)).mono
    rintro (e | _) s₄ hpassed
    · trivial
    · exact does_issueToken _ hpassed

/-- What is asked is a look-up that finds the token not revoked, or no one passes, and a refresh that
is not revoking any more has made sure that the token is denied. -/
theorem refreshes_cases (config : AuthConfig)
    (asks : AsksOnce jti deadline op given s) :
    (op = .redis (.existsKey (revokedKey jti)) ∧ given.connection = .heard ∧
        (s.1.keys.live s.1.now (revokedKey jti)).isNone = true) ∨
      (∀ j ∈ ((refreshes config).serve i op given s).2.2.passed, j ∈ s.2.passed) ∧
        ∀ j ∈ ((refreshes config).serve i op given s).2.2.passed, j ∈ s.2.revoking →
          j ∈ ((refreshes config).serve i op given s).2.2.revoking ∨
            ((refreshes config).serve i op given s).2.1.Denied jti deadline := by
  show _ ∨ (∀ j ∈ (Refreshes.record i op given s.1 s.2).passed, j ∈ s.2.passed) ∧
    ∀ j ∈ (Refreshes.record i op given s.1 s.2).passed, j ∈ s.2.revoking →
      j ∈ (Refreshes.record i op given s.1 s.2).revoking ∨
        (authAnswer op given s.1).2.Denied jti deadline
  unfold Refreshes.record
  split
  · obtain rfl := asks
    split
    · exact .inl ⟨rfl, ‹_›⟩
    · exact .inr ⟨fun _ => id, fun _ _ => .inl⟩
  · split
    · exact .inr ⟨fun _ => id, fun _ _ => .inl⟩
    · refine .inr ⟨fun j hj => (List.mem_filter.1 hj).1, fun j hj hrevoking => .inl ?_⟩
      exact List.mem_filter.2 ⟨hrevoking, (List.mem_filter.1 hj).2⟩
  · exact .inr ⟨fun _ => id, fun _ _ _ => .inr asks⟩
  · exact .inr ⟨fun _ => id, fun _ _ => .inl⟩

end Asking

/-! ## Whole runs -/

section Runs

variable {config : AuthConfig} {jti : String} {deadline : Int} {w : RefreshWorld} {a : AuthStep}

/-- What a refresh returns. -/
def ReturnsPassed (i : Nat) (_ : AuthCall) (r : AuthReturn) (s : AuthState × Refreshes) : Prop :=
  ∀ token, r = .token (.ok token) → i ∈ s.2.passed

/-- At most one refresh that is not gone has passed, and it is about to revoke the token or has made
sure that it is denied. -/
structure OnePassed (config : AuthConfig) (jti : String) (deadline : Int) (w : RefreshWorld) :
    Prop where
  does : w.Does (refreshes config) (KeepsPassed jti deadline) (fun _ _ _ _ => True)
    (fun _ _ => AsksOnce jti deadline) ReturnsPassed
  one : ∀ i ∈ w.shared.2.passed, ∀ j ∈ w.shared.2.passed, w.gone i = false → w.gone j = false → i = j
  denied : ∀ i ∈ w.shared.2.passed, w.gone i = false →
    i ∈ w.shared.2.revoking ∨ w.shared.1.Denied jti deadline

/-- A refresh that passes is the only one. -/
theorem OnePassed.alone (h : OnePassed config jti deadline w) {i : Nat} {given : AuthInput}
    {c : AuthCall} {next}
    (inTurn : ChecksInTurn deadline w (.advance i given))
    (found : w.workers[i]? = some (c, some (.ask (.redis (.existsKey (revokedKey jti))) next)))
    (heard : given.connection = .heard)
    (free : (w.shared.1.keys.live w.shared.1.now (revokedKey jti)).isNone = true) :
    ∀ j ∈ w.shared.2.passed, w.gone j = false → j = i := by
  intro j hj hhere
  by_contra hne
  simp only [ChecksInTurn, found] at inTurn
  obtain ⟨hrevoked, hearly⟩ := inTurn heard free j hj hne hhere
  rcases h.denied j hj hhere with hrevoking | hexpired | hlive
  · exact hrevoked hrevoking
  · omega
  · have hfound := Expiring.Keys.live_of_le hlive (show w.shared.1.now ≤ _ by omega)
    simp [Option.isNone_iff_eq_none.1 free] at hfound

section Steps

variable {token : String} (claimed : ∀ claims, config.refreshClaims token = some claims →
  claims.jti = jti ∧ claims.exp + refreshExpiryGraceSeconds = deadline)

include claimed

theorem does_job (i : Nat) (s : AuthState × Refreshes) :
    Jobs.Does ((refreshes config).serve i) (KeepsPassed jti deadline i) (fun _ _ _ => True)
      (AsksOnce jti deadline) (ReturnsPassed i (.refreshToken token))
      (AuthCall.job config (.refreshToken token)) s := by
  apply does_map.2
  apply (does_refreshToken claimed).mono
  rintro (e | issued) s' hpassed token' hreturned
  · cases hreturned
  · exact hpassed

theorem OnePassed.does_step (h : OnePassed config jti deadline w)
    (same : ∀ c, a = .call c → c = .refreshToken token) :
    (step (refreshes config) w a).Does (refreshes config) (KeepsPassed jti deadline)
      (fun _ _ _ _ => True) (fun _ _ => AsksOnce jti deadline) ReturnsPassed := by
  have permits : Permits (fun _ _ _ _ => True) (fun c _ => c = .refreshToken token)
      (fun _ _ => True) w a := by
    cases a with
    | call c => exact same c rfl
    | advance i given => exact fun _ _ _ _ => trivial
    | crash i => trivial
    | outside ms => trivial
  refine h.does.step (keepsPassed_onward jti deadline)
    (fun i c r s s' hR hr token hreturned => hR.passed (hr token hreturned)) permits
    (fun i c op given s asks j hne => keepsPassed_of_asks asks hne) (fun ms _ j => ?_) ?_
  · have helapsed : KeepsDenied jti deadline w.shared.1 _ := keepsDenied_elapse ms
    exact ⟨helapsed.now, helapsed.denied, id⟩
  · rintro c rfl
    exact does_job claimed w.workers.length w.shared

theorem OnePassed.step (h : OnePassed config jti deadline w)
    (same : ∀ c, a = .call c → c = .refreshToken token) (inTurn : ChecksInTurn deadline w a) :
    OnePassed config jti deadline (step (refreshes config) w a) := by
  have hdoes := h.does_step claimed same
  have hhere (i : Nat) : (Jobs.step (refreshes config) w a).gone i = false → w.gone i = false :=
    World.here_of_step
  obtain hsame | hmoves := step_moves (refreshes config) w a
  · rw [hsame]
    exact h
  generalize Jobs.step (refreshes config) w a = w' at hdoes hhere hmoves
  suffices (∀ i ∈ w'.shared.2.passed, ∀ j ∈ w'.shared.2.passed, w.gone i = false →
      w.gone j = false → i = j) ∧ ∀ i ∈ w'.shared.2.passed, w.gone i = false →
        i ∈ w'.shared.2.revoking ∨ w'.shared.1.Denied jti deadline from
    ⟨hdoes, fun i hi j hj hi' hj' => this.1 i hi j hj (hhere i hi') (hhere j hj'),
      fun i hi hi' => this.2 i hi (hhere i hi')⟩
  cases hmoves with
  | call c workers shared | crash i c op next found workers shared =>
    rw [shared]
    exact ⟨h.one, h.denied⟩
  | outside ms workers shared =>
    rw [shared]
    exact ⟨h.one, fun i hi hi' => (h.denied i hi hi').imp_right (keepsDenied_elapse ms).denied⟩
  | advance i given c op next found workers shared =>
    have hasks := h.does.asked (keepsPassed_onward jti deadline) given found trivial
    rw [shared]
    obtain ⟨rfl, hheard, hfree⟩ | ⟨hpassed, hrevoked⟩ := refreshes_cases config hasks
    · have halone := h.alone inTurn found hheard hfree
      have honly (j : Nat) (hj : j ∈ i :: w.shared.2.passed) (hj' : w.gone j = false) : j = i := by
        obtain rfl | hj := List.mem_cons.1 hj
        · rfl
        · exact halone j hj hj'
      rw [refreshes_of_free hheard hfree]
      refine ⟨fun j hj k hk hj' hk' => (honly j hj hj').trans (honly k hk hk').symm,
        fun j hj hj' => .inl ?_⟩
      rw [honly j hj hj']
      exact List.mem_cons_self ..
    · refine ⟨fun j hj k hk => h.one j (hpassed j hj) k (hpassed k hk), fun j hj hj' => ?_⟩
      obtain hrevoking | hdenied := h.denied j (hpassed j hj) hj'
      · exact hrevoked j hj hrevoking
      · exact .inr (denied_of_asks hasks hdenied)

end Steps

/-- Where refreshes look their token up in turn, at most one returns a token. -/
theorem refreshed_once (config : AuthConfig) (s : AuthState) (token : String) (as : List AuthStep)
    (same : ∀ c, .call c ∈ as → c = .refreshToken token)
    (inTurn : ∀ p ∈ trail (refreshes config) (.fresh (s, ⟨[], []⟩)) as,
      ChecksInTurn (config.refreshDeadline token) p.1 p.2) :
    RefreshedOnce (run (auth config) (.fresh s) as) := by
  have hclaimed : ∀ claims, config.refreshClaims token = some claims →
      claims.jti = (config.refreshClaims token).elim "" RefreshClaims.jti ∧
        claims.exp + refreshExpiryGraceSeconds = config.refreshDeadline token := by
    intro claims h
    rw [AuthConfig.refreshDeadline, h]
    exact ⟨rfl, rfl⟩
  have hstart : OnePassed config ((config.refreshClaims token).elim "" RefreshClaims.jti)
      (config.refreshDeadline token) (.fresh (s, ⟨[], []⟩)) := by
    refine ⟨fun i c job found => ?_, fun i hi => ?_, fun i hi => ?_⟩
    · simp [World.fresh] at found
    · cases hi
    · cases hi
  have hend := Machine.run_invariant (step (refreshes config)) hstart fun p hp h =>
    h.step hclaimed (fun c hc => same c (hc ▸ Machine.mem_of_mem_trail _ hp)) (inTurn p hp)
  have hrun : run (auth config) (.fresh s) as =
      (run (refreshes config) (.fresh (s, ⟨[], []⟩)) as).unwatched :=
    (run_watch (auth config) Refreshes.record (.fresh (s, ⟨[], []⟩)) as).symm
  rw [hrun]
  have hreturned (i : Nat) (issued : String)
      (h : (run (refreshes config) (.fresh (s, ⟨[], []⟩)) as).unwatched.result i =
        some (.token (.ok issued))) :
      i ∈ (run (refreshes config) (.fresh (s, ⟨[], []⟩)) as).shared.2.passed ∧
        (run (refreshes config) (.fresh (s, ⟨[], []⟩)) as).gone i = false := by
    obtain ⟨c, hdone⟩ := World.exists_done_of_result h
    exact ⟨hend.does i c _ hdone issued rfl, World.gone_eq_false hdone⟩
  intro i j issued issued' hi hj
  obtain ⟨hpassed, hhere⟩ := hreturned i issued hi
  obtain ⟨hpassed', hhere'⟩ := hreturned j issued' hj
  exact hend.one i hpassed j hpassed' hhere hhere'

end Runs

namespace Sample

/-- A token, and two that replace it. -/
def renewals : List JwtPayload := [payload "j0" 0 0, payload "j1" 0 0, payload "j2" 0 0]

def renewalConfig : AuthConfig :=
  { authConfig with
    jwt :=
      { sign := fun _ payload => if payload ∈ renewals then payload.jti.getD "" else ""
        decode := fun _ token => renewals.find? fun payload => payload.jti = some token } }

/-- One refresh after the other. -/
def refreshesInTurn : List AuthStep :=
  .call (.refreshToken "j0") :: works 0 "j1" ++ .call (.refreshToken "j0") :: works 1 "j2"

/-- Both refreshes look the token up before one of them revokes it. -/
def refreshesAtOnce : List AuthStep :=
  [.call (.refreshToken "j0"), .call (.refreshToken "j0")] ++
    List.replicate 3 (.advance 0 (given "")) ++ List.replicate 3 (.advance 1 (given "")) ++
    works 0 "j1" ++ works 1 "j2"

end Sample

theorem refreshed_once_inTurn :
    RefreshedOnce (run (auth Sample.renewalConfig) (.fresh Sample.loggedOut) Sample.refreshesInTurn) :=
  refreshed_once Sample.renewalConfig Sample.loggedOut "j0" Sample.refreshesInTurn
    (by simp [Sample.refreshesInTurn, Sample.works]) (by decide +kernel)

/-- Both refreshes return a token. -/
theorem not_refreshedOnce :
    ¬ RefreshedOnce
      (run (auth Sample.renewalConfig) (.fresh Sample.loggedOut) Sample.refreshesAtOnce) :=
  fun h => absurd (h 0 1 "j1" "j2" (by decide +kernel) (by decide +kernel)) (by decide)

end Amana.Backend
