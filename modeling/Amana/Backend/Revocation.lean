import Amana.Backend.AuthFrame

/-!
# Revoked tokens

An entry of the denylist lasts until the token expires, but an expired token can still be refreshed
for a while, and a later revocation of the same token replaces the entry.  Where the token is looked
up before it expires, and no revocation shortens the entry, a token that was revoked is never
accepted again (`revoked_for_good`).
-/

namespace Amana.Backend

open Lib Lib.Database Lib.Jobs AuthService

variable {config : AuthConfig} {jti token : String} {expiresAt : Int} {s s' : AuthState}
  {as : List AuthStep}

/-- The token is denied until it expires. -/
def AuthState.Denied (s : AuthState) (jti : String) (expiresAt : Int) : Prop :=
  1000 * expiresAt ≤ s.now ∨
    (s.keys.live (1000 * expiresAt).toNat (revokedKey jti)).isSome = true

/-- The entry of the token is not shortened, and once the token is revoked it is only looked up
before it expires. -/
def LooksInTime (jti : String) (expiresAt : Int) (given : AuthInput) (s : AuthState) : AuthOp → Prop
  | .redis (.setEx key _ seconds) => key = revokedKey jti → given.connection ≠ .down →
    (s.keys.live (1000 * expiresAt).toNat key).isSome = true →
      (1000 * expiresAt).toNat ≤ s.now + 1000 * seconds
  | .redis (.existsKey key) => key = revokedKey jti → (jti, expiresAt) ∈ s.completed →
    s.now < 1000 * expiresAt
  | _ => True

instance (jti : String) (expiresAt : Int) (given : AuthInput) (s : AuthState) (op : AuthOp) :
    Decidable (LooksInTime jti expiresAt given s op) := by
  unfold LooksInTime
  split <;> infer_instance

/-- What is done next keeps to this. -/
def StepInTime (jti : String) (expiresAt : Int) (w : AuthWorld) (a : AuthStep) : Prop :=
  Permits (fun _ op given s => LooksInTime jti expiresAt given s op) (fun _ _ => True)
    (fun _ _ => True) w a

instance (jti : String) (expiresAt : Int) (w : AuthWorld) (a : AuthStep) :
    Decidable (StepInTime jti expiresAt w a) :=
  inferInstanceAs (Decidable (Permits ..))

/-- What all steps keep. -/
structure KeepsDenied (jti : String) (expiresAt : Int) (s s' : AuthState) : Prop where
  now : s.now ≤ s'.now
  completed : s.completed ⊆ s'.completed
  denied : s.Denied jti expiresAt → s'.Denied jti expiresAt
  /-- A revocation only completes when the token is denied. -/
  sound : ((jti, expiresAt) ∈ s.completed → s.Denied jti expiresAt) →
    (jti, expiresAt) ∈ s'.completed → s'.Denied jti expiresAt

theorem keepsDenied_onward (jti : String) (expiresAt : Int) :
    Onward (KeepsDenied jti expiresAt) where
  refl _ := ⟨Nat.le_refl _, List.Subset.refl _, id, id⟩
  trans h h' := ⟨h.now.trans h'.now, List.Subset.trans h.completed h'.completed,
    h'.denied ∘ h.denied, h'.sound ∘ h.sound⟩

/-- A step that completes nothing. -/
theorem keepsDenied_of_completed (now : s.now ≤ s'.now) (same : s'.completed = s.completed)
    (denied : s.Denied jti expiresAt → s'.Denied jti expiresAt) : KeepsDenied jti expiresAt s s' where
  now := now
  completed := by rw [same]; exact List.Subset.refl _
  denied := denied
  sound h hmem := denied (h (by rwa [← same]))

/-- A step that leaves the entry alone. -/
theorem keepsDenied_of_keys (now : s.now ≤ s'.now) (same : s'.completed = s.completed)
    (keys : s'.keys (revokedKey jti) = s.keys (revokedKey jti)) : KeepsDenied jti expiresAt s s' := by
  apply keepsDenied_of_completed now same
  rintro (hexpired | hlive)
  · left
    omega
  · right
    rwa [Expiring.Keys.live_congr keys]

theorem keepsDenied_ordinary {op : AuthOp} (ordinary : op.Ordinary) (given : AuthInput) :
    KeepsDenied jti expiresAt s (authAnswer op given s).2 := by
  have hsame : SameTokens s (authAnswer op given s).2 := sameTokens_of_ordinary ordinary
  exact keepsDenied_of_keys (by rw [hsame.now]) hsame.completed (hsame.revoked jti)

theorem keepsDenied_elapse (ms : Nat) : KeepsDenied jti expiresAt s (s.elapse ms) :=
  keepsDenied_of_keys (Nat.le_add_right ..) rfl rfl

/-- The completion of another revocation, or of one that has made sure the token is denied. -/
theorem keepsDenied_complete {jti' : String} {expiresAt' : Int}
    (denied : (jti, expiresAt) = (jti', expiresAt') → s.Denied jti expiresAt) :
    KeepsDenied jti expiresAt s { s with completed := (jti', expiresAt') :: s.completed } where
  now := Nat.le_refl _
  completed := List.subset_cons_self ..
  denied := id
  sound h hmem := by
    obtain hnew | hold := List.mem_cons.1 hmem
    · exact denied hnew
    · exact h hold

/-- What is asked in time, as far as the entry of the token goes. -/
abbrev InTime (jti : String) (expiresAt : Int) : AuthOp → AuthInput → AuthState → Prop :=
  fun op given s => LooksInTime jti expiresAt given s op

/-- An entry of the denylist is written. -/
theorem keepsDenied_setEx {jti' : String} {ttl : Nat} {given : AuthInput}
    (inTime : LooksInTime jti expiresAt given s (.redis (.setEx (revokedKey jti') (.text "1") ttl))) :
    KeepsDenied jti expiresAt s
      (authAnswer (.redis (.setEx (revokedKey jti') (.text "1") ttl)) given s).2 := by
  have hrun := authAnswer_runs (.setEx (revokedKey jti') (.text "1") ttl) given s rfl
  rcases hrun with ⟨-, hstate⟩ | ⟨hc, hstate⟩
  · rw [hstate]
    exact (keepsDenied_onward jti expiresAt).refl s
  rw [hstate]
  by_cases hjti : jti' = jti
  · subst hjti
    refine keepsDenied_of_completed (by rfl) (by rfl) ?_
    rintro (hexpired | hlive)
    · exact .inl hexpired
    · exact .inr ((Expiring.Keys.live_put_iff _ _).2 (inTime rfl hc hlive))
  · refine keepsDenied_of_keys (by rfl) (by rfl) ?_
    exact s.keys.put_of_ne _ _ fun h => hjti (revokedKey_inj h).symm

/-- Once the entry is written, or the token expired, the token is denied. -/
theorem wp_deny {jti' : String} {expiresAt' : Int} {clock : Nat} (before : clock ≤ s.now) :
    Wp authAnswer (KeepsDenied jti expiresAt) (InTime jti expiresAt)
      (fun r s' => r = .ok () → (jti, expiresAt) = (jti', expiresAt') → s'.Denied jti expiresAt)
      (deny jti' (expiresAt' - seconds clock)).run s := by
  have hfloor : seconds clock = (clock / 1000 : Nat) := rfl
  unfold deny
  split
  · apply wp_command
    · intro s' hR given inTime
      refine ⟨keepsDenied_setEx inTime, ?_⟩
      rintro ⟨⟩ keys hexec - - hsame
      obtain ⟨rfl, rfl⟩ := Prod.mk.inj hsame
      cases hexec
      right
      apply (Expiring.Keys.live_put_iff _ _).2
      have := hR.now
      omega
    · intro fault s' h
      cases h
  · intro _ hsame
    obtain ⟨rfl, rfl⟩ := Prod.mk.inj hsame
    left
    omega

theorem keeps_revokeToken (jti' : String) (expiresAt' : Int) :
    Keeps authAnswer (KeepsDenied jti expiresAt) (InTime jti expiresAt)
      (revokeToken jti' expiresAt').run := by
  refine Keeps.tryCatch ?_ (keeps_orElse _)
  intro s
  rw [wp_except_bind, wp_authAsk]
  intro s₁ _ given _
  refine ⟨(keepsDenied_onward jti expiresAt).refl s₁, ?_⟩
  show Wp _ _ _ _ (deny jti' (expiresAt' - seconds s₁.now) >>= fun _ =>
    (AuthOp.completed jti' expiresAt').ask).run s₁
  rw [wp_except_bind]
  apply (wp_deny (Nat.le_refl s₁.now)).mono
  rintro (e | _) s₂ hdenied
  · trivial
  · intro s₃ hR given _
    exact ⟨keepsDenied_complete fun hsame => hR.denied (hdenied rfl hsame), trivial⟩

theorem keeps_bumpTokenVersion (walletAddress : String) :
    Keeps authAnswer (KeepsDenied jti expiresAt) (InTime jti expiresAt)
      (bumpTokenVersion walletAddress).run := by
  refine Keeps.tryCatch ?_ fun _ => keeps_throw _
  intro s s' _ given _
  refine ⟨?_, trivial⟩
  have heffect := authAnswer_effect (.redis (.incr (versionKey walletAddress))) given s'
  generalize (authAnswer (.redis (.incr (versionKey walletAddress))) given s').2 = s'' at heffect
  cases heffect with
  | nothing => exact (keepsDenied_onward jti expiresAt).refl s'
  | redis command r keys h =>
    refine keepsDenied_of_keys (by rfl) (by rfl) (RedisCommand.exec_of_ne h ?_)
    rintro key ⟨⟩
    exact revokedKey_ne_versionKey _ _

/-! ## Tokens that are presented -/

/-- The call presents a token with this jti. -/
def AuthCall.Presents (config : AuthConfig) (c : AuthCall) (jti : String) : Prop :=
  ∃ token payload, c.presented = some token ∧ config.payload token = some payload ∧
    payload.jti = some jti

/-- The token is revoked, and denied until it expires. -/
def AuthState.RevokedFor (s : AuthState) (jti : String) (expiresAt : Int) : Prop :=
  (jti, expiresAt) ∈ s.completed ∧ s.Denied jti expiresAt

theorem AuthState.RevokedFor.later (h : s.RevokedFor jti expiresAt)
    (keeps : KeepsDenied jti expiresAt s s') : s'.RevokedFor jti expiresAt :=
  ⟨keeps.completed h.1, keeps.denied h.2⟩

/-- The denylist is asked in time. -/
theorem wp_isTokenRevoked (revoked : s.RevokedFor jti expiresAt) :
    Wp authAnswer (KeepsDenied jti expiresAt) (InTime jti expiresAt)
      (Returns fun found _ => found = true) (isTokenRevoked jti).run s := by
  refine Wp.returns_tryCatch ?_ (orElse_raises _)
  apply wp_command
  · intro s' hR given inTime
    have hrevoked := revoked.later hR
    have hsame : SameTokens s' (authAnswer (.redis (.existsKey (revokedKey jti))) given s').2 := by
      apply sameTokens_of_ordinary
      rintro key ⟨⟩
    refine ⟨keepsDenied_of_keys (by rw [hsame.now]) hsame.completed (hsame.revoked jti), ?_⟩
    rintro found keys hexec -
    cases hexec
    have hearly := inTime rfl hrevoked.1
    obtain hexpired | hlive := hrevoked.2
    · omega
    · exact Expiring.Keys.live_of_le hlive (by omega)
  · intro fault s'
    trivial

section Presented

variable {payload : JwtPayload} (revoked : s.RevokedFor jti expiresAt)
  (signed : config.payload token = some payload) (named : payload.jti = some jti)

include revoked signed named

theorem validateToken_raises :
    Wp authAnswer (KeepsDenied jti expiresAt) (InTime jti expiresAt) (Returns fun _ _ => False)
      (validateToken config token).run s := by
  unfold validateToken
  split
  · trivial
  rename_i secret hsecret
  refine Wp.returns_tryCatch ?_ fun e => ⟨_, rfl⟩
  rw [wp_except_bind, wp_authAsk]
  intro s₁ hR₁ given _
  refine ⟨(keepsDenied_onward jti expiresAt).refl s₁, ?_⟩
  simp only [authAnswer, Except.mapError, Continues]
  split
  · trivial
  rename_i decoded hverify
  rw [eq_of_verify hsecret signed hverify, checkToken]
  split
  · trivial
  rename_i found hfound
  rw [named] at hfound
  obtain rfl := eq_of_present hfound
  rw [wp_except_bind]
  apply (wp_isTokenRevoked (revoked.later hR₁)).mono
  rintro (e | found) s₂ hfound
  · trivial
  · rw [show found = true from hfound]
    trivial

theorem refreshToken_raises :
    Wp authAnswer (KeepsDenied jti expiresAt) (InTime jti expiresAt) (Returns fun _ _ => False)
      (refreshToken config token).run s := by
  unfold refreshToken
  split
  · trivial
  rename_i secret hsecret
  refine Wp.returns_tryCatch ?_ (orElse_raises _)
  rw [wp_except_bind, wp_authAsk]
  intro s₁ hR₁ given _
  refine ⟨(keepsDenied_onward jti expiresAt).refl s₁, ?_⟩
  simp only [authAnswer, Except.mapError, Continues]
  split
  · trivial
  rename_i decoded hverify
  rw [eq_of_verify hsecret signed hverify]
  split
  · trivial
  rename_i claims hclaims
  rw [wp_except_bind, wp_authAsk]
  intro s₂ hR₂ given _
  refine ⟨(keepsDenied_onward jti expiresAt).refl s₂, ?_⟩
  simp only [authAnswer, Except.mapError, Continues, renew]
  split
  · trivial
  have hclaimed := (of_refreshClaims hclaims).1
  rw [named] at hclaimed
  rw [wp_except_bind, ← eq_of_present hclaimed]
  apply (wp_isTokenRevoked ((revoked.later hR₁).later hR₂)).mono
  rintro (e | found) s₃ hfound
  · trivial
  · rw [show found = true from hfound]
    trivial

/-- A route does not let the token in. -/
theorem authenticated_refuses (next : JwtPayload → AuthJob AuthResponse) :
    Wp authAnswer (KeepsDenied jti expiresAt) (InTime jti expiresAt)
      (fun r _ => (AuthReturn.responded r).accepted = false)
      (authenticated config token next).run s := by
  unfold authenticated
  rw [wp_except_bind]
  apply wp_map.2
  apply (validateToken_raises revoked signed named).mono
  rintro (e | _) s' hraises
  · rfl
  · exact hraises.elim

end Presented

/-- No call accepts the token. -/
theorem job_refuses {c : AuthCall} (revoked : s.RevokedFor jti expiresAt)
    (presents : c.Presents config jti) :
    Wp authAnswer (KeepsDenied jti expiresAt) (InTime jti expiresAt)
      (fun r _ => r.accepted = false) (c.job config) s := by
  obtain ⟨token, payload, hpresented, signed, named⟩ := presents
  cases c with
  | validateToken token =>
    cases hpresented
    apply wp_map.2
    apply (validateToken_raises revoked signed named).mono
    rintro (e | _) s' hraises
    · rfl
    · exact hraises.elim
  | refreshToken token =>
    cases hpresented
    apply wp_map.2
    apply (refreshToken_raises revoked signed named).mono
    rintro (e | _) s' hraises
    · rfl
    · exact hraises.elim
  | logout | stepUp | listSessions | revokeSession | revokeAllSessions =>
    cases hpresented
    exact wp_map.2 (authenticated_refuses revoked signed named _)
  | _ => cases hpresented

/-! ## Whole runs -/

/-- Once the revocation has completed, no call that comes in later accepts the token. -/
def RevokedForGood (config : AuthConfig) (s : AuthState) (as : List AuthStep) (jti : String)
    (expiresAt : Int) : Prop :=
  ∀ before, before <+: as →
    (jti, expiresAt) ∈ (run (auth config) (.fresh s) before).shared.completed →
      ∀ i c r, (run (auth config) (.fresh s) before).workers.length ≤ i →
        (run (auth config) (.fresh s) as).call i = some c →
          (run (auth config) (.fresh s) as).result i = some r →
            c.Presents config jti → r.accepted = false

theorem job_keepsDenied (c : AuthCall) (s : AuthState) :
    Wp authAnswer (KeepsDenied jti expiresAt) (InTime jti expiresAt) (fun _ _ => True)
      (c.job config) s :=
  keeps_job (fun _ ordinary given _ _ => keepsDenied_ordinary ordinary given) keeps_revokeToken
    keeps_bumpTokenVersion c s

/-- A token that is revoked is never accepted again, as long as its entry is not shortened and it is
only looked up before it expires. -/
theorem revoked_for_good (config : AuthConfig) (s : AuthState) (as : List AuthStep) (jti : String)
    (expiresAt : Int) (start : s.completed = [])
    (inTime : ∀ p ∈ trail (auth config) (.fresh s) as, StepInTime jti expiresAt p.1 p.2) :
    RevokedForGood config s as jti expiresAt := by
  rintro before ⟨rest, rfl⟩ completed i c r later called returned
  rw [trail, Machine.trail_append] at inTime
  have hfresh : (World.fresh s).Ok (auth config) (KeepsDenied jti expiresAt)
      (fun _ => InTime jti expiresAt) fun _ _ _ _ => True := by
    intro i c job found
    simp [World.fresh] at found
  obtain ⟨hok, hbefore⟩ := run_keeps (keepsDenied_onward jti expiresAt) (fun _ _ _ _ _ _ _ => trivial)
    hfresh (fun p hp => inTime p (List.mem_append_left _ hp))
    (fun s _ ms _ => keepsDenied_elapse ms) (fun s _ _ c _ => job_keepsDenied c s)
  have hrevoked : (run (auth config) (.fresh s) before).shared.RevokedFor jti expiresAt := by
    refine ⟨completed, hbefore.sound (fun hmem => ?_) completed⟩
    rw [World.fresh, start] at hmem
    cases hmem
  have hdone := World.done_of_result called returned
  rw [run, Machine.run_append] at hdone
  apply run_returns_later (keepsDenied_onward jti expiresAt) hok
    (fun p hp => inTime p (List.mem_append_right _ hp)) (fun s _ ms _ => keepsDenied_elapse ms) ?_
    later hdone rfl
  intro s' hR j c _
  by_cases presents : c.Presents config jti
  · exact (job_refuses (hrevoked.later hR) presents).mono fun r _ h _ => h
  · exact (job_keepsDenied c s').mono fun r _ _ h => absurd h presents

/-! A wallet logs in and out again, and refreshes its token when it has just expired. -/

/-- The wallet logs out. -/
def Sample.loginLogout : List AuthStep :=
  Sample.login ++ .call (.logout "j0") :: Sample.works 2 ""

/-- A minute after its expiry, the token is refreshed. -/
def Sample.refreshInGrace : List AuthStep :=
  .outside 86460000 :: .call (.refreshToken "j0") :: Sample.works 3 "j1"

/-- The token was revoked when the wallet logged out, and it is accepted again. -/
theorem not_revokedForGood :
    ("j0", 86400) ∈ (run (auth Sample.authConfig) (.fresh Sample.loggedOut)
        Sample.loginLogout).shared.completed ∧
      (run (auth Sample.authConfig) (.fresh Sample.loggedOut)
        (Sample.loginLogout ++ Sample.refreshInGrace)).result 3 = some (.token (.ok "j1")) ∧
      ¬ RevokedForGood Sample.authConfig Sample.loggedOut
        (Sample.loginLogout ++ Sample.refreshInGrace) "j0" 86400 := by
  have hrevoked : ("j0", 86400) ∈ (run (auth Sample.authConfig) (.fresh Sample.loggedOut)
      Sample.loginLogout).shared.completed := by
    decide +kernel
  have hresult : (run (auth Sample.authConfig) (.fresh Sample.loggedOut)
      (Sample.loginLogout ++ Sample.refreshInGrace)).result 3 = some (.token (.ok "j1")) := by
    decide +kernel
  refine ⟨hrevoked, hresult, fun hgood => ?_⟩
  have haccepted := hgood Sample.loginLogout ⟨_, rfl⟩ hrevoked 3 (.refreshToken "j0") _
    (by decide +kernel) (by decide +kernel) hresult
    ⟨"j0", Sample.payload "j0" 0 0, rfl, by decide +kernel, rfl⟩
  cases haccepted

/-- The wallet logs out, and its token is presented while it would still be valid. -/
theorem revoked_for_good_loggedOut :
    RevokedForGood Sample.authConfig Sample.loggedOut
      (Sample.loginLogout ++ .call (.refreshToken "j0") :: Sample.works 3 "j1") "j0" 86400 :=
  revoked_for_good Sample.authConfig Sample.loggedOut _ "j0" 86400 rfl (by decide +kernel)

end Amana.Backend
