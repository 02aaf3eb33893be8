import Amana.Backend.AuthFrame
import Mathlib.Logic.Relation

/-!
# Token families

Each token carries the generation of its wallet's tokens when it was issued, and is only valid while
that is not behind.  A refresh does not check it: it issues a token of the current generation for one
of an old generation.  Where every renewal reads a generation the token presented is not behind of, a
new generation ends the whole family of the older tokens (`families_die`).
-/

namespace Amana.Backend

open Lib Lib.Database Lib.Jobs AuthService

variable {config : AuthConfig} {c : AuthCall} {token walletAddress : String} {s s' : AuthState}
  {w : AuthWorld} {as : List AuthStep} {i : Nat}

/-! ## Generations -/

/-- The generation that is stored for a wallet. -/
def AuthState.version (s : AuthState) (walletAddress : String) : Nat :=
  parseVersion ((s.keys (versionKey walletAddress)).map Expiring.Entry.value)

/-- Generations are numbers, and stay. -/
def AuthState.VersionsStay (s : AuthState) : Prop :=
  ∀ walletAddress e, s.keys (versionKey walletAddress) = some e →
    e.deadline = none ∧ ∃ n, e.value = .number n

/-- What all steps keep. -/
structure KeepsVersions (s s' : AuthState) : Prop where
  stay : s.VersionsStay → s'.VersionsStay
  version : s.VersionsStay → ∀ walletAddress, s.version walletAddress ≤ s'.version walletAddress

theorem keepsVersions_onward : Onward KeepsVersions where
  refl _ := ⟨id, fun _ _ => Nat.le_refl _⟩
  trans h h' := ⟨h'.stay ∘ h.stay, fun hstay walletAddress =>
    (h.version hstay walletAddress).trans (h'.version (h.stay hstay) walletAddress)⟩

theorem keepsVersions_of_keys (same : ∀ walletAddress,
    s'.keys (versionKey walletAddress) = s.keys (versionKey walletAddress)) : KeepsVersions s s' where
  stay hstay walletAddress e he := hstay walletAddress e ((same walletAddress).symm.trans he)
  version _ walletAddress := by rw [AuthState.version, AuthState.version, same]

theorem keepsVersions_ordinary {op : AuthOp} (ordinary : op.Ordinary) (given : AuthInput) :
    KeepsVersions s (authAnswer op given s).2 := by
  have hsame : SameTokens s (authAnswer op given s).2 := sameTokens_of_ordinary ordinary
  exact keepsVersions_of_keys hsame.version

/-- What is written elsewhere. -/
theorem keepsVersions_command {command : RedisCommand} (given : AuthInput)
    (other : ∀ key ∈ command.writes, ∀ walletAddress, versionKey walletAddress ≠ key) :
    KeepsVersions s (authAnswer (.redis command) given s).2 := by
  have heffect := authAnswer_effect (.redis command) given s
  generalize (authAnswer (.redis command) given s).2 = s' at heffect
  cases heffect with
  | nothing => exact keepsVersions_onward.refl s
  | redis command r keys h =>
    apply keepsVersions_of_keys
    exact fun walletAddress => RedisCommand.exec_of_ne h fun key hkey => other key hkey _

/-- What `INCR` answers and leaves behind. -/
theorem incr_exec (walletAddress : String) (stay : s.VersionsStay) :
    (RedisCommand.incr (versionKey walletAddress)).exec s.now s.keys =
      .ok (s.version walletAddress + 1,
        s.keys.put (versionKey walletAddress) (.number (s.version walletAddress + 1)) none) := by
  rw [RedisCommand.exec]
  cases hentry : s.keys (versionKey walletAddress) with
  | none =>
    have hlive : s.keys.live s.now (versionKey walletAddress) = none := by
      simp [Expiring.Keys.live, hentry]
    rw [hlive]
    simp [AuthState.version, hentry, parseVersion]
  | some e =>
    obtain ⟨value, deadline⟩ := e
    obtain ⟨rfl, n, rfl⟩ := stay _ _ hentry
    have hlive : s.keys.live s.now (versionKey walletAddress) = some ⟨.number n, none⟩ := by
      simp [Expiring.Keys.live, hentry, Expiring.Entry.alive]
    rw [hlive]
    simp [AuthState.version, hentry, parseVersion]

theorem versionKey_lower (walletAddress : String) :
    versionKey (Text.toLowerCase walletAddress) = versionKey walletAddress := by
  rw [versionKey, versionKey, Text.toLowerCase_toLowerCase]

theorem AuthState.version_lower (s : AuthState) (walletAddress : String) :
    s.version (Text.toLowerCase walletAddress) = s.version walletAddress := by
  rw [version, version, versionKey_lower]

/-- What is read of a generation. -/
theorem read_version {r : Option RedisValue} (stay : s.VersionsStay)
    (h : RedisCommand.plain (s.keys.live s.now (versionKey walletAddress)) = .ok r) :
    parseVersion r = s.version walletAddress := by
  cases hentry : s.keys (versionKey walletAddress) with
  | none =>
    rw [Expiring.Keys.live, hentry] at h
    cases h
    rw [AuthState.version, hentry]
    rfl
  | some e =>
    obtain ⟨value, deadline⟩ := e
    obtain ⟨rfl, n, rfl⟩ := stay _ _ hentry
    rw [Expiring.Keys.live, hentry] at h
    cases h
    rw [AuthState.version, hentry]
    rfl

/-- `INCR` makes a new generation of one wallet. -/
theorem keepsVersions_incr (given : AuthInput) :
    KeepsVersions s (authAnswer (.redis (.incr (versionKey walletAddress))) given s).2 := by
  have heffect := authAnswer_effect (.redis (.incr (versionKey walletAddress))) given s
  generalize (authAnswer (.redis (.incr (versionKey walletAddress))) given s).2 = s' at heffect
  cases heffect with
  | nothing => exact keepsVersions_onward.refl s
  | redis command r keys h =>
    have hsame (stay : s.VersionsStay) {wallet : String}
        (hwallet : versionKey wallet = versionKey walletAddress) :
        keys (versionKey wallet) = some ⟨.number (s.version walletAddress + 1), none⟩ := by
      cases h.symm.trans (incr_exec walletAddress stay)
      rw [hwallet, Expiring.Keys.put_same]
    have hother {wallet : String} (hwallet : versionKey wallet ≠ versionKey walletAddress) :
        keys (versionKey wallet) = s.keys (versionKey wallet) := by
      refine RedisCommand.exec_of_ne h ?_
      rintro key ⟨⟩
      exact hwallet
    constructor
    · intro stay wallet e he
      by_cases hwallet : versionKey wallet = versionKey walletAddress
      · cases he.symm.trans (hsame stay hwallet)
        exact ⟨rfl, _, rfl⟩
      · exact stay wallet e ((hother hwallet).symm.trans he)
    · intro stay wallet
      show s.version wallet ≤ parseVersion ((keys (versionKey wallet)).map Expiring.Entry.value)
      by_cases hwallet : versionKey wallet = versionKey walletAddress
      · rw [hsame stay hwallet, AuthState.version, hwallet]
        exact Nat.le_succ _
      · rw [hother hwallet]
        exact Nat.le_refl _

section Jobs

variable {allowed : AuthOp → AuthInput → AuthState → Prop}

theorem keepsVersions_ask (op : AuthOp) (ordinary : op.Ordinary) (given : AuthInput)
    (s : AuthState) (_ : allowed op given s) : KeepsVersions s (authAnswer op given s).2 :=
  keepsVersions_ordinary ordinary given

theorem keepsVersions_revokeToken (jti : String) (expiresAt : Int) :
    Keeps authAnswer KeepsVersions allowed (revokeToken jti expiresAt).run := by
  refine Keeps.tryCatch ?_ (keeps_orElse _)
  apply (keeps_authAsk keepsVersions_ask (by trivial)).except_bind
  intro now
  have hcompletes : ∀ _ : Unit, Keeps authAnswer KeepsVersions allowed
      (AuthOp.completed jti expiresAt).ask.run :=
    fun _ _ s' _ given _ => ⟨keepsVersions_of_keys fun _ => rfl, trivial⟩
  refine Keeps.except_bind ?_ hcompletes
  unfold deny
  split
  · intro s s' _ given _
    refine ⟨keepsVersions_command given ?_, trivial⟩
    rintro key ⟨⟩ walletAddress
    exact (revokedKey_ne_versionKey _ _).symm
  · exact keeps_pure _

theorem keepsVersions_job (c : AuthCall) :
    Keeps authAnswer KeepsVersions allowed (c.job config) := by
  apply keeps_job keepsVersions_ask keepsVersions_revokeToken
  intro walletAddress
  refine Keeps.tryCatch ?_ fun _ => keeps_throw _
  exact fun s s' _ given _ => ⟨keepsVersions_incr given, trivial⟩

/-- The generation that is read is that of the time. -/
theorem wp_getTokenVersion {issuing : Bool} {Ψ : Except AuthError Nat → AuthState → Prop}
    (stay : s.VersionsStay)
    (reads : ∀ s' given, KeepsVersions s s' → allowed (.tokenVersion walletAddress issuing) given s' →
      Ψ (.ok (s'.version walletAddress)) s')
    (fails : ∀ e s', KeepsVersions s s' → Ψ (.error e) s') :
    Wp authAnswer KeepsVersions allowed Ψ (getTokenVersion walletAddress issuing).run s := by
  unfold getTokenVersion
  rw [wp_tryCatch, wp_except_bind, wp_authAsk]
  intro s' hR given hallowed
  have hordinary : KeepsVersions s' (authAnswer (.tokenVersion walletAddress issuing) given s').2 :=
    keepsVersions_ordinary (by trivial) given
  refine ⟨hordinary, ?_⟩
  simp only [authAnswer]
  cases hread : RedisCommand.plain (s'.keys.live s'.now (versionKey walletAddress)) with
  | error fault => exact fails _ s' hR
  | ok r =>
    have hversion := read_version (hR.stay stay) hread
    cases hc : given.connection with
    | heard =>
      have hok := reads s' given hR hallowed
      rw [← hversion] at hok
      exact hok
    | unheard | down => exact fails _ s' hR

end Jobs

/-! ## What is issued -/

/-- The generation of a token. -/
def JwtPayload.generation (payload : JwtPayload) : Nat := payload.tv.getD 0

/-- A generation that is read to renew a token is not ahead of the token presented. -/
def IssuesCurrent (config : AuthConfig) (c : AuthCall) (s : AuthState) : AuthOp → Prop
  | .tokenVersion walletAddress true => ∀ token ∈ c.presented, ∀ payload ∈ config.payload token,
    s.version walletAddress ≤ payload.generation
  | _ => True

instance (config : AuthConfig) (c : AuthCall) (s : AuthState) (op : AuthOp) :
    Decidable (IssuesCurrent config c s op) := by
  unfold IssuesCurrent
  split <;> infer_instance

/-- The token that is issued is the wallet's, and its generation is neither ahead of that of the
wallet nor of that of the token presented. -/
structure IssuedFor (config : AuthConfig) (c : AuthCall) (walletAddress : String) (s : AuthState)
    (payload : JwtPayload) : Prop where
  wallet : payload.walletAddress = some (Text.toLowerCase walletAddress)
  current : payload.generation ≤ s.version walletAddress
  renewed : ∀ token ∈ c.presented, ∀ payload' ∈ config.payload token,
    payload.generation ≤ payload'.generation

theorem IssuedFor.later {payload : JwtPayload} (h : IssuedFor config c walletAddress s payload)
    (stay : s.VersionsStay) (keeps : KeepsVersions s s') :
    IssuedFor config c walletAddress s' payload :=
  ⟨h.wallet, h.current.trans (keeps.version stay walletAddress), h.renewed⟩

/-- What is decoded of a payload that was signed is the payload. -/
def Jwt.Sound (jwt : Jwt) : Prop :=
  ∀ secret payload payload', jwt.decode secret (jwt.sign secret payload) = some payload' →
    payload' = payload

/-- What is issued for a wallet. -/
abbrev Issues (config : AuthConfig) (c : AuthCall) (walletAddress token : String)
    (s : AuthState) : Prop :=
  s.VersionsStay ∧ ∀ payload, config.payload token = some payload →
    IssuedFor config c walletAddress s payload

theorem payload_of_sign {secret : String} {payload payload' : JwtPayload} (sound : config.jwt.Sound)
    (hsecret : config.jwtSecret = some secret)
    (h : config.payload (config.jwt.sign secret payload) = some payload') : payload' = payload := by
  rw [AuthConfig.payload, hsecret] at h
  exact sound secret payload payload' h

section Issuing

variable (sound : config.jwt.Sound)

include sound

theorem wp_issueToken (walletAddress : String) (stay : s.VersionsStay) :
    Wp authAnswer KeepsVersions (fun op _ s => IssuesCurrent config c s op)
      (Returns fun token s' => Issues config c walletAddress token s')
      (issueToken config walletAddress).run s := by
  unfold issueToken
  split
  · trivial
  rename_i secret hsecret
  apply (keeps_authAsk keepsVersions_ask (by trivial)).before keepsVersions_onward
  intro now s₁ hR₁
  apply (keeps_authAsk keepsVersions_ask (by trivial)).before keepsVersions_onward
  intro jti s₂ hR₂
  have hstay₂ := hR₂.stay (hR₁.stay stay)
  apply wp_returns_bind.2
  apply wp_getTokenVersion hstay₂
  · intro s₃ given hR₃ hcurrent
    refine ⟨hR₃.stay hstay₂, fun payload hpayload => ?_⟩
    rw [payload_of_sign sound hsecret hpayload]
    exact ⟨rfl, Nat.le_refl _, hcurrent⟩
  · intro e s₃ hR₃
    trivial

theorem wp_issueAdminToken {ctx : DeviceContext} (stay : s.VersionsStay) :
    Wp authAnswer KeepsVersions (fun op _ s => IssuesCurrent config c s op)
      (Returns fun issued s' => Issues config c walletAddress issued.token s')
      (issueAdminToken config walletAddress ctx).run s := by
  unfold issueAdminToken
  split
  · trivial
  rename_i secret hsecret
  apply (keeps_authAsk keepsVersions_ask (by trivial)).before keepsVersions_onward
  intro now s₁ hR₁
  apply (keeps_authAsk keepsVersions_ask (by trivial)).before keepsVersions_onward
  intro jti s₂ hR₂
  have hstay₂ := hR₂.stay (hR₁.stay stay)
  apply wp_returns_bind.2
  apply wp_getTokenVersion hstay₂
  · intro s₃ given hR₃ hcurrent
    have hstay₃ := hR₃.stay hstay₂
    dsimp only [Returns]
    apply (keeps_registry keepsVersions_ask (AdminSessionService.asks_register _)).before
      keepsVersions_onward
    intro _ s₄ hR₄
    refine ⟨hR₄.stay hstay₃, fun payload hpayload => ?_⟩
    rw [payload_of_sign sound hsecret hpayload]
    refine ⟨rfl, ?_, hcurrent⟩
    show s₃.version (Text.toLowerCase walletAddress) ≤ s₄.version walletAddress
    rw [AuthState.version_lower]
    exact hR₄.version hstay₃ walletAddress
  · intro e s₃ hR₃
    trivial

end Issuing

/-- A token that is validated is signed, and not behind. -/
theorem wp_validateToken {allowed : AuthOp → AuthInput → AuthState → Prop} (stay : s.VersionsStay) :
    Wp authAnswer KeepsVersions allowed
      (Returns fun payload _ => config.payload token = some payload ∧
        ∃ walletAddress, payload.walletAddress = some walletAddress ∧
          s.version walletAddress ≤ payload.generation)
      (validateToken config token).run s := by
  unfold validateToken
  split
  · trivial
  rename_i secret hsecret
  refine Wp.returns_tryCatch ?_ fun e => ⟨_, rfl⟩
  apply (keeps_authAsk keepsVersions_ask (by trivial)).before keepsVersions_onward
  intro clock s₁ hR₁
  split
  · trivial
  rename_i decoded hverify
  have hsigned : config.payload token = some decoded := by
    rw [AuthConfig.payload, hsecret]
    exact Jwt.decode_of_verify hverify
  unfold checkToken
  split
  · trivial
  rename_i jti hjti
  apply (keeps_isTokenRevoked keepsVersions_ask _).before keepsVersions_onward
  intro revoked s₂ hR₂
  split
  · trivial
  · trivial
  rename_i walletAddress hwallet
  have hR := keepsVersions_onward.trans hR₁ hR₂
  apply wp_returns_bind.2
  apply wp_getTokenVersion (hR.stay stay)
  · intro s₃ given hR₃ _
    show Wp _ _ _ _ (ite _ _ _ : AuthJob JwtPayload).run s₃
    split
    · trivial
    · rename_i hbehind
      refine ⟨hsigned, walletAddress, hwallet, ?_⟩
      have hversion := (keepsVersions_onward.trans hR hR₃).version stay walletAddress
      exact hversion.trans (Nat.le_of_not_lt hbehind)
  · intro e s₃ _
    trivial

/-! ## What is granted and accepted -/

/-- The token a call hands out: for a signature, or for the token it presents. -/
def AuthCall.granted : AuthCall → AuthReturn → Option String
  | .verify .., .token (.ok token) | .refreshToken _, .token (.ok token) => some token
  | .stepUp .., .responded (.ok (.steppedUp issued)) => some issued.token
  | _, _ => none

/-- The token a call presents to `validateToken`. -/
def AuthCall.validates : AuthCall → Option String
  | .refreshToken _ => none
  | c => c.presented

/-- The token is issued for a wallet, which is that of the token presented. -/
def Grants (config : AuthConfig) (c : AuthCall) (token : String) (s : AuthState) : Prop :=
  ∃ walletAddress, Issues config c walletAddress token s ∧
    ∀ old ∈ c.presented, ∃ payload, config.payload old = some payload ∧
      payload.walletAddress = some walletAddress

/-- What holds of what a call has returned. -/
def Granted (config : AuthConfig) (c : AuthCall) (r : AuthReturn) (s : AuthState) : Prop :=
  s.VersionsStay ∧ ∀ token, c.granted r = some token → Grants config c token s

theorem Grants.later (h : Grants config c token s) (keeps : KeepsVersions s s') :
    Grants config c token s' := by
  obtain ⟨walletAddress, ⟨hstay, hissued⟩, hpresented⟩ := h
  exact ⟨walletAddress, ⟨keeps.stay hstay, fun payload hpayload =>
    (hissued payload hpayload).later hstay keeps⟩, hpresented⟩

theorem Granted.later {r : AuthReturn} (h : Granted config c r s) (keeps : KeepsVersions s s') :
    Granted config c r s' :=
  ⟨keeps.stay h.1, fun token htoken => (h.2 token htoken).later keeps⟩

/-- The requests of authentication. -/
abbrev Current (config : AuthConfig) (c : AuthCall) : AuthOp → AuthInput → AuthState → Prop :=
  fun op _ s => IssuesCurrent config c s op

section Granting

variable (sound : config.jwt.Sound) (stay : s.VersionsStay)

include sound stay

theorem verify_grants {signedChallenge : String} :
    Wp authAnswer KeepsVersions (Current config (.verify walletAddress signedChallenge))
      (Returns (Grants config (.verify walletAddress signedChallenge)))
      (verifySignatureAndIssueJWT config walletAddress signedChallenge).run s := by
  refine Wp.returns_tryCatch ?_ (orElse_raises _)
  apply (keeps_read keepsVersions_ask rfl).before keepsVersions_onward
  intro failures s₁ hR₁
  split
  · trivial
  apply (keeps_write keepsVersions_ask rfl (separate_challengeKey _)).before keepsVersions_onward
  intro raw s₂ hR₂
  split
  · trivial
  · trivial
  split
  · apply (keeps_write keepsVersions_ask rfl (separate_failureKey _)).before keepsVersions_onward
    intro _ s₃ hR₃
    apply (keeps_authAsk keepsVersions_ask (by trivial)).before keepsVersions_onward
    rintro (error | _) s₄ hR₄
    · trivial
    have hstay := hR₄.stay (hR₃.stay (hR₂.stay (hR₁.stay stay)))
    apply (wp_issueToken sound walletAddress hstay).mono
    rintro (e | token) s₅ hissues
    · trivial
    · refine ⟨walletAddress, hissues, ?_⟩
      rintro old ⟨⟩
  · apply (keeps_read keepsVersions_ask rfl).before keepsVersions_onward
    intro raw s₃ _
    apply (keeps_write keepsVersions_ask rfl (separate_failureKey _)).before keepsVersions_onward
    intro _ s₄ _
    trivial

theorem refreshToken_grants :
    Wp authAnswer KeepsVersions (Current config (.refreshToken token))
      (Returns (Grants config (.refreshToken token))) (refreshToken config token).run s := by
  unfold refreshToken
  split
  · trivial
  rename_i secret hsecret
  refine Wp.returns_tryCatch ?_ (orElse_raises _)
  apply (keeps_authAsk keepsVersions_ask (by trivial)).before keepsVersions_onward
  intro clock s₁ hR₁
  split
  · trivial
  rename_i decoded hverify
  have hsigned : config.payload token = some decoded := by
    rw [AuthConfig.payload, hsecret]
    exact Jwt.decode_of_verify hverify
  split
  · trivial
  rename_i claims hclaims
  apply (keeps_authAsk keepsVersions_ask (by trivial)).before keepsVersions_onward
  intro now s₂ hR₂
  unfold renew
  split
  · trivial
  apply (keeps_isTokenRevoked keepsVersions_ask _).before keepsVersions_onward
  rintro (_ | _) s₃ hR₃
  · apply (keepsVersions_revokeToken _ _).before keepsVersions_onward
    intro _ s₄ hR₄
    have hstay := hR₄.stay (hR₃.stay (hR₂.stay (hR₁.stay stay)))
    apply (wp_issueToken sound claims.walletAddress hstay).mono
    rintro (e | token) s₅ hissues
    · trivial
    · refine ⟨claims.walletAddress, hissues, ?_⟩
      rintro old ⟨⟩
      exact ⟨decoded, hsigned, (of_refreshClaims hclaims).2⟩
  · trivial

theorem stepUp_grants {ctx : DeviceContext} :
    Wp authAnswer KeepsVersions (Current config (.stepUp token ctx))
      (Returns fun response s' => ∀ issued, response = .steppedUp issued →
        Grants config (.stepUp token ctx) issued.token s')
      (stepUp config token ctx).run s := by
  unfold stepUp asAdmin authenticated
  apply wp_returns_bind.2
  apply wp_map.2
  apply (((keeps_validateToken keepsVersions_ask token).reaches keepsVersions_onward s).and
    (wp_validateToken stay)).mono
  rintro (e | user) s₁ ⟨hR₁, huser⟩
  · rintro issued ⟨⟩
  obtain ⟨hsigned, walletAddress, hwallet, -⟩ := huser
  apply (keeps_adminMiddleware keepsVersions_ask user ctx).before keepsVersions_onward
  rintro (_ | ⟨statusCode, text⟩) s₂ hR₂
  rotate_left
  · rintro issued ⟨⟩
  have hstay₂ := hR₂.stay (hR₁.stay stay)
  apply wp_tryCatch.2
  have hreturns : Wp authAnswer KeepsVersions (Current config (.stepUp token ctx))
      (Returns fun response s' => ∀ issued, response = .steppedUp issued →
        Grants config (.stepUp token ctx) issued.token s')
      (do
        let issued ← issueAdminToken config (user.walletAddress.getD "") ctx
        retire user issued.jti
        return .steppedUp issued : AuthJob AuthResponse).run s₂ := by
    apply wp_returns_bind.2
    apply (wp_issueAdminToken sound hstay₂).mono
    rintro (e | issued) s₃ hissues
    · trivial
    apply (keeps_retire keepsVersions_ask keepsVersions_revokeToken _ _).before
      keepsVersions_onward
    rintro _ s₄ hR₄ issued ⟨⟩
    have hgrants : Grants config (.stepUp token ctx) issued.token s₃ := by
      refine ⟨_, hissues, ?_⟩
      rintro old ⟨⟩
      exact ⟨user, hsigned, by rw [hwallet]; rfl⟩
    exact hgrants.later hR₄
  apply hreturns.mono
  rintro (e | response) s₃ hresponse
  · rintro issued ⟨⟩
  · exact hresponse

/-- What a call grants is issued for its wallet. -/
theorem job_granted (c : AuthCall) :
    Wp authAnswer KeepsVersions (Current config c) (fun r s' => Granted config c r s')
      (c.job config) s := by
  have hnone (silent : ∀ r, c.granted r = none) :
      Wp authAnswer KeepsVersions (Current config c) (fun r s' => Granted config c r s')
        (c.job config) s := by
    apply ((keepsVersions_job c).reaches keepsVersions_onward s).mono
    intro r s' hR
    refine ⟨hR.stay stay, fun token htoken => ?_⟩
    rw [silent] at htoken
    cases htoken
  have hsome {r : AuthReturn} {s' : AuthState} (hR : KeepsVersions s s')
      (h : ∀ token, c.granted r = some token → Grants config c token s') : Granted config c r s' :=
    ⟨hR.stay stay, h⟩
  cases c with
  | verify walletAddress signedChallenge =>
    apply wp_map.2
    apply (((keeps_verify keepsVersions_ask _ _).reaches keepsVersions_onward s).and
      (verify_grants sound stay)).mono
    rintro (e | token) s' ⟨hR, hgrants⟩
    · exact hsome hR (by rintro token ⟨⟩)
    · exact hsome hR (by rintro token ⟨⟩; exact hgrants)
  | refreshToken token =>
    apply wp_map.2
    apply (((keeps_refreshToken keepsVersions_ask keepsVersions_revokeToken _).reaches
      keepsVersions_onward s).and (refreshToken_grants sound stay)).mono
    rintro (e | token) s' ⟨hR, hgrants⟩
    · exact hsome hR (by rintro token ⟨⟩)
    · exact hsome hR (by rintro token ⟨⟩; exact hgrants)
  | stepUp token ctx =>
    apply wp_map.2
    apply (((keeps_stepUp keepsVersions_ask keepsVersions_revokeToken _ _).reaches
      keepsVersions_onward s).and (stepUp_grants sound stay)).mono
    rintro (e | response) s' ⟨hR, hgrants⟩
    · exact hsome hR (by rintro token ⟨⟩)
    · cases response with
      | steppedUp issued => exact hsome hR (by rintro token ⟨⟩; exact hgrants issued rfl)
      | _ => exact hsome hR (by rintro token ⟨⟩)
  | _ => exact hnone fun r => rfl

end Granting

/-- A route lets in what `validateToken` does. -/
theorem authenticated_accepts {allowed : AuthOp → AuthInput → AuthState → Prop} {Q : Prop}
    {next : JwtPayload → AuthJob AuthResponse}
    (keeps : Wp authAnswer KeepsVersions allowed (fun _ _ => True)
      (authenticated config token next).run s)
    (validates : Wp authAnswer KeepsVersions allowed (Returns fun _ _ => Q)
      (validateToken config token).run s) :
    Wp authAnswer KeepsVersions allowed (fun r _ => (AuthReturn.responded r).accepted = true → Q)
      (authenticated config token next).run s := by
  unfold authenticated at keeps ⊢
  rw [wp_except_bind] at keeps ⊢
  apply wp_map.2
  apply ((wp_map.1 keeps).and validates).mono
  rintro (e | user) s' ⟨hnext, hvalid⟩
  · rintro ⟨⟩
  · exact Wp.mono hnext fun r _ _ _ => hvalid

/-- A token that a call lets in is signed, and not behind. -/
theorem job_accepts {c : AuthCall} {allowed : AuthOp → AuthInput → AuthState → Prop}
    (stay : s.VersionsStay) (presents : c.validates = some token) :
    Wp authAnswer KeepsVersions allowed
      (fun r _ => r.accepted = true → ∃ payload walletAddress, config.payload token = some payload ∧
        payload.walletAddress = some walletAddress ∧
          s.version walletAddress ≤ payload.generation)
      (c.job config) s := by
  have hvalidates (token : String) : Wp authAnswer KeepsVersions allowed
      (Returns fun _ _ => ∃ payload walletAddress, config.payload token = some payload ∧
        payload.walletAddress = some walletAddress ∧
          s.version walletAddress ≤ payload.generation)
      (validateToken config token).run s := by
    apply (wp_validateToken stay).mono
    rintro (e | payload) s' hpayload
    · trivial
    · obtain ⟨hsigned, walletAddress, hwallet, hversion⟩ := hpayload
      exact ⟨payload, walletAddress, hsigned, hwallet, hversion⟩
  have hkeeps : Wp authAnswer KeepsVersions allowed (fun _ _ => True) (c.job config) s :=
    keepsVersions_job c s
  cases c with
  | validateToken token =>
    cases presents
    apply wp_map.2
    apply (hvalidates token).mono
    rintro (e | payload) s' hpayload
    · rintro ⟨⟩
    · exact fun _ => hpayload
  | logout token | stepUp token | listSessions token | revokeSession token
  | revokeAllSessions token =>
    cases presents
    exact wp_map.2 (authenticated_accepts (wp_map.1 hkeeps) (hvalidates token))
  | _ => cases presents

/-! ## Families -/

/-- The call of worker `i` has handed out the token. -/
def HandsOut (w : AuthWorld) (i : Nat) (c : AuthCall) (token : String) : Prop :=
  w.call i = some c ∧ (w.result i).bind c.granted = some token

instance (w : AuthWorld) (i : Nat) (c : AuthCall) (token : String) :
    Decidable (HandsOut w i c token) := inferInstanceAs (Decidable (_ ∧ _))

def Issued (w : AuthWorld) (token : String) : Prop := ∃ i c, HandsOut w i c token

/-- A call that presents a token has handed out another one. -/
def Renewed (w : AuthWorld) (old token : String) : Prop :=
  ∃ i c, c.presented = some old ∧ HandsOut w i c token

/-- The wallet of a token, in lower case. -/
def walletOf (config : AuthConfig) (token : String) : Option String :=
  (config.payload token).bind fun payload => payload.walletAddress.map Text.toLowerCase

/-- Worker `i` has signed in with a challenge, and the token goes back to that. -/
def SignedIn (w : AuthWorld) (i : Nat) (token : String) : Prop :=
  ∃ walletAddress signedChallenge root, HandsOut w i (.verify walletAddress signedChallenge) root ∧
    Relation.ReflTransGen (Renewed w) root token

/-- The step makes a new generation of the wallet's tokens. -/
def Bumps (walletAddress : String) (w : AuthWorld) : AuthStep → Prop
  | .advance i given => given.connection ≠ .down ∧ ∃ c next,
      w.workers[i]? = some (c, some (.ask (.redis (.incr (versionKey walletAddress))) next))
  | _ => False

/-- A token that is presented was issued before. -/
def Unforged (config : AuthConfig) (w : AuthWorld) : AuthStep → Prop
  | .call c => ∀ token ∈ c.presented, (config.payload token).isSome = true → Issued w token
  | _ => True

/-- Renewals read generations the token presented is not behind of. -/
def RenewsCurrent (config : AuthConfig) (w : AuthWorld) (a : AuthStep) : Prop :=
  Permits (fun c op _ s => IssuesCurrent config c s op) (fun _ _ => True) (fun _ _ => True) w a

instance (config : AuthConfig) (w : AuthWorld) (a : AuthStep) :
    Decidable (RenewsCurrent config w a) :=
  inferInstanceAs (Decidable (Permits ..))

instance (w : AuthWorld) (token : String) : Decidable (Issued w token) :=
  decidable_of_iff (∃ i ∈ List.range w.workers.length, ∃ c ∈ w.call i, HandsOut w i c token) <| by
    constructor
    · rintro ⟨i, -, c, -, h⟩
      exact ⟨i, c, h⟩
    · rintro ⟨i, c, h⟩
      obtain ⟨p, hp, -⟩ := Option.map_eq_some_iff.1 h.1
      exact ⟨i, List.mem_range.2 (List.getElem?_eq_some_iff.1 hp).1, c, h.1, h⟩

instance (config : AuthConfig) (w : AuthWorld) (a : AuthStep) :
    Decidable (Unforged config w a) := by
  induction a using Activity.casesOn <;> dsimp only [Unforged] <;> infer_instance

theorem HandsOut.done (h : HandsOut w i c token) :
    ∃ r, w.workers[i]? = some (c, some (.done r)) ∧ c.granted r = some token := by
  obtain ⟨r, hr, hgranted⟩ := Option.bind_eq_some_iff.1 h.2
  exact ⟨r, World.done_of_result h.1 hr, hgranted⟩

theorem handsOut_of_done {r : AuthReturn} (h : w.workers[i]? = some (c, some (.done r)))
    (granted : c.granted r = some token) : HandsOut w i c token := by
  constructor
  · rw [World.call, h]
    rfl
  · rw [World.result, h]
    exact granted

theorem HandsOut.step {a : AuthStep} (h : HandsOut w i c token) :
    HandsOut (step (auth config) w a) i c token := by
  obtain ⟨r, hr, hgranted⟩ := h.done
  exact handsOut_of_done (done_step hr) hgranted

theorem HandsOut.run (h : HandsOut w i c token) (as : List AuthStep) :
    HandsOut (run (auth config) w as) i c token := by
  obtain ⟨r, hr, hgranted⟩ := h.done
  exact handsOut_of_done (done_run as hr) hgranted

/-- What a worker has handed out it had handed out when it returned. -/
theorem HandsOut.before (h : HandsOut (Jobs.run (auth config) w as) i c token)
    (returned : w.result i ≠ none) : HandsOut w i c token := by
  obtain ⟨r, hr⟩ := Option.ne_none_iff_exists'.1 returned
  obtain ⟨c', hdone⟩ := World.exists_done_of_result hr
  obtain ⟨r', hr', hgranted⟩ := h.done
  have hstays : (Jobs.run (auth config) w as).workers[i]? = some (c', some (.done r)) :=
    done_run as hdone
  cases hstays.symm.trans hr'
  exact handsOut_of_done hdone hgranted

theorem SignedIn.step {a : AuthStep} (h : SignedIn w i token) :
    SignedIn (step (auth config) w a) i token := by
  obtain ⟨walletAddress, signedChallenge, root, hroot, hchain⟩ := h
  have hrenewed : ∀ old new, Renewed w old new → Renewed (Jobs.step (auth config) w a) old new := by
    rintro old new ⟨j, c, hpresented, hnew⟩
    exact ⟨j, c, hpresented, hnew.step⟩
  exact ⟨walletAddress, signedChallenge, root, hroot.step,
    Relation.ReflTransGen.mono hrenewed _ _ hchain⟩

/-- The invariant: what was granted is issued for its wallet, and what is presented goes back to a
signature. -/
structure Family (config : AuthConfig) (s : AuthState) (w : AuthWorld) : Prop where
  ok : w.Ok (auth config) KeepsVersions (Current config) fun _ c r s => Granted config c r s
  keeps : KeepsVersions s w.shared
  presented : ∀ i c, w.call i = some c → ∀ token ∈ c.presented,
    (config.payload token).isSome = true → ∃ j, SignedIn w j token

theorem Family.grants (h : Family config s w) (handed : HandsOut w i c token) :
    Grants config c token w.shared := by
  obtain ⟨r, hr, hgranted⟩ := handed.done
  have hwp := h.ok i c _ hr
  exact hwp.2 token hgranted

/-- Down a chain of renewals the wallet stays, and the generation does not grow. -/
theorem Family.chain {root : String} {payload : JwtPayload} (h : Family config s w)
    (chain : Relation.ReflTransGen (Renewed w) root token)
    (hpayload : config.payload token = some payload) :
    ∃ payload', config.payload root = some payload' ∧ walletOf config root = walletOf config token ∧
      payload.generation ≤ payload'.generation := by
  induction chain generalizing payload with
  | refl => exact ⟨payload, hpayload, rfl, Nat.le_refl _⟩
  | tail _ hrenewed ih =>
    obtain ⟨i, c, hpresented, hnew⟩ := hrenewed
    obtain ⟨walletAddress, ⟨-, hissued⟩, hold⟩ := h.grants hnew
    obtain ⟨old, hsigned, hwallet⟩ := hold _ hpresented
    obtain ⟨payload', hroot, hsame, hle⟩ := ih hsigned
    have hissued := hissued payload hpayload
    refine ⟨payload', hroot, hsame.trans ?_, ?_⟩
    · simp [walletOf, hsigned, hwallet, hpayload, hissued.wallet]
    · exact (hissued.renewed _ hpresented old hsigned).trans hle

/-- What was issued goes back to a signature. -/
theorem Family.signedIn (h : Family config s w) (issued : Issued w token) :
    ∃ j, SignedIn w j token := by
  obtain ⟨i, c, hnew⟩ := issued
  cases hpresented : c.presented with
  | none =>
    obtain ⟨r, hr, hgranted⟩ := hnew.done
    cases c with
    | verify walletAddress signedChallenge =>
      exact ⟨i, walletAddress, signedChallenge, token, hnew, .refl⟩
    | refreshToken | stepUp => cases hpresented
    | _ => cases hgranted
  | some old =>
    obtain ⟨walletAddress, -, hold⟩ := h.grants hnew
    obtain ⟨payload, hpayload, -⟩ := hold old hpresented
    obtain ⟨j, walletAddress, signedChallenge, root, hroot, hchain⟩ :=
      h.presented i c hnew.1 old hpresented (by rw [hpayload]; rfl)
    exact ⟨j, walletAddress, signedChallenge, root, hroot, hchain.tail ⟨i, c, hpresented, hnew⟩⟩

theorem Family.step {a : AuthStep} (sound : config.jwt.Sound) (start : s.VersionsStay)
    (h : Family config s w) (renews : RenewsCurrent config w a) (unforged : Unforged config w a) :
    Family config s (step (auth config) w a) := by
  obtain ⟨hok, hkeeps⟩ : (Jobs.step (auth config) w a).Ok (auth config) KeepsVersions
      (Current config) (fun _ c r s => Granted config c r s) ∧
        KeepsVersions w.shared (Jobs.step (auth config) w a).shared := by
    refine step_keeps keepsVersions_onward ?_ h.ok renews ?_ ?_
    · exact fun _ _ _ _ _ keeps hgranted => hgranted.later keeps
    · exact fun ms _ => keepsVersions_of_keys fun _ => rfl
    · exact fun i c _ => job_granted sound (h.keeps.stay start) c
  refine ⟨hok, keepsVersions_onward.trans h.keeps hkeeps, ?_⟩
  intro i c hcall token hpresented hsigned
  have hbefore : ∃ j, SignedIn w j token := by
    obtain hold | rfl := call_step hcall
    · exact h.presented i c hold token hpresented hsigned
    · exact h.signedIn (unforged token hpresented hsigned)
  obtain ⟨j, hj⟩ := hbefore
  exact ⟨j, hj.step⟩

theorem Family.run (sound : config.jwt.Sound) (start : s.VersionsStay)
    (renews : ∀ p ∈ trail (auth config) (.fresh s) as, RenewsCurrent config p.1 p.2)
    (unforged : ∀ p ∈ trail (auth config) (.fresh s) as, Unforged config p.1 p.2) :
    Family config s (run (auth config) (.fresh s) as) := by
  refine Machine.run_invariant _ (P := fun w : AuthWorld => Family config s w) ?_ ?_
  · refine ⟨?_, keepsVersions_onward.refl s, ?_⟩
    · intro i c job found
      simp [World.fresh] at found
    · intro i c hcall
      simp [World.fresh, World.call] at hcall
  · exact fun p hp h => h.step sound start (renews p hp) (unforged p hp)

/-- The new generation. -/
theorem version_of_bumps {a : AuthStep} (stay : w.shared.VersionsStay)
    (bumps : Bumps walletAddress w a) :
    (step (auth config) w a).shared.version walletAddress =
      w.shared.version walletAddress + 1 := by
  cases a with
  | advance i given =>
    obtain ⟨hc, c, next, found⟩ := bumps
    have hstate : (step (auth config) w (.advance i given)).shared =
        { w.shared with
          keys := w.shared.keys.put (versionKey walletAddress)
            (.number (w.shared.version walletAddress + 1)) none } := by
      simp only [step, found, auth, authAnswer, incr_exec walletAddress stay, Except.map]
      cases hgiven : given.connection with
      | down => exact absurd hgiven hc
      | heard | unheard => rfl
    rw [hstate]
    simp [AuthState.version, parseVersion]
  | call | crash | outside => exact bumps.elim

theorem length_of_bumps {a : AuthStep} (bumps : Bumps walletAddress w a) :
    (step (auth config) w a).workers.length = w.workers.length := by
  cases a with
  | advance i given =>
    obtain ⟨-, c, next, found⟩ := bumps
    simp [step, found]
  | call | crash | outside => exact bumps.elim

/-! ## Whole runs -/

/-- After a new generation, no token that was issued to the wallet before, and none that goes back
to one by renewals, is let in by `validateToken`; a token of the wallet that is let in goes back to a
signature that was accepted since. -/
def FamiliesDie (config : AuthConfig) (s : AuthState) (as : List AuthStep) : Prop :=
  ∀ before a later walletAddress, as = before ++ a :: later →
    Bumps walletAddress (run (auth config) (.fresh s) before) a →
      ∀ i c r token, (run (auth config) (.fresh s) before).workers.length ≤ i →
        (run (auth config) (.fresh s) as).call i = some c →
          (run (auth config) (.fresh s) as).result i = some r → c.validates = some token →
            (∀ root, Issued (run (auth config) (.fresh s) before) root →
              walletOf config root = some (Text.toLowerCase walletAddress) →
                Relation.ReflTransGen (Renewed (run (auth config) (.fresh s) as)) root token →
                  r.accepted = false) ∧
            (r.accepted = true → walletOf config token = some (Text.toLowerCase walletAddress) →
              ∃ j, (run (auth config) (.fresh s) before).result j = none ∧
                SignedIn (run (auth config) (.fresh s) as) j token)

/-- A token that goes back to one issued before is of its wallet, and of no later generation than the
wallet's was then. -/
theorem Family.generation_le {root walletAddress owner : String} {payload : JwtPayload}
    {w' : AuthWorld} (before : Family config s w) (family : Family config s w')
    (issued : Issued w root) (wallet : walletOf config root = some (Text.toLowerCase walletAddress))
    (chain : Relation.ReflTransGen (Renewed w') root token)
    (hpayload : config.payload token = some payload) (howner : payload.walletAddress = some owner) :
    Text.toLowerCase owner = Text.toLowerCase walletAddress ∧
      payload.generation ≤ w.shared.version walletAddress := by
  obtain ⟨j, c, hroot⟩ := issued
  obtain ⟨payload', hpayload', hsame, hgeneration⟩ := family.chain chain hpayload
  obtain ⟨owner', ⟨-, hissued⟩, -⟩ := before.grants hroot
  have hissued := hissued payload' hpayload'
  have howner' : Text.toLowerCase owner' = Text.toLowerCase walletAddress := by
    simpa [walletOf, hpayload', hissued.wallet] using wallet
  have hold := hissued.current
  rw [← AuthState.version_lower, howner', AuthState.version_lower] at hold
  refine ⟨?_, hgeneration.trans hold⟩
  rw [wallet] at hsame
  simpa [walletOf, hpayload, howner] using hsame.symm

/-- A call that comes in later only lets tokens in that are not behind by now. -/
theorem accepted_later {r : AuthReturn} (stay : s.VersionsStay) (family : Family config s w)
    (renews : ∀ p ∈ trail (auth config) w as, RenewsCurrent config p.1 p.2)
    (after : w.workers.length ≤ i) (called : (run (auth config) w as).call i = some c)
    (returned : (run (auth config) w as).result i = some r) (validates : c.validates = some token)
    (accepted : r.accepted = true) :
    ∃ payload walletAddress, config.payload token = some payload ∧
      payload.walletAddress = some walletAddress ∧
        w.shared.version walletAddress ≤ payload.generation := by
  have hstay := family.keeps.stay stay
  have hok : w.Ok (auth config) KeepsVersions (Current config) fun _ _ _ _ => True :=
    fun j c job found => (family.ok j c job found).mono fun _ _ _ => trivial
  apply run_returns_later (Φ := fun c r => ∀ token, c.validates = some token →
      r.accepted = true → ∃ payload walletAddress, config.payload token = some payload ∧
        payload.walletAddress = some walletAddress ∧
          w.shared.version walletAddress ≤ payload.generation)
    keepsVersions_onward hok renews (fun _ _ ms _ => keepsVersions_of_keys fun _ => rfl)
    ?_ after (World.done_of_result called returned) rfl token validates accepted
  intro s' hR j c _
  cases presents : c.validates with
  | none => exact (keepsVersions_job c s').mono fun r _ _ token h => by cases h
  | some token =>
    apply (job_accepts (hR.stay hstay) presents).mono
    rintro r s'' haccepts _ ⟨⟩ accepted
    obtain ⟨payload, owner, hpayload, howner, hle⟩ := haccepts accepted
    exact ⟨payload, owner, hpayload, howner, (hR.version hstay owner).trans hle⟩

/-- A new generation ends the family of the older tokens, as long as every renewal reads a
generation the token presented is not behind of. -/
theorem families_die (config : AuthConfig) (s : AuthState) (as : List AuthStep)
    (sound : config.jwt.Sound) (start : ∀ key, s.keys key = none)
    (unforged : ∀ p ∈ trail (auth config) (.fresh s) as, Unforged config p.1 p.2)
    (renews : ∀ p ∈ trail (auth config) (.fresh s) as, RenewsCurrent config p.1 p.2) :
    FamiliesDie config s as := by
  have hstay : s.VersionsStay := by
    intro walletAddress e he
    cases (start _).symm.trans he
  rintro before a later walletAddress rfl bumps i c r token after called returned validates
  have hprefix {bs : List AuthStep} (h : bs <+: before ++ a :: later) :
      Family config s (run (auth config) (.fresh s) bs) := by
    apply Family.run sound hstay
    · exact fun p hp => renews p (Machine.trail_of_isPrefix _ h hp)
    · exact fun p hp => unforged p (Machine.trail_of_isPrefix _ h hp)
  have hend := hprefix (List.prefix_refl _)
  have hbefore := hprefix (List.prefix_append ..)
  have hbumped : Family config s (step (auth config) (run (auth config) (.fresh s) before) a) := by
    have h : Family config s (run (auth config) (.fresh s) (before ++ [a])) :=
      hprefix ⟨later, by simp⟩
    rwa [run, Machine.run_snoc] at h
  have hversion : (step (auth config) (run (auth config) (.fresh s) before) a).shared.version
      walletAddress = _ :=
    version_of_bumps (hbefore.keeps.stay hstay) bumps
  have hlength : (step (auth config) (run (auth config) (.fresh s) before) a).workers.length = _ :=
    length_of_bumps bumps
  have hlate : ∀ p ∈ trail (auth config)
      (step (auth config) (run (auth config) (.fresh s) before) a) later,
      RenewsCurrent config p.1 p.2 := by
    intro p hp
    apply renews
    rw [trail, Machine.trail_append]
    exact List.mem_append_right _ (List.mem_cons_of_mem _ hp)
  have hcalled := called
  rw [run, Machine.run_append] at called returned
  have haccepts := accepted_later hstay hbumped hlate (by omega) called returned validates
  -- Tokens that go back to one that was issued before are behind.
  have hdead : ∀ root, Issued (run (auth config) (.fresh s) before) root →
      walletOf config root = some (Text.toLowerCase walletAddress) →
        Relation.ReflTransGen (Renewed (run (auth config) (.fresh s) (before ++ a :: later))) root
          token → r.accepted = false := by
    rintro root ⟨j, c', hroot⟩ hwallet hchain
    by_contra haccepted
    obtain ⟨payload, owner, hpayload, howner, hcurrent⟩ := haccepts (by simpa using haccepted)
    obtain ⟨howner, hold⟩ :=
      hbefore.generation_le hend ⟨j, c', hroot⟩ hwallet hchain hpayload howner
    rw [← AuthState.version_lower, howner, AuthState.version_lower] at hcurrent
    omega
  refine ⟨hdead, fun haccepted hwallet => ?_⟩
  obtain ⟨payload, owner, hpayload, -⟩ := haccepts haccepted
  have hpresents : c.presented = some token := by
    cases c <;> first | exact validates | cases validates
  obtain ⟨j, hsigned⟩ := hend.presented i c hcalled token hpresents (by rw [hpayload]; rfl)
  refine ⟨j, ?_, hsigned⟩
  by_contra hreturned
  obtain ⟨wallet, signedChallenge, root, hroot, hchain⟩ := hsigned
  obtain ⟨payload', -, hsame, -⟩ := hend.chain hchain hpayload
  -- The root had been issued before.
  have hissued : Issued (run (auth config) (.fresh s) before) root := by
    rw [run, Machine.run_append] at hroot
    exact ⟨j, _, hroot.before hreturned⟩
  rw [hdead root hissued (hsame.trans hwallet) hchain] at haccepted
  cases haccepted

/-! A wallet logs in, and a new generation is made of its tokens. -/

/-- The call for a new generation has come in. -/
def Sample.loginBump : List AuthStep := Sample.login ++ [.call (.bumpTokenVersion "GA")]

/-- Worker 2 asks for the new generation. -/
def Sample.bump : AuthStep := .advance 2 (Sample.given "")

/-- The old token is refreshed, and the new one is presented. -/
def Sample.refreshOld : List AuthStep :=
  .call (.refreshToken "j0") :: Sample.works 3 "j2" ++
    .call (.validateToken "j2") :: Sample.works 4 ""

/-- The token of the old generation is renewed, and what is issued for it is valid. -/
theorem not_familiesDie :
    (run (auth Sample.authConfig) (.fresh Sample.loggedOut)
        (Sample.loginBump ++ Sample.bump :: Sample.refreshOld)).result 4 =
          some (.validated (.ok (Sample.payload "j2" 1 0))) ∧
      ¬ FamiliesDie Sample.authConfig Sample.loggedOut
        (Sample.loginBump ++ Sample.bump :: Sample.refreshOld) := by
  have hresult : (run (auth Sample.authConfig) (.fresh Sample.loggedOut)
      (Sample.loginBump ++ Sample.bump :: Sample.refreshOld)).result 4 =
        some (.validated (.ok (Sample.payload "j2" 1 0))) := by
    decide +kernel
  refine ⟨hresult, fun hdie => ?_⟩
  have hbumps : Bumps "GA" (run (auth Sample.authConfig) (.fresh Sample.loggedOut) Sample.loginBump)
      Sample.bump :=
    ⟨by decide, .bumpTokenVersion "GA", _, by rfl⟩
  have hrenewed : Renewed (run (auth Sample.authConfig) (.fresh Sample.loggedOut)
      (Sample.loginBump ++ Sample.bump :: Sample.refreshOld)) "j0" "j2" :=
    ⟨3, .refreshToken "j0", rfl, by decide +kernel⟩
  have hrefused := (hdie _ _ _ "GA" rfl hbumps 4 (.validateToken "j2") _ "j2" (by decide +kernel)
    (by decide +kernel) hresult rfl).1 "j0" (by decide +kernel) (by decide +kernel)
    (.single hrenewed)
  cases hrefused

theorem Sample.jwt_sound : Sample.jwt.Sound := by
  intro secret payload payload' h
  have hfound : Sample.payloads.find? (fun payload' => payload'.jti = some
      (if payload ∈ Sample.payloads then payload.jti.getD "" else "")) = some payload' := h
  by_cases hmem : payload ∈ Sample.payloads
  · rw [if_pos hmem] at hfound
    have hself : ∀ payload ∈ Sample.payloads,
        Sample.payloads.find? (fun payload' => payload'.jti = some (payload.jti.getD "")) =
          some payload := by
      decide +kernel
    exact Option.some.inj (hfound.symm.trans (hself payload hmem))
  · rw [if_neg hmem] at hfound
    have hnone : Sample.payloads.find? (fun payload' => payload'.jti = some "") = none := by
      decide +kernel
    cases hnone.symm.trans hfound

/-- After the new generation, the token is presented as it is. -/
theorem families_die_bumped :
    FamiliesDie Sample.authConfig Sample.loggedOut
      (Sample.loginBump ++ Sample.bump :: .call (.validateToken "j0") :: Sample.works 3 "") :=
  families_die Sample.authConfig Sample.loggedOut _ Sample.jwt_sound (fun _ => rfl) (by decide +kernel)
    (by decide +kernel)

end Amana.Backend
