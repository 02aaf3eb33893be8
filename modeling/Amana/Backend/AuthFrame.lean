import Amana.Backend.AuthRoutes

/-!
# What all calls of authentication keep

Whatever its answers are, a call asks for ordinary things (which leave the denylist and the token
generations alone), revokes tokens and bumps generations.  What these keep is kept by every call
(`keeps_job`).
-/

namespace Amana.Backend

open Lib Lib.Jobs AuthService

section Keeps

variable {R : AuthState → AuthState → Prop} {allowed : AuthOp → AuthInput → AuthState → Prop}
  {α : Type} {config : AuthConfig}

theorem keeps_orElse (replacement e : AuthError) :
    Keeps authAnswer R allowed (orElse replacement e : AuthJob α).run := by
  cases e <;> exact keeps_throw _

variable (ordinary : ∀ op, AuthOp.Ordinary op → ∀ given s, allowed op given s →
  R s (authAnswer op given s).2)

include ordinary

theorem keeps_authAsk {op : AuthOp} (h : op.Ordinary) : Keeps authAnswer R allowed op.ask.run :=
  fun _ s' _ given hallowed => ⟨ordinary op h given s' hallowed, trivial⟩

theorem keeps_read {command : RedisCommand} (h : command.writes = none) :
    Keeps authAnswer R allowed command.ask.run := by
  apply keeps_authAsk ordinary
  intro key hkey
  rw [h] at hkey
  cases hkey

theorem keeps_write {command : RedisCommand} {key : String} (h : command.writes = some key)
    (separate : Separate key) : Keeps authAnswer R allowed command.ask.run := by
  apply keeps_authAsk ordinary
  intro key' hkey
  rw [h] at hkey
  cases hkey
  exact separate

/-- What the registry of admin sessions asks is ordinary. -/
theorem registry_of_ordinary {written : Option String} :
    ∀ op, AdminSessionService.Asks written op → ∀ given s, allowed op given s →
      R s (authAnswer op given s).2 := by
  intro op h
  apply ordinary
  cases h with
  | now => trivial
  | read command h =>
    intro key hkey
    rw [h] at hkey
    cases hkey
  | record jti record seconds =>
    rintro key ⟨⟩
    exact separate_recordKey jti
  | del jti =>
    rintro key ⟨⟩
    exact separate_recordKey jti
  | index command walletAddress h =>
    intro key hkey
    rw [h] at hkey
    cases hkey
    exact separate_indexKey walletAddress

theorem keeps_registry {job : AuthJob α} {written : Option String}
    (h : job.run.Asks (AdminSessionService.Asks written)) : Keeps authAnswer R allowed job.run :=
  h.keeps (registry_of_ordinary ordinary)

theorem keeps_isTokenRevoked (jti : String) :
    Keeps authAnswer R allowed (isTokenRevoked jti).run :=
  (keeps_read ordinary rfl).tryCatch (keeps_orElse _)

theorem keeps_getTokenVersion (walletAddress : String) (issuing : Bool) :
    Keeps authAnswer R allowed (getTokenVersion walletAddress issuing).run := by
  refine Keeps.tryCatch ?_ fun _ => keeps_throw _
  exact (keeps_authAsk ordinary (by trivial)).except_bind fun _ => keeps_pure _

theorem keeps_generateChallenge (walletAddress : String) :
    Keeps authAnswer R allowed (generateChallenge config walletAddress).run := by
  unfold generateChallenge
  split
  · exact keeps_throw _
  refine Keeps.tryCatch ?_ (keeps_orElse _)
  apply (keeps_authAsk ordinary (by trivial)).except_bind
  intro challenge
  exact (keeps_write ordinary rfl (separate_challengeKey _)).except_bind fun _ => keeps_pure _

theorem keeps_issueToken (walletAddress : String) :
    Keeps authAnswer R allowed (issueToken config walletAddress).run := by
  unfold issueToken
  split
  · exact keeps_throw _
  apply (keeps_authAsk ordinary (by trivial)).except_bind
  intro now
  apply (keeps_authAsk ordinary (by trivial)).except_bind
  intro jti
  exact (keeps_getTokenVersion ordinary _ _).except_bind fun _ => keeps_pure _

theorem keeps_issueAdminToken (walletAddress : String) (ctx : DeviceContext) :
    Keeps authAnswer R allowed (issueAdminToken config walletAddress ctx).run := by
  unfold issueAdminToken
  split
  · exact keeps_throw _
  apply (keeps_authAsk ordinary (by trivial)).except_bind
  intro now
  apply (keeps_authAsk ordinary (by trivial)).except_bind
  intro jti
  apply (keeps_getTokenVersion ordinary _ _).except_bind
  intro tv
  exact (keeps_registry ordinary (AdminSessionService.asks_register _)).except_bind fun _ =>
    keeps_pure _

theorem keeps_rejectSignature (identity : String) :
    Keeps authAnswer R allowed (rejectSignature identity).run := by
  apply (keeps_read ordinary rfl).except_bind
  intro raw
  exact (keeps_write ordinary rfl (separate_failureKey _)).except_bind fun _ => keeps_throw _

theorem keeps_acceptSignature (walletAddress : String) :
    Keeps authAnswer R allowed (acceptSignature config walletAddress).run := by
  apply (keeps_write ordinary rfl (separate_failureKey _)).except_bind
  intro _
  apply (keeps_authAsk ordinary (by trivial)).except_bind
  rintro (error | _)
  · exact keeps_throw _
  · exact keeps_issueToken ordinary _

theorem keeps_verify (walletAddress signedChallenge : String) :
    Keeps authAnswer R allowed
      (verifySignatureAndIssueJWT config walletAddress signedChallenge).run := by
  refine Keeps.tryCatch ?_ (keeps_orElse _)
  apply (keeps_read ordinary rfl).except_bind
  intro failures
  split
  · exact keeps_throw _
  apply (keeps_write ordinary rfl (separate_challengeKey _)).except_bind
  intro raw
  split
  · exact keeps_throw _
  · exact keeps_throw _
  · split
    · exact keeps_acceptSignature ordinary _
    · exact keeps_rejectSignature ordinary _

theorem keeps_checkToken (decoded : JwtPayload) :
    Keeps authAnswer R allowed (checkToken decoded).run := by
  unfold checkToken
  split
  · exact keeps_throw _
  apply (keeps_isTokenRevoked ordinary _).except_bind
  intro revoked
  split
  · exact keeps_throw _
  · exact keeps_throw _
  · apply (keeps_getTokenVersion ordinary _ _).except_bind
    intro currentVersion
    split
    · exact keeps_throw _
    · exact keeps_pure _

theorem keeps_validateToken (token : String) :
    Keeps authAnswer R allowed (validateToken config token).run := by
  unfold validateToken
  split
  · exact keeps_throw _
  refine Keeps.tryCatch ?_ fun _ => keeps_throw _
  apply (keeps_authAsk ordinary (by trivial)).except_bind
  intro clock
  split
  · exact keeps_throw _
  · exact keeps_checkToken ordinary _

theorem keeps_checkBinding (user : JwtPayload) (ctx : DeviceContext) :
    Keeps authAnswer R allowed (checkBinding config user ctx).run := by
  unfold checkBinding
  split
  · split
    · exact keeps_pure _
    split
    · exact keeps_pure _
    · refine Keeps.tryCatch ?_ fun _ => keeps_pure _
      apply (keeps_registry ordinary (AdminSessionService.asks_get _)).except_bind
      rintro (_ | session)
      · exact keeps_pure _
      · exact keeps_pure _
  · split
    · exact keeps_pure _
    · exact keeps_pure _

theorem keeps_checkRevocation (user : JwtPayload) :
    Keeps authAnswer R allowed (checkRevocation user).run := by
  unfold checkRevocation
  split
  · exact keeps_pure _
  refine Keeps.tryCatch ?_ fun _ => keeps_pure _
  apply (keeps_isTokenRevoked ordinary _).except_bind
  rintro (_ | _)
  · exact keeps_pure _
  · exact keeps_pure _

theorem keeps_adminMiddleware (user : JwtPayload) (ctx : DeviceContext) :
    Keeps authAnswer R allowed (adminMiddleware config user ctx).run := by
  unfold adminMiddleware
  split
  · exact keeps_pure _
  split
  · exact keeps_pure _
  apply (keeps_authAsk ordinary (by trivial)).except_bind
  intro now
  split
  · exact keeps_pure _
  apply (keeps_checkRevocation ordinary user).except_bind
  rintro (_ | response)
  · show Keeps _ _ _ (ite _ _ _ : AuthJob _).run
    split
    · exact keeps_checkBinding ordinary _ _
    · exact keeps_pure _
  · exact keeps_pure _

theorem keeps_authenticated {token : String} {next : JwtPayload → AuthJob AuthResponse}
    (h : ∀ user, Keeps authAnswer R allowed (next user).run) :
    Keeps authAnswer R allowed (authenticated config token next).run := by
  apply (keeps_validateToken ordinary token).map.except_bind
  rintro (error | user)
  · exact keeps_pure _
  · exact h user

theorem keeps_asAdmin {token failed : String} {ctx : DeviceContext}
    {next : JwtPayload → AuthJob AuthResponse}
    (h : ∀ user, Keeps authAnswer R allowed (next user).run) :
    Keeps authAnswer R allowed (asAdmin config token ctx failed next).run := by
  apply keeps_authenticated ordinary
  intro user
  apply (keeps_adminMiddleware ordinary user ctx).except_bind
  rintro (_ | response)
  · exact (h user).tryCatch fun _ => keeps_pure _
  · exact keeps_pure _

theorem keeps_expiryOr (exp : Option Int) (secondsFromNow : Int) :
    Keeps authAnswer R allowed (expiryOr exp secondsFromNow).run := by
  cases exp with
  | some exp => exact keeps_pure _
  | none => exact (keeps_authAsk ordinary (by trivial)).except_bind fun _ => keeps_pure _

variable (revokes : ∀ jti expiresAt, Keeps authAnswer R allowed (revokeToken jti expiresAt).run)
  (bumps : ∀ walletAddress, Keeps authAnswer R allowed (bumpTokenVersion walletAddress).run)

include revokes

theorem keeps_renew (claims : RefreshClaims) (now : Int) :
    Keeps authAnswer R allowed (renew config claims now).run := by
  unfold renew
  split
  · exact keeps_throw _
  apply (keeps_isTokenRevoked ordinary _).except_bind
  rintro (_ | _)
  · exact (revokes _ _).except_bind fun _ => keeps_issueToken ordinary _
  · exact keeps_throw _

theorem keeps_refreshToken (token : String) :
    Keeps authAnswer R allowed (refreshToken config token).run := by
  unfold refreshToken
  split
  · exact keeps_throw _
  refine Keeps.tryCatch ?_ (keeps_orElse _)
  apply (keeps_authAsk ordinary (by trivial)).except_bind
  intro clock
  split
  · exact keeps_throw _
  split
  · exact keeps_throw _
  apply (keeps_authAsk ordinary (by trivial)).except_bind
  exact fun now => keeps_renew ordinary revokes _ _

theorem keeps_logout (token : String) : Keeps authAnswer R allowed (logout config token).run := by
  apply keeps_authenticated ordinary
  intro user
  refine Keeps.tryCatch ?_ fun _ => keeps_pure _
  split
  · exact (revokes _ _).except_bind fun _ => keeps_pure _
  · exact keeps_pure _

theorem keeps_retire (user : JwtPayload) (jti : String) :
    Keeps authAnswer R allowed (retire user jti).run := by
  unfold retire
  split
  · exact keeps_pure _
  split
  · exact keeps_pure _
  · apply (keeps_expiryOr ordinary _ _).except_bind
    intro prevExp
    apply (revokes _ _).except_bind
    intro _
    exact (keeps_registry ordinary (AdminSessionService.asks_revoke _)).except_bind fun _ =>
      keeps_pure _

theorem keeps_stepUp (token : String) (ctx : DeviceContext) :
    Keeps authAnswer R allowed (stepUp config token ctx).run := by
  apply keeps_asAdmin ordinary
  intro user
  apply (keeps_issueAdminToken ordinary _ ctx).except_bind
  intro issued
  exact (keeps_retire ordinary revokes user _).except_bind fun _ => keeps_pure _

omit ordinary in
theorem keeps_revokeTokens (now : Int) (sessions : List AdminSessionRecord)
    (outcome : Except AuthError Unit) :
    Keeps authAnswer R allowed (revokeTokens now sessions outcome).run := by
  induction sessions generalizing outcome with
  | nil => exact keeps_done _
  | cons session sessions ih => exact (revokes _ _).map.except_bind fun _ => ih _

theorem keeps_revokeSession (token : String) (ctx : DeviceContext) (deviceHash jti : Option String) :
    Keeps authAnswer R allowed (revokeSession config token ctx deviceHash jti).run := by
  apply keeps_asAdmin ordinary
  intro user
  split
  · apply (keeps_registry ordinary (AdminSessionService.asks_revokeDevice _ _)).except_bind
    intro removed
    apply (keeps_authAsk ordinary (by trivial)).except_bind
    intro now
    exact (keeps_revokeTokens revokes _ _ _).except_bind fun _ => keeps_pure _
  · split
    · exact keeps_pure _
    · apply (keeps_expiryOr ordinary _ _).except_bind
      intro expiresAt
      exact (revokes _ _).except_bind fun _ => keeps_pure _

omit revokes in
include bumps in
theorem keeps_revokeAllSessions (token : String) (ctx : DeviceContext) (walletAddress : String)
    (reason : Option String) :
    Keeps authAnswer R allowed (revokeAllSessions config token ctx walletAddress reason).run := by
  apply keeps_asAdmin ordinary
  intro user
  split
  · exact keeps_pure _
  · apply (bumps _).except_bind
    intro tokenVersion
    exact (keeps_authAsk ordinary (by trivial)).except_bind fun _ => keeps_pure _

include bumps in
/-- Every call keeps what ordinary requests, revocations and new generations keep. -/
theorem keeps_job (c : AuthCall) : Keeps authAnswer R allowed (c.job config) := by
  cases c with
  | generateChallenge walletAddress => exact (keeps_generateChallenge ordinary _).map
  | verify walletAddress signedChallenge => exact (keeps_verify ordinary _ _).map
  | validateToken token => exact (keeps_validateToken ordinary _).map
  | refreshToken token => exact (keeps_refreshToken ordinary revokes _).map
  | revokeToken jti expiresAt => exact (revokes _ _).map
  | bumpTokenVersion walletAddress => exact (bumps _).map
  | logout token => exact (keeps_logout ordinary revokes _).map
  | stepUp token ctx => exact (keeps_stepUp ordinary revokes _ _).map
  | listSessions token ctx =>
    refine (keeps_asAdmin ordinary fun user => ?_).map
    exact (keeps_registry ordinary (AdminSessionService.asks_listForWallet _)).except_bind fun _ =>
      keeps_pure _
  | revokeSession token ctx deviceHash jti => exact (keeps_revokeSession ordinary revokes _ _ _ _).map
  | revokeAllSessions token ctx walletAddress reason =>
    exact (keeps_revokeAllSessions ordinary bumps _ _ _ _).map
  | touchSession jti => exact (keeps_registry ordinary (AdminSessionService.asks_touch _)).map
  | dropSession jti =>
    exact ((keeps_registry ordinary (AdminSessionService.asks_revoke _)).except_bind fun _ =>
      keeps_pure _).map

end Keeps

end Amana.Backend
