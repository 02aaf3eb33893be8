import Amana.Backend.Auth

/-!
# The routes of authentication

`auth.routes.ts` and `admin.auth.routes.ts`, behind `auth.middleware.ts` and `admin.middleware.ts`.
`auth` is the service with all its calls.  A call the routes do not wait for (`touch`, and the
clean-up of the registry after a revocation) is a call of its own.
-/

namespace Amana.Backend

open Lib Lib.Jobs

/-- What a route responds. -/
inductive AuthResponse where
  /-- The token was not accepted. -/
  | unauthenticated (error : AuthError)
  | error (statusCode : Nat) (error : String)
  | loggedOut
  | steppedUp (token : AuthService.AdminToken)
  | sessions (sessions : List AdminSessionRecord)
  | deviceRevoked (deviceHash : String) (revoked : Nat)
  | revoked (jti : String)
  | allRevoked (walletAddress : String) (tokenVersion : Nat)
  deriving DecidableEq, Repr

section Routes

open AuthService

variable (config : AuthConfig)

/-- `authMiddleware`, for the token of the header. -/
def authenticated (token : String) (next : JwtPayload → AuthJob AuthResponse) :
    AuthJob AuthResponse := do
  match ← ExceptT.lift (validateToken config token).run with
  | .error error => return .unauthenticated error
  | .ok user => next user

/-- The checks of a session that is bound to a device. -/
def checkBinding (user : JwtPayload) (ctx : DeviceContext) : AuthJob (Option (Nat × String)) := do
  match user.isAdminTier, user.deviceHash with
  | true, some deviceHash =>
    if ctx.deviceHash ≠ deviceHash ∨ (present user.ipClass).any fun c => ctx.ipClass ≠ c then
      return some (401, "Unauthorized: admin session context mismatch — step-up required")
    match present user.jti with
    | none => return none
    | some jti =>
      tryCatch
        (do
          match ← AdminSessionService.get jti with
          | none => return some (401, "Unauthorized: admin session revoked or expired")
          | some _ => return none)
        fun _ => return some (401, "Unauthorized: admin session check failed")
  | _, _ =>
    if config.sessionBindingEnforce then
      return some (401, "Unauthorized: admin session is not device-bound")
    return none

/-- The revocation check of `adminMiddleware`. -/
def checkRevocation (user : JwtPayload) : AuthJob (Option (Nat × String)) :=
  match present user.jti with
  | none => return none
  | some jti =>
    tryCatch
      (do
        if ← isTokenRevoked jti then
          return some (401, "Unauthorized: session has been revoked")
        return none)
      fun _ => return some (401, "Unauthorized: session revocation check failed")

/-- `adminMiddleware`: the status code and the text of the error, if the request does not go on. -/
def adminMiddleware (user : JwtPayload) (ctx : DeviceContext) : AuthJob (Option (Nat × String)) := do
  match present (user.walletAddress.map Text.trim) with
  | none => return some (403, "Forbidden: admin access required")
  | some walletAddress =>
    if ¬ config.mediatorAllowlist.contains walletAddress then
      return some (403, "Forbidden: admin access required")
    let now ← AuthOp.now.ask
    if user.exp.any fun exp => exp ≤ seconds now then
      return some (401, "Unauthorized: token expired or stale")
    match ← checkRevocation user with
    | some error => return some error
    | none => if config.sessionBindingEnabled then checkBinding config user ctx else return none

/-- Both middlewares; `failed` is the response to whatever `next` raises. -/
def asAdmin (token : String) (ctx : DeviceContext) (failed : String)
    (next : JwtPayload → AuthJob AuthResponse) : AuthJob AuthResponse :=
  authenticated config token fun user => do
    match ← adminMiddleware config user ctx with
    | some (statusCode, text) => return .error statusCode text
    | none => tryCatch (next user) fun _ => return .error 500 failed

/-- `POST /logout`. -/
def logout (token : String) : AuthJob AuthResponse :=
  authenticated config token fun user =>
    tryCatch
      (do
        match present user.jti, user.exp.filter (· ≠ 0) with
        | some jti, some exp =>
          revokeToken jti exp
          return .loggedOut
        | _, _ => return .loggedOut)
      fun _ => return .error 500 "Logout failed"

/-- When a token expires, or else in a while. -/
def expiryOr (exp : Option Int) (secondsFromNow : Int) : AuthJob Int :=
  match exp with
  | some exp => return exp
  | none => do
    let now ← AuthOp.now.ask
    return seconds now + secondsFromNow

/-- The credential that was used to step up is retired; `jti` is that of the new one. -/
def retire (user : JwtPayload) (jti : String) : AuthJob Unit :=
  match present user.jti with
  | none => return
  | some old =>
    if old = jti then return
    else do
      let prevExp ← expiryOr user.exp 60
      revokeToken old prevExp
      let _ ← AdminSessionService.revoke old

/-- `POST /api/admin/auth/step-up`. -/
def stepUp (token : String) (ctx : DeviceContext) : AuthJob AuthResponse :=
  asAdmin config token ctx "Failed to issue device-bound admin session" fun user => do
    let issued ← issueAdminToken config (user.walletAddress.getD "") ctx
    retire user issued.jti
    return .steppedUp issued

/-- `GET /api/admin/sessions`. -/
def listSessions (token : String) (ctx : DeviceContext) : AuthJob AuthResponse :=
  asAdmin config token ctx "Failed to list admin sessions" fun user => do
    let sessions ← AdminSessionService.listForWallet (user.walletAddress.getD "")
    return .sessions sessions

/-- The tokens of the sessions are revoked one beside the other; the first error is raised in the
end. -/
def revokeTokens (now : Int) : List AdminSessionRecord → Except AuthError Unit → AuthJob Unit
  | [], outcome => ExceptT.mk (pure outcome)
  | session :: sessions, outcome => do
    let revoked ← ExceptT.lift (revokeToken session.jti (max session.expiresAt (now + 60))).run
    revokeTokens now sessions (outcome.bind fun _ => revoked)

/-- `POST /api/admin/sessions/revoke`. -/
def revokeSession (token : String) (ctx : DeviceContext) (deviceHash jti : Option String) :
    AuthJob AuthResponse :=
  asAdmin config token ctx "Failed to revoke admin session" fun user => do
    match present deviceHash with
    | some deviceHash =>
      let removed ← AdminSessionService.revokeDevice (user.walletAddress.getD "") deviceHash
      let now := seconds (← AuthOp.now.ask)
      revokeTokens now removed (.ok ())
      return .deviceRevoked deviceHash removed.length
    | none =>
      match (present jti).or (present user.jti) with
      | none => return .error 400 "Bad Request: missing jti or deviceHash to revoke"
      | some jtiToRevoke =>
        let expiresAt ← expiryOr (user.exp.filter (· ≠ 0)) 86400
        revokeToken jtiToRevoke expiresAt
        return .revoked jtiToRevoke

/-- `POST /api/admin/sessions/revoke-all`. -/
def revokeAllSessions (token : String) (ctx : DeviceContext) (walletAddress : String)
    (reason : Option String) : AuthJob AuthResponse :=
  asAdmin config token ctx "Failed to revoke sessions" fun user => do
    if ¬ config.isValidEd25519PublicKey walletAddress then
      return .error 400 "Bad Request: walletAddress must be a valid Stellar public key"
    let tokenVersion ← bumpTokenVersion walletAddress
    (AuthOp.audit "REVOKE_ALL_SESSIONS" (user.walletAddress.getD "")
      (Text.toLowerCase walletAddress) (present reason)).ask
    return .allRevoked (Text.toLowerCase walletAddress) tokenVersion

end Routes

/-! ## All calls -/

inductive AuthCall where
  | generateChallenge (walletAddress : String)
  | verify (walletAddress signedChallenge : String)
  | validateToken (token : String)
  | refreshToken (token : String)
  | revokeToken (jti : String) (expiresAt : Int)
  | bumpTokenVersion (walletAddress : String)
  | logout (token : String)
  | stepUp (token : String) (ctx : AuthService.DeviceContext)
  | listSessions (token : String) (ctx : AuthService.DeviceContext)
  | revokeSession (token : String) (ctx : AuthService.DeviceContext) (deviceHash jti : Option String)
  | revokeAllSessions (token : String) (ctx : AuthService.DeviceContext) (walletAddress : String)
      (reason : Option String)
  | touchSession (jti : String)
  | dropSession (jti : String)
  deriving DecidableEq, Repr

/-- What a call returns. -/
inductive AuthReturn where
  | challenge (result : Except AuthError String)
  | token (result : Except AuthError String)
  | validated (result : Except AuthError JwtPayload)
  | version (result : Except AuthError Nat)
  | responded (result : Except AuthError AuthResponse)
  | finished (result : Except AuthError Unit)
  deriving DecidableEq

def AuthCall.job (config : AuthConfig) : AuthCall → Job AuthAnswer AuthReturn
  | .generateChallenge walletAddress =>
    .challenge <$> (AuthService.generateChallenge config walletAddress).run
  | .verify walletAddress signedChallenge =>
    .token <$> (AuthService.verifySignatureAndIssueJWT config walletAddress signedChallenge).run
  | .validateToken token => .validated <$> (AuthService.validateToken config token).run
  | .refreshToken token => .token <$> (AuthService.refreshToken config token).run
  | .revokeToken jti expiresAt => .finished <$> (AuthService.revokeToken jti expiresAt).run
  | .bumpTokenVersion walletAddress => .version <$> (AuthService.bumpTokenVersion walletAddress).run
  | .logout token => .responded <$> (Backend.logout config token).run
  | .stepUp token ctx => .responded <$> (Backend.stepUp config token ctx).run
  | .listSessions token ctx => .responded <$> (Backend.listSessions config token ctx).run
  | .revokeSession token ctx deviceHash jti =>
    .responded <$> (Backend.revokeSession config token ctx deviceHash jti).run
  | .revokeAllSessions token ctx walletAddress reason =>
    .responded <$> (Backend.revokeAllSessions config token ctx walletAddress reason).run
  | .touchSession jti => .finished <$> (AdminSessionService.touch jti).run
  | .dropSession jti =>
    .finished <$> (AdminSessionService.revoke jti >>= fun _ => (pure () : AuthJob Unit)).run

/-- The calls of authentication. -/
def auth (config : AuthConfig) :
    Service AuthCall AuthAnswer AuthState AuthInput Nat AuthReturn where
  program := AuthCall.job config
  serve := fun _ => authAnswer
  drift := AuthState.elapse

abbrev AuthWorld := World AuthCall AuthAnswer AuthState AuthReturn

abbrev AuthStep := Activity AuthCall AuthInput Nat

/-- The token a call presents. -/
def AuthCall.presented : AuthCall → Option String
  | .validateToken token | .refreshToken token | .logout token | .stepUp token _
  | .listSessions token _ | .revokeSession token .. | .revokeAllSessions token .. => some token
  | _ => none

/-- The token a call presents is accepted: the call does not end with its rejection. -/
def AuthReturn.accepted : AuthReturn → Bool
  | .validated (.ok _) | .token (.ok _) => true
  | .responded (.ok (.unauthenticated _)) => false
  | .responded _ => true
  | _ => false

/-! A wallet logs in. -/

/-- The payload of the wallet's token. -/
def Sample.payload (jti : String) (tv : Nat) (iat : Int) : JwtPayload :=
  { sub := "ga"
    walletAddress := some "ga"
    jti := some jti
    tv := some tv
    iat := some iat
    nbf := some iat
    exp := some (iat + 86400)
    iss := some "amana"
    aud := some "amana"
    isAdminTier := false
    deviceHash := none
    ipClass := none }

/-- The tokens of the samples are known by their `jti`. -/
def Sample.payloads : List JwtPayload :=
  [payload "j0" 0 0, payload "j1" 0 86460, payload "j2" 1 0]

def Sample.jwt : Jwt where
  sign _ payload := if payload ∈ payloads then payload.jti.getD "" else ""
  decode _ token := payloads.find? fun payload => payload.jti = some token

def Sample.authConfig : AuthConfig where
  jwt := Sample.jwt
  jwtSecret := some "secret"
  jwtIssuer := "amana"
  jwtAudience := "amana"
  jwtExpiresIn := some 86400
  adminBoundJwtExpiresIn := 900
  isValidEd25519PublicKey := fun _ => true
  fromPublicKey := fun _ => some fun _ _ => true
  mediatorAllowlist := []
  sessionBindingEnabled := false
  sessionBindingEnforce := false

/-- Nothing is stored yet. -/
def Sample.loggedOut : AuthState := ⟨0, fun _ => none, []⟩

/-- What a worker that reaches Redis is given. -/
def Sample.given (uuid : String) : AuthInput := ⟨.heard, uuid, "challenge", .ok ()⟩

/-- Worker `i` goes on for a while. -/
def Sample.works (i : Nat) (uuid : String) : List AuthStep :=
  List.replicate 10 (.advance i (Sample.given uuid))

/-- The wallet logs in. -/
def Sample.login : List AuthStep :=
  .call (.generateChallenge "GA") :: Sample.works 0 "" ++
    .call (.verify "GA" "signature") :: Sample.works 1 "j0"

example : (run (auth Sample.authConfig) (.fresh Sample.loggedOut) Sample.login).result 1 =
    some (.token (.ok "j0")) := by
  decide +kernel

end Amana.Backend
