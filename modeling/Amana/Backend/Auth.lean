import Amana.Backend.AdminSessions

/-!
# Authentication

`auth.service.ts`: a wallet signs a challenge and receives a token, which is validated, refreshed
and revoked.  A token is revoked by its `jti` on a denylist, or with all others of its wallet by a
new generation.  Addresses are of ASCII characters.
-/

namespace Amana.Backend

open Lib

/-- What the service is run with. -/
structure AuthConfig where
  jwt : Jwt
  /-- `none` stands for a secret that is not set. -/
  jwtSecret : Option String
  jwtIssuer : String
  jwtAudience : String
  /-- What `parseInt` makes of `JWT_EXPIRES_IN`; `none` stands for `NaN`. -/
  jwtExpiresIn : Option Int
  adminBoundJwtExpiresIn : Nat
  isValidEd25519PublicKey : String → Bool
  /-- `Keypair.fromPublicKey`: which signatures of a challenge it verifies. -/
  fromPublicKey : String → Option (String → String → Bool)
  /-- `ADMIN_STELLAR_PUBKEYS`. -/
  mediatorAllowlist : List String
  sessionBindingEnabled : Bool
  sessionBindingEnforce : Bool

def challengeTtl : Nat := 300

def authLockoutThreshold : Nat := 5

def authFailureWindowSeconds : Nat := 15 * 60

def authLockoutSeconds : Nat := 15 * 60

def refreshExpiryGraceSeconds : Int := 15 * 60

def refreshMaxAgeSeconds : Int := 7 * 24 * 60 * 60

def authError (message : String) (statusCode : Nat) : AuthError :=
  .app ⟨.authError, message, statusCode⟩

def infraError (message : String) (statusCode : Nat) : AuthError :=
  .app ⟨.infraError, message, statusCode⟩

/-- A handler that raises an `AppError` again, and replaces other errors. -/
def orElse {α : Type} (replacement : AuthError) : AuthError → AuthJob α
  | .app error => throw (.app error)
  | _ => throw replacement

theorem orElse_raises {α : Type} (replacement e : AuthError) :
    ∃ e', (orElse replacement e : AuthJob α) = throw e' := by
  cases e with
  | app error => exact ⟨_, rfl⟩
  | jwt | fault | other => exact ⟨replacement, rfl⟩

/-- An empty text counts as none. -/
def present (text : Option String) : Option String := text.filter (· ≠ "")

theorem eq_of_present {text text' : String} (h : present (some text) = some text') : text = text' :=
  Option.some.inj (Option.filter_eq_some_iff.1 h).1

namespace AuthService

variable (config : AuthConfig)

def generateChallenge (walletAddress : String) : AuthJob String := do
  if ¬ config.isValidEd25519PublicKey walletAddress then
    throw (.app ⟨.validationError, "Invalid Stellar public key", 400⟩)
  else
    tryCatch
      (do
        let challenge ← AuthOp.randomBytes.ask
        (RedisCommand.setEx (challengeKey (Text.toLowerCase walletAddress)) (.text challenge)
          challengeTtl).ask
        return challenge)
      (orElse (infraError "Authentication service dependency failure" 503))

/-- An entry of the denylist; there is none for a token that is already expired. -/
def deny (jti : String) (ttl : Int) : AuthJob Unit :=
  if 0 < ttl then (RedisCommand.setEx (revokedKey jti) (.text "1") ttl.toNat).ask else return

/-- Add a token's jti to the revocation denylist. -/
def revokeToken (jti : String) (expiresAt : Int) : AuthJob Unit :=
  tryCatch
    (do
      let now ← AuthOp.now.ask
      deny jti (expiresAt - seconds now)
      (AuthOp.completed jti expiresAt).ask)
    (orElse (infraError "Revocation failed" 503))

def isTokenRevoked (jti : String) : AuthJob Bool :=
  tryCatch (RedisCommand.existsKey (revokedKey jti)).ask
    (orElse (infraError "Revocation check failed" 503))

/-- The generation that is stored; nothing but numbers is stored there. -/
def parseVersion : Option RedisValue → Nat
  | some (.number n) => n
  | _ => 0

def getTokenVersion (walletAddress : String) (issuing : Bool) : AuthJob Nat :=
  tryCatch
    (do
      let raw ← (AuthOp.tokenVersion walletAddress issuing).ask
      return parseVersion raw)
    fun _ => throw (infraError "Token version check failed" 503)

def bumpTokenVersion (walletAddress : String) : AuthJob Nat :=
  tryCatch (RedisCommand.incr (versionKey walletAddress)).ask
    fun _ => throw (infraError "Token version bump failed" 503)

/-- The lifetime of a token. -/
def tokenTtl : Int :=
  match config.jwtExpiresIn with
  | none => 86400
  | some ttl => if ttl = 0 then 86400 else ttl

def issueToken (walletAddress : String) : AuthJob String := do
  match config.jwtSecret with
  | none => throw (.other "JWT_SECRET not set")
  | some secret =>
    let now := seconds (← AuthOp.now.ask)
    let jti ← AuthOp.randomUUID.ask
    let tv ← getTokenVersion walletAddress true
    let payload : JwtPayload :=
      { sub := Text.toLowerCase walletAddress
        walletAddress := some (Text.toLowerCase walletAddress)
        jti := some jti
        tv := some tv
        iat := some now
        nbf := some now
        exp := some (now + tokenTtl config)
        iss := some config.jwtIssuer
        aud := some config.jwtAudience
        isAdminTier := false
        deviceHash := none
        ipClass := none }
    return config.jwt.sign secret payload

/-- `DeviceContext`, with the user agent. -/
structure DeviceContext where
  deviceHash : String
  ipClass : String
  userAgent : String
  deriving DecidableEq, Repr

/-- A token, its jti and when it expires. -/
structure AdminToken where
  token : String
  jti : String
  expiresAt : Int
  deriving DecidableEq, Repr

def issueAdminToken (walletAddress : String) (ctx : DeviceContext) : AuthJob AdminToken := do
  match config.jwtSecret with
  | none => throw (infraError "JWT_SECRET not set" 500)
  | some secret =>
    let now := seconds (← AuthOp.now.ask)
    let jti ← AuthOp.randomUUID.ask
    let expiresAt := now + config.adminBoundJwtExpiresIn
    let wallet := Text.toLowerCase walletAddress
    let tv ← getTokenVersion wallet true
    let payload : JwtPayload :=
      { sub := wallet
        walletAddress := some wallet
        jti := some jti
        tv := some tv
        iat := some now
        nbf := some now
        exp := some expiresAt
        iss := some config.jwtIssuer
        aud := some config.jwtAudience
        isAdminTier := true
        deviceHash := some ctx.deviceHash
        ipClass := some ctx.ipClass }
    AdminSessionService.register
      { jti := jti
        walletAddress := wallet
        deviceHash := ctx.deviceHash
        ipClass := ctx.ipClass
        userAgent := ctx.userAgent
        issuedAt := now
        expiresAt := expiresAt
        lastSeenAt := now }
    return ⟨config.jwt.sign secret payload, jti, expiresAt⟩

/-- How many failures are stored. -/
def parseFailures : Option RedisValue → Nat
  | some (.number n) => n
  | _ => 0

/-- The challenge that is stored, if there is one. -/
def parseChallenge : Option RedisValue → Option String
  | some (.text challenge) => present (some challenge)
  | _ => none

/-- An invalid signature is counted. -/
def rejectSignature (identity : String) : AuthJob String := do
  let raw ← (RedisCommand.get (failureKey identity)).ask
  let nextFailures := parseFailures raw + 1
  (RedisCommand.setEx (failureKey identity) (.number nextFailures)
    (if authLockoutThreshold ≤ nextFailures then authLockoutSeconds
      else authFailureWindowSeconds)).ask
  throw (authError "Invalid signature" 401)

/-- A valid signature ends the count of failures. -/
def acceptSignature (walletAddress : String) : AuthJob String := do
  (RedisCommand.del (failureKey (Text.toLowerCase walletAddress))).ask
  match ← (AuthOp.findOrCreateUser walletAddress).ask with
  | .error error => throw (.app error)
  | .ok () => issueToken config walletAddress

/-- The path of a client with `getdel`. -/
def verifySignatureAndIssueJWT (walletAddress signedChallenge : String) : AuthJob String :=
  let identity := Text.toLowerCase walletAddress
  tryCatch
    (do
      let failures ← (RedisCommand.get (failureKey identity)).ask
      if authLockoutThreshold ≤ parseFailures failures then
        throw (authError "Too many failed verification attempts; try again later" 429)
      else
        let raw ← (RedisCommand.getdel (challengeKey identity)).ask
        match parseChallenge raw, config.fromPublicKey walletAddress with
        | none, _ => throw (authError "Challenge expired or invalid. Request new challenge." 401)
        | some _, none => throw (.other "invalid encoded string")
        | some challenge, some verify =>
          if verify challenge signedChallenge then acceptSignature config walletAddress
          else rejectSignature identity)
    (orElse (infraError "Authentication service dependency failure" 503))

/-- The checks of a token that is verified. -/
def checkToken (decoded : JwtPayload) : AuthJob JwtPayload := do
  match present decoded.jti with
  | none => throw (authError "Unauthorized: missing jti claim" 401)
  | some jti =>
    let revoked ← isTokenRevoked jti
    match revoked, decoded.walletAddress with
    | true, _ => throw (authError "Unauthorized: token has been revoked" 401)
    | false, none => throw (infraError "Token version check failed" 503)
    | false, some walletAddress =>
      let currentVersion ← getTokenVersion walletAddress false
      if decoded.tv.getD 0 < currentVersion then
        throw (authError "Unauthorized: token has been revoked" 401)
      else return decoded

/-- What `validateToken` raises for an error. -/
def validationError : AuthError → AuthError
  | .app error => .app error
  | .jwt .tokenExpired => authError "Token expired" 401
  | .jwt .notBefore => authError "Token not yet valid" 401
  | .jwt .jsonWebToken => authError "Invalid token" 401
  | _ => infraError "Token validation failed" 500

def validateToken (token : String) : AuthJob JwtPayload := do
  match config.jwtSecret with
  | none => throw (infraError "JWT_SECRET not set" 500)
  | some secret =>
    tryCatch
      (do
        let clock ← AuthOp.now.ask
        match config.jwt.verify secret config.jwtIssuer config.jwtAudience false (seconds clock)
            token with
        | .error error => throw (.jwt error)
        | .ok decoded => checkToken decoded)
      fun error => throw (validationError error)

/-- What `refreshToken` needs of a token. -/
structure RefreshClaims where
  jti : String
  walletAddress : String
  iat : Int
  exp : Int
  deriving DecidableEq, Repr

/-- The claims of a token, if all of them are there. -/
def refreshClaims (decoded : JwtPayload) : Option RefreshClaims := do
  let jti ← present decoded.jti
  let walletAddress ← present decoded.walletAddress
  let iat ← decoded.iat
  let exp ← decoded.exp
  return ⟨jti, walletAddress, iat, exp⟩

theorem of_refreshClaims {decoded : JwtPayload} {claims : RefreshClaims}
    (h : refreshClaims decoded = some claims) :
    present decoded.jti = some claims.jti ∧
      decoded.walletAddress = some claims.walletAddress := by
  unfold refreshClaims at h
  obtain ⟨jti, hjti, h⟩ := Option.bind_eq_some_iff.1 h
  obtain ⟨walletAddress, hwallet, h⟩ := Option.bind_eq_some_iff.1 h
  obtain ⟨iat, -, h⟩ := Option.bind_eq_some_iff.1 h
  obtain ⟨exp, -, h⟩ := Option.bind_eq_some_iff.1 h
  cases h
  exact ⟨hjti, (Option.filter_eq_some_iff.1 hwallet).1⟩

/-- The token may be renewed: it is recently issued, and not expired for long. -/
def refreshable (claims : RefreshClaims) (now : Int) : Bool :=
  now ≤ claims.exp + refreshExpiryGraceSeconds && claims.iat ≤ now + 60 &&
    now - claims.iat ≤ refreshMaxAgeSeconds

/-- The old token is retired, and a new one issued. -/
def renew (claims : RefreshClaims) (now : Int) : AuthJob String := do
  if ¬ refreshable claims now then throw (authError "Token too old to refresh" 401)
  else
    match ← isTokenRevoked claims.jti with
    | true => throw (authError "Token revoked" 401)
    | false =>
      revokeToken claims.jti (max claims.exp now + refreshExpiryGraceSeconds)
      issueToken config claims.walletAddress

def refreshToken (oldToken : String) : AuthJob String := do
  match config.jwtSecret with
  | none => throw (infraError "JWT_SECRET not set" 500)
  | some secret =>
    tryCatch
      (do
        let clock ← AuthOp.now.ask
        match config.jwt.verify secret config.jwtIssuer config.jwtAudience true (seconds clock)
            oldToken with
        | .error error => throw (.jwt error)
        | .ok decoded =>
          match refreshClaims decoded with
          | none => throw (authError "Token refresh failed: invalid token claims" 401)
          | some claims =>
            let now ← AuthOp.now.ask
            renew config claims (seconds now))
      (orElse (authError "Token refresh failed" 401))

end AuthService

/-- The payload of a token the service has signed. -/
def AuthConfig.payload (config : AuthConfig) (token : String) : Option JwtPayload :=
  config.jwtSecret.bind fun secret => config.jwt.decode secret token

/-- What is verified of a token is its payload. -/
theorem eq_of_verify {config : AuthConfig} {secret token : String} {payload decoded : JwtPayload}
    {ignoreExpiration : Bool} {clock : Int} (hsecret : config.jwtSecret = some secret)
    (signed : config.payload token = some payload)
    (h : config.jwt.verify secret config.jwtIssuer config.jwtAudience ignoreExpiration clock token =
      .ok decoded) : decoded = payload := by
  have hdecode := Jwt.decode_of_verify h
  rw [AuthConfig.payload, hsecret] at signed
  exact Option.some.inj (hdecode.symm.trans signed)

end Amana.Backend
