import Amana.Backend.Redis
import Amana.Lib.Jobs
import Amana.Lib.Text

/-!
# What authentication asks for

The services below `auth.service.ts` and `adminSession.service.ts`: Redis, the clock, random bytes,
the users and the audit log.  There is one clock, that of Redis; `jsonwebtoken` is a parameter.
-/

namespace Amana.Backend

open Lib Lib.Database Lib.Expiring
open Lib.Jobs (Does Job Keeps Onward Returns Wp keeps_done)

/-! ## Errors -/

/-- The members of `ErrorCode` authentication uses. -/
inductive ErrorCode where
  | validationError
  | authError
  | infraError
  deriving DecidableEq, Repr

/-- `AppError`. -/
structure AppError where
  code : ErrorCode
  message : String
  statusCode : Nat
  deriving DecidableEq, Repr

/-- The errors of `jsonwebtoken`. -/
inductive JwtError where
  | tokenExpired
  | notBefore
  | jsonWebToken
  deriving DecidableEq, Repr

inductive AuthError where
  | app (error : AppError)
  | jwt (error : JwtError)
  | fault (fault : Fault)
  /-- An error of JavaScript. -/
  | other (message : String)
  deriving DecidableEq, Repr

/-! ## Tokens -/

/-- `JWTPayload`; times in seconds. -/
structure JwtPayload where
  sub : String
  walletAddress : Option String
  jti : Option String
  tv : Option Nat
  iat : Option Int
  nbf : Option Int
  exp : Option Int
  iss : Option String
  aud : Option String
  /-- `tier` is `admin`. -/
  isAdminTier : Bool
  deviceHash : Option String
  ipClass : Option String
  deriving DecidableEq, Repr

/-- `jsonwebtoken` with the algorithm `HS256`: the signed text of a payload, and the payload of a text
that is signed with the secret. -/
structure Jwt where
  sign : (secret : String) → JwtPayload → String
  decode : (secret token : String) → Option JwtPayload

/-- `jwt.verify`; `clock` is in seconds. -/
def Jwt.verify (jwt : Jwt) (secret issuer audience : String) (ignoreExpiration : Bool) (clock : Int)
    (token : String) : Except JwtError JwtPayload :=
  match jwt.decode secret token with
  | none => .error .jsonWebToken
  | some payload =>
    if payload.nbf.any (fun nbf => clock < nbf) then .error .notBefore
    else if !ignoreExpiration && payload.exp.any fun exp => exp ≤ clock then .error .tokenExpired
    else if payload.aud ≠ some audience ∨ payload.iss ≠ some issuer then .error .jsonWebToken
    else .ok payload

/-- What is verified was signed. -/
theorem Jwt.decode_of_verify {jwt : Jwt} {secret issuer audience token : String}
    {ignoreExpiration : Bool} {clock : Int} {payload : JwtPayload}
    (h : jwt.verify secret issuer audience ignoreExpiration clock token = .ok payload) :
    jwt.decode secret token = some payload := by
  unfold Jwt.verify at h
  split at h
  · cases h
  · rename_i payload' hdecode
    split at h
    · cases h
    split at h
    · cases h
    split at h
    · cases h
    · rw [hdecode, Except.ok.inj h]

/-! ## Keys -/

/-- `REVOKED_PREFIX`. -/
def revokedKey (jti : String) : String := "revoked_jti:" ++ jti

/-- `TOKEN_VERSION_PREFIX`; addresses are of ASCII characters. -/
def versionKey (walletAddress : String) : String :=
  "token_version:" ++ Text.toLowerCase walletAddress

/-- `CHALLENGE_PREFIX`. -/
def challengeKey (identity : String) : String := "challenge:" ++ identity

/-- `AUTH_FAILURE_PREFIX`. -/
def failureKey (identity : String) : String := "auth:challenge-failures:" ++ identity

/-- `RECORD_PREFIX`. -/
def recordKey (jti : String) : String := "admin_session:" ++ jti

/-- `INDEX_PREFIX`. -/
def indexKey (walletAddress : String) : String :=
  "admin_sessions:" ++ Text.toLowerCase walletAddress

/-- The key is neither of the denylist nor of the token generations. -/
def Separate (key : String) : Prop :=
  (∀ jti, key ≠ revokedKey jti) ∧ ∀ walletAddress, key ≠ versionKey walletAddress

theorem revokedKey_inj {jti jti' : String} (h : revokedKey jti = revokedKey jti') : jti = jti' :=
  (String.append_right_inj _).1 h

/-- Texts that begin with the same characters, and then differ. -/
theorem ne_of_split {p q a b : String} {c d : Char} (l cs ds : List Char)
    (hp : p.toList = l ++ c :: cs) (hq : q.toList = l ++ d :: ds) (hne : c ≠ d) : p ++ a ≠ q ++ b := by
  intro h
  have hlists := congrArg String.toList h
  rw [String.toList_append, String.toList_append, hp, hq, List.append_assoc, List.append_assoc]
    at hlists
  exact hne (List.cons.inj (List.append_cancel_left hlists)).1

theorem ne_of_head {p q a b : String} {c d : Char} {cs ds : List Char} (hp : p.toList = c :: cs)
    (hq : q.toList = d :: ds) (hne : c ≠ d) : p ++ a ≠ q ++ b := ne_of_split [] cs ds hp hq hne

theorem revokedKey_ne_versionKey (jti walletAddress : String) :
    revokedKey jti ≠ versionKey walletAddress := ne_of_head rfl rfl (by decide)

theorem separate_challengeKey (identity : String) : Separate (challengeKey identity) :=
  ⟨fun _ => ne_of_head rfl rfl (by decide), fun _ => ne_of_head rfl rfl (by decide)⟩

theorem separate_failureKey (identity : String) : Separate (failureKey identity) :=
  ⟨fun _ => ne_of_head rfl rfl (by decide), fun _ => ne_of_head rfl rfl (by decide)⟩

theorem separate_recordKey (jti : String) : Separate (recordKey jti) :=
  ⟨fun _ => ne_of_head rfl rfl (by decide), fun _ => ne_of_head rfl rfl (by decide)⟩

theorem separate_indexKey (walletAddress : String) : Separate (indexKey walletAddress) :=
  ⟨fun _ => ne_of_head rfl rfl (by decide), fun _ => ne_of_head rfl rfl (by decide)⟩

/-! ## Asking -/

inductive AuthOp where
  /-- `Date.now()`. -/
  | now
  | redis (command : RedisCommand)
  /-- The generation of a wallet's tokens is read, to check a token or to issue one. -/
  | tokenVersion (walletAddress : String) (issuing : Bool)
  | randomUUID
  | randomBytes
  | findOrCreateUser (address : String)
  /-- A row of `AdminActionAudit`. -/
  | audit (action actorAddress targetReference : String) (note : Option String)
  /-- `revokeToken` has completed; nothing is done here. -/
  | completed (jti : String) (expiresAt : Int)
  deriving DecidableEq, Repr

abbrev AuthOp.Res : AuthOp → Type
  | .now => Nat
  | .redis command => command.Res
  | .tokenVersion .. => Option RedisValue
  | .randomUUID | .randomBytes => String
  | .findOrCreateUser _ => Except AppError Unit
  | .audit .. | .completed .. => Unit

abbrev AuthAnswer (op : AuthOp) : Type := Except Fault op.Res

abbrev AuthJob := ExceptT AuthError (Job AuthAnswer)

/-- Ask, and raise what fails. -/
def AuthOp.ask (op : AuthOp) : AuthJob op.Res :=
  ExceptT.mk <| .ask op fun r => .done (r.mapError .fault)

def RedisCommand.ask (command : RedisCommand) : AuthJob command.Res := AuthOp.ask (.redis command)

/-- What authentication shares.  `completed` are the calls of `revokeToken` that have completed;
nothing looks at them. -/
structure AuthState where
  /-- In milliseconds. -/
  now : Nat
  keys : RedisKeys
  completed : List (String × Int)

/-- What an answer also depends on. -/
structure AuthInput where
  connection : Connection
  uuid : String
  bytes : String
  user : Except AppError Unit

def authAnswer : (op : AuthOp) → AuthInput → AuthState → AuthAnswer op × AuthState
  | .now, _, s => (.ok s.now, s)
  | .redis command, given, s =>
    deliver given.connection s
      ((command.exec s.now s.keys).map fun (r, keys) => (r, { s with keys := keys }))
  | .tokenVersion walletAddress _, given, s =>
    deliver given.connection s
      ((RedisCommand.plain (s.keys.live s.now (versionKey walletAddress))).map fun r => (r, s))
  | .randomUUID, given, s => (.ok given.uuid, s)
  | .randomBytes, given, s => (.ok given.bytes, s)
  | .findOrCreateUser _, given, s => deliver given.connection s (.ok (given.user, s))
  | .audit .., given, s => deliver given.connection s (.ok ((), s))
  | .completed jti expiresAt, _, s =>
    (.ok (), { s with completed := (jti, expiresAt) :: s.completed })

/-- Time passes. -/
def AuthState.elapse (ms : Nat) (s : AuthState) : AuthState := { s with now := s.now + ms }

/-! ## Effects -/

section Effects

variable {op : AuthOp} {given : AuthInput} {s : AuthState}

/-- What is asked runs a command, marks a revocation as completed, or changes nothing. -/
inductive AuthEffect (s : AuthState) : AuthOp → AuthState → Prop
  | nothing (op : AuthOp) : AuthEffect s op s
  | redis (command : RedisCommand) (r : command.Res) (keys : RedisKeys)
      (h : command.exec s.now s.keys = .ok (r, keys)) :
      AuthEffect s (.redis command) { s with keys := keys }
  | completed (jti : String) (expiresAt : Int) :
      AuthEffect s (.completed jti expiresAt)
        { s with completed := (jti, expiresAt) :: s.completed }

theorem authAnswer_effect (op : AuthOp) (given : AuthInput) (s : AuthState) :
    AuthEffect s op (authAnswer op given s).2 := by
  cases op with
  | now | randomUUID | randomBytes => exact .nothing _
  | findOrCreateUser | audit =>
    rw [authAnswer, deliver_read]
    exact .nothing _
  | completed jti expiresAt => exact .completed jti expiresAt
  | tokenVersion walletAddress issuing =>
    rw [authAnswer]
    cases RedisCommand.plain (s.keys.live s.now (versionKey walletAddress)) with
    | ok r =>
      show AuthEffect s _ (deliver given.connection s (.ok (r, s))).2
      rw [deliver_read]
      exact .nothing _
    | error fault => exact .nothing _
  | redis command =>
    rw [authAnswer]
    cases hexec : command.exec s.now s.keys with
    | error fault => exact .nothing _
    | ok answer =>
      obtain ⟨r, keys⟩ := answer
      cases hc : given.connection with
      | heard | unheard => exact .redis command r keys hexec
      | down => exact .nothing _

theorem now_of_asks (op : AuthOp) (given : AuthInput) (s : AuthState) :
    (authAnswer op given s).2.now = s.now := by
  have heffect := authAnswer_effect op given s
  generalize (authAnswer op given s).2 = s' at heffect
  cases heffect <;> rfl

/-- What is asked leaves all keys alone but the one it writes. -/
theorem key_of_asks {k : String}
    (other : ∀ command, op = .redis command → ∀ key ∈ command.writes, k ≠ key) :
    (authAnswer op given s).2.keys k = s.keys k := by
  have heffect := authAnswer_effect op given s
  generalize (authAnswer op given s).2 = s' at heffect
  cases heffect with
  | nothing | completed => rfl
  | redis command r keys h => exact RedisCommand.exec_of_ne h (other command rfl)

/-- A command that runs, whether or not its answer is heard. -/
theorem authAnswer_runs (command : RedisCommand) (given : AuthInput) (s : AuthState)
    {r : command.Res} {keys : RedisKeys} (h : command.exec s.now s.keys = .ok (r, keys)) :
    given.connection = .down ∧ (authAnswer (.redis command) given s).2 = s ∨
      given.connection ≠ .down ∧
        (authAnswer (.redis command) given s).2 = { s with keys := keys } := by
  simp only [authAnswer, h]
  cases given.connection with
  | down => exact .inl ⟨rfl, rfl⟩
  | heard => exact .inr ⟨by decide, rfl⟩
  | unheard => exact .inr ⟨by decide, rfl⟩

/-- A command that succeeds has run, and its answer is heard. -/
theorem heard_of_ok {command : RedisCommand} {r : command.Res}
    (h : (authAnswer (.redis command) given s).1 = .ok r) :
    given.connection = .heard ∧ ∃ keys, command.exec s.now s.keys = .ok (r, keys) := by
  simp only [authAnswer] at h
  cases hexec : command.exec s.now s.keys with
  | error fault =>
    rw [hexec] at h
    cases h
  | ok answer =>
    rw [hexec] at h
    cases hc : given.connection with
    | heard =>
      rw [hc] at h
      cases h
      exact ⟨rfl, _, rfl⟩
    | unheard | down =>
      rw [hc] at h
      cases h

/-- What is asked leaves the denylist and the token generations alone, and completes no
revocation. -/
def AuthOp.Ordinary : AuthOp → Prop
  | .redis command => ∀ key ∈ command.writes, Separate key
  | .completed .. => False
  | _ => True

/-- What remains the same with what is ordinary. -/
structure SameTokens (s s' : AuthState) : Prop where
  now : s'.now = s.now
  revoked : ∀ jti, s'.keys (revokedKey jti) = s.keys (revokedKey jti)
  version : ∀ walletAddress, s'.keys (versionKey walletAddress) = s.keys (versionKey walletAddress)
  completed : s'.completed = s.completed

theorem SameTokens.refl (s : AuthState) : SameTokens s s := ⟨rfl, fun _ => rfl, fun _ => rfl, rfl⟩

theorem sameTokens_of_ordinary (ordinary : op.Ordinary) :
    SameTokens s (authAnswer op given s).2 := by
  have heffect := authAnswer_effect op given s
  generalize (authAnswer op given s).2 = s' at heffect
  cases heffect with
  | nothing => exact .refl s
  | completed => exact ordinary.elim
  | redis command r keys h =>
    refine ⟨rfl, fun jti => ?_, fun walletAddress => ?_, rfl⟩
    · exact RedisCommand.exec_of_ne h fun key hkey => ((ordinary key hkey).1 jti).symm
    · exact RedisCommand.exec_of_ne h fun key hkey => ((ordinary key hkey).2 walletAddress).symm

end Effects

/-! ## Rules -/

section Rules

variable {R : AuthState → AuthState → Prop} {allowed : AuthOp → AuthInput → AuthState → Prop}
  {s : AuthState} {α : Type}

theorem keeps_pure (a : α) : Keeps authAnswer R allowed (pure a : AuthJob α).run := keeps_done _

theorem keeps_throw (e : AuthError) : Keeps authAnswer R allowed (throw e : AuthJob α).run :=
  keeps_done _

theorem wp_authAsk {op : AuthOp} {Ψ : Except AuthError op.Res → AuthState → Prop} :
    Wp authAnswer R allowed Ψ op.ask.run s ↔
      ∀ s', R s s' → ∀ given, allowed op given s' → R s' (authAnswer op given s').2 ∧
        Ψ ((authAnswer op given s').1.mapError .fault) (authAnswer op given s').2 := Iff.rfl

/-- What is asked, where only an answer that is heard matters. -/
theorem does_authAsk {S : Type} {serve : (op : AuthOp) → AuthInput → S → AuthAnswer op × S}
    {R : S → S → Prop} {allowed G : AuthOp → AuthInput → S → Prop} {s : S} (op : AuthOp)
    {P : op.Res → S → Prop}
    (h : ∀ s' given, R s s' → G op given s' ∧
      ∀ r, (serve op given s').1 = .ok r → P r (serve op given s').2) :
    Does serve R allowed G (Returns P) op.ask.run s := by
  intro s' hR given _
  obtain ⟨hasks, hreturns⟩ := h s' given hR
  refine ⟨hasks, ?_⟩
  show Returns P ((serve op given s').1.mapError AuthError.fault) _
  cases hanswer : (serve op given s').1 with
  | error fault => trivial
  | ok r => exact hreturns r hanswer

/-- A command that fails is not heard to have succeeded. -/
theorem wp_command {command : RedisCommand}
    {Ψ : Except AuthError command.Res → AuthState → Prop}
    (runs : ∀ s', R s s' → ∀ given, allowed (.redis command) given s' →
      R s' (authAnswer (.redis command) given s').2 ∧
        ∀ r keys, command.exec s'.now s'.keys = .ok (r, keys) → given.connection = .heard →
          Ψ (.ok r) { s' with keys := keys })
    (fails : ∀ fault s', Ψ (.error (.fault fault)) s') :
    Wp authAnswer R allowed Ψ command.ask.run s := by
  intro s' hR given hallowed
  obtain ⟨hkeeps, hok⟩ := runs s' hR given hallowed
  refine ⟨hkeeps, ?_⟩
  show Ψ ((authAnswer (.redis command) given s').1.mapError .fault)
    (authAnswer (.redis command) given s').2
  simp only [authAnswer]
  cases hexec : command.exec s'.now s'.keys with
  | error fault => exact fails _ _
  | ok answer =>
    obtain ⟨r, keys⟩ := answer
    cases hc : given.connection with
    | heard => exact hok r keys hexec hc
    | unheard | down => exact fails _ _

end Rules

end Amana.Backend
