import Amana.Backend.AuthStore
import Mathlib.Data.List.Sort

/-!
# The registry of admin sessions

`adminSession.service.ts`: a record for each admin token, under its `jti`, and for each wallet the
set of its `jti`s.
-/

namespace Amana.Backend

open Lib Lib.Jobs

/-- `Math.floor(ms / 1000)`. -/
def seconds (ms : Nat) : Int := ↑(ms / 1000)

namespace AdminSessionService

def register (record : AdminSessionRecord) : AuthJob Unit := do
  let now ← AuthOp.now.ask
  let ttl := max 1 (record.expiresAt - seconds now + 60)
  (RedisCommand.setEx (recordKey record.jti) (.session record) ttl.toNat).ask
  (RedisCommand.sadd (indexKey record.walletAddress) record.jti).ask
  (RedisCommand.expire (indexKey record.walletAddress) 86400).ask

/-- The record that is parsed, if it is one. -/
def parseRecord : Option RedisValue → Option AdminSessionRecord
  | some (.session record) => some record
  | _ => none

def get (jti : String) : AuthJob (Option AdminSessionRecord) := do
  let raw ← (RedisCommand.get (recordKey jti)).ask
  return parseRecord raw

/-- Errors are only logged. -/
def touch (jti : String) : AuthJob Unit :=
  tryCatch
    (do
      let ttl ← (RedisCommand.ttl (recordKey jti)).ask
      if ttl ≤ 0 then return
      let raw ← (RedisCommand.get (recordKey jti)).ask
      match parseRecord raw with
      | none => return
      | some record =>
        let now ← AuthOp.now.ask
        let record := { record with lastSeenAt := seconds now }
        (RedisCommand.setEx (recordKey jti) (.session record) ttl.toNat).ask)
    fun _ => return

/-- The loop of `listForWallet`: the records that are found, and the `jti`s without one. -/
def collect : List String → List AdminSessionRecord → List String →
    AuthJob (List AdminSessionRecord × List String)
  | [], records, dead => return (records, dead)
  | jti :: jtis, records, dead => do
    match ← get jti with
    | some record => collect jtis (records ++ [record]) dead
    | none => collect jtis records (dead ++ [jti])

def listForWallet (walletAddress : String) : AuthJob (List AdminSessionRecord) := do
  let jtis ← (RedisCommand.smembers (indexKey walletAddress)).ask
  if jtis.isEmpty then return []
  let (records, dead) ← collect jtis [] []
  if dead.length > 0 then (RedisCommand.srem (indexKey walletAddress) dead).ask
  return records.insertionSort fun a b => b.issuedAt ≤ a.issuedAt

def revoke (jti : String) : AuthJob (Option AdminSessionRecord) := do
  let record ← get jti
  (RedisCommand.del (recordKey jti)).ask
  match record with
  | some found => (RedisCommand.srem (indexKey found.walletAddress) [jti]).ask
  | none => pure ()
  return record

/-- The loop of `revokeDevice`. -/
def removeAll (walletAddress : String) : List AdminSessionRecord → AuthJob Unit
  | [] => return
  | record :: records => do
    (RedisCommand.del (recordKey record.jti)).ask
    (RedisCommand.srem (indexKey walletAddress) [record.jti]).ask
    removeAll walletAddress records

def revokeDevice (walletAddress deviceHash : String) : AuthJob (List AdminSessionRecord) := do
  let sessions ← listForWallet walletAddress
  let found := sessions.filter fun record => record.deviceHash = deviceHash
  removeAll walletAddress found
  return found

/-! ## What the registry asks -/

/-- Reads, the removal of records, the sets of `jti`s, and that the record of a session is written. -/
inductive Asks (written : Option String) : AuthOp → Prop
  | now : Asks written .now
  | read (command : RedisCommand) (h : command.writes = none) : Asks written (.redis command)
  | record (jti : String) (record : AdminSessionRecord) (seconds : Nat) (h : jti ∈ written) :
    Asks written (.redis (.setEx (recordKey jti) (.session record) seconds))
  | del (jti : String) : Asks written (.redis (.del (recordKey jti)))
  | index (command : RedisCommand) (walletAddress : String)
      (h : command.writes = some (indexKey walletAddress)) : Asks written (.redis command)

section Asks

variable {written : Option String} {command : RedisCommand}

theorem asks_ask {op : AuthOp} (h : Asks written op) : op.ask.run.Asks (Asks written) :=
  ⟨h, fun _ => trivial⟩

theorem asks_read (h : command.writes = none) : command.ask.run.Asks (Asks written) :=
  asks_ask (.read command h)

theorem asks_index {walletAddress : String} (h : command.writes = some (indexKey walletAddress)) :
    command.ask.run.Asks (Asks written) := asks_ask (.index command walletAddress h)

theorem asks_srem (walletAddress : String) (jtis : List String) :
    (RedisCommand.srem (indexKey walletAddress) jtis).ask.run.Asks (Asks none) := asks_index rfl

theorem asks_get (jti : String) : (get jti).run.Asks (Asks none) :=
  (asks_read rfl).except_bind fun _ => trivial

theorem asks_register (record : AdminSessionRecord) :
    (register record).run.Asks (Asks (some record.jti)) := by
  apply (asks_ask .now).except_bind
  intro now
  apply (asks_ask (.record _ _ _ rfl)).except_bind
  intro _
  apply (asks_index rfl).except_bind
  intro _
  exact asks_index rfl

theorem asks_touch (jti : String) : (touch jti).run.Asks (Asks (some jti)) := by
  unfold touch
  refine Job.Asks.tryCatch ?_ fun _ => trivial
  apply (asks_read rfl).except_bind
  intro ttl
  split
  · trivial
  apply (asks_read rfl).except_bind
  intro raw
  split
  · trivial
  · apply (asks_ask .now).except_bind
    intro now
    exact asks_ask (.record _ _ _ rfl)

theorem asks_collect (jtis : List String) (records : List AdminSessionRecord)
    (dead : List String) : (collect jtis records dead).run.Asks (Asks none) := by
  induction jtis generalizing records dead with
  | nil => trivial
  | cons jti jtis ih =>
    apply (asks_get jti).except_bind
    rintro (_ | record)
    · exact ih _ _
    · exact ih _ _

theorem asks_listForWallet (walletAddress : String) :
    (listForWallet walletAddress).run.Asks (Asks none) := by
  apply (asks_read rfl).except_bind
  intro jtis
  split
  · trivial
  apply (asks_collect jtis [] []).except_bind
  rintro ⟨records, dead⟩
  show (ite _ _ _ : AuthJob _).run.Asks (Asks none)
  split
  · exact (asks_srem walletAddress dead).except_bind fun _ => trivial
  · trivial

theorem asks_revoke (jti : String) : (revoke jti).run.Asks (Asks none) := by
  apply (asks_get jti).except_bind
  intro record
  apply (asks_ask (.del jti)).except_bind
  intro _
  cases record with
  | none => trivial
  | some found => exact (asks_srem found.walletAddress [jti]).except_bind fun _ => trivial

theorem asks_removeAll (walletAddress : String) (records : List AdminSessionRecord) :
    (removeAll walletAddress records).run.Asks (Asks none) := by
  induction records with
  | nil => trivial
  | cons record records ih =>
    apply (asks_ask (.del record.jti)).except_bind
    intro _
    apply (asks_srem walletAddress [record.jti]).except_bind
    exact fun _ => ih

theorem asks_revokeDevice (walletAddress deviceHash : String) :
    (revokeDevice walletAddress deviceHash).run.Asks (Asks none) := by
  apply (asks_listForWallet walletAddress).except_bind
  intro sessions
  exact (asks_removeAll _ _).except_bind fun _ => trivial

end Asks

end AdminSessionService

end Amana.Backend
