import Amana.Lib.Database
import Amana.Lib.Expiring

/-!
# Redis

The commands of Redis the backend uses.  Each is atomic, and runs at the time of the server, in
milliseconds.  A numeral that is written and read back as a number is kept as the number, and a
record of a session as the record: `JSON.parse` undoes `JSON.stringify`.
-/

namespace Amana.Backend

open Lib.Database Lib.Expiring

/-- `AdminSessionRecord`; times in seconds. -/
structure AdminSessionRecord where
  jti : String
  walletAddress : String
  deviceHash : String
  ipClass : String
  userAgent : String
  issuedAt : Int
  expiresAt : Int
  lastSeenAt : Int
  deriving DecidableEq, Repr

inductive RedisValue where
  | text (text : String)
  | number (n : Nat)
  | session (record : AdminSessionRecord)
  /-- A set. -/
  | members (members : List String)
  deriving DecidableEq, Repr

abbrev RedisKeys := Keys String RedisValue

inductive RedisCommand where
  | get (key : String)
  /-- `SET` with `EX`. -/
  | setEx (key : String) (value : RedisValue) (seconds : Nat)
  /-- `EXISTS`. -/
  | existsKey (key : String)
  | del (key : String)
  | getdel (key : String)
  | incr (key : String)
  | ttl (key : String)
  | expire (key : String) (seconds : Nat)
  | sadd (key member : String)
  | srem (key : String) (members : List String)
  | smembers (key : String)
  deriving DecidableEq, Repr

namespace RedisCommand

abbrev Res : RedisCommand → Type
  | get _ | getdel _ => Option RedisValue
  | setEx .. | del _ | expire .. | sadd .. | srem .. => Unit
  | existsKey _ => Bool
  | incr _ => Nat
  | ttl _ => Int
  | smembers _ => List String

def wrongType : Fault :=
  .raised "WRONGTYPE Operation against a key holding the wrong kind of value"

def notInteger : Fault := .raised "ERR value is not an integer or out of range"

/-- What is read of a key that does not hold a set. -/
def plain : Option (Entry RedisValue) → Except Fault (Option RedisValue)
  | none => .ok none
  | some ⟨.members _, _⟩ => .error wrongType
  | some ⟨value, _⟩ => .ok (some value)

/-- What is read is the value of the key. -/
theorem eq_of_plain {entry : Option (Entry RedisValue)} {value : Option RedisValue}
    (h : plain entry = .ok value) : value = entry.map Entry.value := by
  unfold plain at h
  split at h
  · cases h
    rfl
  · cases h
  · cases h
    rfl

/-- The members of a set, which is empty when it is not there. -/
def setMembers : Option (Entry RedisValue) → Except Fault (List String)
  | none => .ok []
  | some ⟨.members members, _⟩ => .ok members
  | some _ => .error wrongType

/-- The key with other members; an empty set is removed. -/
def putMembers (keys : RedisKeys) (key : String) (members : List String)
    (deadline : Option Nat) : RedisKeys :=
  if members = [] then keys.remove key else keys.put key (.members members) deadline

/-- The answer to a command and what it leaves behind. -/
def exec (now : Nat) (keys : RedisKeys) :
    (command : RedisCommand) → Except Fault (command.Res × RedisKeys)
  | get key => (plain (keys.live now key)).map fun value => (value, keys)
  | setEx key value seconds => .ok ((), keys.put key value (some (now + 1000 * seconds)))
  | existsKey key => .ok ((keys.live now key).isSome, keys)
  | del key => .ok ((), keys.remove key)
  | getdel key => (plain (keys.live now key)).map fun value => (value, keys.remove key)
  | incr key =>
    match keys.live now key with
    | none => .ok (1, keys.put key (.number 1) none)
    | some ⟨.number n, deadline⟩ => .ok (n + 1, keys.put key (.number (n + 1)) deadline)
    | some ⟨.members _, _⟩ => .error wrongType
    | some _ => .error notInteger
  | ttl key =>
    match keys.live now key with
    | none => .ok (-2, keys)
    | some ⟨_, none⟩ => .ok (-1, keys)
    | some ⟨_, some deadline⟩ => .ok (((deadline - now + 500) / 1000 : Nat), keys)
  | expire key seconds =>
    match keys.live now key with
    | none => .ok ((), keys)
    | some e => .ok ((), keys.put key e.value (some (now + 1000 * seconds)))
  | sadd key member =>
    (setMembers (keys.live now key)).map fun members =>
      ((), putMembers keys key (if members.contains member then members else members ++ [member])
        ((keys.live now key).bind Entry.deadline))
  | srem key gone =>
    (setMembers (keys.live now key)).map fun members =>
      ((), putMembers keys key (members.filter fun member => !gone.contains member)
        ((keys.live now key).bind Entry.deadline))
  | smembers key => (setMembers (keys.live now key)).map fun members => (members, keys)

/-- The key a command may write. -/
def writes : RedisCommand → Option String
  | setEx key .. | del key | getdel key | incr key | expire key _ | sadd key _ | srem key _ =>
    some key
  | get _ | existsKey _ | ttl _ | smembers _ => none

theorem putMembers_of_ne (keys : RedisKeys) (members : List String) (deadline : Option Nat)
    {key k : String} (h : k ≠ key) : putMembers keys key members deadline k = keys k := by
  unfold putMembers
  split
  · exact keys.remove_of_ne h
  · exact keys.put_of_ne _ _ h

/-- A command leaves all keys alone but the one it writes. -/
theorem exec_of_ne {command : RedisCommand} {now : Nat} {keys keys' : RedisKeys} {k : String}
    {r : command.Res} (h : command.exec now keys = .ok (r, keys'))
    (other : ∀ key ∈ command.writes, k ≠ key) : keys' k = keys k := by
  cases command with
  | get key | getdel key =>
    rw [exec] at h
    cases hvalue : plain (keys.live now key) with
    | error fault =>
      rw [hvalue] at h
      cases h
    | ok value =>
      rw [hvalue] at h
      cases h
      first
        | rfl
        | exact keys.remove_of_ne (other key rfl)
  | sadd key member | srem key gone | smembers key =>
    rw [exec] at h
    cases hmembers : setMembers (keys.live now key) with
    | error fault =>
      rw [hmembers] at h
      cases h
    | ok members =>
      rw [hmembers] at h
      cases h
      first
        | rfl
        | exact putMembers_of_ne keys _ _ (other key rfl)
  | setEx key value seconds =>
    cases h
    exact keys.put_of_ne _ _ (other key rfl)
  | existsKey key => cases h; rfl
  | del key =>
    cases h
    exact keys.remove_of_ne (other key rfl)
  | incr key =>
    rw [exec] at h
    split at h
    · cases h
      exact keys.put_of_ne _ _ (other key rfl)
    · cases h
      exact keys.put_of_ne _ _ (other key rfl)
    · cases h
    · cases h
  | ttl key =>
    rw [exec] at h
    split at h <;> cases h <;> rfl
  | expire key seconds =>
    rw [exec] at h
    split at h
    · cases h
      rfl
    · cases h
      exact keys.put_of_ne _ _ (other key rfl)

end RedisCommand

end Amana.Backend
