import Amana.Backend.AdminSessions
import Amana.Lib.Noted

/-!
# Revoked admin sessions

`touch` reads a record and writes it back, with the remaining life it read first, so it can bring
back a record that was deleted in between, and it can make one last longer.  As long as every
record of a session that is written back is still there, and as much life as was left of it then
does not go beyond its registration, a session that was revoked is never found again, and none
outlives its registration (`sessions_revoked_for_good`).
-/

namespace Amana.Backend.AdminSessionService

open Lib Lib.Database Lib.Jobs Lib.Expiring

inductive SessionCall where
  | register (record : AdminSessionRecord)
  | get (jti : String)
  | touch (jti : String)
  | listForWallet (walletAddress : String)
  | revoke (jti : String)
  | revokeDevice (walletAddress deviceHash : String)
  deriving DecidableEq, Repr

inductive SessionReturn where
  | nothing (r : Except AuthError Unit)
  | record (r : Except AuthError (Option AdminSessionRecord))
  | records (r : Except AuthError (List AdminSessionRecord))
  deriving DecidableEq, Repr

def SessionCall.job : SessionCall → Job AuthAnswer SessionReturn
  | .register record => .nothing <$> (AdminSessionService.register record).run
  | .get jti => .record <$> (AdminSessionService.get jti).run
  | .touch jti => .nothing <$> (AdminSessionService.touch jti).run
  | .listForWallet walletAddress =>
    .records <$> (AdminSessionService.listForWallet walletAddress).run
  | .revoke jti => .record <$> (AdminSessionService.revoke jti).run
  | .revokeDevice walletAddress deviceHash =>
    .records <$> (AdminSessionService.revokeDevice walletAddress deviceHash).run

/-- The registry: calls of all pods on one Redis. -/
def sessions : Service SessionCall AuthAnswer AuthState AuthInput Nat SessionReturn where
  program := SessionCall.job
  serve := fun _ => authAnswer
  drift := AuthState.elapse

abbrev SessionWorld := World SessionCall AuthAnswer AuthState SessionReturn

abbrev SessionStep := Activity SessionCall AuthInput Nat

variable {jti : String} {lifetime : Nat} {s s' : AuthState}

/-- The call has revoked the session. -/
def SessionCall.Revokes (jti : String) : SessionCall → SessionReturn → Prop
  | .revoke jti', .record (.ok _) => jti' = jti
  | .revokeDevice _ _, .records (.ok records) => ∃ record ∈ records, record.jti = jti
  | _, _ => False

/-- No call of `get` that comes in once the session was revoked returns a record. -/
def RevokedForGood (s : AuthState) (as : List SessionStep) (jti : String) : Prop :=
  ∀ before, before <+: as → ∀ j c r, (run sessions (.fresh s) before).call j = some c →
    (run sessions (.fresh s) before).result j = some r → c.Revokes jti r →
      ∀ i r, (run sessions (.fresh s) before).workers.length ≤ i →
        (run sessions (.fresh s) as).call i = some (.get jti) →
          (run sessions (.fresh s) as).result i = some r →
            ∀ record, r ≠ .record (.ok (some record))

/-- The record of the session, if it is there, lasts until `lifetime` at most. -/
def Bounded (jti : String) (lifetime : Nat) (s : AuthState) : Prop :=
  ∀ e, s.keys (recordKey jti) = some e → ∃ deadline ∈ e.deadline, deadline ≤ lifetime

def Absent (jti : String) (s : AuthState) : Prop := s.keys.live s.now (recordKey jti) = none

/-! ## Notes of the time left -/

/-- What is left of the record's life, in the seconds that `TTL` tells. -/
def secondsLeft (jti : String) (s : AuthState) : Nat :=
  match s.keys.live s.now (recordKey jti) with
  | some ⟨_, some deadline⟩ => (deadline - s.now + 500) / 1000
  | _ => 0

/-- What was left of it when each worker has asked last. -/
abbrev Left := Nat → Nat

/-- What is noted when worker `i` is answered. -/
def note (jti : String) (_ : SessionCall) (i : Nat) (op : AuthOp) (_ : AuthInput) (s : AuthState)
    (left : Left) : Left :=
  match op with
  | .redis (.ttl key) =>
    if key = recordKey jti then Function.update left i (secondsLeft jti s) else left
  | _ => left

/-- The calls of the registry, with the notes. -/
abbrev noted (jti : String) : SessionWorld × Left → SessionStep → SessionWorld × Left :=
  stepNoted sessions (note jti)

/-- When worker `i` writes the record, this is still there, and as much life as was left when the
worker has asked does not go beyond `lifetime`. -/
def InTime (jti : String) (lifetime i : Nat) (op : AuthOp) (given : AuthInput) (s : AuthState)
    (left : Left) : Prop :=
  match op with
  | .redis (.setEx key ..) => key = recordKey jti → given.connection ≠ .down →
    ¬ Absent jti s ∧ s.now + 1000 * left i ≤ lifetime
  | _ => True

/-- The session is not registered again. -/
def NotRegistered (jti : String) : SessionCall → Prop
  | .register record => record.jti ≠ jti
  | _ => True

/-- What is done next is in time. -/
def StepInTime (jti : String) (lifetime : Nat) (p : SessionWorld × Left) : SessionStep → Prop
  | .advance i given => ∀ waits ∈ p.1.waiting i,
      InTime jti lifetime i waits.2 given p.1.shared p.2
  | .call c => NotRegistered jti c
  | _ => True

section Decidable

variable (jti : String) (lifetime : Nat)

instance (s : AuthState) : Decidable (Absent jti s) := inferInstanceAs (Decidable (_ = none))

instance (i : Nat) (op : AuthOp) (given : AuthInput) (s : AuthState) (left : Left) :
    Decidable (InTime jti lifetime i op given s left) := by
  induction op using AuthOp.casesOn with
  | redis command =>
    induction command using RedisCommand.casesOn <;> dsimp only [InTime] <;> infer_instance
  | _ => exact .isTrue trivial

instance (c : SessionCall) : Decidable (NotRegistered jti c) := by
  cases c <;> unfold NotRegistered <;> infer_instance

instance (p : SessionWorld × Left) : (a : SessionStep) → Decidable (StepInTime jti lifetime p a)
  | .advance i given =>
    match hwaits : p.1.waiting i with
    | some waits =>
      decidable_of_iff (InTime jti lifetime i waits.2 given p.1.shared p.2)
        (by simp [StepInTime, hwaits])
    | none => .isTrue (by simp [StepInTime, hwaits])
  | .call c => inferInstanceAs (Decidable (NotRegistered jti c))
  | .crash _ | .outside _ => .isTrue trivial

end Decidable

/-! ## What all steps keep -/

/-- If the record of the session is written, it is still there, and not written for longer than
`lifetime`. -/
def WritesBack (jti : String) (lifetime : Nat) (op : AuthOp) (given : AuthInput) (s : AuthState) :
    Prop :=
  match op with
  | .redis (.setEx key _ seconds) => key = recordKey jti → given.connection ≠ .down →
    (s.keys.live s.now key).isSome = true ∧ s.now + 1000 * seconds ≤ lifetime
  | _ => True

/-- What is done next keeps to this. -/
def StepWritesBack (jti : String) (lifetime : Nat) (w : SessionWorld) (a : SessionStep) : Prop :=
  Permits (fun _ op given s => WritesBack jti lifetime op given s)
    (fun c _ => NotRegistered jti c) (fun _ _ => True) w a

/-- A record that is not there does not come back, and does not come to outlive its session. -/
structure Fades (jti : String) (lifetime : Nat) (s s' : AuthState) : Prop where
  absent : Absent jti s → Absent jti s'
  bounded : Bounded jti lifetime s → Bounded jti lifetime s'

theorem fades_onward (jti : String) (lifetime : Nat) : Onward (Fades jti lifetime) where
  refl _ := ⟨id, id⟩
  trans h h' := ⟨h'.absent ∘ h.absent, h'.bounded ∘ h.bounded⟩

/-- A step that leaves the record alone. -/
theorem fades_of_keys (now : s.now ≤ s'.now)
    (keys : s'.keys (recordKey jti) = s.keys (recordKey jti)) : Fades jti lifetime s s' := by
  refine ⟨fun h => ?_, fun h e he => h e (keys ▸ he)⟩
  by_contra hsome
  have hlater := Option.isSome_iff_ne_none.2 hsome
  rw [Keys.live_congr keys] at hlater
  have hnow := Keys.live_of_le hlater now
  rw [show s.keys.live s.now (recordKey jti) = none from h] at hnow
  cases hnow

theorem recordKey_ne_indexKey (jti walletAddress : String) :
    recordKey jti ≠ indexKey walletAddress :=
  ne_of_split "admin_session".toList [] [':'] rfl rfl (by decide)

theorem fades_elapse (ms : Nat) : Fades jti lifetime s (s.elapse ms) :=
  fades_of_keys (Nat.le_add_right ..) rfl

theorem absent_of_remove (s : AuthState) (jti : String) :
    Absent jti { s with keys := s.keys.remove (recordKey jti) } := by
  simp [Absent, Keys.live, Keys.remove]

theorem fades_asks (written : Option String) {op : AuthOp} (asks : Asks written op)
    (given : AuthInput) (s : AuthState) (writes : WritesBack jti lifetime op given s) :
    Fades jti lifetime s (authAnswer op given s).2 := by
  have elsewhere {command : RedisCommand} (other : ∀ key ∈ command.writes, recordKey jti ≠ key) :
      Fades jti lifetime s (authAnswer (.redis command) given s).2 := by
    have heffect := authAnswer_effect (.redis command) given s
    generalize (authAnswer (.redis command) given s).2 = s' at heffect
    cases heffect with
    | nothing => exact (fades_onward jti lifetime).refl s
    | redis command r keys h =>
      exact fades_of_keys (Nat.le_refl _) (RedisCommand.exec_of_ne h other)
  cases asks with
  | now => exact (fades_onward jti lifetime).refl s
  | read command h =>
    apply elsewhere
    intro key hkey
    rw [h] at hkey
    cases hkey
  | index command walletAddress h =>
    apply elsewhere
    intro key hkey
    rw [h] at hkey
    cases hkey
    exact recordKey_ne_indexKey jti walletAddress
  | record jti' record seconds _ =>
    have hrun := authAnswer_runs (.setEx (recordKey jti') (.session record) seconds) given s rfl
    rcases hrun with ⟨-, hstate⟩ | ⟨hc, hstate⟩
    · rw [hstate]
      exact (fades_onward jti lifetime).refl s
    rw [hstate]
    by_cases hjti : recordKey jti' = recordKey jti
    · obtain ⟨there, hle⟩ := writes hjti hc
      rw [hjti] at there ⊢
      refine ⟨fun absent => ?_, fun _ e he => ?_⟩
      · rw [show s.keys.live s.now (recordKey jti) = none from absent] at there
        cases there
      · obtain rfl := Option.some.inj ((Keys.put_same ..).symm.trans he)
        exact ⟨_, rfl, hle⟩
    · exact fades_of_keys (Nat.le_refl _) (Keys.put_of_ne _ _ _ fun h => hjti h.symm)
  | del jti' =>
    have hrun := authAnswer_runs (.del (recordKey jti')) given s rfl
    rcases hrun with ⟨-, hstate⟩ | ⟨-, hstate⟩
    · rw [hstate]
      exact (fades_onward jti lifetime).refl s
    rw [hstate]
    by_cases hjti : recordKey jti' = recordKey jti
    · rw [hjti]
      refine ⟨fun _ => absent_of_remove s jti, fun _ e he => ?_⟩
      simp [Keys.remove] at he
    · exact fades_of_keys (Nat.le_refl _) (Keys.remove_of_ne _ fun h => hjti h.symm)

theorem keeps_fades {α : Type} {job : Job AuthAnswer α} {written : Option String}
    (h : job.Asks (Asks written)) :
    Keeps authAnswer (Fades jti lifetime) (WritesBack jti lifetime) job :=
  h.keeps fun _ => fades_asks written

/-- The session whose record a call may write. -/
def SessionCall.written : SessionCall → Option String
  | .register record => some record.jti
  | .touch jti => some jti
  | _ => none

theorem asks_job (c : SessionCall) : c.job.Asks (Asks c.written) := by
  cases c with
  | register record => exact (asks_register record).map
  | get jti => exact (asks_get jti).map
  | touch jti => exact (asks_touch jti).map
  | listForWallet walletAddress => exact (asks_listForWallet walletAddress).map
  | revoke jti => exact (asks_revoke jti).map
  | revokeDevice walletAddress deviceHash => exact (asks_revokeDevice walletAddress deviceHash).map

theorem job_fades (c : SessionCall) (s : AuthState) :
    Wp authAnswer (Fades jti lifetime) (WritesBack jti lifetime) (fun _ _ => True) c.job s :=
  keeps_fades (asks_job c) s

/-! ## What revocations and lookups return -/

theorem wp_del (jti' : String) :
    Wp authAnswer (Fades jti lifetime) (WritesBack jti lifetime)
      (Returns fun _ s' => Absent jti s ∨ jti' = jti → Absent jti s')
      (RedisCommand.del (recordKey jti')).ask.run s := by
  apply wp_command
  · intro s' hR given writes
    refine ⟨fades_asks none (.del jti') given s' writes, ?_⟩
    rintro ⟨⟩ keys hexec heard gone
    have hrun := authAnswer_runs (.del (recordKey jti')) given s' hexec
    have hstate : (authAnswer (.redis (.del (recordKey jti'))) given s').2 =
        { s' with keys := keys } := by
      rcases hrun with ⟨hdown, -⟩ | ⟨-, hstate⟩
      · rw [heard] at hdown
        cases hdown
      · exact hstate
    rcases gone with absent | rfl
    · rw [← hstate]
      exact (fades_asks none (.del jti') given s' writes).absent (hR.absent absent)
    · cases hexec
      exact absent_of_remove s' jti'
  · intro fault s'
    trivial

/-- What is done once the record is not there. -/
theorem absent_of_keeps {α : Type} {job : AuthJob α}
    (h : Keeps authAnswer (Fades jti lifetime) (WritesBack jti lifetime) job.run)
    (absent : Absent jti s) :
    Wp authAnswer (Fades jti lifetime) (WritesBack jti lifetime)
      (Returns fun _ s' => Absent jti s') job.run s := by
  apply (h.reaches (fades_onward jti lifetime) s).mono
  rintro (e | a) s' hR
  · trivial
  · exact hR.absent absent

theorem wp_revoke (jti : String) (s : AuthState) :
    Wp authAnswer (Fades jti lifetime) (WritesBack jti lifetime)
      (Returns fun _ s' => Absent jti s') (revoke jti).run s := by
  apply (keeps_fades (asks_get jti)).before (fades_onward jti lifetime)
  intro record s₁ _
  apply wp_returns_bind.2
  apply (wp_del jti).mono
  rintro (e | _) s₂ hdel
  · trivial
  · apply absent_of_keeps _ (hdel (.inr rfl))
    cases record with
    | none => exact keeps_pure _
    | some found =>
      exact (keeps_fades (asks_srem found.walletAddress [jti])).except_bind fun _ => keeps_pure _

theorem wp_removeAll (walletAddress : String) (records : List AdminSessionRecord) :
    Wp authAnswer (Fades jti lifetime) (WritesBack jti lifetime)
      (Returns fun _ s' => Absent jti s ∨ (∃ record ∈ records, record.jti = jti) → Absent jti s')
      (removeAll walletAddress records).run s := by
  induction records generalizing s with
  | nil =>
    rintro (absent | ⟨record, hmem, -⟩)
    · exact absent
    · cases hmem
  | cons record records ih =>
    apply wp_returns_bind.2
    apply (wp_del record.jti).mono
    rintro (e | _) s₁ hdel
    · trivial
    apply (keeps_fades (asks_srem walletAddress [record.jti])).before (fades_onward jti lifetime)
    intro _ s₂ hR
    apply ih.mono
    rintro (e | _) s₃ hrest
    · trivial
    · rintro (absent | ⟨found, hmem, hfound⟩)
      · exact hrest (.inl (hR.absent (hdel (.inl absent))))
      · rcases List.mem_cons.1 hmem with rfl | hmem
        · exact hrest (.inl (hR.absent (hdel (.inr hfound))))
        · exact hrest (.inr ⟨found, hmem, hfound⟩)

theorem wp_revokeDevice (walletAddress deviceHash : String) (s : AuthState) :
    Wp authAnswer (Fades jti lifetime) (WritesBack jti lifetime)
      (Returns fun records s' => (∃ record ∈ records, record.jti = jti) → Absent jti s')
      (revokeDevice walletAddress deviceHash).run s := by
  apply (keeps_fades (asks_listForWallet walletAddress)).before (fades_onward jti lifetime)
  intro sessions s₁ _
  apply wp_returns_bind.2
  apply (wp_removeAll walletAddress _).mono
  rintro (e | _) s₂ hremoved
  · trivial
  · exact fun hfound => hremoved (.inr hfound)

/-- A record that is not there is not found. -/
theorem wp_get (absent : Absent jti s) :
    Wp authAnswer (Fades jti lifetime) (WritesBack jti lifetime)
      (Returns fun record _ => record = none) (get jti).run s := by
  apply wp_returns_bind.2
  apply wp_command
  · intro s' hR given writes
    refine ⟨fades_asks none (.read _ rfl) given s' writes, ?_⟩
    intro raw keys hexec _
    have hnone : s'.keys.live s'.now (recordKey jti) = none := hR.absent absent
    rw [RedisCommand.exec, hnone] at hexec
    cases hexec
    rfl
  · intro fault s'
    trivial

/-! ## Whole runs -/

theorem job_revokes (c : SessionCall) (s : AuthState) :
    Wp authAnswer (Fades jti lifetime) (WritesBack jti lifetime)
      (fun r s' => c.Revokes jti r → Absent jti s') c.job s := by
  cases c with
  | revoke jti' =>
    by_cases hjti : jti' = jti
    · subst hjti
      apply wp_map.2
      apply (wp_revoke jti' s).mono
      rintro (e | record) s' habsent
      · exact False.elim
      · exact fun _ => habsent
    · apply (job_fades (.revoke jti') s).mono
      intro r s' _ hrevokes
      match r, hrevokes with
      | .record (.ok _), hrevokes => exact absurd hrevokes hjti
  | revokeDevice walletAddress deviceHash =>
    apply wp_map.2
    apply (wp_revokeDevice walletAddress deviceHash s).mono
    rintro (e | records) s' habsent
    · exact False.elim
    · exact habsent
  | register record => exact (job_fades (.register record) s).mono fun _ _ _ => False.elim
  | get jti' => exact (job_fades (.get jti') s).mono fun _ _ _ => False.elim
  | touch jti' => exact (job_fades (.touch jti') s).mono fun _ _ _ => False.elim
  | listForWallet walletAddress =>
    exact (job_fades (.listForWallet walletAddress) s).mono fun _ _ _ => False.elim

/-- A session that is revoked is never found again, and no record of it outlives its registration,
as long as records of it that are written back are still there and are not written for longer. -/
theorem revokedForGood_of_writesBack (s : AuthState) (as : List SessionStep) (jti : String)
    (record : AdminSessionRecord) (lifetime : Nat)
    (registered : s.keys (recordKey jti) = some ⟨.session record, some lifetime⟩)
    (writes : ∀ p ∈ trail sessions (.fresh s) as, StepWritesBack jti lifetime p.1 p.2) :
    RevokedForGood s as jti ∧
      ∀ before, before <+: as → Bounded jti lifetime (run sessions (.fresh s) before).shared := by
  have hkept (before : List SessionStep) (hbefore : before <+: as) :
      (run sessions (.fresh s) before).Ok sessions (Fades jti lifetime)
          (fun _ => WritesBack jti lifetime) (fun _ c r s' => c.Revokes jti r → Absent jti s') ∧
        Fades jti lifetime s (run sessions (.fresh s) before).shared := by
    have hfresh : (World.fresh s).Ok sessions (Fades jti lifetime)
        (fun _ => WritesBack jti lifetime) fun _ c r s' => c.Revokes jti r → Absent jti s' := by
      intro i c job found
      simp [World.fresh] at found
    have stable (i : Nat) (c : SessionCall) (r : SessionReturn) (s s' : AuthState)
        (hR : Fades jti lifetime s s') (h : c.Revokes jti r → Absent jti s) :
        c.Revokes jti r → Absent jti s' := fun hrevokes => hR.absent (h hrevokes)
    exact run_keeps (fades_onward jti lifetime) stable hfresh
      (fun p hp => writes p (Machine.trail_of_isPrefix _ hbefore hp))
      (fun s _ ms _ => fades_elapse ms) fun s _ _ c _ => job_revokes c s
  constructor
  · rintro before hbefore j c r called returned revokes i r' later called' returned' found rfl
    have hok := (hkept before hbefore).1
    have absent : Absent jti (run sessions (.fresh s) before).shared :=
      hok j c (.done r) (World.done_of_result called returned) revokes
    have hdone := World.done_of_result called' returned'
    obtain ⟨rest, rfl⟩ := hbefore
    rw [trail, Machine.trail_append] at writes
    rw [run, Machine.run_append] at hdone
    have hnone := run_returns_later (Φ := fun c r => c = .get jti → r ≠ .record (.ok (some found)))
      (fades_onward jti lifetime)
      (fun i c job hjob => (hok i c job hjob).mono fun _ _ _ => trivial)
      (fun p hp => writes p (List.mem_append_right _ hp)) (fun s _ ms _ => fades_elapse ms) ?_
      later hdone rfl
    · exact hnone rfl rfl
    · intro s' hR _ c _
      by_cases hc : c = .get jti
      · subst hc
        apply wp_map.2
        apply (wp_get (hR.absent absent)).mono
        rintro (e | record) s'' hrecord - hsame
        · cases hsame
        · rw [show record = none from hrecord] at hsame
          cases hsame
      · exact (job_fades c s').mono fun r _ _ hget => absurd hget hc
  · intro before hbefore
    apply (hkept before hbefore).2.bounded
    intro e he
    rw [registered] at he
    cases he
    exact ⟨lifetime, rfl, Nat.le_refl _⟩

/-! ## What `touch` writes -/

section Writes

variable {c : SessionCall} {i j : Nat} {op : AuthOp} {p : SessionWorld × Left}

/-- What worker `i` relies on: nobody else asks for it what is left. -/
def KeepsLeft (i : Nat) (s s' : AuthState × Left) : Prop := s'.2 i = s.2 i

theorem keepsLeft_onward (i : Nat) : Onward (KeepsLeft i) where
  refl _ := rfl
  trans h h' := Eq.trans h' h

theorem note_of_ne (c : SessionCall) (h : j ≠ i) (given : AuthInput) (s : AuthState) (left : Left) :
    note jti c i op given s left j = left j := by
  unfold note
  split
  · split
    · exact Function.update_of_ne h ..
    · rfl
  · rfl

/-- The record of the session is written for as long as was left of it. -/
def WritesLeft (jti : String) (i : Nat) (op : AuthOp) (_ : AuthInput) (s : AuthState × Left) : Prop :=
  match op with
  | .redis (.setEx key _ seconds) => key = recordKey jti → seconds = s.2 i
  | _ => True

theorem recordKey_inj {jti jti' : String} (h : recordKey jti = recordKey jti') : jti = jti' :=
  (String.append_right_inj _).1 h

/-- Other records do not matter. -/
theorem writesLeft_of_asks {written : Option String} (other : jti ∉ written) (asks : Asks written op)
    (given : AuthInput) (s : AuthState × Left) : WritesLeft jti i op given s := by
  cases asks with
  | now | del => trivial
  | read command h =>
    cases command with
    | setEx key value seconds => cases h
    | _ => trivial
  | record jti' record seconds h =>
    intro hkey
    rw [recordKey_inj hkey] at h
    exact absurd h other
  | index command walletAddress h =>
    cases command with
    | setEx key value seconds =>
      cases h
      exact fun hkey => absurd hkey.symm (recordKey_ne_indexKey jti walletAddress)
    | _ => trivial

/-- What `TTL` tells is what is left. -/
theorem left_of_ttl {given : AuthInput} {ttl : Int} (left : Left)
    (h : (authAnswer (.redis (.ttl (recordKey jti))) given s).1 = .ok ttl) :
    note jti c i (.redis (.ttl (recordKey jti))) given s left i = ttl.toNat := by
  obtain ⟨-, keys, hexec⟩ := heard_of_ok h
  rw [note, if_pos rfl, Function.update_self, secondsLeft]
  dsimp only [RedisCommand.exec] at hexec
  split at hexec
  all_goals
    rename_i hlive
    rw [hlive]
    cases hexec
    rfl

theorem does_touch (s : AuthState × Left) :
    Does (sessions.answer (note jti) c i) (KeepsLeft i) (fun _ _ _ => True) (WritesLeft jti i)
      (Returns fun _ _ => True) (touch jti).run s := by
  apply does_tryCatch.2
  refine Does.mono (Φ := Returns fun _ _ => True) ?_ ?_
  · apply does_returns_bind.2
    apply does_authAsk (.redis (.ttl _))
    intro s₁ given _
    refine ⟨trivial, fun ttl hread => ?_⟩
    have hleft := left_of_ttl (c := c) (i := i) s₁.2 hread
    split
    · trivial
    apply does_returns_bind.2
    apply does_authAsk (.redis (.get _))
    intro s₂ given hkept₂
    refine ⟨trivial, fun raw _ => ?_⟩
    split
    · trivial
    apply does_returns_bind.2
    apply does_authAsk .now
    intro s₃ given hkept₃
    refine ⟨trivial, fun now _ => ?_⟩
    apply does_authAsk (.redis (.setEx ..))
    intro s₄ given hkept₄
    exact ⟨fun _ => (hkept₄.trans (hkept₃.trans (hkept₂.trans hleft))).symm, fun _ _ => trivial⟩
  · rintro (e | _) s' _
    · trivial
    · trivial

theorem does_job (notRegistered : NotRegistered jti c) (i : Nat) (s : AuthState × Left) :
    Does (sessions.answer (note jti) c i) (KeepsLeft i) (fun _ _ _ => True) (WritesLeft jti i)
      (fun _ _ => True) c.job s := by
  by_cases hwritten : jti ∈ c.written
  · cases c with
    | register record => exact absurd (Option.some.inj hwritten) notRegistered
    | touch jti' =>
      obtain rfl := Option.some.inj hwritten
      exact does_map.2 ((does_touch s).mono fun _ _ _ => trivial)
    | get | listForWallet | revoke | revokeDevice => cases hwritten
  · exact (asks_job c).does (fun op asks given s' _ => writesLeft_of_asks hwritten asks given s') s

theorem doesNoted_run {as : List SessionStep} {left : Left}
    (inTime : ∀ p ∈ Machine.trail (noted jti) (.fresh s, left) as, StepInTime jti lifetime p.1 p.2) :
    DoesNoted sessions (note jti) KeepsLeft (WritesLeft jti)
      (Machine.run (noted jti) (.fresh s, left) as) := by
  refine Machine.run_invariant (noted jti) (doesNoted_fresh s left) fun p hp does => ?_
  refine does.step keepsLeft_onward (fun c i op given s _ j hne => note_of_ne c hne given s.1 s.2)
    (fun ms j _ => rfl) fun c i s hcall => ?_
  have hnot := inTime p hp
  rw [hcall] at hnot
  exact does_job hnot i s

/-- What is in time is written for as long as is left. -/
theorem writesBack_of_inTime {as : List SessionStep} {left : Left}
    (inTime : ∀ p ∈ Machine.trail (noted jti) (.fresh s, left) as, StepInTime jti lifetime p.1 p.2) :
    ∀ p ∈ trail sessions (.fresh s) as, StepWritesBack jti lifetime p.1 p.2 := by
  rw [trail, ← Machine.trail_shadow (step sessions) (World.noted (note jti)) (.fresh s, left) as,
    List.forall_mem_map]
  rintro ⟨p, a⟩ hp
  have hin := inTime _ hp
  obtain ⟨bs, cs, rfl, rfl⟩ := Machine.exists_append_of_mem_trail _ hp
  have hdoes := doesNoted_run fun q hq => inTime q (Machine.trail_of_isPrefix _ ⟨_, rfl⟩ hq)
  cases a with
  | advance i given =>
    intro c op next found
    have hasked := hdoes.asked keepsLeft_onward found given
    have hwaits := hin (c, op) (World.waiting_eq found)
    cases op with
    | redis command =>
      cases command with
      | setEx key value seconds =>
        intro hkey hruns
        obtain ⟨there, hle⟩ := hwaits hkey hruns
        rw [hkey, hasked hkey]
        exact ⟨Option.isSome_iff_ne_none.2 there, hle⟩
      | _ => trivial
    | _ => trivial
  | call c => exact hin
  | crash i | outside ms => trivial

end Writes

/-- A session that is revoked is never found again, and no record of it outlives its registration,
as long as records of it are written back in time. -/
theorem sessions_revoked_for_good (s : AuthState) (as : List SessionStep) (jti : String)
    (record : AdminSessionRecord) (lifetime : Nat)
    (registered : s.keys (recordKey jti) = some ⟨.session record, some lifetime⟩)
    (inTime : ∀ p ∈ Machine.trail (noted jti) (.fresh s, fun _ => 0) as,
      StepInTime jti lifetime p.1 p.2) :
    RevokedForGood s as jti ∧
      ∀ before, before <+: as → Bounded jti lifetime (run sessions (.fresh s) before).shared :=
  revokedForGood_of_writesBack s as jti record lifetime registered (writesBack_of_inTime inTime)

/-! A device of the wallet `GA` is registered for a minute. -/

def Sample.record : AdminSessionRecord := ⟨"j", "GA", "device", "class", "agent", 0, 0, 0⟩

def Sample.registered : AuthState where
  now := 0
  keys := Keys.put (fun _ => none) (recordKey "j") (.session Sample.record) (some 60000)
  completed := []

def Sample.step (i : Nat) : SessionStep := .advance i ⟨.heard, "", "", .ok ()⟩

/-- The session is touched, and then revoked and looked up. -/
def Sample.touchRevoke : List SessionStep :=
  .call (.touch "j") :: List.replicate 4 (Sample.step 0) ++
    .call (.revoke "j") :: List.replicate 3 (Sample.step 1) ++ [.call (.get "j"), Sample.step 2]

/-- The session is revoked after `touch` has read the record, and before it writes it. -/
def Sample.revokeInTouch : List SessionStep :=
  .call (.touch "j") :: List.replicate 2 (Sample.step 0) ++
    .call (.revoke "j") :: List.replicate 3 (Sample.step 1) ++ List.replicate 2 (Sample.step 0)

theorem sessions_revoked_for_good_touched :
    RevokedForGood Sample.registered Sample.touchRevoke "j" ∧
      ∀ before, before <+: Sample.touchRevoke →
        Bounded "j" 60000 (run sessions (.fresh Sample.registered) before).shared :=
  sessions_revoked_for_good Sample.registered Sample.touchRevoke "j" Sample.record 60000
    (by decide +kernel) (by decide +kernel)

/-- The revocation has completed, and the session is found. -/
theorem not_sessions_revoked :
    ¬ RevokedForGood Sample.registered
      (Sample.revokeInTouch ++ [.call (.get "j"), Sample.step 2]) "j" := by
  intro h
  exact h Sample.revokeInTouch ⟨_, rfl⟩ 1 (.revoke "j") (.record (.ok (some Sample.record)))
    (by decide +kernel) (by decide +kernel) rfl 2 (.record (.ok (some Sample.record)))
    (by decide +kernel) (by decide +kernel) (by decide +kernel) Sample.record rfl

end Amana.Backend.AdminSessionService
