import Mathlib
import Amana.Lib.Machine

/-!
# Alerts

`AlertService.dispatch` posts an alert unless one of its type has been sent within the deduplication
window.  What counts as sent is noted when the receiver answers, and other alerts can be dispatched
until then.  An alert is only suppressed for the sake of one that was delivered, and where the alerts
of a type do not overlap, those delivered are a window apart (`cooldown_run`).
-/

namespace Amana.Backend.Alerts

open Lib Lib.Machine

inductive AlertType where
  | dbConnectionFailure
  | redisConnectionFailure
  | cacheUnavailable
  | reconciliationDriftWarning
  | reconciliationDriftCritical
  | reconciliationJobFailure
  | stellarFeeCongestion
  | adminSorobanTxFailure
  | jobMissedHeartbeat
  | jobRepeatedFailures
  | jobFailureRateHigh
  | outboxCriticalGaps
  | outboxScanFailed
  | syntheticProbeFailure
  | piiLogLeakDetected
  deriving DecidableEq

inductive AlertRouting where
  | page
  | ticket
  deriving DecidableEq

structure AlertRegistryEntry where
  routing : AlertRouting
  runbookUrl : String
  dedupeWindowMs : Option Nat

/-- `ALERT_REGISTRY`, without the descriptions. -/
def alertRegistry : AlertType → AlertRegistryEntry
  | .dbConnectionFailure => ⟨.page, "docs/runbooks/incident-response.md#severity-levels", none⟩
  | .redisConnectionFailure => ⟨.page, "docs/runbooks/redis-outage-active-settlement.md", none⟩
  | .cacheUnavailable => ⟨.ticket, "docs/runbooks/incident-response.md#severity-levels", none⟩
  | .reconciliationDriftWarning =>
    ⟨.ticket, "docs/runbooks/incident-response.md#severity-levels", none⟩
  | .reconciliationDriftCritical =>
    ⟨.page, "docs/runbooks/incident-response.md#severity-levels", none⟩
  | .reconciliationJobFailure => ⟨.page, "docs/runbooks/incident-response.md#severity-levels", none⟩
  | .adminSorobanTxFailure => ⟨.page, "docs/admin-tx-failure-alerting.md", none⟩
  | .stellarFeeCongestion =>
    ⟨.ticket, "docs/runbooks/incident-response.md#severity-levels", some (15 * 60000)⟩
  | .jobMissedHeartbeat => ⟨.ticket, "docs/runbooks/incident-response.md#severity-levels", none⟩
  | .jobRepeatedFailures => ⟨.page, "docs/runbooks/incident-response.md#severity-levels", none⟩
  | .jobFailureRateHigh => ⟨.page, "docs/runbooks/incident-response.md#severity-levels", none⟩
  | .outboxCriticalGaps => ⟨.page, "docs/runbooks/incident-response.md#severity-levels", none⟩
  | .outboxScanFailed => ⟨.ticket, "docs/runbooks/incident-response.md#severity-levels", none⟩
  | .syntheticProbeFailure =>
    ⟨.page, "docs/synthetic-probes-policy.md#failure-triage", some (15 * 60000)⟩
  | .piiLogLeakDetected =>
    ⟨.ticket, "docs/pii-log-scanning.md#responding-to-a-scanner-alert", some (24 * 60 * 60000)⟩

/-- What a caller of `dispatch` gives, and the two readings of the clock. -/
structure AlertCall where
  type : AlertType
  message : String
  details : List (String × String)
  now : Nat
  timestamp : Nat

structure AlertPayload where
  type : AlertType
  severity : String
  routing : AlertRouting
  runbookUrl : String
  timestamp : Nat
  message : String
  details : List (String × String)

/-- The settings of the service, with `JSON.stringify` and the HMAC of its platform. -/
structure AlertConfig where
  alertWebhookUrl : Option String
  alertWebhookSecret : Option String
  cooldownMs : Nat
  stringify : AlertPayload → String
  hmacSha256 : String → String → String

structure AlertPost where
  url : String
  signature : Option String
  payload : AlertPayload

/-- The types of alerts last sent, and the posts that are not answered yet with the clock that
they will note. -/
structure AlertState where
  lastSentAt : AlertType → Option Nat
  inFlight : List (AlertType × Nat)

/-- How `fetch` ends. -/
inductive AlertAnswer where
  | ok
  | notOk
  | threw
  deriving DecidableEq

inductive AlertStep where
  | dispatch (call : AlertCall)
  /-- The post at the position is answered. -/
  | answered (i : Nat) (answer : AlertAnswer)

inductive Dispatched where
  | unconfigured
  | suppressed
  | posted (post : AlertPost)

section

variable (config : AlertConfig)

def dedupeWindowMs (type : AlertType) : Nat :=
  (alertRegistry type).dedupeWindowMs.getD config.cooldownMs

/-- The part of `dispatch` before its `fetch`.  An empty address or secret counts as none. -/
def dispatch (s : AlertState) (call : AlertCall) : AlertState × Dispatched :=
  match config.alertWebhookUrl.filter fun url => url ≠ "" with
  | none => (s, .unconfigured)
  | some url =>
    if (s.lastSentAt call.type).any fun lastSent =>
        call.now < lastSent + dedupeWindowMs config call.type then
      (s, .suppressed)
    else
      let entry := alertRegistry call.type
      let payload : AlertPayload := ⟨call.type, "critical", entry.routing, entry.runbookUrl,
        call.timestamp, call.message, call.details⟩
      let signature := (config.alertWebhookSecret.filter fun secret => secret ≠ "").map
        fun secret => config.hmacSha256 secret (config.stringify payload)
      ({ s with inFlight := s.inFlight ++ [(call.type, call.now)] },
        .posted ⟨url, signature, payload⟩)

/-- The part of `dispatch` after its `fetch`. -/
def answered (s : AlertState) (i : Nat) (answer : AlertAnswer) : AlertState :=
  match s.inFlight[i]? with
  | none => s
  | some (type, now) =>
    if answer = .ok then ⟨Function.update s.lastSentAt type (some now), s.inFlight.eraseIdx i⟩
    else { s with inFlight := s.inFlight.eraseIdx i }

def alertStep (s : AlertState) : AlertStep → AlertState
  | .dispatch call => (dispatch config s call).1
  | .answered i answer => answered s i answer

/-- The service of a process that has just started. -/
def AlertState.fresh : AlertState := ⟨fun _ => none, []⟩

def alertsAfter (as : List AlertStep) : AlertState := run (alertStep config) .fresh as

/-- What becomes of a call after some steps. -/
def dispatchedAfter (as : List AlertStep) (call : AlertCall) : Dispatched :=
  (dispatch config (alertsAfter config as) call).2

/-- The alert that a step confirms as delivered. -/
def delivers (s : AlertState) : AlertStep → List (AlertType × Nat)
  | .answered i .ok => s.inFlight[i]?.toList
  | _ => []

/-- The alerts delivered, with the clock of their dispatch. -/
def delivered (as : List AlertStep) : List (AlertType × Nat) :=
  (trail (alertStep config) .fresh as).flatMap fun p => delivers p.1 p.2

/-- When an alert is dispatched. -/
def AlertStep.time? : AlertStep → Option Nat
  | .dispatch call => some call.now
  | .answered _ _ => none

/-- No alert of the type is dispatched while one is in flight. -/
def OneByOne (type : AlertType) (as : List AlertStep) : Prop :=
  ∀ bs call cs, as = bs ++ .dispatch call :: cs → call.type = type →
    ∀ q ∈ (alertsAfter config bs).inFlight, q.1 ≠ type

/-- Deduplication over the steps of a process. -/
structure Deduplicates (as : List AlertStep) : Prop where
  /-- An alert is only suppressed for one that was dispatched within the window and delivered. -/
  quieted : ∀ bs call cs, as = bs ++ .dispatch call :: cs →
    dispatchedAfter config bs call = .suppressed →
      ∃ t, (call.type, t) ∈ delivered config bs ∧ call.now < t + dedupeWindowMs config call.type
  /-- Where they do not overlap, an alert is only posted when all those of its type that were
  delivered are a window away. -/
  apart : ∀ bs call cs post, as = bs ++ .dispatch call :: cs → OneByOne config call.type bs →
    dispatchedAfter config bs call = .posted post →
      ∀ t, (call.type, t) ∈ delivered config bs → t + dedupeWindowMs config call.type ≤ call.now

end

variable {config : AlertConfig} {s : AlertState} {call : AlertCall} {as bs : List AlertStep}
  {a : AlertStep} {type : AlertType} {t : Nat}

theorem delivered_snoc : delivered config (as ++ [a]) =
    delivered config as ++ delivers (alertsAfter config as) a := by
  simp [delivered, alertsAfter]

theorem alertsAfter_snoc :
    alertsAfter config (as ++ [a]) = alertStep config (alertsAfter config as) a := run_snoc ..

/-- What `dispatch` can do. -/
theorem dispatch_cases (config : AlertConfig) (s : AlertState) (call : AlertCall) :
    dispatch config s call = (s, .unconfigured) ∨
      (dispatch config s call = (s, .suppressed) ∧ ∃ last ∈ s.lastSentAt call.type,
        call.now < last + dedupeWindowMs config call.type) ∨
      ∃ post, dispatch config s call =
          ({ s with inFlight := s.inFlight ++ [(call.type, call.now)] }, .posted post) ∧
        ∀ last ∈ s.lastSentAt call.type, last + dedupeWindowMs config call.type ≤ call.now := by
  unfold dispatch
  split
  · exact .inl rfl
  · right
    split
    · next h =>
      refine .inl ⟨rfl, ?_⟩
      cases hlast : s.lastSentAt call.type with
      | none => simp [hlast] at h
      | some last => exact ⟨last, rfl, by simpa [hlast] using h⟩
    · next h =>
      refine .inr ⟨_, rfl, fun last hlast => ?_⟩
      simpa [Option.mem_def.1 hlast] using h

/-- What an answer can do. -/
theorem answered_cases (s : AlertState) (i : Nat) (answer : AlertAnswer) :
    (∃ l, l.Sublist s.inFlight ∧ answered s i answer = { s with inFlight := l } ∧
        delivers s (.answered i answer) = []) ∨
      ∃ sent l, (sent :: l).Perm s.inFlight ∧
        answered s i answer = ⟨Function.update s.lastSentAt sent.1 (some sent.2), l⟩ ∧
        delivers s (.answered i answer) = [sent] := by
  unfold answered
  cases hsent : s.inFlight[i]? with
  | none =>
    refine .inl ⟨_, List.Sublist.refl _, rfl, ?_⟩
    cases answer <;> simp [delivers, hsent]
  | some sent =>
    obtain ⟨hlt, rfl⟩ := List.getElem?_eq_some_iff.1 hsent
    cases answer with
    | ok =>
      exact .inr ⟨_, _, List.getElem_cons_eraseIdx_perm hlt, rfl, by simp [delivers, hsent]⟩
    | notOk => exact .inl ⟨_, List.eraseIdx_sublist .., rfl, rfl⟩
    | threw => exact .inl ⟨_, List.eraseIdx_sublist .., rfl, rfl⟩

/-- What is known of the alerts of a type: what is noted as sent was delivered, and everything that
was delivered or is in flight was dispatched. -/
structure Noted (type : AlertType) (s : AlertState) (sent : List (AlertType × Nat))
    (times : List Nat) : Prop where
  noted : ∀ last ∈ s.lastSentAt type, (type, last) ∈ sent
  sent : ∀ q ∈ sent, q.2 ∈ times
  inFlight : ∀ q ∈ s.inFlight, q.2 ∈ times

theorem noted_run (type : AlertType) (as : List AlertStep) :
    Noted type (alertsAfter config as) (delivered config as) (as.filterMap AlertStep.time?) := by
  induction as using List.reverseRecOn with
  | nil => exact ⟨by simp [alertsAfter, AlertState.fresh], by simp [delivered],
      by simp [alertsAfter, AlertState.fresh]⟩
  | append_singleton as a ih =>
    rw [alertsAfter_snoc, delivered_snoc, List.filterMap_append]
    have hsent : ∀ q ∈ delivered config as, q.2 ∈
        as.filterMap AlertStep.time? ++ [a].filterMap AlertStep.time? := fun q hq =>
      List.mem_append_left _ (ih.sent q hq)
    have hflight : ∀ q ∈ (alertsAfter config as).inFlight, q.2 ∈
        as.filterMap AlertStep.time? ++ [a].filterMap AlertStep.time? := fun q hq =>
      List.mem_append_left _ (ih.inFlight q hq)
    cases a with
    | dispatch call =>
      rw [show delivers (alertsAfter config as) (.dispatch call) = [] from rfl, List.append_nil]
      rw [alertStep]
      obtain h | ⟨h, -⟩ | ⟨post, h, -⟩ := dispatch_cases config (alertsAfter config as) call
      · rw [h]
        exact ⟨ih.noted, hsent, hflight⟩
      · rw [h]
        exact ⟨ih.noted, hsent, hflight⟩
      · rw [h]
        refine ⟨ih.noted, hsent, fun q hq => ?_⟩
        obtain hq | hq := List.mem_append.1 hq
        · exact hflight q hq
        · obtain rfl := List.mem_singleton.1 hq
          exact List.mem_append_right _ (by simp [AlertStep.time?])
    | answered i answer =>
      rw [alertStep]
      obtain ⟨l, hl, h, hnone⟩ | ⟨q, l, hl, h, hone⟩ :=
        answered_cases (alertsAfter config as) i answer
      · rw [h, hnone, List.append_nil]
        exact ⟨ih.noted, hsent, fun q hq => hflight q (hl.subset hq)⟩
      · rw [h, hone]
        refine ⟨fun last hlast => ?_, fun r hr => ?_, fun r hr =>
          hflight r (hl.subset (List.mem_cons_of_mem _ hr))⟩
        · dsimp only at hlast
          obtain rfl | hne := eq_or_ne type q.1
          · rw [Function.update_self] at hlast
            obtain rfl := Option.some.inj hlast
            exact List.mem_append_right _ (List.mem_singleton_self _)
          · rw [Function.update_of_ne hne] at hlast
            exact List.mem_append_left _ (ih.noted last hlast)
        · obtain hr | hr := List.mem_append.1 hr
          · exact hsent r hr
          · obtain rfl := List.mem_singleton.1 hr
            exact hflight r (hl.subset (List.mem_cons_self ..))

/-- The alerts of a type one by one: one at most is in flight, the noted one is the last that was
delivered, and what is in flight was dispatched after it. -/
structure Spaced (type : AlertType) (s : AlertState) (sent : List (AlertType × Nat)) : Prop where
  latest : ∀ t, (type, t) ∈ sent → ∃ last ∈ s.lastSentAt type, t ≤ last
  ahead : ∀ now, (type, now) ∈ s.inFlight → ∀ t, (type, t) ∈ sent → t ≤ now
  single : s.inFlight.countP (fun q => q.1 = type) ≤ 1

theorem spaced_run (as : List AlertStep)
    (ordered : (as.filterMap AlertStep.time?).Pairwise (· ≤ ·)) (single : OneByOne config type as) :
    Spaced type (alertsAfter config as) (delivered config as) := by
  induction as using List.reverseRecOn with
  | nil => exact ⟨by simp [delivered], by simp [delivered], by simp [alertsAfter, AlertState.fresh]⟩
  | append_singleton as a ih =>
    rw [List.filterMap_append] at ordered
    obtain ⟨hordered, -, hle⟩ := List.pairwise_append.1 ordered
    have hspaced := ih hordered fun bs call cs heq => single bs call (cs ++ [a]) (by simp [heq])
    have hnoted : Noted type (alertsAfter config as) (delivered config as)
        (as.filterMap AlertStep.time?) := noted_run type as
    rw [alertsAfter_snoc, delivered_snoc]
    cases a with
    | dispatch call =>
      rw [show delivers (alertsAfter config as) (.dispatch call) = [] from rfl, List.append_nil]
      rw [alertStep]
      obtain h | ⟨h, -⟩ | ⟨post, h, -⟩ := dispatch_cases config (alertsAfter config as) call
      · rwa [h]
      · rwa [h]
      · rw [h]
        refine ⟨hspaced.latest, fun now hnow t ht => ?_, ?_⟩
        · obtain hnow | hnow := List.mem_append.1 hnow
          · exact hspaced.ahead now hnow t ht
          · obtain ⟨-, rfl⟩ := Prod.mk.inj (List.mem_singleton.1 hnow)
            exact hle t (hnoted.sent _ ht) _ (by simp [AlertStep.time?])
        · rw [List.countP_append]
          by_cases htype : call.type = type
          · have hnone : (alertsAfter config as).inFlight.countP (fun q => q.1 = type) = 0 := by
              rw [List.countP_eq_zero]
              simpa using single as call [] rfl htype
            simp [hnone, htype]
          · simpa [htype] using hspaced.single
    | answered i answer =>
      rw [alertStep]
      obtain ⟨l, hl, h, hnone⟩ | ⟨q, l, hl, h, hone⟩ :=
        answered_cases (alertsAfter config as) i answer
      · rw [h, hnone, List.append_nil]
        exact ⟨hspaced.latest, fun now hnow => hspaced.ahead now (hl.subset hnow),
          hl.countP_le.trans hspaced.single⟩
      · have hcount := hl.countP_eq (fun q => q.1 = type)
        have hsingle := hspaced.single
        rw [h, hone]
        obtain ⟨ty, now⟩ := q
        obtain rfl | hne := eq_or_ne type ty
        · -- Nothing else of the type is in flight.
          have hnone : l.countP (fun q => q.1 = type) = 0 := by
            simp only [List.countP_cons, decide_true, if_true] at hcount
            omega
          refine ⟨fun t ht => ⟨now, by simp, ?_⟩, fun now' hnow' => ?_, by
            dsimp only; omega⟩
          · obtain ht | ht := List.mem_append.1 ht
            · exact hspaced.ahead now (hl.subset (List.mem_cons_self ..)) t ht
            · obtain ⟨-, rfl⟩ := Prod.mk.inj (List.mem_singleton.1 ht)
              exact le_rfl
          · have hother := List.countP_eq_zero.1 hnone _ hnow'
            simp at hother
        · have hmem : ∀ t, (type, t) ∈ delivered config as ++ [(ty, now)] →
              (type, t) ∈ delivered config as := by
            intro t ht
            obtain ht | ht := List.mem_append.1 ht
            · exact ht
            · exact absurd (Prod.mk.inj (List.mem_singleton.1 ht)).1 hne
          refine ⟨fun t ht => ?_, fun now' hnow' t ht => hspaced.ahead now'
            (hl.subset (List.mem_cons_of_mem _ hnow')) t (hmem t ht), ?_⟩
          · dsimp only
            rw [Function.update_of_ne hne]
            exact hspaced.latest t (hmem t ht)
          · simp only [List.countP_cons, decide_eq_true_eq, hne.symm, if_false] at hcount
            dsimp only
            omega

/-- While the clock does not go back, alerts are deduplicated. -/
theorem cooldown_run (config : AlertConfig) (as : List AlertStep)
    (ordered : (as.filterMap AlertStep.time?).Pairwise (· ≤ ·)) : Deduplicates config as := by
  constructor
  · rintro bs call cs rfl hsuppressed
    obtain h | ⟨-, last, hlast, hless⟩ | ⟨post, h, -⟩ :=
      dispatch_cases config (alertsAfter config bs) call
    · simp [dispatchedAfter, h] at hsuppressed
    · exact ⟨last, (noted_run call.type bs).noted last hlast, hless⟩
    · simp [dispatchedAfter, h] at hsuppressed
  · rintro bs call cs post rfl hsingle hposted t ht
    rw [List.filterMap_append] at ordered
    have hspaced := spaced_run bs (List.pairwise_append.1 ordered).1 hsingle
    obtain ⟨last, hlast, hle⟩ := hspaced.latest t ht
    obtain h | ⟨h, -⟩ | ⟨post, -, hover⟩ := dispatch_cases config (alertsAfter config bs) call
    · simp [dispatchedAfter, h] at hposted
    · simp [dispatchedAfter, h] at hposted
    · have hpast := hover last hlast
      omega

/-! ## An alert sent twice -/

def sampleConfig : AlertConfig :=
  ⟨some "https://alerts", none, 300000, fun payload => payload.message, fun _ body => body⟩

def sampleCall (now : Nat) : AlertCall := ⟨.outboxScanFailed, "scan failed", [], now, now⟩

/-- The first alert is delivered, and the second one is dispatched within the window. -/
def twice : List AlertStep :=
  [.dispatch (sampleCall 5), .answered 0 .ok, .dispatch (sampleCall 8)]

theorem cooldown_run_twice :
    (twice.filterMap AlertStep.time?).Pairwise (· ≤ ·) ∧ Deduplicates sampleConfig twice :=
  ⟨by decide, cooldown_run sampleConfig twice (by decide)⟩

end Amana.Backend.Alerts
