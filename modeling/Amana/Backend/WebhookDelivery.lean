import Mathlib
import Amana.Backend.Schema
import Amana.Lib.Retry

/-!
# Delivery of webhooks

`WebhookService.dispatch` posts one body to every subscription of an event and to the configured
receiver, each with retries of its own.  A receiver is tried again while it is out of order and
never after it has answered, for or against (`sendWebhookWithRetry_sound`).  One attempt is always
made, and the error log is only written when the last one did not even get an answer.
-/

namespace Amana.Backend

open Lib

/-- `status.toLowerCase()`. -/
def TradeStatus.lowerCase : TradeStatus → String
  | pendingSignature => "pending_signature"
  | created => "created"
  | funded => "funded"
  | delivered => "delivered"
  | completed => "completed"
  | disputed => "disputed"
  | cancelled => "cancelled"
  | expired => "expired"

/-- A row of `webhookSubscription`. -/
structure WebhookSubscription where
  id : Nat
  url : String
  secretHash : String
  isActive : Bool
  events : List String
  deriving DecidableEq

structure DeliveryTarget where
  url : String
  secret : Option String
  subscriptionId : Option Nat
  deriving DecidableEq

/-- The settings of the service; the schema of the environment makes the attempts positive. -/
structure WebhookSettings where
  webhookUrl : Option String
  webhookSecret : Option String
  maxAttempts : Nat
  retryBaseMs : Nat
  retryMaxMs : Nat
  positive : 0 < maxAttempts

/-- How `fetch` ends. -/
inductive Reply where
  | threw
  | answered (status : Nat)
  deriving DecidableEq

namespace Reply

/-- `response.ok`. -/
def ok : Reply → Bool
  | threw => false
  | answered status => 200 ≤ status && status < 300

/-- Whether the receiver is out of order: it does not answer, or asks to come back. -/
def transient : Reply → Bool
  | threw => true
  | answered status => status ≥ 500 || status == 429

end Reply

/-- One request. -/
structure WebhookPost where
  url : String
  signature : Option String
  body : String
  deriving DecidableEq

/-- How the attempts of one target end. -/
inductive DeliveryEnd where
  | delivered
  /-- The last answer is not one of success, and nothing more is logged. -/
  | answered (status : Nat)
  /-- "Webhook delivery failed after retries" is logged as an error. -/
  | failed
  deriving DecidableEq

structure WebhookDelivery where
  posts : List WebhookPost
  waits : List Nat
  ending : DeliveryEnd
  deriving DecidableEq

/-- The variables of the loop of `sendWebhookWithRetry`. -/
structure WebhookAttempts where
  attempt : Nat
  posts : List WebhookPost
  waits : List Nat

section

variable (config : WebhookSettings) (hmacSha256 : String → String → String)

def eventOf (status : TradeStatus) : String := "trade." ++ status.lowerCase

def WebhookSettings.deliveryTargets (subscriptions : List WebhookSubscription) (event : String) :
    List DeliveryTarget :=
  (subscriptions.filter fun sub => sub.isActive && sub.events.contains event).map
      (fun sub => ⟨sub.url, some sub.secretHash, some sub.id⟩) ++
    -- An empty address counts as none.
    ((config.webhookUrl.filter fun url => url ≠ "").map
      fun url => ⟨url, config.webhookSecret, none⟩).toList

/-- The request to a target; an empty secret signs nothing. -/
def DeliveryTarget.post (target : DeliveryTarget) (body : String) : WebhookPost :=
  ⟨target.url, (target.secret.filter fun secret => secret ≠ "").map fun secret =>
    hmacSha256 secret body, body⟩

/-- The wait after attempt `attempt`, counted from 1. -/
def WebhookSettings.delay (attempt : Nat) : Nat :=
  min (config.retryBaseMs * 2 ^ (attempt - 1)) config.retryMaxMs

/-- One round of the loop. -/
def deliveryRound (target : DeliveryTarget) (body : String) (replies : Nat → Reply)
    (s : WebhookAttempts) : WebhookDelivery ⊕ WebhookAttempts :=
  if s.attempt > config.maxAttempts then .inl ⟨s.posts, s.waits, .failed⟩
  else
    let posts := s.posts ++ [target.post hmacSha256 body]
    let again : WebhookAttempts :=
      ⟨s.attempt + 1, posts,
        if s.attempt < config.maxAttempts then s.waits ++ [config.delay s.attempt] else s.waits⟩
    match replies s.attempt with
    | .threw => .inr again
    | .answered status =>
      if (Reply.answered status).ok then .inl ⟨posts, s.waits, .delivered⟩
      else
        let shouldRetry := status ≥ 500 || status == 429
        if !shouldRetry || s.attempt == config.maxAttempts then
          .inl ⟨posts, s.waits, .answered status⟩
        else .inr again

/-- `sendWebhookWithRetry`. -/
def sendWebhookWithRetry (target : DeliveryTarget) (body : String) (replies : Nat → Reply) :
    Option WebhookDelivery :=
  Retry.loop (deliveryRound config hmacSha256 target body replies) (config.maxAttempts + 1)
    ⟨1, [], []⟩

/-- `dispatch`: all targets side by side, and none waits for another or for its outcome. -/
def webhookDispatch (subscriptions : List WebhookSubscription) (status : TradeStatus)
    (body : String) (replies : DeliveryTarget → Nat → Reply) :
    List (DeliveryTarget × Option WebhookDelivery) :=
  (config.deliveryTargets subscriptions (eventOf status)).map fun target =>
    (target, sendWebhookWithRetry config hmacSha256 target body (replies target))

/-! ## What a delivery amounts to -/

/-- The attempts of a delivery, against the replies to attempts 1, 2 and so on. -/
structure WebhookDelivery.Sound (target : DeliveryTarget) (body : String) (replies : Nat → Reply)
    (d : WebhookDelivery) : Prop where
  attempts : 1 ≤ d.posts.length ∧ d.posts.length ≤ config.maxAttempts
  /-- The same request is made each time. -/
  same : ∀ p ∈ d.posts, p = target.post hmacSha256 body
  /-- Another attempt is only made on a receiver that is out of order. -/
  transient : ∀ i, 1 ≤ i → i < d.posts.length → (replies i).transient = true
  /-- A receiver that stays out of order gets all attempts. -/
  exhausted : (replies d.posts.length).transient = true → d.posts.length = config.maxAttempts
  delivered : d.ending = .delivered ↔ (replies d.posts.length).ok = true
  answered : ∀ status, d.ending = .answered status ↔
    replies d.posts.length = .answered status ∧ (Reply.answered status).ok = false
  failed : d.ending = .failed ↔ replies d.posts.length = .threw
  waits : d.waits = (List.range (d.posts.length - 1)).map fun i => config.delay (i + 1)

/-- The loop before attempt `s.attempt`. -/
structure WebhookAttempts.Sound (target : DeliveryTarget) (body : String) (replies : Nat → Reply)
    (s : WebhookAttempts) : Prop where
  attempt : s.attempt = s.posts.length + 1 ∧ s.attempt ≤ config.maxAttempts + 1
  same : ∀ p ∈ s.posts, p = target.post hmacSha256 body
  transient : ∀ i, 1 ≤ i → i < s.attempt → (replies i).transient = true
  /-- The loop only runs out of attempts when the last one threw. -/
  spent : s.attempt = config.maxAttempts + 1 → replies config.maxAttempts = .threw
  waits : s.waits = (List.range (min (s.attempt - 1) (config.maxAttempts - 1))).map fun i =>
    config.delay (i + 1)

end

variable {config : WebhookSettings} {hmacSha256 : String → String → String}
  {target : DeliveryTarget} {body : String} {replies : Nat → Reply} {s s' : WebhookAttempts}

theorem Reply.ok_of_transient {r : Reply} (h : r.transient = true) : r.ok = false := by
  cases r with
  | threw => rfl
  | answered status =>
    simp only [transient, ok, Bool.or_eq_true, decide_eq_true_eq, beq_iff_eq] at h ⊢
    simp only [Bool.and_eq_false_iff, decide_eq_false_iff_not]
    omega

/-- What a round that asks for another has met. -/
theorem deliveryRound_eq_inr_iff :
    deliveryRound config hmacSha256 target body replies s = .inr s' ↔
      s.attempt ≤ config.maxAttempts ∧ (replies s.attempt).transient = true ∧
        (s.attempt = config.maxAttempts → replies s.attempt = .threw) ∧
        s' = ⟨s.attempt + 1, s.posts ++ [target.post hmacSha256 body],
          if s.attempt < config.maxAttempts then s.waits ++ [config.delay s.attempt]
          else s.waits⟩ := by
  simp only [deliveryRound]
  split
  · simp; omega
  · next hmax =>
    cases hreply : replies s.attempt with
    | threw =>
      simp [Reply.transient, eq_comm]
      omega
    | answered status =>
      cases hok : (Reply.answered status).ok with
      | true =>
        have htransient : (Reply.answered status).transient = false := by
          by_contra h
          rw [Reply.ok_of_transient (by simpa using h)] at hok
          cases hok
        simp [htransient, hok]
      | false =>
        by_cases hmore : (Reply.answered status).transient = true ∧ s.attempt < config.maxAttempts
        · have hretry : (status ≥ 500 || status == 429) = true := hmore.1
          have hne : s.attempt ≠ config.maxAttempts := by omega
          simp only [hok, Bool.false_eq_true, if_false, hretry, Bool.not_true, Bool.false_or,
            beq_iff_eq, hne, Sum.inr.injEq, hmore.1]
          constructor
          · rintro rfl
            exact ⟨by omega, trivial, False.elim, rfl⟩
          · rintro ⟨-, -, -, rfl⟩
            rfl
        · have hends : (!(status ≥ 500 || status == 429) || s.attempt == config.maxAttempts) =
              true := by
            cases htransient : (Reply.answered status).transient with
            | false => rw [show (status ≥ 500 || status == 429) = false from htransient]; rfl
            | true =>
              have hlast : s.attempt = config.maxAttempts := by
                by_contra hne
                exact hmore ⟨htransient, by omega⟩
              simp [hlast]
          simp only [hok, Bool.false_eq_true, if_false, hends, if_true, reduceCtorEq, false_iff]
          rintro ⟨hle, htransient, hlast, -⟩
          have heq : s.attempt = config.maxAttempts := by
            by_contra hne
            exact hmore ⟨htransient, by omega⟩
          cases hlast heq

theorem WebhookAttempts.Sound.next
    (h : s.Sound config hmacSha256 target body replies)
    (hround : deliveryRound config hmacSha256 target body replies s = .inr s') :
    s'.Sound config hmacSha256 target body replies := by
  obtain ⟨hle, htransient, hlast, rfl⟩ := deliveryRound_eq_inr_iff.1 hround
  obtain ⟨hattempt, -⟩ := h.attempt
  refine ⟨⟨by simp [hattempt], by dsimp only; omega⟩, fun p hp => ?_, fun i hi hless => ?_,
    fun hover => ?_, ?_⟩
  · obtain hp | hp := List.mem_append.1 hp
    · exact h.same p hp
    · exact List.mem_singleton.1 hp
  · dsimp only at hless
    obtain hless | rfl := Nat.lt_succ_iff_lt_or_eq.1 hless
    · exact h.transient i hi hless
    · exact htransient
  · have heq : s.attempt = config.maxAttempts := by dsimp only at hover; omega
    exact heq ▸ hlast heq
  · have hpos := config.positive
    have hone : 1 ≤ s.attempt := by omega
    dsimp only
    rw [h.waits]
    split
    · have hbefore : min (s.attempt - 1) (config.maxAttempts - 1) = s.attempt - 1 := by omega
      have hafter : min (s.attempt + 1 - 1) (config.maxAttempts - 1) = s.attempt - 1 + 1 := by omega
      rw [hbefore, hafter, List.range_succ, List.map_append, List.map_singleton,
        Nat.sub_add_cancel hone]
    · have hsame : min (s.attempt - 1) (config.maxAttempts - 1) =
          min (s.attempt + 1 - 1) (config.maxAttempts - 1) := by omega
      rw [hsame]

theorem WebhookAttempts.Sound.ended {d : WebhookDelivery}
    (h : s.Sound config hmacSha256 target body replies)
    (hround : deliveryRound config hmacSha256 target body replies s = .inl d) :
    d.Sound config hmacSha256 target body replies := by
  obtain ⟨hattempt, hbound⟩ := h.attempt
  have hpos := config.positive
  simp only [deliveryRound] at hround
  split at hround
  · next hover =>
    cases hround
    have heq : s.attempt = config.maxAttempts + 1 := by omega
    have hlength : s.posts.length = config.maxAttempts := by omega
    have hthrew := h.spent heq
    refine ⟨by dsimp only; omega, h.same, fun i hi hless => h.transient i hi (by
      dsimp only at hless; omega), fun _ => hlength, ?_, ?_, ?_, ?_⟩
    · simp [hlength, hthrew, Reply.ok]
    · simp [hlength, hthrew]
    · simp [hlength, hthrew]
    · have hcount : min (s.attempt - 1) (config.maxAttempts - 1) = config.maxAttempts - 1 := by
        omega
      rw [h.waits, hlength, hcount]
  · next hmax =>
    have hone : (s.posts ++ [target.post hmacSha256 body]).length = s.attempt := by
      simp [hattempt]
    have hsame : ∀ p ∈ s.posts ++ [target.post hmacSha256 body],
        p = target.post hmacSha256 body := fun p hp =>
      (List.mem_append.1 hp).elim (h.same p) List.mem_singleton.1
    have hwaits : s.waits = (List.range (s.attempt - 1)).map fun i => config.delay (i + 1) := by
      rw [h.waits]
      congr 2
      omega
    split at hround
    · cases hround
    · next status hreply =>
      split at hround
      · next hok =>
        cases hround
        refine ⟨by dsimp only; omega, hsame, fun i hi hless => h.transient i hi (by
          dsimp only at hless; omega), fun ht => ?_, ?_, ?_, ?_, ?_⟩
        · dsimp only at ht
          rw [hone, hreply] at ht
          rw [Reply.ok_of_transient ht] at hok
          cases hok
        · simp [hone, hreply, hok]
        · simp only [hone, hreply, Reply.answered.injEq, reduceCtorEq, false_iff]
          rintro status' ⟨rfl, hno⟩
          rw [hno] at hok
          cases hok
        · simp [hone, hreply]
        · simp [hone, hwaits]
      · next hok =>
        split at hround
        · next hends =>
          cases hround
          refine ⟨by dsimp only; omega, hsame, fun i hi hless => h.transient i hi (by
            dsimp only at hless; omega), fun ht => ?_, ?_, ?_, ?_, ?_⟩
          · dsimp only at ht ⊢
            rw [hone, hreply] at ht
            rw [show (status ≥ 500 || status == 429) = true from ht] at hends
            simpa [hone] using hends
          · simp [hone, hreply, hok]
          · simp only [hone, hreply, Reply.answered.injEq, DeliveryEnd.answered.injEq]
            rintro status'
            constructor
            · rintro rfl
              exact ⟨rfl, by simpa using hok⟩
            · exact And.left
          · simp [hone, hreply]
          · simp [hone, hwaits]
        · cases hround

/-- Every delivery ends, and soundly. -/
theorem sendWebhookWithRetry_sound (config : WebhookSettings)
    (hmacSha256 : String → String → String) (target : DeliveryTarget) (body : String)
    (replies : Nat → Reply) :
    ∃ d, sendWebhookWithRetry config hmacSha256 target body replies = some d ∧
      d.Sound config hmacSha256 target body replies := by
  have hstart : WebhookAttempts.Sound config hmacSha256 target body replies ⟨1, [], []⟩ := by
    have hpos := config.positive
    refine ⟨⟨rfl, by dsimp only; omega⟩, by simp, fun i hi hless => by dsimp only at hless; omega,
      fun h => by dsimp only at h; omega, by simp⟩
  have hdecreases (s s' : WebhookAttempts)
      (hround : deliveryRound config hmacSha256 target body replies s = .inr s') :
      config.maxAttempts + 1 - s'.attempt < config.maxAttempts + 1 - s.attempt := by
    obtain ⟨hle, -, -, rfl⟩ := deliveryRound_eq_inr_iff.1 hround
    dsimp only
    omega
  obtain ⟨d, hd⟩ := Option.isSome_iff_exists.1 <| Retry.loop_isSome
    (fun s : WebhookAttempts => config.maxAttempts + 1 - s.attempt) hdecreases
    (config.maxAttempts + 1) ⟨1, [], []⟩ (by dsimp only; omega)
  obtain ⟨n, s, -, hagain, hended⟩ := Retry.loop_eq_some_iff.1 hd
  exact ⟨d, hd, (hagain.invariant hstart fun _ _ h hround => h.next hround).ended hended⟩

/-- The deliveries of one dispatch. -/
structure Dispatched (config : WebhookSettings) (hmacSha256 : String → String → String)
    (subscriptions : List WebhookSubscription) (status : TradeStatus) (body : String)
    (replies : DeliveryTarget → Nat → Reply) : Prop where
  /-- Every active subscription to the event gets a delivery, whatever becomes of the others. -/
  subscribed : ∀ sub ∈ subscriptions, sub.isActive = true → eventOf status ∈ sub.events →
    ∃ d, ((⟨sub.url, some sub.secretHash, some sub.id⟩ : DeliveryTarget), some d) ∈
      webhookDispatch config hmacSha256 subscriptions status body replies
  /-- So does the configured receiver. -/
  configured : ∀ url, config.webhookUrl = some url → url ≠ "" →
    ∃ d, ((⟨url, config.webhookSecret, none⟩ : DeliveryTarget), some d) ∈
      webhookDispatch config hmacSha256 subscriptions status body replies
  /-- Nobody else does, and each delivery is sound. -/
  sound : ∀ p ∈ webhookDispatch config hmacSha256 subscriptions status body replies,
    ((∃ sub ∈ subscriptions, sub.isActive = true ∧ eventOf status ∈ sub.events ∧
        p.1 = ⟨sub.url, some sub.secretHash, some sub.id⟩) ∨
      ∃ url, config.webhookUrl = some url ∧ url ≠ "" ∧
        p.1 = ⟨url, config.webhookSecret, none⟩) ∧
    ∃ d, p.2 = some d ∧ d.Sound config hmacSha256 p.1 body (replies p.1)

theorem mem_deliveryTargets {subscriptions : List WebhookSubscription} {event : String} :
    target ∈ config.deliveryTargets subscriptions event ↔
      (∃ sub ∈ subscriptions, sub.isActive = true ∧ event ∈ sub.events ∧
        target = ⟨sub.url, some sub.secretHash, some sub.id⟩) ∨
      ∃ url, config.webhookUrl = some url ∧ url ≠ "" ∧
        target = ⟨url, config.webhookSecret, none⟩ := by
  simp only [WebhookSettings.deliveryTargets, List.mem_append, List.mem_map, List.mem_filter,
    Bool.and_eq_true, List.contains_iff_mem, Option.mem_toList, Option.map_eq_some_iff,
    Option.filter_eq_some_iff, decide_eq_true_eq]
  constructor
  · rintro (⟨sub, ⟨hmem, hactive, hevent⟩, rfl⟩ | ⟨url, ⟨hurl, hne⟩, rfl⟩)
    · exact .inl ⟨sub, hmem, hactive, hevent, rfl⟩
    · exact .inr ⟨url, hurl, hne, rfl⟩
  · rintro (⟨sub, hmem, hactive, hevent, rfl⟩ | ⟨url, hurl, hne, rfl⟩)
    · exact .inl ⟨sub, ⟨hmem, hactive, hevent⟩, rfl⟩
    · exact .inr ⟨url, ⟨hurl, hne⟩, rfl⟩

/-- A dispatch reaches everybody it should and nobody else, each with a sound delivery. -/
theorem dispatch_sound (config : WebhookSettings) (hmacSha256 : String → String → String)
    (subscriptions : List WebhookSubscription) (status : TradeStatus) (body : String)
    (replies : DeliveryTarget → Nat → Reply) :
    Dispatched config hmacSha256 subscriptions status body replies := by
  have hentry : ∀ target ∈ config.deliveryTargets subscriptions (eventOf status),
      ∃ d, (target, some d) ∈
        webhookDispatch config hmacSha256 subscriptions status body replies := by
    intro target htarget
    obtain ⟨d, hd, -⟩ := sendWebhookWithRetry_sound config hmacSha256 target body (replies target)
    exact ⟨d, List.mem_map.2 ⟨target, htarget, by rw [hd]⟩⟩
  refine ⟨fun sub hsub hactive hevent => ?_, fun url hurl hne => ?_, fun p hp => ?_⟩
  · exact hentry _ (mem_deliveryTargets.2 (.inl ⟨sub, hsub, hactive, hevent, rfl⟩))
  · exact hentry _ (mem_deliveryTargets.2 (.inr ⟨url, hurl, hne, rfl⟩))
  · obtain ⟨target, htarget, rfl⟩ := List.mem_map.1 hp
    exact ⟨mem_deliveryTargets.1 htarget, sendWebhookWithRetry_sound config hmacSha256 target body _⟩

end Amana.Backend
