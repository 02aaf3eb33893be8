import Amana.Backend.Money
import Amana.Lib.Bytes

/-!
# Webhook signatures

What a webhook's digest covers is its timestamp header, a point and its raw body.  A body of JSON
opens with a bracket and no accepted timestamp has one, so the two are told apart in the signed
bytes (`message_inj`), and a captured request is not accepted under another date
(`signature_not_redated`).
-/

namespace Amana.Backend

open Lib

/-! ## The middleware -/

inductive WebhookVerificationFailure where
  | unknownProvider
  | missingSecret
  | missingSignature
  | missingTimestamp
  | malformedTimestamp
  | staleTimestamp
  | missingRawBody
  | invalidSignature
  deriving DecidableEq, Repr

/-- `FAILURE_MESSAGES`. -/
def failureMessages : WebhookVerificationFailure → String
  | .unknownProvider => "Unknown webhook provider"
  | .missingSecret => "Webhook provider is not configured for signature verification"
  | .missingSignature => "Missing x-webhook-signature header"
  | .missingTimestamp => "Missing x-webhook-timestamp header"
  | .malformedTimestamp => "Malformed x-webhook-timestamp header"
  | .staleTimestamp => "Webhook timestamp outside the accepted tolerance window"
  | .missingRawBody => "Raw request body unavailable for signature verification"
  | .invalidSignature => "Webhook signature verification failed"

/-- `FAILURE_STATUS`. -/
def failureStatus : WebhookVerificationFailure → Nat
  | .unknownProvider => 404
  | .missingSecret => 503
  | .missingSignature => 401
  | .missingTimestamp => 401
  | .malformedTimestamp => 400
  | .staleTimestamp => 401
  | .missingRawBody => 400
  | .invalidSignature => 401

/-- The response of a rejected request. -/
structure WebhookRejection where
  status : Nat
  error : String
  deriving DecidableEq, Repr

def rejectWebhook (failure : WebhookVerificationFailure) : Except WebhookRejection Unit :=
  .error ⟨failureStatus failure, failureMessages failure⟩

/-- `string | string[]`, the value of a header. -/
inductive HeaderValue where
  | text (value : String)
  | list (values : List String)
  deriving DecidableEq, Repr

def firstHeader : Option HeaderValue → Option String
  | some (.list values) => values.head?
  | some (.text value) => some value
  | none => none

/-- A header without the blanks around it, empty if there is none. -/
def trimmedHeader (value : Option HeaderValue) : String :=
  ((firstHeader value).map Text.trim).getD ""

/-- What the middleware reads of a request. -/
structure RawBodyRequest where
  provider : Option String
  signature : Option HeaderValue
  timestamp : Option HeaderValue
  rawBody : Option (List UInt8)
  deriving DecidableEq, Repr

structure WebhookSignatureOptions where
  provider : Option String := none
  toleranceSeconds : Option ℚ := none

/-- `secretRegistry` is the map of `getSecretRegistry()`, and `toleranceSeconds` is
`INBOUND_WEBHOOK_TOLERANCE_SECONDS`. -/
structure WebhookConfig where
  secretRegistry : String → Option (List String)
  toleranceSeconds : Nat

/-- `timingSafeEqual` tells whether two buffers of one length are the same. -/
def digestsMatch (expected provided : String) : Bool :=
  if (Bytes.utf8 expected).length ≠ (Bytes.utf8 provided).length then false
  else Bytes.utf8 expected == Bytes.utf8 provided

section Middleware

/-! `hmacSha256` gives the hexadecimal digest of a message under a secret, and `number` is `Number`
of a text where that is a finite integer. -/

variable (hmacSha256 : String → List UInt8 → String) (number : String → Option Int)

def computeWebhookSignature (secret timestamp : String) (rawBody : List UInt8) : String :=
  hmacSha256 secret (Bytes.utf8 (timestamp ++ ".") ++ rawBody)

/-- The options of a mounted middleware, the configuration and `Date.now()` when it is called. -/
structure WebhookCall where
  options : WebhookSignatureOptions
  config : WebhookConfig
  now : Nat
  request : RawBodyRequest

namespace WebhookCall

/-- Providers are named in ASCII characters. -/
def provider (call : WebhookCall) : String :=
  ((call.options.provider <|> call.request.provider).map
    fun rawProvider => Text.toLowerCase (Text.trim rawProvider)).getD ""

def secrets (call : WebhookCall) : List String :=
  (call.config.secretRegistry call.provider).getD []

def signature (call : WebhookCall) : String := trimmedHeader call.request.signature

def timestampHeader (call : WebhookCall) : String := trimmedHeader call.request.timestamp

def tolerance (call : WebhookCall) : ℚ :=
  call.options.toleranceSeconds.getD call.config.toleranceSeconds

def ageSeconds (call : WebhookCall) (timestamp : Int) : Int := |(call.now / 1000 : Nat) - timestamp|

end WebhookCall

/-- The middleware calls `next` or answers with a rejection. -/
def verifyWebhookSignature (call : WebhookCall) : Except WebhookRejection Unit :=
  if call.provider = "" then rejectWebhook .unknownProvider
  else if call.secrets = [] then rejectWebhook .missingSecret
  else if call.signature = "" then rejectWebhook .missingSignature
  else if call.timestampHeader = "" then rejectWebhook .missingTimestamp
  else
    match number call.timestampHeader with
    | none => rejectWebhook .malformedTimestamp
    | some timestamp =>
      if call.tolerance < call.ageSeconds timestamp then rejectWebhook .staleTimestamp
      else
        match call.request.rawBody with
        | none => rejectWebhook .missingRawBody
        | some rawBody =>
          if call.secrets.any fun secret =>
              digestsMatch (computeWebhookSignature hmacSha256 secret call.timestampHeader rawBody)
                call.signature
          then .ok ()
          else rejectWebhook .invalidSignature

/-- The digest of a request under a secret is its signature. -/
def MatchesUnder (secret : String) (call : WebhookCall) : Prop :=
  secret ∈ call.secrets ∧ ∃ rawBody ∈ call.request.rawBody,
    digestsMatch (computeWebhookSignature hmacSha256 secret call.timestampHeader rawBody)
      call.signature = true

end Middleware

/-- The white space of JSON. -/
def isJsonSpace (b : UInt8) : Bool := b == 0x20 || b == 0x09 || b == 0x0a || b == 0x0d

/-- An opening bracket of JSON. -/
def IsBracket (b : UInt8) : Prop := b = 0x7b ∨ b = 0x5b

/-- A raw body that strict parsing can accept. -/
def HasJsonBody (call : WebhookCall) : Prop :=
  ∀ rawBody ∈ call.request.rawBody, Bytes.Opens isJsonSpace IsBracket rawBody

/-! ## The signed bytes -/

theorem digestsMatch_iff {expected provided : String} :
    digestsMatch expected provided = true ↔ expected = provided := by
  unfold digestsMatch
  constructor
  · intro h
    split at h
    · cases h
    · exact Bytes.utf8_injective (by simpa using h)
  · rintro rfl
    simp

theorem not_isBracket_point : ¬ IsBracket 0x2e := by
  unfold IsBracket
  decide

/-- A text without brackets has none among its bytes. -/
theorem not_isBracket_of_mem_utf8 {s : String} (closed : ∀ c ∈ s.toList, c ≠ '\x7b' ∧ c ≠ '[') :
    ∀ b ∈ Bytes.utf8 s, ¬ IsBracket b := by
  rintro b hb (rfl | rfl)
  · obtain ⟨c, hc, hvalue⟩ := Bytes.exists_char_of_mem_utf8 (by decide) hb
    exact (closed c hc).1 (Char.toNat_inj.1 hvalue)
  · obtain ⟨c, hc, hvalue⟩ := Bytes.exists_char_of_mem_utf8 (by decide) hb
    exact (closed c hc).2 (Char.toNat_inj.1 hvalue)

/-- The signed bytes tell the timestamp and the body apart. -/
theorem message_inj {t t' : String} {body body' : List UInt8}
    (closed : ∀ c ∈ t.toList, c ≠ '\x7b' ∧ c ≠ '[')
    (closed' : ∀ c ∈ t'.toList, c ≠ '\x7b' ∧ c ≠ '[')
    (json : Bytes.Opens isJsonSpace IsBracket body)
    (json' : Bytes.Opens isJsonSpace IsBracket body')
    (h : Bytes.utf8 (t ++ ".") ++ body = Bytes.utf8 (t' ++ ".") ++ body') :
    t = t' ∧ body = body' := by
  have hpoint : Bytes.utf8 "." = [0x2e] := by decide
  rw [Bytes.utf8_append, Bytes.utf8_append, hpoint] at h
  obtain ⟨htext, hbody⟩ := Bytes.append_inj_of_opens (by decide) (not_isBracket_of_mem_utf8 closed)
    (not_isBracket_of_mem_utf8 closed') not_isBracket_point json json' h
  exact ⟨Bytes.utf8_injective htext, hbody⟩

/-! ## Accepted requests -/

variable {hmacSha256 : String → List UInt8 → String} {number : String → Option Int}
variable {call call' : WebhookCall} {secret : String}

/-- An accepted request has a timestamp that was within the tolerance. -/
theorem timestamp_of_accepted (accepted : verifyWebhookSignature hmacSha256 number call = .ok ()) :
    ∃ timestamp, number call.timestampHeader = some timestamp ∧
      (call.ageSeconds timestamp : ℚ) ≤ call.tolerance := by
  unfold verifyWebhookSignature at accepted
  iterate 4
    split at accepted
    · cases accepted
  split at accepted
  · cases accepted
  · next timestamp hnumber =>
    split at accepted
    · cases accepted
    · next hfresh => exact ⟨timestamp, hnumber, not_lt.1 hfresh⟩

/-- Two requests with one signature under one secret are of one date and have one body. -/
theorem sameBytes_of_matches (injective : ∀ secret, Function.Injective (hmacSha256 secret))
    (closed : ∀ c ∈ call.timestampHeader.toList, c ≠ '\x7b' ∧ c ≠ '[')
    (closed' : ∀ c ∈ call'.timestampHeader.toList, c ≠ '\x7b' ∧ c ≠ '[')
    (signature : call'.signature = call.signature) (found : MatchesUnder hmacSha256 secret call)
    (found' : MatchesUnder hmacSha256 secret call') (json : HasJsonBody call)
    (json' : HasJsonBody call') :
    call'.timestampHeader = call.timestampHeader ∧
      call'.request.rawBody = call.request.rawBody := by
  obtain ⟨-, body, hbody, hdigest⟩ := found
  obtain ⟨-, body', hbody', hdigest'⟩ := found'
  rw [digestsMatch_iff] at hdigest hdigest'
  have hmessage := injective secret (hdigest'.trans (signature.trans hdigest.symm))
  obtain ⟨htimestamp, hsame⟩ :=
    message_inj closed' closed (json' body' hbody') (json body hbody) hmessage
  rw [hsame] at hbody'
  exact ⟨htimestamp, hbody'.trans hbody.symm⟩

/-! ## No other date -/

section NotRedated

variable (hmacSha256 : String → List UInt8 → String) (number : String → Option Int)

/-- What is assumed of the two functions that are not modelled: under one secret the digest tells
messages apart, and no text with an opening bracket is a number. -/
structure WebhookPrimitives : Prop where
  injective : ∀ secret, Function.Injective (hmacSha256 secret)
  closed : ∀ s n, number s = some n → ∀ c ∈ s.toList, c ≠ '\x7b' ∧ c ≠ '['

/-- Two requests of one provider that were accepted for one signature header under one secret. -/
structure SignedAlike (secret : String) (call call' : WebhookCall) : Prop where
  accepted : verifyWebhookSignature hmacSha256 number call = .ok ()
  accepted' : verifyWebhookSignature hmacSha256 number call' = .ok ()
  provider : call'.provider = call.provider
  signature : call'.request.signature = call.request.signature
  found : MatchesUnder hmacSha256 secret call
  found' : MatchesUnder hmacSha256 secret call'
  json : HasJsonBody call
  json' : HasJsonBody call'

/-- Requests that are signed alike have the same timestamp header and the same body. -/
def HeadersKept : Prop :=
  ∀ secret call call', SignedAlike hmacSha256 number secret call call' →
    call'.request.timestamp = call.request.timestamp ∧
      call'.request.rawBody = call.request.rawBody

end NotRedated

/-- A captured request keeps its timestamp, but for the blanks around it, and its body, and it is
accepted only within the tolerance around that timestamp. -/
theorem signature_not_redated (assumed : WebhookPrimitives hmacSha256 number)
    (alike : SignedAlike hmacSha256 number secret call call') :
    call'.timestampHeader = call.timestampHeader ∧
      call'.request.rawBody = call.request.rawBody ∧
      ∃ timestamp, number call.timestampHeader = some timestamp ∧
        (call'.ageSeconds timestamp : ℚ) ≤ call'.tolerance := by
  obtain ⟨timestamp, hnumber, -⟩ := timestamp_of_accepted alike.accepted
  obtain ⟨timestamp', hnumber', hfresh⟩ := timestamp_of_accepted alike.accepted'
  have hsignature : call'.signature = call.signature := congrArg trimmedHeader alike.signature
  obtain ⟨hheader, hbody⟩ := sameBytes_of_matches assumed.injective
    (assumed.closed _ _ hnumber) (assumed.closed _ _ hnumber') hsignature alike.found alike.found'
    alike.json alike.json'
  rw [hheader] at hnumber'
  exact ⟨hheader, hbody, timestamp', hnumber', hfresh⟩

/-! ### A captured request -/

/-- The digest of HMAC-SHA256 of one message under one secret, and any other text for any other
message. -/
def capturedHmac (secret : String) (message : List UInt8) : String :=
  if secret = "test-webhook-secret-value" ∧ message = Bytes.utf8 "1700000000." ++ [0x7b, 0x7d] then
    "145122d5a667e701ed0326d82be5658d7a53a592d96ba5593a694a24c73b8707"
  else "-" ++ String.ofList (message.map Char.ofUInt8)

/-- `Number` of a numeral. -/
def numeralNumber (s : String) : Option Int :=
  if isNumeral s.toList then some (numeralValue s.toList) else none

/-- A request with the body of an empty object, sent at `now`. -/
def capturedCall (timestamp : String) (now : Nat) : WebhookCall where
  options := {}
  config := ⟨fun provider =>
    if provider = "stripe" then some ["test-webhook-secret-value"] else none, 300⟩
  now := now
  request := ⟨some "Stripe",
    some (.text "145122d5a667e701ed0326d82be5658d7a53a592d96ba5593a694a24c73b8707"),
    some (.text timestamp), some [0x7b, 0x7d]⟩

theorem capturedHmac_injective (secret : String) : Function.Injective (capturedHmac secret) := by
  have hchar : Function.Injective Char.ofUInt8 := fun a b h => by
    have hvalue : a.toUInt32 = b.toUInt32 := congrArg Char.val h
    exact UInt8.toNat_inj.1 (by simpa using congrArg UInt32.toNat hvalue)
  have hother (message : List UInt8) :
      "145122d5a667e701ed0326d82be5658d7a53a592d96ba5593a694a24c73b8707" ≠
        "-" ++ String.ofList (message.map Char.ofUInt8) := fun h => by
    have hhead := congrArg (fun s => s.toList.head?) h
    simp at hhead
  intro message message' h
  unfold capturedHmac at h
  split at h <;> split at h
  · next hleft hright => exact hleft.2.trans hright.2.symm
  · exact absurd h (hother _)
  · exact absurd h.symm (hother _)
  · have hlist := congrArg String.toList h
    simp only [String.toList_append, String.toList_ofList] at hlist
    exact List.map_injective_iff.2 hchar (List.append_cancel_left hlist)

theorem captured_primitives : WebhookPrimitives capturedHmac numeralNumber where
  injective := capturedHmac_injective
  closed := fun s n h c hc => by
    unfold numeralNumber at h
    split at h
    · next hnumeral =>
      have hdigit := List.all_eq_true.1 (Bool.and_eq_true_iff.1 hnumeral).2 c hc
      constructor <;> rintro rfl <;> exact absurd hdigit (by decide)
    · cases h

theorem captured_accepted : verifyWebhookSignature capturedHmac numeralNumber
    (capturedCall "1700000000" 1700000000000) = .ok () := by decide +kernel

/-- Accepted requests with the captured signature are signed alike. -/
theorem captured_alike {t t' : String} {now now' : Nat} (trimmed : Text.trim t = "1700000000")
    (trimmed' : Text.trim t' = "1700000000")
    (accepted : verifyWebhookSignature capturedHmac numeralNumber (capturedCall t now) = .ok ())
    (accepted' :
      verifyWebhookSignature capturedHmac numeralNumber (capturedCall t' now') = .ok ()) :
    SignedAlike capturedHmac numeralNumber "test-webhook-secret-value" (capturedCall t now)
      (capturedCall t' now') := by
  have hfound {t : String} {now : Nat} (trimmed : Text.trim t = "1700000000") :
      MatchesUnder capturedHmac "test-webhook-secret-value" (capturedCall t now) := by
    have hsecret : "test-webhook-secret-value" ∈ (capturedCall "" 0).secrets := by decide +kernel
    refine ⟨hsecret, [0x7b, 0x7d], rfl, digestsMatch_iff.2 ?_⟩
    have hheader : (capturedCall t now).timestampHeader = "1700000000" := trimmed
    rw [hheader]
    show _ = (capturedCall "" 0).signature
    decide +kernel
  have hjson (t : String) (now : Nat) : HasJsonBody (capturedCall t now) := by
    rintro body ⟨⟩
    exact ⟨0x7b, by decide, .inl rfl⟩
  exact ⟨accepted, accepted', rfl, rfl, hfound trimmed, hfound trimmed', hjson _ _, hjson _ _⟩

/-- The same request, one hundred seconds later. -/
theorem signature_not_redated_captured :
    (capturedCall "1700000000" 1700000100000).timestampHeader =
        (capturedCall "1700000000" 1700000000000).timestampHeader ∧
      (capturedCall "1700000000" 1700000100000).request.rawBody =
        (capturedCall "1700000000" 1700000000000).request.rawBody ∧
      ∃ timestamp,
        numeralNumber (capturedCall "1700000000" 1700000000000).timestampHeader = some timestamp ∧
        ((capturedCall "1700000000" 1700000100000).ageSeconds timestamp : ℚ) ≤
          (capturedCall "1700000000" 1700000100000).tolerance :=
  signature_not_redated captured_primitives
    (captured_alike (by decide) (by decide) captured_accepted (by decide +kernel))

/-- A no-break space after the timestamp is dropped before the digest is taken. -/
theorem not_headersKept :
    ¬ ∀ hmacSha256 number, WebhookPrimitives hmacSha256 number → HeadersKept hmacSha256 number := by
  intro h
  have hkept := h _ _ captured_primitives _ (capturedCall "1700000000" 1700000000000)
    (capturedCall "1700000000\u00a0" 1700000000000)
    (captured_alike (by decide) (by decide) captured_accepted (by decide +kernel))
  exact absurd hkept.1 (by decide)

end Amana.Backend
