import Amana.Escrow.Events
import Mathlib.Logic.Function.Basic

/-!
# From published events to parsed events

The contract publishes an event as a list of topics and a map of its fields (`publish`); the
listener gets it back from the RPC server and decodes it (`decodeContractEvent`).  The decoder
finds the type of the event in the first topic and looks for the trade in the second one, while the
contract puts `trade_id` into the map: every event decodes to a trade called `unknown`
(`not_decodesBack`).
-/

namespace Amana.Backend

open Escrow (Address Event QuorumOutcome)

/-! ## What the contract publishes -/

/-- The values a contract can publish, as far as the events use them. -/
inductive ScVal where
  | symbol (s : String)
  | string (s : String)
  | bool (b : Bool)
  | u32 (n : Nat)
  | u64 (n : Nat)
  | i128 (i : Int)
  | bytes (bytes : List UInt8)
  | bytesN32 (bytes : Escrow.BytesN32)
  | address (a : Address)
  | vec (items : List ScVal)
  | map (entries : List (String × ScVal))

/-- The topics of `#[contractevent]`. -/
def topics : Event → List String
  | .initialized .. => ["amana", "initialized"]
  | .tradeCreated .. => ["TRDCRT"]
  | .tradeFunded .. => ["TRDFND"]
  | .tradeCancelled .. => ["TRDCAN"]
  | .tradeCancelledByBuyer .. => ["TCNBYR"]
  | .contractUpgraded .. => ["UPGRAD"]
  | .deliveryConfirmed .. => ["DELCNF"]
  | .fundsReleased .. => ["RELSD"]
  | .disputeResolved .. => ["DISRES"]
  | .disputeVoteCast .. => ["DVOTE"]
  | .disputeQuorumResolved .. => ["DQURES"]
  | .quorumConfigUpdated .. => ["QURCFG"]
  | .mediatorWeightUpdated .. => ["MEDWGT"]
  | .evidenceSubmitted .. => ["EVDSUB"]
  | .disputeInitiated .. => ["DISINI"]
  | .videoProofSubmitted .. => ["VIDPRF"]
  | .tradeExpired .. => ["TRDEXP"]
  | .deadlineExtended .. => ["DEDEXT"]
  | .deadlineExtensionBudget .. => ["DEDBGT"]
  | .extensionPolicyUpdated .. => ["EXTPOL"]
  | .manifestSubmitted .. => ["MNFST"]
  | .mediatorAdded .. => ["MEDADD"]
  | .mediatorRemoved .. => ["MEDREM"]
  | .feeRateUpdated .. => ["FEEUPD"]
  | .feesWithdrawn .. => ["FEEWTH"]
  | .pathPaymentInitiated .. => ["PTHINT"]
  | .pathPaymentExecuted .. => ["PTHPAY"]
  | .clawbackExecuted .. => ["CLWBCK"]
  | .timelockOperationQueued .. => ["TLKQUE"]
  | .timelockOperationExecuted .. => ["TLKEXE"]
  | .timelockOperationCancelled .. => ["TLKCAN"]
  | .contractUpgradeQueued .. => ["UPGQUE"]

/-- A fieldless enumeration is published as the vector of its variant's name. -/
def outcomeVal : QuorumOutcome → ScVal
  | .quorum => .vec [.symbol "Quorum"]
  | .fallback => .vec [.symbol "Fallback"]

/-- The fields of an event, each under its name. -/
def fields : Event → List (String × ScVal)
  | .initialized admin feeBps timestamp =>
    [("admin", .address admin), ("fee_bps", .u32 feeBps), ("timestamp", .u64 timestamp)]
  | .tradeCreated tradeId buyer seller amount =>
    [("trade_id", .u64 tradeId), ("buyer", .address buyer), ("seller", .address seller),
      ("amount", .i128 amount)]
  | .tradeFunded tradeId amount => [("trade_id", .u64 tradeId), ("amount", .i128 amount)]
  | .tradeCancelled tradeId refundAmount caller timestamp =>
    [("trade_id", .u64 tradeId), ("refund_amount", .i128 refundAmount),
      ("caller", .address caller), ("timestamp", .u64 timestamp)]
  | .tradeCancelledByBuyer tradeId buyer => [("trade_id", .u64 tradeId), ("buyer", .address buyer)]
  | .contractUpgraded admin newWasmHash =>
    [("admin", .address admin), ("new_wasm_hash", .bytesN32 newWasmHash)]
  | .deliveryConfirmed tradeId deliveredAt =>
    [("trade_id", .u64 tradeId), ("delivered_at", .u64 deliveredAt)]
  | .fundsReleased tradeId sellerAmount feeAmount =>
    [("trade_id", .u64 tradeId), ("seller_amount", .i128 sellerAmount),
      ("fee_amount", .i128 feeAmount)]
  | .disputeResolved tradeId sellerPayout buyerRefund mediator =>
    [("trade_id", .u64 tradeId), ("seller_payout", .i128 sellerPayout),
      ("buyer_refund", .i128 buyerRefund), ("mediator", .address mediator)]
  | .disputeVoteCast tradeId mediator sellerGetsBps weight rationaleHash outcomeWeight
      weightToQuorum votedAt schemaVersion =>
    [("trade_id", .u64 tradeId), ("mediator", .address mediator),
      ("seller_gets_bps", .u32 sellerGetsBps), ("weight", .u32 weight),
      ("rationale_hash", .string rationaleHash), ("outcome_weight", .u32 outcomeWeight),
      ("weight_to_quorum", .u32 weightToQuorum), ("voted_at", .u64 votedAt),
      ("schema_version", .u32 schemaVersion)]
  | .disputeQuorumResolved tradeId sellerGetsBps outcome winningWeight totalWeight voteCount
      schemaVersion =>
    [("trade_id", .u64 tradeId), ("seller_gets_bps", .u32 sellerGetsBps),
      ("outcome", outcomeVal outcome), ("winning_weight", .u32 winningWeight),
      ("total_weight", .u32 totalWeight), ("vote_count", .u32 voteCount),
      ("schema_version", .u32 schemaVersion)]
  | .quorumConfigUpdated enabled valueThreshold requiredWeight voteWindowSecs fallbackMinWeight
      schemaVersion =>
    [("enabled", .bool enabled), ("value_threshold", .i128 valueThreshold),
      ("required_weight", .u32 requiredWeight), ("vote_window_secs", .u64 voteWindowSecs),
      ("fallback_min_weight", .u32 fallbackMinWeight), ("schema_version", .u32 schemaVersion)]
  | .mediatorWeightUpdated mediator weight schemaVersion =>
    [("mediator", .address mediator), ("weight", .u32 weight),
      ("schema_version", .u32 schemaVersion)]
  | .evidenceSubmitted tradeId submitter evidenceHash =>
    [("trade_id", .u64 tradeId), ("submitter", .address submitter),
      ("evidence_hash", .bytes evidenceHash)]
  | .disputeInitiated tradeId initiator reasonHash =>
    [("trade_id", .u64 tradeId), ("initiator", .address initiator),
      ("reason_hash", .string reasonHash)]
  | .videoProofSubmitted tradeId submitter ipfsCid timestamp =>
    [("trade_id", .u64 tradeId), ("submitter", .address submitter), ("ipfs_cid", .string ipfsCid),
      ("timestamp", .u64 timestamp)]
  | .tradeExpired tradeId refundAmount caller =>
    [("trade_id", .u64 tradeId), ("refund_amount", .i128 refundAmount),
      ("caller", .address caller)]
  | .deadlineExtended tradeId oldDeadline newDeadline =>
    [("trade_id", .u64 tradeId), ("old_deadline", .u64 oldDeadline),
      ("new_deadline", .u64 newDeadline)]
  | .deadlineExtensionBudget tradeId extensionsUsed extensionsRemaining originalDeadline
      extendedBySecs extensionSecsRemaining schemaVersion =>
    [("trade_id", .u64 tradeId), ("extensions_used", .u32 extensionsUsed),
      ("extensions_remaining", .u32 extensionsRemaining),
      ("original_deadline", .u64 originalDeadline), ("extended_by_secs", .u64 extendedBySecs),
      ("extension_secs_remaining", .u64 extensionSecsRemaining),
      ("schema_version", .u32 schemaVersion)]
  | .extensionPolicyUpdated maxExtensions maxTotalExtensionSecs schemaVersion =>
    [("max_extensions", .u32 maxExtensions),
      ("max_total_extension_secs", .u64 maxTotalExtensionSecs),
      ("schema_version", .u32 schemaVersion)]
  | .manifestSubmitted tradeId seller driverNameHash driverIdHash timestamp =>
    [("trade_id", .u64 tradeId), ("seller", .address seller),
      ("driver_name_hash", .string driverNameHash), ("driver_id_hash", .string driverIdHash),
      ("timestamp", .u64 timestamp)]
  | .mediatorAdded mediator => [("mediator", .address mediator)]
  | .mediatorRemoved mediator => [("mediator", .address mediator)]
  | .feeRateUpdated oldFeeBps newFeeBps =>
    [("old_fee_bps", .u32 oldFeeBps), ("new_fee_bps", .u32 newFeeBps)]
  | .feesWithdrawn amount destination =>
    [("amount", .i128 amount), ("destination", .address destination)]
  | .pathPaymentInitiated tradeId buyer sourceToken sourceAmount destMin path =>
    [("trade_id", .u64 tradeId), ("buyer", .address buyer), ("source_token", .address sourceToken),
      ("source_amount", .i128 sourceAmount), ("dest_min", .i128 destMin),
      ("path", .vec (path.map .address))]
  | .pathPaymentExecuted tradeId buyer sourceToken sourceAmount destToken destAmount =>
    [("trade_id", .u64 tradeId), ("buyer", .address buyer), ("source_token", .address sourceToken),
      ("source_amount", .i128 sourceAmount), ("dest_token", .address destToken),
      ("dest_amount", .i128 destAmount)]
  | .clawbackExecuted tradeId clawbackAmount remainingAmount destination admin schemaVersion =>
    [("trade_id", .u64 tradeId), ("clawback_amount", .i128 clawbackAmount),
      ("remaining_amount", .i128 remainingAmount), ("destination", .address destination),
      ("admin", .address admin), ("schema_version", .u32 schemaVersion)]
  | .timelockOperationQueued operationId operationType queuedAt executeAfter admin =>
    [("operation_id", .u64 operationId), ("operation_type", .string operationType),
      ("queued_at", .u64 queuedAt), ("execute_after", .u64 executeAfter),
      ("admin", .address admin)]
  | .timelockOperationExecuted operationId executedAt =>
    [("operation_id", .u64 operationId), ("executed_at", .u64 executedAt)]
  | .timelockOperationCancelled operationId cancelledAt admin =>
    [("operation_id", .u64 operationId), ("cancelled_at", .u64 cancelledAt),
      ("admin", .address admin)]
  | .contractUpgradeQueued operationId newWasmHash queuedAt executeAfter =>
    [("operation_id", .u64 operationId), ("new_wasm_hash", .bytesN32 newWasmHash),
      ("queued_at", .u64 queuedAt), ("execute_after", .u64 executeAfter)]

/-- `rpc.Api.EventResponse`. -/
structure RawEvent where
  topic : List ScVal
  value : Option ScVal
  ledger : Nat
  contractId : Option String
  id : String

/-- An event as the RPC server hands it out. -/
def publish (e : Event) (ledger : Nat) (contractId : Option String) (id : String) : RawEvent where
  topic := (topics e).map .symbol
  value := some (.map (fields e))
  ledger := ledger
  contractId := contractId
  id := id

/-! ## The decoder -/

/-- `EventType`: the events the backend reacts to. -/
inductive EventType where
  | tradeCreated
  | tradeFunded
  | deliveryConfirmed
  | fundsReleased
  | disputeInitiated
  | disputeResolved
  | streamClawback
  deriving DecidableEq, Repr

/-- `GeneratedEventType`: every event of the schema. -/
inductive GeneratedEventType where
  | initialized
  | tradeCreated
  | tradeFunded
  | tradeCancelled
  | tradeCancelledByBuyer
  | contractUpgraded
  | deliveryConfirmed
  | fundsReleased
  | disputeResolved
  | evidenceSubmitted
  | disputeInitiated
  | videoProofSubmitted
  | tradeExpired
  | deadlineExtended
  | manifestSubmitted
  | mediatorAdded
  | mediatorRemoved
  | feeRateUpdated
  | feesWithdrawn
  | pathPaymentInitiated
  | pathPaymentExecuted
  | adminClawback
  | clawbackExecuted
  | timelockOperationQueued
  | timelockOperationExecuted
  | timelockOperationCancelled
  | contractUpgradeQueued
  | disputeVoteCast
  | disputeQuorumResolved
  | quorumConfigUpdated
  | mediatorWeightUpdated
  | deadlineExtensionBudget
  | extensionPolicyUpdated
  deriving DecidableEq, Repr

/-- `TOPIC_TO_EVENT_TYPE`. -/
def topicToEventType : List (String × GeneratedEventType) :=
  [("amana", .initialized), ("TRDCRT", .tradeCreated), ("TRDFND", .tradeFunded),
    ("TRDCAN", .tradeCancelled), ("TCNBYR", .tradeCancelledByBuyer), ("UPGRAD", .contractUpgraded),
    ("DELCNF", .deliveryConfirmed), ("RELSD", .fundsReleased), ("DISRES", .disputeResolved),
    ("EVDSUB", .evidenceSubmitted), ("DISINI", .disputeInitiated),
    ("VIDPRF", .videoProofSubmitted), ("TRDEXP", .tradeExpired), ("DEDEXT", .deadlineExtended),
    ("MNFST", .manifestSubmitted), ("MEDADD", .mediatorAdded), ("MEDREM", .mediatorRemoved),
    ("FEEUPD", .feeRateUpdated), ("FEEWTH", .feesWithdrawn), ("PTHINT", .pathPaymentInitiated),
    ("PTHPAY", .pathPaymentExecuted), ("ADMCLW", .adminClawback), ("CLWBCK", .clawbackExecuted),
    ("TLKQUE", .timelockOperationQueued), ("TLKEXE", .timelockOperationExecuted),
    ("TLKCAN", .timelockOperationCancelled), ("UPGQUE", .contractUpgradeQueued),
    ("DVOTE", .disputeVoteCast), ("DQURES", .disputeQuorumResolved),
    ("QURCFG", .quorumConfigUpdated), ("MEDWGT", .mediatorWeightUpdated),
    ("DEDBGT", .deadlineExtensionBudget), ("EXTPOL", .extensionPolicyUpdated)]

/-- `GENERATED_TO_EVENT_TYPE`. -/
def generatedToEventType : GeneratedEventType → Option EventType
  | .tradeCreated => some .tradeCreated
  | .tradeFunded => some .tradeFunded
  | .deliveryConfirmed => some .deliveryConfirmed
  | .fundsReleased => some .fundsReleased
  | .disputeInitiated => some .disputeInitiated
  | .disputeResolved => some .disputeResolved
  | .clawbackExecuted => some .streamClawback
  | _ => none

/-- `LEGACY_SYMBOL_ALIASES`. -/
def legacySymbolAliases : List (String × EventType) :=
  [("TradeCreated", .tradeCreated), ("trade_created", .tradeCreated),
    ("TradeFunded", .tradeFunded), ("trade_funded", .tradeFunded),
    ("DeliveryConfirmed", .deliveryConfirmed), ("delivery_confirmed", .deliveryConfirmed),
    ("FundsReleased", .fundsReleased), ("funds_released", .fundsReleased),
    ("DisputeInitiated", .disputeInitiated), ("dispute_initiated", .disputeInitiated),
    ("DisputeResolved", .disputeResolved), ("dispute_resolved", .disputeResolved),
    ("StreamClawback", .streamClawback), ("stream_clawback", .streamClawback)]

def resolveEventType (symbol : String) : Option EventType :=
  match topicToEventType.lookup symbol with
  | some generated => generatedToEventType generated
  | none => legacySymbolAliases.lookup symbol

/-- The JavaScript values that come out of the SDK. -/
inductive Native where
  | string (s : String)
  | bigint (i : Int)
  | boolean (b : Bool)
  | object (v : ScVal)

/-- `String(value)`. -/
def Native.text : Native → String
  | .string s => s
  | .bigint i => toString i
  | .boolean b => toString b
  | .object _ => "[object Object]"

/-- What the decoder looks at in an event's value: its `type`, and, where `value` is an array, the
`key.value` and `val.value` of each entry. -/
structure Shape where
  type : Option String
  value : Option (List (Option String × Option Native))

/-- `@stellar/stellar-sdk`, as far as the decoder uses it. -/
structure Sdk where
  /-- `none` where it throws. -/
  scValToNative : ScVal → Option Native
  shape : ScVal → Shape

/-- Symbols become strings. -/
def Sdk.ReadsSymbols (sdk : Sdk) : Prop :=
  ∀ s, sdk.scValToNative (.symbol s) = some (.string s)

/-- `Record<string, unknown>`. -/
abbrev Data := String → Option Native

structure ParsedEvent where
  eventType : EventType
  tradeId : String
  ledgerSequence : Nat
  contractId : String
  eventId : String
  data : Data

def extractSymbolValue (sdk : Sdk) (v : ScVal) : Option String :=
  (sdk.scValToNative v).map Native.text

def extractScalarValue (sdk : Sdk) (v : ScVal) : String :=
  ((sdk.scValToNative v).map Native.text).getD "unknown"

/-- The data the decoder collects from an event's value. -/
def eventData (sdk : Sdk) : Option ScVal → Data
  | none => fun _ => none
  | some v =>
    let shape := sdk.shape v
    let entries := if shape.type = some "map" then shape.value.getD [] else []
    let raw : Data := Function.update (fun _ => none) "raw" (some (.object v))
    entries.foldl (fun data entry =>
      match entry.1 with
      | some key => if key = "" then data else Function.update data key entry.2
      | none => data) raw

def decodeContractEvent (sdk : Sdk) (rawEvent : RawEvent) (fallbackContractId : String) :
    Option ParsedEvent := do
  let first ← rawEvent.topic.head?
  let eventSymbol ← extractSymbolValue sdk first
  guard (eventSymbol ≠ "")
  let eventType ← resolveEventType eventSymbol
  let tradeId :=
    match rawEvent.topic with
    | _ :: second :: _ => extractScalarValue sdk second
    | _ => "unknown"
  return {
    eventType
    tradeId
    ledgerSequence := rawEvent.ledger
    contractId := rawEvent.contractId.getD fallbackContractId
    eventId := rawEvent.id
    data := eventData sdk rawEvent.value }

/-! ## Decoding what was published -/

/-- The events of the handled types: what they should decode to, and their trade. -/
def handled : Event → Option (EventType × Nat)
  | .tradeCreated tradeId .. => some (.tradeCreated, tradeId)
  | .tradeFunded tradeId .. => some (.tradeFunded, tradeId)
  | .deliveryConfirmed tradeId .. => some (.deliveryConfirmed, tradeId)
  | .fundsReleased tradeId .. => some (.fundsReleased, tradeId)
  | .disputeInitiated tradeId .. => some (.disputeInitiated, tradeId)
  | .disputeResolved tradeId .. => some (.disputeResolved, tradeId)
  | .clawbackExecuted tradeId .. => some (.streamClawback, tradeId)
  | _ => none

/-- A raw event decodes to an event of the given type about trade `k`. -/
def DecodesBack (sdk : Sdk) (rawEvent : RawEvent) (fallbackContractId : String)
    (eventType : EventType) (k : Nat) : Prop :=
  ∃ parsed, decodeContractEvent sdk rawEvent fallbackContractId = some parsed ∧
    parsed.eventType = eventType ∧ parsed.tradeId = toString k

variable {sdk : Sdk} {e : Event} {eventType : EventType} {k : Nat}

/-- An event of a handled type has one topic, and it names its type. -/
theorem topics_of_handled (h : handled e = some (eventType, k)) :
    ∃ symbol, topics e = [symbol] ∧ symbol ≠ "" ∧ resolveEventType symbol = some eventType := by
  cases e with
  | tradeCreated | tradeFunded | deliveryConfirmed | fundsReleased | disputeInitiated
  | disputeResolved | clawbackExecuted =>
    cases h
    exact ⟨_, rfl, by decide, by decide⟩
  | _ => cases h

/-- What the decoder returns for it. -/
theorem decode_publish (symbols : sdk.ReadsSymbols) (h : handled e = some (eventType, k))
    (ledger : Nat) (contractId : Option String) (id fallbackContractId : String) :
    decodeContractEvent sdk (publish e ledger contractId id) fallbackContractId = some
      { eventType
        tradeId := "unknown"
        ledgerSequence := ledger
        contractId := contractId.getD fallbackContractId
        eventId := id
        data := eventData sdk (some (.map (fields e))) } := by
  obtain ⟨symbol, htopics, hne, htype⟩ := topics_of_handled h
  have htopic : (publish e ledger contractId id).topic = [.symbol symbol] := by
    rw [publish, htopics]
    rfl
  simp only [decodeContractEvent, htopic, List.head?_cons, extractSymbolValue, symbols symbol,
    Option.map_some, Native.text, Option.bind_eq_bind, Option.bind_some, htype, guard, if_pos hne]
  rfl

/-- No numeral reads `unknown`. -/
theorem unknown_ne_toString (n : Nat) : "unknown" ≠ toString n := by
  intro h
  have hmem : 'u' ∈ (toString n).toList := by
    rw [← h]
    decide
  have hdigit := Nat.isDigit_of_mem_toDigits (by decide) (by decide)
    (show 'u' ∈ Nat.toDigits 10 n by rwa [← Nat.toList_repr])
  exact absurd hdigit (by decide)

/-- Different trades have different names. -/
theorem toString_inj {m n : Nat} (h : toString m = toString n) : m = n := by
  have hdigits : Nat.toDigits 10 m = Nat.toDigits 10 n := by
    rw [← Nat.toList_repr, ← Nat.toList_repr]
    exact congrArg String.toList h
  calc m = Nat.ofDigitChars 10 (Nat.toDigits 10 m) 0 := Nat.ofDigitChars_ten_toDigits.symm
    _ = Nat.ofDigitChars 10 (Nat.toDigits 10 n) 0 := by rw [hdigits]
    _ = n := Nat.ofDigitChars_ten_toDigits

/-- No event of a handled type decodes to its trade: it decodes to an event of its type, and, like
every other one, to the trade `unknown`. -/
theorem not_decodesBack (symbols : sdk.ReadsSymbols) (h : handled e = some (eventType, k))
    (ledger : Nat) (contractId : Option String) (id fallbackContractId : String) :
    (∃ parsed, decodeContractEvent sdk (publish e ledger contractId id) fallbackContractId =
        some parsed ∧ parsed.eventType = eventType ∧ parsed.tradeId = "unknown") ∧
      ¬ DecodesBack sdk (publish e ledger contractId id) fallbackContractId eventType k := by
  have hdecode := decode_publish symbols h ledger contractId id fallbackContractId
  refine ⟨⟨_, hdecode, rfl, rfl⟩, ?_⟩
  rintro ⟨parsed, hparsed, -, htrade⟩
  obtain rfl := Option.some.inj (hdecode.symm.trans hparsed)
  exact unknown_ne_toString k htrade

/-! ## What the listener should get -/

/-- The data of an event as its publisher meant it: every field under its name. -/
def payload (sdk : Sdk) (e : Event) : Data := fun name =>
  ((fields e).lookup name).bind sdk.scValToNative

/-- An event of a handled type, parsed with its trade and its data. -/
def relay (sdk : Sdk) (e : Event) (ledgerSequence : Nat) (contractId eventId : String) :
    Option ParsedEvent :=
  (handled e).map fun (eventType, k) =>
    { eventType
      tradeId := toString k
      ledgerSequence
      contractId
      eventId
      data := payload sdk e }

/-- `scValToNative` on the values the events use, addresses by an encoding of theirs; an `ScVal` has
no property called `type`. -/
def Sample.stellar (strkey : Address → String) : Sdk where
  scValToNative
    | .symbol s | .string s => some (.string s)
    | .bool b => some (.boolean b)
    | .u32 n | .u64 n => some (.bigint n)
    | .i128 i => some (.bigint i)
    | .address a => some (.string (strkey a))
    | v => some (.object v)
  shape _ := ⟨none, none⟩

/-- The contract announces that trade 7 is funded, and the listener learns that some trade is. -/
theorem not_decodesBack_of_funding :
    (Sample.stellar fun _ => "G").ReadsSymbols ∧
      ¬ DecodesBack (Sample.stellar fun _ => "G") (publish (.tradeFunded 7 100) 5 none "0-1") "C"
        .tradeFunded 7 :=
  ⟨fun _ => rfl, (not_decodesBack (fun _ => rfl) rfl 5 none "0-1" "C").2⟩

/-- The fundings of trades 7 and 8 decode to the same trade. -/
theorem decode_of_two_trades :
    (decodeContractEvent (Sample.stellar fun _ => "G") (publish (.tradeFunded 7 100) 5 none "0-1")
        "C").map ParsedEvent.tradeId = some "unknown" ∧
      (decodeContractEvent (Sample.stellar fun _ => "G") (publish (.tradeFunded 8 100) 5 none "0-2")
        "C").map ParsedEvent.tradeId = some "unknown" ∧
      ¬ DecodesBack (Sample.stellar fun _ => "G") (publish (.tradeFunded 7 100) 5 none "0-1") "C"
        .tradeFunded 7 := by
  refine ⟨by rfl, by rfl, ?_⟩
  rintro ⟨parsed, hparsed, -, htrade⟩
  have hunknown : decodeContractEvent (Sample.stellar fun _ => "G")
      (publish (.tradeFunded 7 100) 5 none "0-1") "C" = some _ :=
    decode_publish (fun _ => rfl) rfl 5 none "0-1" "C"
  obtain rfl := Option.some.inj (hunknown.symm.trans hparsed)
  exact absurd htrade (by decide)

end Amana.Backend
