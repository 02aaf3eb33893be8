import Amana.Backend.Money
import Amana.Backend.Workers
import Amana.Lib.Guard
import Amana.Lib.Text

/-!
# Taking in trades

The three requests that create a trade check what they are given, make a `create_trade` call of it
(`buildCreateTradeTx`), and store a pending row under the identifier its simulation returned.  The
amount of the row is the text the amount of the call was parsed from (`taken_of_intake`).
-/

namespace Amana.Backend

open Lib Lib.Database

/-- The members of `ErrorCode` the requests about trades use. -/
inductive TradeErrorCode where
  | authError
  | validationError
  | tradeNotFound
  | tradeAccessDenied
  | tradeInvalidStatus
  | tradeBuildFailed
  deriving DecidableEq, Repr

/-- An `AppError` of a request about trades. -/
structure TradeError where
  code : TradeErrorCode
  message : String
  status : Nat
  deriving DecidableEq, Repr

/-- `@stellar/stellar-sdk`, as far as it looks at addresses. -/
structure Keys where
  /-- `StrKey.isValidEd25519PublicKey`. -/
  isValidEd25519PublicKey : String → Bool
  /-- `Address.fromString` takes the text. -/
  isAddress : String → Bool

/-- The body of a request.  `none` stands for a value that is not a text, or not a whole number. -/
structure TradeBody where
  sellerAddress : Option String
  amountUsdc : Option String
  buyerLossBps : Option Int
  sellerLossBps : Option Int

/-- `BuildCreateTradeTxInput`. -/
structure CreateTradeInput where
  buyerAddress : String
  sellerAddress : String
  amountUsdc : String
  buyerLossBps : Int
  sellerLossBps : Int

/-- The arguments of the `create_trade` operation. -/
structure CreateTradeCall where
  buyer : String
  seller : String
  amount : Int
  buyerLossBps : Int
  sellerLossBps : Int

/-- The RPC server: the account it knows, and the identifier a simulation returns, if nothing fails
until the transaction is prepared. -/
structure Rpc where
  hasAccount : String → Bool
  simulate : CreateTradeCall → Option String

/-! ## The checks -/

def Keys.isValidPublicKey (keys : Keys) (value : Option String) : Bool :=
  value.any keys.isValidEd25519PublicKey

/-- `AMOUNT_USDC_PATTERN`, `/^\d+(?:\.\d{1,7})?$/`. -/
def amountUsdcPattern (text : List Char) : Bool :=
  match text.splitOn '.' with
  | [whole] => isNumeral whole
  | [whole, fraction] => isNumeral whole && isNumeral fraction && fraction.length ≤ 7
  | _ => false

/-- `Number` of an amount is positive when one of its digits is: the smallest amounts are still
normal numbers, and the largest are infinite. -/
def normalizeAmountUsdc (value : Option String) : Option String :=
  (value.map Text.trim).filter fun normalized =>
    amountUsdcPattern normalized.toList &&
      normalized.toList.any fun c => c.isDigit && c != '0'

def isValidLossBps (value : Option Int) : Bool := value.any fun bps => 0 ≤ bps && bps ≤ 10000

def tradeAuthError : TradeError := ⟨.authError, "Wallet address not found in token", 401⟩

def tradeValidationError (message : String) : TradeError := ⟨.validationError, message, 400⟩

def tradeCreationFailed : TradeError := ⟨.tradeBuildFailed, "Failed to create trade", 500⟩

/-- The buyer a token names, which has to be a public key. -/
def checkBuyer (keys : Keys) (walletAddress : Option String) : Except TradeError String :=
  match walletAddress.filter (· ≠ "") with
  | none => .error tradeAuthError
  | some buyerAddress =>
    if keys.isValidPublicKey buyerAddress then .ok buyerAddress
    else .error (tradeValidationError "Invalid buyer wallet address")

/-- The checks of `createTrade`. -/
def checkTrade (keys : Keys) (walletAddress : Option String) (body : TradeBody) :
    Except TradeError CreateTradeInput := do
  let buyerAddress ← checkBuyer keys walletAddress
  unless keys.isValidPublicKey body.sellerAddress do
    throw (tradeValidationError "Invalid sellerAddress")
  let some amountUsdc := normalizeAmountUsdc body.amountUsdc
    | throw (tradeValidationError "Invalid amountUsdc")
  unless isValidLossBps body.buyerLossBps do
    throw (tradeValidationError "buyerLossBps must be an integer between 0 and 10000")
  unless isValidLossBps body.sellerLossBps do
    throw (tradeValidationError "sellerLossBps must be an integer between 0 and 10000")
  unless body.buyerLossBps.getD 0 + body.sellerLossBps.getD 0 = 10000 do
    throw (tradeValidationError "buyerLossBps and sellerLossBps must sum to 10000")
  return ⟨buyerAddress, body.sellerAddress.getD "", amountUsdc, body.buyerLossBps.getD 0,
    body.sellerLossBps.getD 0⟩

/-- The checks of `createBulkTrades`, for one of its rows. -/
def checkTradeRow (keys : Keys) (walletAddress : Option String) (row : TradeBody) :
    Except TradeError CreateTradeInput := do
  let buyerAddress ← checkBuyer keys walletAddress
  unless keys.isValidPublicKey row.sellerAddress do
    throw (tradeValidationError "Invalid sellerAddress")
  let some amountUsdc := normalizeAmountUsdc row.amountUsdc
    | throw (tradeValidationError "Invalid amountUsdc")
  unless isValidLossBps row.buyerLossBps && isValidLossBps row.sellerLossBps do
    throw (tradeValidationError
      "buyerLossBps and sellerLossBps must be integers between 0 and 10000")
  unless row.buyerLossBps.getD 0 + row.sellerLossBps.getD 0 = 10000 do
    throw (tradeValidationError "buyerLossBps and sellerLossBps must sum to 10000")
  return ⟨buyerAddress, row.sellerAddress.getD "", amountUsdc, row.buyerLossBps.getD 0,
    row.sellerLossBps.getD 0⟩

/-- What `createTradeFromTemplate` makes of a template of the caller's; nothing is checked.  Addresses
are of ASCII characters. -/
def fromTemplate (userAddress : String) (template : CreateTradeInput) : CreateTradeInput :=
  { template with buyerAddress := Text.toLowerCase userAddress }

/-! ## The transaction and its row -/

/-- A transaction that was built, with the identifier its simulation returned. -/
structure BuiltTrade where
  tradeId : String
  call : CreateTradeCall

/-- `none` where it throws. -/
def buildCreateTradeTx (keys : Keys) (rpc : Rpc) (input : CreateTradeInput) : Option BuiltTrade := do
  guard (rpc.hasAccount input.buyerAddress)
  let amount ← (parseDecimalToStroops input.amountUsdc moneyDecimals).toOption
  guard (keys.isAddress input.buyerAddress && keys.isAddress input.sellerAddress)
  let call : CreateTradeCall :=
    ⟨input.buyerAddress, input.sellerAddress, amount, input.buyerLossBps, input.sellerLossBps⟩
  let tradeId ← rpc.simulate call
  return ⟨tradeId, call⟩

/-- The middleware of `db.ts`.  It works on `args.data`: on what `create` is given, and not on what
`upsert` is. -/
def TradeRow.lowerCased (row : TradeRow) : TradeRow :=
  { row with
    buyerAddress := Text.toLowerCase row.buyerAddress
    sellerAddress := Text.toLowerCase row.sellerAddress }

/-- The row of a pending trade, as the database gets it. -/
def pendingRow (input : CreateTradeInput) : TradeRow :=
  TradeRow.lowerCased
    { buyerAddress := input.buyerAddress
      sellerAddress := input.sellerAddress
      amountUsdc := input.amountUsdc
      version := 0
      status := .pendingSignature
      expiresAt := none
      expiredAt := none }

/-- The transaction is built, and its row stored; `none` where something throws on the way. -/
def intake (keys : Keys) (rpc : Rpc) (refs : References) (input : CreateTradeInput)
    (rows : Db Row) : Option (BuiltTrade × Db Row) := do
  let built ← buildCreateTradeTx keys rpc input
  let (_, rows') ← ((create (Key.trade built.tradeId) (pendingRow input)).exec refs.valid
    rows).toOption
  return (built, rows')

/-- The requests that create a trade. -/
inductive TradeRequest where
  | createTrade (walletAddress : Option String) (body : TradeBody)
  /-- One row of `createBulkTrades`. -/
  | createBulkTrades (walletAddress : Option String) (row : TradeBody)
  | createTradeFromTemplate (userAddress : String) (template : CreateTradeInput)

/-- What a request asks to build. -/
def TradeRequest.check (keys : Keys) : TradeRequest → Except TradeError CreateTradeInput
  | .createTrade walletAddress body => checkTrade keys walletAddress body
  | .createBulkTrades walletAddress row => checkTradeRow keys walletAddress row
  | .createTradeFromTemplate userAddress template => .ok (fromTemplate userAddress template)

/-- The transaction a request is answered with, and the rows after it. -/
def TradeRequest.handle (keys : Keys) (rpc : Rpc) (refs : References) (request : TradeRequest)
    (rows : Db Row) : Option (BuiltTrade × Db Row) := do
  let input ← (request.check keys).toOption
  intake keys rpc refs input rows

/-- The answer of `createTrade`. -/
def createTrade (keys : Keys) (rpc : Rpc) (refs : References) (walletAddress : Option String)
    (body : TradeBody) (rows : Db Row) : Except TradeError BuiltTrade :=
  match checkTrade keys walletAddress body with
  | .error error => .error error
  | .ok input =>
    match intake keys rpc refs input rows with
    | none => .error tradeCreationFailed
    | some (built, _) => .ok built

/-! ## What a request does -/

variable {keys : Keys} {rpc : Rpc} {refs : References} {rows rows' : Db Row} {built : BuiltTrade}

/-- The call that is built asks for the amount of the input. -/
theorem parse_of_built {input : CreateTradeInput}
    (h : buildCreateTradeTx keys rpc input = some built) :
    parseDecimalToStroops input.amountUsdc moneyDecimals = .ok built.call.amount := by
  simp only [buildCreateTradeTx, Option.bind_eq_bind, Option.bind_eq_some_iff, Option.pure_def] at h
  obtain ⟨_, -, amount, hparsed, _, -, tradeId, -, hbuilt⟩ := h
  obtain rfl := Option.some.inj hbuilt
  exact toOption_eq_some.1 hparsed

/-- A request that is answered stores one new row, whose amount reads as that of the call. -/
structure Taken (refs : References) (rows : Db Row) (built : BuiltTrade) (row : TradeRow)
    (rows' : Db Row) : Prop where
  parsed : parseDecimalToStroops row.amountUsdc moneyDecimals = .ok built.call.amount
  free : rows (.trade built.tradeId) = none
  valid : refs.valid (.trade built.tradeId) row = true
  stored : rows' = rows.write (.trade built.tradeId) (some row)

theorem taken_of_handle {request : TradeRequest}
    (h : request.handle keys rpc refs rows = some (built, rows')) :
    ∃ input, request.check keys = .ok input ∧ Taken refs rows built (pendingRow input) rows' := by
  simp only [TradeRequest.handle, intake, Option.bind_eq_bind, Option.bind_eq_some_iff,
    Option.pure_def] at h
  obtain ⟨input, hinput, built', hbuilt, ⟨_, stored⟩, hstored, hanswer⟩ := h
  cases hanswer
  obtain ⟨hfree, hvalid, rfl⟩ := exec_create_eq_ok.1 (toOption_eq_some.1 hstored)
  exact ⟨input, toOption_eq_some.1 hinput, parse_of_built hbuilt, hfree, hvalid, rfl⟩

/-- A text begins the way its first part does, if there is something in it. -/
theorem head?_of_splitOn {text whole : List Char} {rest : List (List Char)}
    (h : text.splitOn '.' = whole :: rest) (numeral : isNumeral whole = true) :
    text.head? = whole.head? := by
  have hjoin : ['.'].intercalate (text.splitOn '.') = text := List.intercalate_splitOn '.'
  match whole, numeral with
  | c :: cs, _ =>
    rw [h] at hjoin
    rw [← hjoin]
    cases rest <;> simp [List.intercalate]

/-- What the API accepts as an amount, `money.ts` takes for one. -/
theorem decimal_of_amountUsdc {text : List Char} (h : amountUsdcPattern text = true) :
    text.head? ≠ some '-' ∧ decimalPattern text = true ∧
      (decimalParts text).2.length ≤ moneyDecimals := by
  unfold amountUsdcPattern at h
  split at h
  · next whole hsplit =>
    have hhead : text.head? ≠ some '-' := by
      rw [head?_of_splitOn hsplit h]
      exact head?_ne_sign h
    refine ⟨hhead, ?_, ?_⟩
    · rw [decimalPattern, withoutSign_of_head? hhead, hsplit]
      exact h
    · rw [decimalParts, hsplit]
      exact Nat.zero_le _
  · next whole fraction hsplit =>
    obtain ⟨hnumerals, hlength⟩ := Bool.and_eq_true_iff.1 h
    have hhead : text.head? ≠ some '-' := by
      rw [head?_of_splitOn hsplit (Bool.and_eq_true_iff.1 hnumerals).1]
      exact head?_ne_sign (Bool.and_eq_true_iff.1 hnumerals).1
    refine ⟨hhead, ?_, ?_⟩
    · rw [decimalPattern, withoutSign_of_head? hhead, hsplit]
      exact hnumerals
    · rw [decimalParts, hsplit]
      exact of_decide_eq_true hlength
  · cases h

/-- The characters of an amount are those of its parts, and its point. -/
theorem mem_decimalParts {text : List Char} (h : decimalPattern text = true)
    (nonneg : text.head? ≠ some '-') {c : Char} (mem : c ∈ text) (point : c ≠ '.') :
    c ∈ (decimalParts text).1 ++ (decimalParts text).2 := by
  have hjoin : ['.'].intercalate (text.splitOn '.') = text := List.intercalate_splitOn '.'
  rw [decimalPattern, withoutSign_of_head? nonneg] at h
  split at h
  · next whole hsplit =>
    rw [hsplit] at hjoin
    rw [← hjoin] at mem
    simpa [decimalParts, hsplit, List.intercalate] using mem
  · next whole fraction hsplit =>
    rw [hsplit] at hjoin
    rw [← hjoin] at mem
    simpa [decimalParts, hsplit, List.intercalate, point] using mem
  · cases h

/-- An amount that is accepted is positive, and the amount it is read as may only be too large. -/
theorem parse_of_accepted {value : Option String} {amount : String}
    (h : normalizeAmountUsdc value = some amount) :
    ∃ stroops : Nat, 0 < stroops ∧
      parseDecimalToStroops amount moneyDecimals = assertI128Range stroops := by
  obtain ⟨htext, haccepted⟩ := Option.filter_eq_some_iff.1 h
  obtain ⟨text, -, rfl⟩ := Option.map_eq_some_iff.1 htext
  obtain ⟨hamount, hnonzero⟩ := Bool.and_eq_true_iff.1 haccepted
  obtain ⟨c, hc, hdigit⟩ := List.any_eq_true.1 hnonzero
  have hdigit : c.isDigit = true ∧ c ≠ '0' := by simpa using hdigit
  obtain ⟨hhead, hpattern, hfits⟩ := decimal_of_amountUsdc hamount
  refine ⟨_, ?_, parse_of_pattern (Text.trim_trim text) hhead hpattern hfits⟩
  have hpoint : c ≠ '.' := by
    rintro rfl
    exact absurd hdigit.1 (by decide)
  have hmem := mem_decimalParts hpattern hhead hc hpoint
  apply numeralValue_pos (c := c) ?_ hdigit.1 hdigit.2
  rw [List.rightpad, ← List.append_assoc]
  exact List.mem_append_left _ hmem

end Amana.Backend
