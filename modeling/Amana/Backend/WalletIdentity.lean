import Amana.Backend.AuthRoutes
import Amana.Backend.StoredAmounts
import Amana.Backend.TokenFamilies

/-!
# The spelling of a wallet

Keys are spelled in upper case.  A token names its wallet in lower case, which is not a key any
more: `createTrade` and `buildDepositTx` refuse every token (`checkBuyer_of_token`).  The event of a
trade that was created elsewhere spells its parties as the chain does, and no list looks for that
spelling.  So all goes well with a wallet as long as it has no token and no event names it
(`oneSpelling_iff`).  All spellings are of ASCII characters.
-/

namespace Amana.Backend

open Lib Lib.Database Lib.Jobs AuthService
open Escrow (Address)

/-! ## Keys -/

/-- Account addresses begin with `G`, and the addresses of contracts, muxed accounts, claimable
balances and liquidity pools with `C`, `M`, `B` and `L`. -/
structure Keys.UpperCase (keys : Keys) : Prop where
  account : ∀ s, keys.isValidEd25519PublicKey s = true → s.toList.head? = some 'G'
  address : ∀ s, keys.isAddress s = true → ∃ c ∈ s.toList.head?, c ∈ ['G', 'C', 'M', 'B', 'L']

/-- Addresses become texts. -/
def Sdk.ReadsAddresses (sdk : Sdk) (strkey : Address → String) : Prop :=
  ∀ a, sdk.scValToNative (.address a) = some (.string (strkey a))

variable {keys : Keys} {w : String}

theorem Keys.UpperCase.isValid_toLowerCase (upper : keys.UpperCase) (s : String) :
    keys.isValidEd25519PublicKey (Text.toLowerCase s) = false := by
  by_contra hvalid
  have hhead := upper.account _ (by simpa using hvalid)
  exact Text.toLowerCase_ne (List.mem_of_head? hhead) (by decide) s rfl

theorem Keys.UpperCase.ne_toLowerCase (upper : keys.UpperCase) {s : String}
    (address : keys.isAddress s = true) (t : String) : Text.toLowerCase t ≠ s := by
  obtain ⟨c, hhead, hc⟩ := upper.address s address
  have hupper : (['G', 'C', 'M', 'B', 'L'].all fun c => c.toLower != c) = true := by decide
  exact Text.toLowerCase_ne (List.mem_of_head? hhead)
    (by simpa using List.all_eq_true.1 hupper c hc) t

/-! ## What tokens name -/

section Tokens

variable {config : AuthConfig} {token : String}

/-- If the service has signed the token, it names a wallet in lower case. -/
def NamesLower (config : AuthConfig) (token : String) : Prop :=
  ∀ payload, config.payload token = some payload →
    ∃ walletAddress, payload.walletAddress = some (Text.toLowerCase walletAddress)

variable (sound : config.jwt.Sound)

include sound

theorem issueToken_yields (walletAddress : String) :
    (issueToken config walletAddress).run.Yields (IfOk (NamesLower config)) := by
  unfold issueToken
  split
  · trivial
  rename_i secret hsecret
  apply yields_then
  intro now
  apply yields_then
  intro jti
  apply yields_then
  intro tv payload hpayload
  rw [payload_of_sign sound hsecret hpayload]
  exact ⟨walletAddress, rfl⟩

theorem issueAdminToken_yields (walletAddress : String) (ctx : DeviceContext) :
    (issueAdminToken config walletAddress ctx).run.Yields
      (IfOk fun issued => NamesLower config issued.token) := by
  unfold issueAdminToken
  split
  · trivial
  rename_i secret hsecret
  apply yields_then
  intro now
  apply yields_then
  intro jti
  apply yields_then
  intro tv
  apply yields_then
  intro _ payload hpayload
  rw [payload_of_sign sound hsecret hpayload]
  exact ⟨walletAddress, rfl⟩

omit sound in
/-- A replaced error is still one. -/
theorem orElse_yields {α : Type} {P : α → Prop} (replacement e : AuthError) :
    (orElse replacement e : AuthJob α).run.Yields (IfOk P) := by
  obtain ⟨e', he'⟩ := orElse_raises (α := α) replacement e
  rw [he']
  trivial

theorem verify_yields (walletAddress signedChallenge : String) :
    (verifySignatureAndIssueJWT config walletAddress signedChallenge).run.Yields
      (IfOk (NamesLower config)) := by
  refine Job.Yields.tryCatch ?_ (orElse_yields _)
  apply yields_then
  intro failures
  split
  · trivial
  apply yields_then
  intro raw
  split
  · trivial
  · trivial
  split
  · apply yields_then
    intro _
    apply yields_then
    rintro (error | _)
    · trivial
    · exact issueToken_yields sound _
  · apply yields_then
    intro raw
    apply yields_then
    intro _
    trivial

theorem refreshToken_yields (old : String) :
    (refreshToken config old).run.Yields (IfOk (NamesLower config)) := by
  unfold refreshToken
  split
  · trivial
  refine Job.Yields.tryCatch ?_ (orElse_yields _)
  apply yields_then
  intro clock
  split
  · trivial
  split
  · trivial
  apply yields_then
  intro now
  unfold renew
  split
  · trivial
  apply yields_then
  rintro (_ | _)
  · apply yields_then
    exact fun _ => issueToken_yields sound _
  · trivial

theorem stepUp_yields (old : String) (ctx : DeviceContext) :
    (stepUp config old ctx).run.Yields
      (IfOk fun response => ∀ issued, response = .steppedUp issued →
        NamesLower config issued.token) := by
  unfold stepUp asAdmin authenticated
  apply yields_then
  rintro (error | user)
  · rintro issued ⟨⟩
  apply yields_then
  rintro (_ | ⟨statusCode, text⟩)
  · refine Job.Yields.tryCatch ?_ fun e => ?_
    · apply (issueAdminToken_yields sound _ ctx).except_bind
      intro issued hissued
      apply yields_then
      rintro _ issued' ⟨⟩
      exact hissued
    · rintro issued ⟨⟩
  · rintro issued ⟨⟩

/-- Whatever is answered, a token that is handed out names its wallet in lower case. -/
theorem job_yields (c : AuthCall) :
    (c.job config).Yields fun r => ∀ token, c.granted r = some token → NamesLower config token := by
  cases c with
  | verify walletAddress signedChallenge =>
    apply yields_map.2
    apply (verify_yields sound walletAddress signedChallenge).mono
    rintro (e | token) hnames token' ⟨⟩
    exact hnames
  | refreshToken old =>
    apply yields_map.2
    apply (refreshToken_yields sound old).mono
    rintro (e | token) hnames token' ⟨⟩
    exact hnames
  | stepUp old ctx =>
    apply yields_map.2
    apply (stepUp_yields sound old ctx).mono
    rintro (e | response) hnames token' htoken
    · cases htoken
    · cases response with
      | steppedUp issued =>
        cases htoken
        exact hnames issued rfl
      | _ => cases htoken
  | _ => exact yields_of_forall (fun r token htoken => by cases htoken) _

end Tokens

/-! ## What the address of a token is compared with -/

def isBuyer (tradeBuyer caller : String) : Bool := tradeBuyer == caller

def isSeller (tradeSeller caller : String) : Bool := tradeSeller == caller

/-- The filter of `listUserTrades`. -/
def listUserTradesWhere (address : String) (status : Option TradeStatus) (row : TradeRow) : Bool :=
  (row.buyerAddress == address || row.sellerAddress == address) && status.all (row.status == ·)

def tradeNotFound : TradeError := ⟨.tradeNotFound, "Trade not found", 404⟩

def tradeForbidden : TradeError := ⟨.tradeAccessDenied, "Forbidden", 403⟩

def tradeNotCreated : TradeError :=
  ⟨.tradeInvalidStatus, "Trade must be in CREATED status", 400⟩

def depositFailed : TradeError :=
  ⟨.tradeBuildFailed, "Failed to build deposit transaction", 500⟩

/-- A trade with its identifier. -/
abbrev FoundTrade := String × TradeRow

/-- `found` is what the database has under the identifier of the request, and `admins` are the
entries of `ADMIN_STELLAR_PUBKEYS` in lower case. -/
def getTradeById (admins : List String) (found : Option FoundTrade) (callerAddress : String) :
    Except TradeError (Option FoundTrade) :=
  match found with
  | none => .ok none
  | some trade =>
    let caller := Text.toLowerCase callerAddress
    if Text.toLowerCase trade.2.buyerAddress ≠ caller &&
        Text.toLowerCase trade.2.sellerAddress ≠ caller && !admins.contains caller then
      .error tradeForbidden
    else .ok (some trade)

/-- `build` makes the transaction of a trade; `none` where it throws. -/
def buildDepositTx (keys : Keys) (admins : List String) (build : FoundTrade → Option String)
    (tradeId : String) (walletAddress : Option String) (found : Option FoundTrade) :
    Except TradeError String := do
  if tradeId = "" then throw (tradeValidationError "Trade id is required")
  let callerAddress ← checkBuyer keys walletAddress
  let some trade ← getTradeById admins found callerAddress | throw tradeNotFound
  if trade.2.buyerAddress ≠ callerAddress then throw tradeForbidden
  if trade.2.status ≠ .created then throw tradeNotCreated
  let some unsignedXdr := build trade | throw depositFailed
  return unsignedXdr

theorem checkBuyer_of_valid (valid : keys.isValidEd25519PublicKey w = true) (nonempty : w ≠ "") :
    checkBuyer keys (some w) = .ok w := by
  simp [checkBuyer, Keys.isValidPublicKey, Option.filter, valid, nonempty]

theorem checkBuyer_of_invalid (invalid : keys.isValidEd25519PublicKey w = false)
    (nonempty : w ≠ "") :
    checkBuyer keys (some w) = .error (tradeValidationError "Invalid buyer wallet address") := by
  simp [checkBuyer, Keys.isValidPublicKey, Option.filter, invalid, nonempty]

/-- Past the first check, `createTrade` fails otherwise. -/
theorem createTrade_ne {rpc : Rpc} {refs : References} {walletAddress : Option String}
    {body : TradeBody} {rows : Db Row} (valid : checkBuyer keys walletAddress = .ok w) :
    createTrade keys rpc refs walletAddress body rows ≠
      .error (tradeValidationError "Invalid buyer wallet address") := by
  unfold createTrade checkTrade
  simp only [valid, bind, Except.bind, pure, Except.pure, throw, throwThe, MonadExceptOf.throw]
  grind [tradeValidationError, tradeCreationFailed]

theorem buildDepositTx_ne {admins : List String} {build : FoundTrade → Option String}
    {tradeId : String} {walletAddress : Option String} {found : Option FoundTrade}
    (valid : checkBuyer keys walletAddress = .ok w) :
    buildDepositTx keys admins build tradeId walletAddress found ≠
      .error (tradeValidationError "Invalid buyer wallet address") := by
  unfold buildDepositTx getTradeById
  simp only [valid, bind, Except.bind, pure, Except.pure, throw, throwThe, MonadExceptOf.throw]
  grind [tradeValidationError, tradeForbidden, tradeNotFound, tradeNotCreated, depositFailed]

/-- The buyer gets the transaction of a created trade. -/
theorem buildDepositTx_of_buyer {admins : List String} {build : FoundTrade → Option String}
    {tradeId unsignedXdr : String} {trade : FoundTrade} (asked : tradeId ≠ "")
    (valid : checkBuyer keys (some w) = .ok w) (buyer : trade.2.buyerAddress = w)
    (created : trade.2.status = .created) (built : build trade = some unsignedXdr) :
    buildDepositTx keys admins build tradeId (some w) (some trade) = .ok unsignedXdr := by
  have hfound : getTradeById admins (some trade) w = .ok (some trade) := by
    simp [getTradeById, buyer]
  simp only [buildDepositTx, if_neg asked, valid, Except.bind, bind]
  simp [hfound, buyer, created, built, pure, Except.pure]

/-! ## A wallet and its trades -/

/-- The authentication service, beside the contract and the rows. -/
structure Site where
  auth : AuthWorld
  platform : Platform

inductive Occurrence where
  | auth (a : AuthStep)
  | platform (a : Happening)

variable (config : AuthConfig) (sdk : Sdk) (keys : Keys) (refs : References) (w : String)

def Site.step (site : Site) : Occurrence → Site
  | .auth a => { site with auth := Jobs.step (Backend.auth config) site.auth a }
  | .platform a => { site with platform := site.platform.step sdk keys refs a }

/-- The wallet has been given the token. -/
structure HoldsToken (site : Site) (token : String) (payload : JwtPayload) : Prop where
  issued : Issued site.auth token
  signed : config.payload token = some payload
  names : payload.walletAddress.map Text.toLowerCase = some (Text.toLowerCase w)

def TradeRow.parties (row : TradeRow) : List String := [row.buyerAddress, row.sellerAddress]

/-- The text spells the wallet, in whatever case. -/
def Spells (party : String) : Prop := Text.toLowerCase party = Text.toLowerCase w

/-- All layers spell the wallet the same way. -/
structure OneSpelling (site : Site) : Prop where
  /-- The tokens of the wallet pass the first check of `createTrade` and `buildDepositTx`. -/
  accepted : ∀ token payload, HoldsToken config w site token payload →
    (∀ rpc refs body rows, createTrade keys rpc refs payload.walletAddress body rows ≠
      .error (tradeValidationError "Invalid buyer wallet address")) ∧
    ∀ admins build tradeId found,
      buildDepositTx keys admins build tradeId payload.walletAddress found ≠
        .error (tradeValidationError "Invalid buyer wallet address")
  /-- The rows that name the wallet spell it as tokens do. -/
  spelled : ∀ tradeId (row : TradeRow), site.platform.rows (.trade tradeId) = some row →
    ∀ party ∈ row.parties, Spells w party → party = Text.toLowerCase w
  /-- The wallet finds its trades in its list. -/
  sees : ∀ token payload address, HoldsToken config w site token payload →
    payload.walletAddress = some address → ∀ tradeId (row : TradeRow),
      site.platform.rows (.trade tradeId) = some row → (∃ party ∈ row.parties, Spells w party) →
        listUserTradesWhere address none row = true
  /-- The buyer of a trade counts as its buyer, and gets the transaction of the deposit. -/
  acts : ∀ token payload address, HoldsToken config w site token payload →
    payload.walletAddress = some address → ∀ tradeId (row : TradeRow),
      site.platform.rows (.trade tradeId) = some row → Spells w row.buyerAddress →
        isBuyer row.buyerAddress address = true ∧
        ∀ admins build id unsignedXdr, id ≠ "" → row.status = .created →
          build (tradeId, row) = some unsignedXdr →
          buildDepositTx keys admins build id (some address) (some (tradeId, row)) = .ok unsignedXdr

/-- The step hands a token out to the wallet. -/
def IssuesToken (site : Site) (a : Occurrence) : Prop :=
  ∃ token payload, ¬ Issued site.auth token ∧
    HoldsToken config w (site.step config sdk keys refs a) token payload

/-- The transaction of a `TradeCreated` event is about to create a row that names the wallet. -/
def CreatesNaming (site : Site) : Occurrence → Prop
  | .platform (.deliver n _ key) => ∃ event ∈ site.platform.parsed sdk n key,
    event.eventType = .tradeCreated ∧ site.platform.rows (.trade event.tradeId) = none ∧
      refs.valid (.trade event.tradeId) event.payload = true ∧
      ∃ party ∈ event.payload.parties, Spells w party
  | _ => False

section Steps

variable {config sdk keys refs w} {site : Site} {a : Occurrence} {token address : String}
  {payload : JwtPayload}

/-- Whatever they have been answered, calls only hand out tokens in lower case. -/
def Site.Lower (config : AuthConfig) (site : Site) : Prop :=
  site.auth.Yields fun c r => ∀ token, c.granted r = some token → NamesLower config token

theorem Site.Lower.step (sound : config.jwt.Sound) (h : site.Lower config) :
    (site.step config sdk keys refs a).Lower config := by
  cases a with
  | auth a =>
    show (Jobs.step (Backend.auth config) site.auth a).Yields _
    exact World.Yields.step _ (job_yields sound) h a
  | platform a => exact h

theorem HoldsToken.walletAddress (h : HoldsToken config w site token payload)
    (lower : site.Lower config) : payload.walletAddress = some (Text.toLowerCase w) := by
  obtain ⟨i, c, hout⟩ := h.issued
  obtain ⟨r, hdone, hgranted⟩ := hout.done
  obtain ⟨walletAddress, hnames⟩ := lower i c _ hdone token hgranted payload h.signed
  have hsame := h.names
  rw [hnames, Option.map_some, Text.toLowerCase_toLowerCase] at hsame
  rw [hnames, hsame]

theorem Spells.ne_empty {party : String} (h : Spells w party) (nonempty : w ≠ "") : party ≠ "" := by
  rintro rfl
  have hlist := congrArg String.toList h
  rw [Text.toList_toLowerCase, Text.toList_toLowerCase] at hlist
  exact nonempty (String.toList_injective (by simpa using hlist.symm))

/-- No key is spelled like the address of a token. -/
theorem checkBuyer_of_token (upper : keys.UpperCase) (nonempty : w ≠ "") :
    checkBuyer keys (some (Text.toLowerCase w)) =
      .error (tradeValidationError "Invalid buyer wallet address") := by
  apply checkBuyer_of_invalid (upper.isValid_toLowerCase w)
  exact Spells.ne_empty (w := w) (Text.toLowerCase_toLowerCase w) nonempty

theorem OneSpelling.not_holdsToken (one : OneSpelling config keys w site) (upper : keys.UpperCase)
    (nonempty : w ≠ "") (lower : site.Lower config) : ¬ HoldsToken config w site token payload := by
  intro hholds
  have haccepted := (one.accepted token payload hholds).1 ⟨fun _ => false, fun _ => none⟩
    ⟨fun _ => true, fun _ => true⟩ ⟨none, none, none, none⟩ fun _ => none
  rw [hholds.walletAddress lower] at haccepted
  apply haccepted
  rw [createTrade, checkTrade, checkBuyer_of_token upper nonempty]
  rfl

/-- What the wallet can see and do follows from the spellings. -/
theorem oneSpelling_of_spelled (lower : site.Lower config) (nonempty : w ≠ "")
    (accepted : ∀ token payload, HoldsToken config w site token payload →
      keys.isValidEd25519PublicKey (Text.toLowerCase w) = true)
    (spelled : ∀ tradeId (row : TradeRow), site.platform.rows (.trade tradeId) = some row →
      ∀ party ∈ row.parties, Spells w party → party = Text.toLowerCase w) :
    OneSpelling config keys w site := by
  have hnonempty : Text.toLowerCase w ≠ "" :=
    Spells.ne_empty (w := w) (Text.toLowerCase_toLowerCase w) nonempty
  have hvalid : ∀ token payload, HoldsToken config w site token payload →
      checkBuyer keys (some (Text.toLowerCase w)) = .ok (Text.toLowerCase w) :=
    fun token payload hholds => checkBuyer_of_valid (accepted token payload hholds) hnonempty
  refine ⟨fun token payload hholds => ?_, spelled, ?_, ?_⟩
  · rw [hholds.walletAddress lower]
    exact ⟨fun _ _ _ _ => createTrade_ne (hvalid _ _ hholds),
      fun _ _ _ _ => buildDepositTx_ne (hvalid _ _ hholds)⟩
  · rintro token payload address hholds haddress tradeId row hrow ⟨party, hparty, hspells⟩
    obtain rfl := Option.some.inj ((hholds.walletAddress lower).symm.trans haddress)
    have hsame := spelled tradeId row hrow party hparty hspells
    have hparty : party = row.buyerAddress ∨ party = row.sellerAddress := by
      simpa [TradeRow.parties] using hparty
    rcases hparty with rfl | rfl <;> simp [listUserTradesWhere, hsame]
  · intro token payload address hholds haddress tradeId row hrow hspells
    obtain rfl := Option.some.inj ((hholds.walletAddress lower).symm.trans haddress)
    have hbuyer : row.buyerAddress = Text.toLowerCase w :=
      spelled tradeId row hrow _ (List.mem_cons_self ..) hspells
    refine ⟨by simpa [isBuyer] using hbuyer, ?_⟩
    intro admins build id unsignedXdr hasked hcreated hbuilt
    exact buildDepositTx_of_buyer hasked (hvalid _ _ hholds) hbuyer hcreated hbuilt

/-- A request spells the parties of its trade in lower case. -/
theorem spelled_of_request {p : Platform} {rpc : Rpc} {request : TradeRequest} {built : BuiltTrade}
    {rows : Db Row} {row : TradeRow}
    (answer : request.handle keys rpc refs p.rows = some (built, rows))
    (stored : (p.step sdk keys refs (.request rpc request)).rows (.trade built.tradeId) = some row) :
    ∀ party ∈ row.parties, ∃ given, party = Text.toLowerCase given := by
  obtain ⟨input, -, htaken⟩ := taken_of_handle answer
  simp only [Platform.step, answer, Option.map_some, Option.getD_some, htaken.stored,
    Db.write_same] at stored
  obtain rfl := Option.some.inj stored
  intro party hparty
  have hparty : party = Text.toLowerCase input.buyerAddress ∨
      party = Text.toLowerCase input.sellerAddress := by
    simpa [TradeRow.parties, pendingRow, TradeRow.lowerCased] using hparty
  rcases hparty with rfl | rfl
  · exact ⟨_, rfl⟩
  · exact ⟨_, rfl⟩

/-- The parties of a `TradeCreated` event are spelled as the chain does. -/
theorem spelled_of_created {p : Platform} {strkey : Address → String}
    (reads : sdk.ReadsAddresses strkey) {n : Nat} {key : EventKey} {event : ParsedEvent}
    (parsed : p.parsed sdk n key = some event) (type : event.eventType = .tradeCreated) :
    ∀ party ∈ event.payload.parties, ∃ address, party = strkey address := by
  obtain ⟨k, buyer, seller, amount, -, -, hdata⟩ := created_of_parsed parsed type
  have hbuyer : event.data.text "buyer" = some (strkey buyer) := by
    rw [hdata]
    show (sdk.scValToNative (.address buyer)).map Native.text = _
    rw [reads buyer]
    rfl
  have hseller : event.data.text "seller" = some (strkey seller) := by
    rw [hdata]
    show (sdk.scValToNative (.address seller)).map Native.text = _
    rw [reads seller]
    rfl
  intro party hparty
  rw [ParsedEvent.payload, if_pos type, createdPayload, hbuyer, hseller] at hparty
  have hparty : party = strkey buyer ∨ party = strkey seller := by
    simpa [TradeRow.parties, createPayload] using hparty
  rcases hparty with rfl | rfl
  · exact ⟨_, rfl⟩
  · exact ⟨_, rfl⟩

/-- A step that creates no row from an event naming the wallet leaves one spelling. -/
theorem spelled_step (nonempty : w ≠ "")
    (clean : ¬ CreatesNaming sdk refs w site a)
    (spelled : ∀ tradeId (row : TradeRow), site.platform.rows (.trade tradeId) = some row →
      ∀ party ∈ row.parties, Spells w party → party = Text.toLowerCase w) :
    ∀ tradeId (row : TradeRow),
      (site.step config sdk keys refs a).platform.rows (.trade tradeId) = some row →
      ∀ party ∈ row.parties, Spells w party → party = Text.toLowerCase w := by
  intro tradeId row hrow party hparty hspells
  cases a with
  | auth a => exact spelled tradeId row hrow party hparty hspells
  | platform a =>
    cases stored_of_step hrow with
    | kept old found same =>
      have hparties : row.parties = old.parties :=
        congrArg (fun terms : String × String × String => [terms.1, terms.2.1]) same
      rw [hparties] at hparty
      exact spelled tradeId old found party hparty hspells
    | @request rpc request built rows answer about free parsed =>
      subst about
      have hstored : (site.platform.step sdk keys refs (.request rpc request)).rows
          (.trade built.tradeId) = some row := hrow
      obtain ⟨given, rfl⟩ := spelled_of_request answer hstored party hparty
      rw [Spells, Text.toLowerCase_toLowerCase] at hspells
      exact hspells
    | @event n now key event parsed about free valid payload =>
      subst about payload
      by_cases htype : event.eventType = .tradeCreated
      · exact absurd ⟨event, parsed, htype, free, valid, party, hparty, hspells⟩ clean
      · -- The other events name nobody.
        rw [ParsedEvent.payload, if_neg htype] at hparty
        have hempty : party = "" := by
          simpa [TradeRow.parties, barePayload, createPayload] using hparty
        exact absurd hempty (hspells.ne_empty nonempty)

/-- A row that an event creates is spelled another way. -/
theorem not_createsNaming {strkey : Address → String} (reads : sdk.ReadsAddresses strkey)
    (upper : keys.UpperCase) (addresses : ∀ address, keys.isAddress (strkey address) = true)
    (after : OneSpelling config keys w (site.step config sdk keys refs a)) :
    ¬ CreatesNaming sdk refs w site a := by
  cases a with
  | auth a => exact fun h => h
  | platform a =>
    cases a with
    | deliver n now key =>
      rintro ⟨event, hparsed, htype, hfree, hvalid, party, hparty, hspells⟩
      have hrow : (site.platform.step sdk keys refs (.deliver n now key)).rows
          (.trade event.tradeId) = some event.payload := row_of_created hparsed htype hfree hvalid
      obtain ⟨address, rfl⟩ := spelled_of_created reads hparsed htype party hparty
      have hsame := after.spelled event.tradeId _ hrow _ hparty hspells
      exact upper.ne_toLowerCase (addresses address) w hsame.symm
    | _ => exact fun h => h

end Steps

/-! ## Runs -/

variable {config sdk keys refs w}

/-- The contract is deployed, nothing is stored, and no call to the authentication service has come
in. -/
def Site.opened (tokens : Token.Ledger Address) (s : AuthState) : Site :=
  ⟨.fresh s, .deployed tokens⟩

/-- All along a run every layer spells the wallet the same way, exactly when no token is issued to
it and no row that names it is created by an event. -/
theorem oneSpelling_iff {strkey : Address → String} (sound : config.jwt.Sound)
    (upper : keys.UpperCase) (reads : sdk.ReadsAddresses strkey)
    (addresses : ∀ address, keys.isAddress (strkey address) = true)
    (valid : keys.isValidEd25519PublicKey w = true) (tokens : Token.Ledger Address) (s : AuthState)
    (as : List Occurrence) :
    (∀ before, before <+: as → OneSpelling config keys w
      (Machine.run (Site.step config sdk keys refs) (.opened tokens s) before)) ↔
      ∀ p ∈ Machine.trail (Site.step config sdk keys refs) (.opened tokens s) as,
        ¬ IssuesToken config sdk keys refs w p.1 p.2 ∧ ¬ CreatesNaming sdk refs w p.1 p.2 := by
  have hnonempty : w ≠ "" := by
    rintro rfl
    cases upper.account "" valid
  refine Machine.always_iff (Site.step config sdk keys refs) (P := OneSpelling config keys w)
    (W := fun site => site.Lower config) (C := fun site a =>
      ¬ IssuesToken config sdk keys refs w site a ∧ ¬ CreatesNaming sdk refs w site a)
    as ?_ ?_ ?_ ?_ ?_
  · intro i c job found
    cases found
  · apply oneSpelling_of_spelled (fun i c job found => by cases found) hnonempty
    · rintro token payload ⟨⟨i, c, hcall, -⟩, -, -⟩
      cases hcall
    · intro tradeId row hrow
      cases hrow
  · exact fun site a lower => lower.step sound
  · rintro site a lower one ⟨hissues, hnames⟩
    apply oneSpelling_of_spelled (lower.step sound) hnonempty
    · intro token payload hholds
      by_cases hold : Issued site.auth token
      · exact absurd ⟨hold, hholds.signed, hholds.names⟩
          (one.not_holdsToken upper hnonempty lower)
      · exact absurd ⟨token, payload, hold, hholds⟩ hissues
    · exact spelled_step hnonempty hnames one.spelled
  · refine fun site a lower one after => ⟨?_, not_createsNaming reads upper addresses after⟩
    rintro ⟨token, payload, -, hholds⟩
    exact after.not_holdsToken upper hnonempty (lower.step sound) hholds

/-! ## Samples -/

namespace Sample

/-- What begins like a key or an address is one. -/
def lettered : Keys where
  isValidEd25519PublicKey s := s.toList.head? == some 'G'
  isAddress s := s.toList.head?.any fun c => ['G', 'C', 'M', 'B', 'L'].contains c

theorem lettered_upperCase : lettered.UpperCase := by
  refine ⟨fun s h => by simpa [lettered] using h, fun s h => ?_⟩
  obtain ⟨c, hhead, hc⟩ := (Option.any_eq_true ..).1 h
  exact ⟨c, hhead, List.contains_iff_mem.1 hc⟩

theorem stellar_readsAddresses (strkey : Address → String) :
    (stellar strkey).ReadsAddresses strkey := fun _ => rfl

/-- Another wallet logs in, and Alice asks for a trade. -/
def mixed : List Occurrence := login.map .auth ++ requested.map .platform

/-- The site after these occurrences. -/
def site (as : List Occurrence) : Site :=
  Machine.run (Site.step authConfig (stellar fun _ => "G") lettered everybody)
    (.opened Escrow.Sample.tokens loggedOut) as

/-- The only wallet that logs in is another one. -/
theorem not_issuesToken (s : Site) (a : Occurrence) : ¬ IssuesToken authConfig
    (stellar fun _ => "G") lettered everybody "GALICE" s a := by
  rintro ⟨token, payload, -, hholds⟩
  have hmem : payload ∈ payloads := by
    have hfound : payloads.find? (fun payload => payload.jti = some token) = some payload :=
      hholds.signed
    exact List.mem_of_find?_eq_some hfound
  have hother : ∀ payload ∈ payloads,
      payload.walletAddress.map Text.toLowerCase ≠ some (Text.toLowerCase "GALICE") := by
    decide +kernel
  exact hother payload hmem hholds.names

/-- No event names Alice. -/
theorem not_createsNaming (s : Site) (a : Occurrence) :
    ¬ CreatesNaming (stellar fun _ => "G") everybody "GALICE" s a := by
  cases a with
  | auth a => exact fun h => h
  | platform a =>
    cases a with
    | deliver n now key =>
      rintro ⟨event, hparsed, htype, -, -, party, hparty, hspells⟩
      obtain ⟨address, rfl⟩ :=
        spelled_of_created (stellar_readsAddresses _) hparsed htype party hparty
      have hother : ¬ Spells "GALICE" "G" := by
        unfold Spells
        decide +kernel
      exact hother hspells
    | _ => exact fun h => h

end Sample

/-- Alice has not logged in, and the row of her request spells her in lower case. -/
theorem oneSpelling_mixed :
    ((Sample.site Sample.mixed).platform.rows (.trade (toString Escrow.Sample.first))).map
        TradeRow.buyerAddress = some "galice" ∧
      ∀ before, before <+: Sample.mixed →
        OneSpelling Sample.authConfig Sample.lettered "GALICE" (Sample.site before) :=
  ⟨by decide +kernel, (oneSpelling_iff Sample.jwt_sound Sample.lettered_upperCase
    (Sample.stellar_readsAddresses _) (fun _ => by decide +kernel) (by decide +kernel)
    Escrow.Sample.tokens Sample.loggedOut Sample.mixed).2 fun p _ =>
      ⟨Sample.not_issuesToken p.1 p.2, Sample.not_createsNaming p.1 p.2⟩⟩

/-- The wallet logs in, and `createTrade` does not take the address of its token for a key. -/
theorem not_oneSpelling_of_login :
    Sample.lettered.isValidEd25519PublicKey "GA" = true ∧
      HoldsToken Sample.authConfig "GA" (Sample.site (Sample.login.map .auth)) "j0"
        (Sample.payload "j0" 0 0) ∧
      (∀ rpc refs body rows, createTrade Sample.lettered rpc refs
        (Sample.payload "j0" 0 0).walletAddress body rows =
          .error (tradeValidationError "Invalid buyer wallet address")) ∧
      ¬ OneSpelling Sample.authConfig Sample.lettered "GA"
        (Sample.site (Sample.login.map .auth)) := by
  have hholds : HoldsToken Sample.authConfig "GA" (Sample.site (Sample.login.map .auth)) "j0"
      (Sample.payload "j0" 0 0) :=
    ⟨by decide +kernel, by decide +kernel, by decide +kernel⟩
  have hrefused : ∀ rpc refs body rows, createTrade Sample.lettered rpc refs
      (Sample.payload "j0" 0 0).walletAddress body rows =
        .error (tradeValidationError "Invalid buyer wallet address") := by
    intro rpc refs body rows
    rfl
  refine ⟨by decide +kernel, hholds, hrefused, fun one => ?_⟩
  exact (one.accepted _ _ hholds).1 Sample.rpc Sample.everybody ⟨none, none, none, none⟩
    (fun _ => none) (hrefused ..)

end Amana.Backend
