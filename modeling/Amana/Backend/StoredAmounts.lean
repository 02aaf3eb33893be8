import Amana.Backend.Projection
import Amana.Backend.TradeIntake

/-!
# The amounts of stored trades

A trade is stored by the request that builds its `create_trade` call, or by the `TradeCreated` event
of a call that was executed.  A request stores the amount as a decimal text, an event as the number
of stroops it carries: read as a decimal text, that is `10 ^ 7` times too much.  So the amounts of
the rows are right as long as no event creates one (`oneUnit_iff`).
-/

namespace Amana.Backend

open Lib Lib.Database
open Escrow (Address)

/-- The contract, and the rows of the backend. -/
structure Platform where
  chain : Escrow.State
  rows : Db Row

inductive Happening where
  /-- Anything on the chain. -/
  | chain (action : Escrow.Action)
  | request (rpc : Rpc) (request : TradeRequest)
  /-- The transaction of the `n`th event of the contract. -/
  | deliver (n now : Nat) (key : EventKey)
  /-- The expiry sweep or the admin moves a trade. -/
  | move (tradeId : String) (status : TradeStatus) (expiredAt : Option Nat)

variable (sdk : Sdk) (keys : Keys) (refs : References)

/-- The `n`th event of the contract, as it should be parsed. -/
def Platform.parsed (p : Platform) (n : Nat) (key : EventKey) : Option ParsedEvent :=
  p.chain.events[n]?.bind fun e => relay sdk e key.ledgerSequence key.contractId key.eventId

def Platform.step (p : Platform) : Happening → Platform
  | .chain action => { p with chain := Escrow.step p.chain action }
  | .request rpc request =>
    { p with rows := ((request.handle keys rpc refs p.rows).map Prod.snd).getD p.rows }
  | .deliver n now key =>
    match p.parsed sdk n key with
    | none => p
    | some event => { p with rows := process refs p.rows ⟨now, event⟩ }
  | .move tradeId status expiredAt =>
    { p with
      rows := p.rows.write (.trade tradeId) ((p.rows (.trade tradeId)).map fun row : TradeRow =>
        { row.moveTo status with expiredAt := expiredAt }) }

/-- The `create_trade` call behind a step: the trade it is about and its amount.  What is executed
puts this amount on record (`Escrow.createTrade_records`). -/
def Platform.called (p : Platform) : Happening → Option (String × Int)
  | .request rpc request =>
    (request.handle keys rpc refs p.rows).map fun r => (r.1.tradeId, r.1.call.amount)
  | .deliver n _ _ => p.chain.events[n]?.bind fun
    | .tradeCreated k _ _ amount => some (toString k, amount)
    | _ => none
  | .chain _ | .move .. => none

/-- The amounts of the calls the rows were stored for. -/
def Platform.recorded (p : Platform) (a : Happening) (amounts : String → Option Int) :
    String → Option Int :=
  match p.called keys refs a with
  | some (tradeId, amount) =>
    if (p.rows (.trade tradeId)).isNone && ((p.step sdk keys refs a).rows (.trade tradeId)).isSome then
      Function.update amounts tradeId (some amount)
    else amounts
  | none => amounts

/-- The amount of every row reads as that of its call. -/
def OneUnit (p : Platform) (amounts : String → Option Int) : Prop :=
  ∀ tradeId (row : TradeRow) amount, p.rows (.trade tradeId) = some row →
    amounts tradeId = some amount →
    parseDecimalToStroops row.amountUsdc moneyDecimals = .ok amount

/-- The transaction of a `TradeCreated` event is about to create a row. -/
def CreatesFromEvent (p : Platform) : Happening → Prop
  | .deliver n _ key => ∃ event ∈ p.parsed sdk n key, event.eventType = .tradeCreated ∧
    p.rows (.trade event.tradeId) = none ∧ refs.valid (.trade event.tradeId) event.payload = true
  | _ => False

/-- What holds in every run: announced amounts are positive, and only rows have amounts. -/
structure Platform.Sound (p : Platform) (amounts : String → Option Int) : Prop where
  wellFormed : Escrow.WellFormed p.chain.toSettings p.chain.toBooks
  positive : ∀ k buyer seller amount, .tradeCreated k buyer seller amount ∈ p.chain.events →
    0 < amount
  stored : ∀ tradeId, p.rows (.trade tradeId) = none → amounts tradeId = none

/-! ## One step -/

section Steps

variable {sdk keys refs} {p : Platform} {a : Happening} {amounts : String → Option Int}
  {tradeId : String} {row : TradeRow}

/-- What of a row no status changes. -/
def TradeRow.terms (row : TradeRow) : String × String × String :=
  (row.buyerAddress, row.sellerAddress, row.amountUsdc)

/-- Where the row of a trade comes from after a step. -/
inductive StoredBy (sdk : Sdk) (keys : Keys) (refs : References) (p : Platform) (tradeId : String)
    (row : TradeRow) : Happening → Prop
  | kept {a : Happening} (old : TradeRow) (found : p.rows (.trade tradeId) = some old)
      (same : row.terms = old.terms) : StoredBy sdk keys refs p tradeId row a
  | request {rpc : Rpc} {request : TradeRequest} {built : BuiltTrade} {rows : Db Row}
      (answer : request.handle keys rpc refs p.rows = some (built, rows))
      (about : built.tradeId = tradeId) (free : p.rows (.trade tradeId) = none)
      (parsed : parseDecimalToStroops row.amountUsdc moneyDecimals = .ok built.call.amount) :
      StoredBy sdk keys refs p tradeId row (.request rpc request)
  | event {n now : Nat} {key : EventKey} {event : ParsedEvent}
      (parsed : p.parsed sdk n key = some event) (about : event.tradeId = tradeId)
      (free : p.rows (.trade tradeId) = none) (valid : refs.valid (.trade tradeId) row = true)
      (payload : row = event.payload) : StoredBy sdk keys refs p tradeId row (.deliver n now key)

/-- An event moves the rows that are there, and creates the one of its trade. -/
theorem row_of_process {d : Delivery} {db : Db Row}
    (h : process refs db d (.trade tradeId) = some row) :
    (∃ old, db (.trade tradeId) = some old ∧ row.terms = old.terms) ∨
      d.event.tradeId = tradeId ∧ db (.trade tradeId) = none ∧
        refs.valid (.trade tradeId) row = true ∧ row = d.event.payload := by
  by_cases hother : d.event.eventType = .streamClawback ∨ tradeId ≠ d.event.tradeId
  · rw [(process_elsewhere hother).1] at h
    exact .inl ⟨row, h, rfl⟩
  · have htype : d.event.eventType ≠ .streamClawback := fun htype => hother (.inl htype)
    obtain rfl : tradeId = d.event.tradeId := by
      by_contra hne
      exact hother (.inr hne)
    by_cases hrejected : rejected refs db d.event = true
    · rw [process_of_rejected htype hrejected] at h
      exact .inl ⟨row, h, rfl⟩
    · have haccepted : rejected refs db d.event = false := by simpa using hrejected
      rw [process_trade htype haccepted] at h
      obtain rfl := Option.some.inj h
      cases hrow : db (.trade d.event.tradeId) with
      | some old =>
        refine .inl ⟨old, rfl, ?_⟩
        unfold movedTrade
        dsimp only
        split <;> rfl
      | none =>
        refine .inr ⟨rfl, rfl, ?_, rfl⟩
        have hrefused : refused refs db d.event d.event.payload = false :=
          (Bool.or_eq_false_iff.1 haccepted).1
        have hvalid : refs.valid (.trade d.event.tradeId) d.event.payload = true := by
          simpa [refused, hrow] using hrefused
        exact hvalid

/-- No event takes a row away. -/
theorem process_ne_none {d : Delivery} {db : Db Row} (h : db (.trade tradeId) ≠ none) :
    process refs db d (.trade tradeId) ≠ none := by
  by_cases hother : d.event.eventType = .streamClawback ∨ tradeId ≠ d.event.tradeId
  · rwa [(process_elsewhere hother).1]
  · have htype : d.event.eventType ≠ .streamClawback := fun htype => hother (.inl htype)
    obtain rfl : tradeId = d.event.tradeId := by
      by_contra hne
      exact hother (.inr hne)
    by_cases hrejected : rejected refs db d.event = true
    · rwa [process_of_rejected htype hrejected]
    · rw [process_trade htype (by simpa using hrejected)]
      exact Option.some_ne_none _

theorem write_ne_none {db : Db Row} {k : Key} {new : Option (Row k)} {tradeId : String}
    (h : db (.trade tradeId) ≠ none) : db.write k new (.trade tradeId) ≠ none := by
  by_cases hk : Key.trade tradeId = k
  · subst hk
    cases new with
    | none => exact h
    | some new =>
      rw [Db.write_same]
      exact Option.some_ne_none new
  · rwa [Db.write_of_ne _ _ hk]

theorem step_ne_none (h : p.rows (.trade tradeId) ≠ none) :
    (p.step sdk keys refs a).rows (.trade tradeId) ≠ none := by
  cases a with
  | chain action => exact h
  | request rpc request =>
    cases hanswer : request.handle keys rpc refs p.rows with
    | none =>
      simp only [Platform.step, hanswer]
      exact h
    | some r =>
      obtain ⟨built, rows⟩ := r
      obtain ⟨input, -, htaken⟩ := taken_of_handle hanswer
      simp only [Platform.step, hanswer, Option.map_some, Option.getD_some, htaken.stored]
      exact write_ne_none h
  | deliver n now key =>
    cases hparsed : p.parsed sdk n key with
    | none =>
      simp only [Platform.step, hparsed]
      exact h
    | some event =>
      simp only [Platform.step, hparsed]
      exact process_ne_none h
  | move tradeId' status expiredAt => exact write_ne_none h

theorem stored_of_step (h : (p.step sdk keys refs a).rows (.trade tradeId) = some row) :
    StoredBy sdk keys refs p tradeId row a := by
  cases a with
  | chain action => exact .kept row h rfl
  | request rpc request =>
    cases hanswer : request.handle keys rpc refs p.rows with
    | none =>
      simp only [Platform.step, hanswer] at h
      exact .kept row h rfl
    | some r =>
      obtain ⟨built, rows⟩ := r
      simp only [Platform.step, hanswer] at h
      obtain ⟨input, -, htaken⟩ := taken_of_handle hanswer
      have h : rows (.trade tradeId) = some row := h
      by_cases hk : built.tradeId = tradeId
      · subst hk
        rw [htaken.stored, Db.write_same] at h
        obtain rfl := Option.some.inj h
        exact .request hanswer rfl htaken.free htaken.parsed
      · rw [htaken.stored, Db.write_of_ne _ _ (by simpa using fun heq => hk heq.symm)] at h
        exact .kept row h rfl
  | deliver n now key =>
    cases hparsed : p.parsed sdk n key with
    | none =>
      simp only [Platform.step, hparsed] at h
      exact .kept row h rfl
    | some event =>
      simp only [Platform.step, hparsed] at h
      obtain ⟨old, hold, hsame⟩ | ⟨habout, hfree, hvalid, hrow⟩ := row_of_process h
      · exact .kept old hold hsame
      · exact .event hparsed habout hfree hvalid hrow
  | move tradeId' status expiredAt =>
    simp only [Platform.step] at h
    by_cases hk : tradeId' = tradeId
    · subst hk
      cases hrow : p.rows (.trade tradeId') with
      | none =>
        rw [hrow] at h
        cases hrow.symm.trans h
      | some old =>
        rw [hrow] at h
        have h := (Db.write_same ..).symm.trans h
        obtain rfl := Option.some.inj h
        exact .kept old hrow rfl
    · rw [Db.write_of_ne _ _ (by simpa using fun heq => hk heq.symm)] at h
      exact .kept row h rfl

/-- A record is only made for a row that comes up. -/
theorem recorded_of_kept (h : p.rows (.trade tradeId) ≠ none ∨
      (p.step sdk keys refs a).rows (.trade tradeId) = none) :
    p.recorded sdk keys refs a amounts tradeId = amounts tradeId := by
  unfold Platform.recorded
  cases hcalled : p.called keys refs a with
  | none => rfl
  | some call =>
    obtain ⟨tradeId', amount⟩ := call
    dsimp only
    split
    · next hnew =>
      obtain ⟨hfree, hstored⟩ := Bool.and_eq_true_iff.1 hnew
      apply Function.update_of_ne
      rintro rfl
      rcases h with hrow | hrow
      · exact hrow (Option.isNone_iff_eq_none.1 hfree)
      · simp [hrow] at hstored
    · rfl

theorem recorded_of_new {amount : Int} (called : p.called keys refs a = some (tradeId, amount))
    (free : p.rows (.trade tradeId) = none)
    (stored : (p.step sdk keys refs a).rows (.trade tradeId) = some row) :
    p.recorded sdk keys refs a amounts tradeId = some amount := by
  have hnew : ((p.rows (.trade tradeId)).isNone &&
      ((p.step sdk keys refs a).rows (.trade tradeId)).isSome) = true := by
    rw [free, stored]
    rfl
  rw [Platform.recorded, called]
  dsimp only
  rw [if_pos hnew, Function.update_self]

/-- A `TradeCreated` event is one of a creation, with its amount. -/
theorem created_of_parsed {n : Nat} {key : EventKey} {event : ParsedEvent}
    (parsed : p.parsed sdk n key = some event) (type : event.eventType = .tradeCreated) :
    ∃ k buyer seller amount, p.chain.events[n]? = some (.tradeCreated k buyer seller amount) ∧
      event.tradeId = toString k ∧
      event.data = payload sdk (.tradeCreated k buyer seller amount) := by
  obtain ⟨e, he, hrelay⟩ := Option.bind_eq_some_iff.1 parsed
  obtain ⟨⟨eventType, k⟩, hhandled, rfl⟩ := Option.map_eq_some_iff.1 hrelay
  obtain rfl : eventType = .tradeCreated := type
  cases e with
  | tradeCreated k' buyer seller amount =>
    cases hhandled
    exact ⟨_, buyer, seller, amount, he, rfl, rfl⟩
  | _ => cases hhandled

/-- No other event is about a call. -/
theorem called_of_other {n now : Nat} {key : EventKey} {event : ParsedEvent}
    (parsed : p.parsed sdk n key = some event) (type : event.eventType ≠ .tradeCreated) :
    p.called keys refs (.deliver n now key) = none := by
  obtain ⟨e, he, hrelay⟩ := Option.bind_eq_some_iff.1 parsed
  obtain ⟨⟨eventType, k⟩, hhandled, rfl⟩ := Option.map_eq_some_iff.1 hrelay
  rw [Platform.called, he]
  cases e with
  | tradeCreated =>
    cases hhandled
    exact absurd rfl type
  | _ => rfl

/-- A `TradeCreated` event that no row is in the way of creates its own. -/
theorem row_of_created {n now : Nat} {key : EventKey} {event : ParsedEvent}
    (parsed : p.parsed sdk n key = some event) (type : event.eventType = .tradeCreated)
    (free : p.rows (.trade event.tradeId) = none)
    (valid : refs.valid (.trade event.tradeId) event.payload = true) :
    (p.step sdk keys refs (.deliver n now key)).rows (.trade event.tradeId) =
      some event.payload := by
  have haccepted : rejected refs p.rows event = false := by
    simp [rejected, refused, unsigned, free, valid, type]
  simp only [Platform.step, parsed]
  refine (process_trade (d := ⟨now, event⟩) (by rw [type]; decide) haccepted).trans ?_
  rw [free]
  rfl

theorem Platform.Sound.step (sound : p.Sound amounts) :
    (p.step sdk keys refs a).Sound (p.recorded sdk keys refs a amounts) := by
  refine ⟨?_, ?_, fun tradeId hrow => ?_⟩
  · cases a with
    | chain action => exact Escrow.wellFormed_step sound.wellFormed action
    | deliver n now key =>
      simp only [Platform.step]
      split <;> exact sound.wellFormed
    | _ => exact sound.wellFormed
  · cases a with
    | chain action =>
      intro k buyer seller amount hevent
      obtain ⟨new, hevents, -⟩ := Escrow.step_announces sound.wellFormed action k
      have hevent : .tradeCreated k buyer seller amount ∈ (Escrow.step p.chain action).events := hevent
      rw [hevents] at hevent
      rcases List.mem_append.1 hevent with hold | hnew
      · exact sound.positive k buyer seller amount hold
      · exact (Escrow.recorded_of_announced sound.wellFormed hevents hnew).1
    | deliver n now key =>
      simp only [Platform.step]
      split <;> exact sound.positive
    | _ => exact sound.positive
  · have hbefore : p.rows (.trade tradeId) = none := by
      by_contra hne
      exact step_ne_none hne hrow
    rw [recorded_of_kept (.inr hrow)]
    exact sound.stored tradeId hbefore

theorem OneUnit.step (one : OneUnit p amounts) (sound : p.Sound amounts)
    (clean : ¬ CreatesFromEvent sdk refs p a) :
    OneUnit (p.step sdk keys refs a) (p.recorded sdk keys refs a amounts) := by
  intro tradeId row amount hrow hamount
  cases stored_of_step hrow with
  | kept old found same =>
    rw [recorded_of_kept (.inl (by rw [found]; exact Option.some_ne_none old))] at hamount
    have hsame : row.amountUsdc = old.amountUsdc := congrArg (fun terms => terms.2.2) same
    rw [hsame]
    exact one tradeId old amount found hamount
  | @request rpc request built rows answer about free parsed =>
    have hcalled : p.called keys refs (.request rpc request) =
        some (tradeId, built.call.amount) := by
      rw [Platform.called, answer, ← about]
      rfl
    rw [recorded_of_new hcalled free hrow] at hamount
    rw [← Option.some.inj hamount]
    exact parsed
  | @event n now key event parsed about free valid payload =>
    subst about payload
    by_cases htype : event.eventType = .tradeCreated
    · exact absurd ⟨event, parsed, htype, free, valid⟩ clean
    · -- No other event is about a call, and there was no row to have a record.
      rw [Platform.recorded, called_of_other parsed htype] at hamount
      cases (sound.stored _ free).symm.trans hamount

end Steps

/-- Nothing has happened on the chain, and there are no rows. -/
def Platform.deployed (tokens : Token.Ledger Address) : Platform where
  chain := .deployed tokens
  rows := fun _ => none

/-- The amounts of the calls behind the rows after a run. -/
def amountsOf (tokens : Token.Ledger Address) (happenings : List Happening) : String → Option Int :=
  (Machine.run (Machine.shadow (Platform.step sdk keys refs) (Platform.recorded sdk keys refs))
    (.deployed tokens, fun _ => none) happenings).2

namespace Sample

/-- Every text is a public key. -/
def anyKey : Keys := ⟨fun _ => true, fun _ => true⟩

/-- Everybody is registered. -/
def everybody : References := ⟨fun _ => true, fun _ => true⟩

/-- The server that expects the first trade to be the next one. -/
def rpc : Rpc := ⟨fun _ => true, fun _ => some (toString Escrow.Sample.first)⟩

/-- Alice's request for a trade of 100 stroops with Bob. -/
def tradeRequest : TradeRequest :=
  .createTrade (some "GALICE") ⟨some "GBOB", some "0.00001", some 5000, some 5000⟩

/-- The contract is set up, Alice creates the trade, and its event is delivered. -/
def announced : List Happening :=
  [.chain Escrow.Sample.setup, .chain (Escrow.Sample.create none), .deliver 1 0 ⟨1, "C", "0-1"⟩]

/-- Alice asks for the trade first. -/
def requested : List Happening := .request rpc tradeRequest :: announced

/-- The platform after these happenings. -/
def platform (happenings : List Happening) : Platform :=
  Machine.run (Platform.step (stellar fun _ => "G") anyKey everybody) (.deployed Escrow.Sample.tokens)
    happenings

/-- The amounts of the calls in them. -/
def amounts (happenings : List Happening) : String → Option Int :=
  amountsOf (stellar fun _ => "G") anyKey everybody Escrow.Sample.tokens happenings

end Sample

end Amana.Backend
