import Amana.Escrow.Freshness

/-!
# Pending trades

To create a trade the backend builds a `create_trade` transaction, simulates it, and stores a
pending row under the identifier the simulation returned; the buyer signs and submits the
transaction afterwards.  The identifier is made of the ledger sequence and of the contract's
counter, so the row and the trade share it when the transaction executes in the ledger of its
simulation and before any other creation (`bound_of_timely`).
-/

namespace Amana.Backend.Pending

open Lib
open Escrow (Address State Env Failure tradeIdOf)

/-! ## Requests -/

/-- `CreateTradeBody`: the seller if it is a valid public key, and the amount in stroops if it is
well formed. -/
structure CreateTradeBody where
  sellerAddress : Option Address
  amountUsdc : Option Int
  buyerLossBps : Nat
  sellerLossBps : Nat

/-- `BuildCreateTradeTxInput`. -/
structure TradeTerms where
  buyerAddress : Address
  sellerAddress : Address
  amount : Int
  buyerLossBps : Nat
  sellerLossBps : Nat

def prepareTradeRow (buyerAddress : Address) (row : CreateTradeBody) :
    Except String TradeTerms := do
  let some sellerAddress := row.sellerAddress | throw "Invalid sellerAddress"
  let some amount := row.amountUsdc | throw "Invalid amountUsdc"
  unless row.buyerLossBps ≤ 10000 ∧ row.sellerLossBps ≤ 10000 do
    throw "buyerLossBps and sellerLossBps must be integers between 0 and 10000"
  unless row.buyerLossBps + row.sellerLossBps = 10000 do
    throw "buyerLossBps and sellerLossBps must sum to 10000"
  return ⟨buyerAddress, sellerAddress, amount, row.buyerLossBps, row.sellerLossBps⟩

/-- A transaction of `buildCreateTradeTx`, with the identifier returned beside it, the ledger and
the counter its simulation met, and, once it is executed, what `create_trade` returned. -/
structure Transaction where
  terms : TradeTerms
  tradeId : String
  sequence : Nat
  counter : Nat
  outcome : Option (Option Nat)

/-- A row of `createPendingTrade`, and the transaction that was built for it. -/
structure PendingRow where
  tradeId : String
  transaction : Nat
  deriving DecidableEq

/-- A request of `createTrade` or `createBulkTrades`: the rows to go, and the transaction that was
built for the first of them. -/
structure Request where
  buyerAddress : Address
  rows : List CreateTradeBody
  built : Option Nat

/-- The chain with its current ledger, the requests at work and the database. -/
structure World where
  chain : State
  sequence : Nat
  timestamp : Nat
  requests : List Request
  transactions : List Transaction
  rows : List PendingRow

inductive Activity where
  /-- A request comes in; `createTrade` is a request for one row. -/
  | request (buyerAddress : Address) (rows : List CreateTradeBody)
  /-- A request goes on to the next answer it waits for, or gets an error for it. -/
  | proceed (request : Nat) (fails : Bool)
  /-- A signed transaction is executed. -/
  | execute (transaction : Nat)
  /-- Anything else on the chain. -/
  | chain (action : Escrow.Action)
  /-- The next ledger begins. -/
  | closeLedger (seconds : Nat)

/-- The number of the next trade. -/
def World.counter (w : World) : Nat := w.chain.nextTradeId.getD 1

/-- The environment of a call that `who` authorizes in the current ledger. -/
def World.env (w : World) (who : Address) : Env := ⟨w.timestamp, w.sequence, [who]⟩

/-- The state in which nobody has asked for anything. -/
def World.idle (chain : State) (sequence timestamp : Nat) : World where
  chain := chain
  sequence := sequence
  timestamp := timestamp
  requests := []
  transactions := []
  rows := []

/-- The transaction names five arguments where `create_trade` has six parameters.  `sixth` is what
the host makes of that: it may refuse the call, or read the missing deadline as some value. -/
def callCreateTrade (sixth : Option (Option Nat)) (w : World) (terms : TradeTerms) :
    Except Failure (Nat × State) :=
  match sixth with
  | none => throw (.panic "wrong number of arguments")
  | some expiresAt =>
    Escrow.createTrade (w.env terms.buyerAddress) terms.buyerAddress terms.sellerAddress
      terms.amount terms.buyerLossBps terms.sellerLossBps expiresAt w.chain

/-- `createPendingTrade`: the row is stored unless its identifier is taken. -/
def createPendingTrade (w : World) (transaction : Nat) : World :=
  match w.transactions[transaction]? with
  | none => w
  | some tx =>
    if ∃ row ∈ w.rows, row.tradeId = tx.tradeId then w
    else { w with rows := w.rows ++ [⟨tx.tradeId, transaction⟩] }

/-- `buildCreateTradeTx` for one row: the transaction, if the simulation succeeds. -/
def buildCreateTradeTx (sixth : Option (Option Nat)) (w : World) (terms : TradeTerms) :
    Option Transaction :=
  (callCreateTrade sixth w terms).toOption.map fun r =>
    ⟨terms, toString r.1, w.sequence, w.counter, none⟩

/-- Put a request in its place. -/
def World.setRequest (w : World) (i : Nat) (r : Request) : World :=
  { w with requests := w.requests.set i r }

def proceed (sixth : Option (Option Nat)) (w : World) (i : Nat) (fails : Bool) : World :=
  match w.requests[i]? with
  | none => w
  | some r =>
    match r.built, r.rows with
    | some transaction, rows =>
      -- A row that cannot be stored is reported as failed; either way the next one follows.
      (if fails then w else createPendingTrade w transaction).setRequest i
        { r with rows := rows.tail, built := none }
    | none, [] => w
    | none, row :: rest =>
      match (prepareTradeRow r.buyerAddress row).toOption.bind (buildCreateTradeTx sixth w) with
      | some tx =>
        if fails then w.setRequest i { r with rows := rest }
        else
          { w with transactions := w.transactions ++ [tx] }.setRequest i
            { r with built := some w.transactions.length }
      | none => w.setRequest i { r with rows := rest }

/-- The buyer gets a transaction to sign once its row is stored, and the network takes it once. -/
def execute (sixth : Option (Option Nat)) (w : World) (transaction : Nat) : World :=
  match w.transactions[transaction]? with
  | none => w
  | some tx =>
    if tx.outcome = none ∧ ∃ row ∈ w.rows, row.transaction = transaction then
      match callCreateTrade sixth w tx.terms with
      | .ok (tradeId, chain) =>
        { w with
          chain := chain
          transactions :=
            w.transactions.set transaction { tx with outcome := some (some tradeId) } }
      | .error _ =>
        { w with transactions := w.transactions.set transaction { tx with outcome := some none } }
    else w

def step (sixth : Option (Option Nat)) (w : World) : Activity → World
  | .request buyerAddress rows =>
    { w with requests := w.requests ++ [⟨buyerAddress, rows, none⟩] }
  | .proceed request fails => proceed sixth w request fails
  | .execute transaction => execute sixth w transaction
  | .chain action => { w with chain := Escrow.step w.chain action }
  | .closeLedger seconds =>
    { w with sequence := w.sequence + 1, timestamp := w.timestamp + seconds }

/-! ## What rows and trades share -/

/-- The trade that the transaction of a row created. -/
def Created (w : World) (row : PendingRow) (tradeId : Nat) : Prop :=
  ∃ tx, w.transactions[row.transaction]? = some tx ∧ tx.outcome = some (some tradeId)

/-- Pending rows and the trades of their transactions share their identifiers. -/
structure Bound (w : World) : Prop where
  same : ∀ row ∈ w.rows, ∀ tradeId, Created w row tradeId → row.tradeId = toString tradeId
  distinct : ∀ row ∈ w.rows, ∀ row' ∈ w.rows, row ≠ row' → ∀ tradeId tradeId',
    Created w row tradeId → Created w row' tradeId' → tradeId ≠ tradeId'

/-- A transaction is executed in the ledger of its simulation, and before another creation. -/
def Timely (w : World) : Activity → Prop
  | .execute transaction => ∀ tx, w.transactions[transaction]? = some tx → tx.outcome = none →
    w.sequence = tx.sequence ∧ w.counter = tx.counter
  | _ => True

/-! ## The identifier of a simulation -/

variable {sixth : Option (Option Nat)} {w w' : World}

/-- `create_trade` returns the identifier of the current ledger and counter. -/
theorem callCreateTrade_id {terms : TradeTerms} {tradeId : Nat} {chain : State}
    (h : callCreateTrade sixth w terms = .ok (tradeId, chain)) :
    tradeId = tradeIdOf w.sequence w.counter := by
  unfold callCreateTrade at h
  split at h
  · cases h
  · simp only [Escrow.createTrade, bind_eq_ok, Escrow.assertNotPaused_eq_ok,
      Escrow.requireAuth_eq_ok, Escrow.assert_eq_ok, expect_eq_ok, pure_eq_ok, exists_const,
      Prod.mk.injEq] at h
    obtain ⟨-, -, -, -, -, -, -, -, -, _, -, hid, -⟩ := h
    exact hid.symm

/-- The identifiers of a transaction are those of its ledger and counter. -/
structure Transaction.Sound (tx : Transaction) : Prop where
  predicted : tx.tradeId = toString (tradeIdOf tx.sequence tx.counter)
  returned : ∀ tradeId, tx.outcome = some (some tradeId) →
    tradeId = tradeIdOf tx.sequence tx.counter

theorem buildCreateTradeTx_sound {terms : TradeTerms} {tx : Transaction}
    (h : buildCreateTradeTx sixth w terms = some tx) : tx.Sound := by
  obtain ⟨⟨tradeId, chain⟩, hcall, rfl⟩ := Option.map_eq_some_iff.1 h
  have hok := toOption_eq_some.1 hcall
  exact ⟨congrArg toString (callCreateTrade_id hok), by simp⟩

/-- Every row has its own identifier, which is that of its transaction. -/
structure Coherent (w : World) : Prop where
  sound : ∀ tx ∈ w.transactions, tx.Sound
  rows : ∀ row ∈ w.rows, (w.transactions[row.transaction]?).map Transaction.tradeId =
    some row.tradeId
  unique : ∀ row ∈ w.rows, ∀ row' ∈ w.rows, row.tradeId = row'.tradeId → row = row'

theorem Coherent.bound (h : Coherent w) : Bound w := by
  have hsame : ∀ row ∈ w.rows, ∀ tradeId, Created w row tradeId →
      row.tradeId = toString tradeId := by
    rintro row hrow tradeId ⟨tx, htx, houtcome⟩
    have hsound := h.sound tx (List.mem_of_getElem? htx)
    have hid := h.rows row hrow
    rw [htx] at hid
    rw [← Option.some.inj hid, hsound.predicted, hsound.returned tradeId houtcome]
  refine ⟨hsame, fun row hrow row' hrow' hne tradeId tradeId' hcreated hcreated' heq => ?_⟩
  apply hne
  apply h.unique row hrow row' hrow'
  rw [hsame row hrow tradeId hcreated, hsame row' hrow' tradeId' hcreated', heq]

/-! ## Steps -/

theorem Coherent.createPendingTrade (h : Coherent w) (transaction : Nat) :
    Coherent (createPendingTrade w transaction) := by
  unfold Pending.createPendingTrade
  split
  · exact h
  · next tx htx =>
    split
    · exact h
    · next hfree =>
      have hfree : ∀ row ∈ w.rows, row.tradeId ≠ tx.tradeId := by simpa using hfree
      refine ⟨h.sound, fun row hrow => ?_, fun row hrow row' hrow' heq => ?_⟩
      · obtain hrow | hrow := List.mem_append.1 hrow
        · exact h.rows row hrow
        · rw [List.mem_singleton.1 hrow, htx]
          rfl
      · obtain hrow | hrow := List.mem_append.1 hrow <;>
          obtain hrow' | hrow' := List.mem_append.1 hrow'
        · exact h.unique row hrow row' hrow' heq
        · rw [List.mem_singleton.1 hrow'] at heq
          exact absurd heq (hfree row hrow)
        · rw [List.mem_singleton.1 hrow] at heq
          exact absurd heq.symm (hfree row' hrow')
        · rw [List.mem_singleton.1 hrow, List.mem_singleton.1 hrow']

/-- Building one more transaction leaves the ones that are there. -/
theorem Coherent.build (h : Coherent w) {tx : Transaction} (sound : tx.Sound) :
    Coherent { w with transactions := w.transactions ++ [tx] } := by
  refine ⟨fun tx' htx' => ?_, fun row hrow => ?_, h.unique⟩
  · obtain htx' | htx' := List.mem_append.1 htx'
    · exact h.sound tx' htx'
    · rw [List.mem_singleton.1 htx']
      exact sound
  · have hrow := h.rows row hrow
    have hlt : row.transaction < w.transactions.length := by
      by_contra hge
      rw [List.getElem?_eq_none (by omega)] at hrow
      cases hrow
    change ((w.transactions ++ [tx])[row.transaction]?).map _ = _
    rw [List.getElem?_append_left hlt]
    exact hrow

/-- Requests are not looked at. -/
theorem Coherent.setRequest (h : Coherent w) (i : Nat) (r : Request) :
    Coherent (w.setRequest i r) := ⟨h.sound, h.rows, h.unique⟩

theorem Coherent.proceed (h : Coherent w) (i : Nat) (fails : Bool) :
    Coherent (proceed sixth w i fails) := by
  unfold Pending.proceed
  split
  · exact h
  · next r _ =>
    split
    · apply Coherent.setRequest
      split
      · exact h
      · exact h.createPendingTrade _
    · exact h
    · split
      · next tx htx =>
        obtain ⟨terms, -, hbuild⟩ := Option.bind_eq_some_iff.1 htx
        split
        · exact h.setRequest i _
        · exact (h.build (buildCreateTradeTx_sound hbuild)).setRequest i _
      · exact h.setRequest i _

/-- Recording what a transaction returned, if that is what its simulation did. -/
theorem Coherent.record (h : Coherent w) {j : Nat} {tx : Transaction} {chain : State}
    {outcome : Option Nat} (htx : w.transactions[j]? = some tx)
    (timely : ∀ tradeId, outcome = some tradeId → tradeId = tradeIdOf tx.sequence tx.counter) :
    Coherent { w with
      chain := chain
      transactions := w.transactions.set j { tx with outcome := some outcome } } := by
  have hsound := h.sound tx (List.mem_of_getElem? htx)
  refine ⟨fun tx' htx' => ?_, fun row hrow => ?_, h.unique⟩
  · obtain htx' | rfl := List.mem_or_eq_of_mem_set htx'
    · exact h.sound tx' htx'
    · exact ⟨hsound.predicted, fun tradeId hid => timely tradeId (Option.some.inj hid)⟩
  · have hid := h.rows row hrow
    change ((w.transactions.set j _)[row.transaction]?).map _ = _
    by_cases hj : j = row.transaction
    · subst hj
      rw [htx] at hid
      have hlt : row.transaction < w.transactions.length := (List.getElem?_eq_some_iff.1 htx).1
      rw [List.getElem?_set_self hlt]
      exact hid
    · rw [List.getElem?_set_ne hj]
      exact hid

theorem Coherent.execute (h : Coherent w) {j : Nat} (timely : Timely w (.execute j)) :
    Coherent (execute sixth w j) := by
  unfold Pending.execute
  split
  · exact h
  · next tx htx =>
    split
    · next hready =>
      obtain ⟨hsequence, hcounter⟩ := timely tx htx hready.1
      split
      · next tradeId chain hcall =>
        apply h.record htx
        intro id hid
        rw [← Option.some.inj hid, ← hsequence, ← hcounter]
        exact callCreateTrade_id hcall
      · exact h.record htx (by simp)
    · exact h

theorem Coherent.step (h : Coherent w) {a : Activity} (timely : Timely w a) :
    Coherent (step sixth w a) := by
  cases a with
  | request => exact ⟨h.sound, h.rows, h.unique⟩
  | proceed i fails => exact h.proceed i fails
  | execute j => exact h.execute timely
  | chain => exact ⟨h.sound, h.rows, h.unique⟩
  | closeLedger => exact ⟨h.sound, h.rows, h.unique⟩

/-- In every run whose transactions are executed in the ledger of their simulation, and before
another creation, every row and its trade share one identifier. -/
theorem bound_of_timely (sixth : Option (Option Nat)) (chain : State) (sequence timestamp : Nat)
    (activities : List Activity)
    (timely : ∀ p ∈ Machine.trail (step sixth) (.idle chain sequence timestamp) activities,
      Timely p.1 p.2) :
    ∀ before, before <+: activities →
      Bound (Machine.run (step sixth) (.idle chain sequence timestamp) before) := by
  intro before hbefore
  apply Coherent.bound
  apply Machine.run_invariant (step sixth)
  · exact ⟨by simp [World.idle], by simp [World.idle], by simp [World.idle]⟩
  · intro p hp hcoherent
    exact hcoherent.step (timely p (Machine.trail_of_isPrefix _ hbefore hp))

/-- Alice asks for one trade of 100 with Bob, gets the transaction, and some time later signs it. -/
def Sample.oneTrade (later : List Activity) : List Activity :=
  [.request Escrow.Sample.alice [⟨some Escrow.Sample.bob, some 100, 5000, 5000⟩],
    .proceed 0 false, .proceed 0 false] ++ later ++ [.execute 0]

/-- An initialized contract in ledger 1, asked by nobody. -/
def Sample.atRest : World :=
  .idle (Escrow.run Escrow.Sample.tokens [Escrow.Sample.setup]) 1 2

/-- Signed at once, the transaction creates the trade of its row. -/
theorem bound_of_signed_at_once :
    Created (Machine.run (step (some none)) Sample.atRest (Sample.oneTrade []))
        ⟨toString (2 ^ 32 + 1), 0⟩ (2 ^ 32 + 1) ∧
      Bound (Machine.run (step (some none)) Sample.atRest (Sample.oneTrade [])) := by
  refine ⟨⟨_, rfl, by decide⟩, bound_of_timely (some none) _ 1 2 (Sample.oneTrade []) ?_ _
    List.prefix_rfl⟩
  refine List.forall_mem_cons.2 ⟨trivial, List.forall_mem_cons.2 ⟨trivial,
    List.forall_mem_cons.2 ⟨trivial, List.forall_mem_cons.2 ⟨?_, by simp⟩⟩⟩⟩
  rintro tx htx -
  cases htx
  exact ⟨by decide, by decide⟩

/-- Signed one ledger later, it creates another one. -/
theorem not_bound_of_next_ledger :
    ¬ Bound (Machine.run (step (some none)) Sample.atRest
      (Sample.oneTrade [.closeLedger 5])) := by
  intro h
  have hcreated : Created (Machine.run (step (some none)) Sample.atRest
      (Sample.oneTrade [.closeLedger 5])) ⟨toString (2 ^ 32 + 1), 0⟩ (2 * 2 ^ 32 + 1) :=
    ⟨_, rfl, by decide⟩
  have hsame := h.same ⟨toString (2 ^ 32 + 1), 0⟩ (by decide) _ hcreated
  exact absurd hsame (by decide)

end Amana.Backend.Pending
