import Amana.Escrow.Records

/-!
# What a trade was created with

The amount of a trade and its deadline change over its life.  `offer` looks up what the last
`create_trade` that issued the identifier was given for them.
-/

namespace Amana.Escrow

open Lib

variable {env : Env} {s s' : State} {a : Action} {c : Call} {k : Nat}
  {tokens : Token.Ledger Address} {actions : List Action}

/-- The terms of a trade that can change later. -/
structure Offer where
  amount : Int
  expiresAt : Option Nat
  deriving DecidableEq

/-- What a step creates trade `k` with. -/
def offered (k : Nat) (s : State) : Action → Option Offer
  | .call env (.createTrade buyer seller amount buyerLossBps sellerLossBps expiresAt) =>
    if (createTrade env buyer seller amount buyerLossBps sellerLossBps expiresAt s).isOk = true ∧
        nextIdentifier env s = k then some ⟨amount, expiresAt⟩
    else none
  | _ => none

/-- What trade `k` was created with: the arguments of the last `create_trade` that issued the
identifier. -/
def offer (tokens : Token.Ledger Address) (actions : List Action) (k : Nat) : Option Offer :=
  ((trail tokens actions).filterMap fun p => offered k p.1 p.2).getLast?

theorem offer_snoc :
    offer tokens (actions ++ [a]) k =
      (offered k (run tokens actions) a).or (offer tokens actions k) := by
  unfold offer
  rw [trail, Machine.trail_snoc, ← run, ← trail, List.filterMap_append, List.getLast?_append]
  cases h : offered k (run tokens actions) a <;> simp [h]

theorem offered_of_not_creates (h : c.creates = false) : offered k s (.call env c) = none := by
  cases c <;> first | rfl | cases h

theorem offered_of_not_call (h : ∀ env c, a ≠ .call env c) : offered k s a = none := by
  cases a with
  | call env c => exact absurd rfl (h env c)
  | transfer | mint | burn => rfl

theorem offered_of_failed (failed : ∀ env c, a = .call env c → (invoke env s c).isOk = false) :
    offered k s a = none := by
  unfold offered
  split
  · next env buyer seller amount buyerLoss sellerLoss expiresAt =>
    refine if_neg fun hboth => ?_
    have hfailed := failed env _ rfl
    cases hcreate : createTrade env buyer seller amount buyerLoss sellerLoss expiresAt s with
    | error e =>
      rw [hcreate] at hboth
      cases hboth.1
    | ok r =>
      rw [invoke, hcreate] at hfailed
      cases hfailed
  · rfl

/-- A successful creation offers a trade under the identifier it issues. -/
theorem offered_of_create {trade : Trade}
    (ok : invoke env s (.createTrade trade.buyer trade.seller trade.amount trade.buyerLossBps
      trade.sellerLossBps trade.expiresAt) = .ok s') :
    offered k s (.call env (.createTrade trade.buyer trade.seller trade.amount trade.buyerLossBps
      trade.sellerLossBps trade.expiresAt)) =
        if k = nextIdentifier env s then some ⟨trade.amount, trade.expiresAt⟩ else none := by
  obtain ⟨r, hr, -⟩ := map_eq_ok.1 ok
  simp only [offered, hr, Except.isOk, Except.toBool, true_and, eq_comm]

end Amana.Escrow
