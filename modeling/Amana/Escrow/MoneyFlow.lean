import Amana.Escrow.Vault

/-!
# Where the money of a call goes

Of the effects, three kinds move money out of the contract: a payout closes a trade and splits its
escrow between the parties and the fees, a clawback takes part of it, and a withdrawal takes
accrued fees.  `Effect.flow` sorts a call into these, with the transfers it logs.
-/

namespace Amana.Escrow

open Lib

variable {env : Env} {s s' : State} {c : Call}

/-- The total of a list of transfers. -/
def total (ms : List (Token.Transfer Address)) : Int := (ms.map Token.Transfer.amount).sum

/-- A transfer of the contract to a party of the trade, in its token. -/
def Trade.PaidBy (t : Trade) (m : Token.Transfer Address) : Prop :=
  m.token = t.token ∧ m.source = currentContract ∧ (m.dest = t.seller ∨ m.dest = t.buyer)

instance (t : Trade) (m : Token.Transfer Address) : Decidable (t.PaidBy m) :=
  inferInstanceAs (Decidable (_ ∧ _ ∧ _))

/-- Whether a call withdraws fees. -/
def Call.withdraws : Call → Bool
  | .withdrawFees .. => true
  | _ => false

/-- Nothing left the contract, and nothing was booked as having left it. -/
structure NoPayout (s : State) (b' : Books) : Prop where
  incoming : ∀ m ∈ b'.tokens.since s.tokens, m.source ≠ currentContract
  fees : b'.accruedFees = s.accruedFees
  clawbacks : b'.clawbackTotal = s.clawbackTotal

/-- What a call does with the contract's money. -/
inductive Flow (env : Env) (s : State) (c : Call) (b' : Books) : Prop
  /-- No trade changes. -/
  | idle (trades : b'.trades = s.trades) (creates : c.creates = false)
      (withdraws : c.withdraws = false) (quiet : NoPayout s b')
  /-- A trade is created. -/
  | create (trade : Trade) (trades : b'.trades = s.trades.set trade.tradeId trade)
      (call : c = .createTrade trade.buyer trade.seller trade.amount trade.buyerLossBps
        trade.sellerLossBps trade.expiresAt) (tradeId : trade.tradeId = nextIdentifier env s)
      (status : trade.status = .created) (quiet : NoPayout s b')
  /-- An unfunded trade is funded, dropped or waits for a path payment. -/
  | early (k : Nat) (t t' : Trade) (trades : b'.trades = s.trades.set k t')
      (subject : c.subject s = some k) (stored : s.trades.get k = some t)
      (status : t.status = .created) (unpaid : t'.status ≠ .completed)
      (price : t'.amount = t.amount ∨ t'.status = .funded ∧
        ∃ caller intent, c = .finalizePathPayment k caller ∧
          s.pathPaymentIntent.get k = some intent ∧ intent.destMin ≤ t'.amount)
      (quiet : NoPayout s b')
  /-- A trade that holds escrow goes on holding it. -/
  | hold (k : Nat) (t t' : Trade) (trades : b'.trades = s.trades.set k t')
      (subject : c.subject s = some k) (stored : s.trades.get k = some t)
      (live : t.status.live = true) (live' : t'.status.live = true)
      (amount : t'.amount = t.amount) (quiet : NoPayout s b')
  /-- A trade is closed and its escrow split. -/
  | payout (k : Nat) (t t' : Trade) (fee : Int) (trades : b'.trades = s.trades.set k t')
      (subject : c.subject s = some k) (mode : c.isClawback = false)
      (stored : s.trades.get k = some t) (live : t.status.live = true)
      (closed : t'.status.closed = true) (amount : t'.amount = t.amount)
      (paid : ∀ m ∈ b'.tokens.since s.tokens, t.PaidBy m)
      (whole : total (b'.tokens.since s.tokens) + fee = t.amount)
      (bounds : 0 ≤ fee ∧ fee ≤ t.amount) (free : t'.status ≠ .completed → fee = 0)
      (fees : b'.accruedFees = feesWith s.accruedFees fee)
      (clawbacks : b'.clawbackTotal = s.clawbackTotal)
  /-- Part of the escrow of a trade is clawed back. -/
  | clawback (k : Nat) (t : Trade) (amount : Int) (destination : Address)
      (trades : b'.trades = s.trades.set k (t.clawed amount env.timestamp))
      (subject : c.subject s = some k) (mode : c.isClawback = true)
      (stored : s.trades.get k = some t) (status : t.status = .funded ∨ t.status = .disputed)
      (bounds : 0 < amount ∧ amount ≤ t.amount)
      (paid : b'.tokens.since s.tokens = [⟨t.token, currentContract, destination, amount⟩])
      (fees : b'.accruedFees = s.accruedFees)
      (clawbacks : b'.clawbackTotal =
        s.clawbackTotal.set k (I128.add (getClawbackTotal s k) amount))
  /-- Accrued fees are withdrawn. -/
  | withdraw (amount : Int) (destination : Address) (call : c = .withdrawFees amount destination)
      (trades : b'.trades = s.trades) (bounds : 0 < amount ∧ amount ≤ getAccruedFees s)
      (fees : b'.accruedFees = some (I128.sub (getAccruedFees s) amount))
      (clawbacks : b'.clawbackTotal = s.clawbackTotal)

/-- Nothing at all was transferred. -/
theorem NoPayout.of_same {b' : Books} (htokens : b'.tokens = s.tokens)
    (hfees : b'.accruedFees = s.accruedFees) (hclaw : b'.clawbackTotal = s.clawbackTotal) :
    NoPayout s b' := by
  refine ⟨fun m hm => ?_, hfees, hclaw⟩
  rw [htokens, Token.since_self] at hm
  cases hm

/-- The only transfer came in. -/
theorem NoPayout.of_deposit {b' : Books} {m : Token.Transfer Address}
    (hpaid : Token.transfer s.tokens m = some b'.tokens) (hsource : m.source ≠ currentContract)
    (hfees : b'.accruedFees = s.accruedFees) (hclaw : b'.clawbackTotal = s.clawbackTotal) :
    NoPayout s b' := by
  refine ⟨fun m' hm => ?_, hfees, hclaw⟩
  rw [Token.since_of_append (Token.transfers_of_transfer hpaid), List.mem_singleton] at hm
  exact hm ▸ hsource

/-- The log of a payment to one party. -/
theorem log_of_pay {l l' : Token.Ledger Address} {t : Trade} {dest : Address} {amount : Int}
    (hpos : 0 ≤ amount) (hdest : dest = t.seller ∨ dest = t.buyer)
    (h : Token.pay l ⟨t.token, currentContract, dest, amount⟩ = some l') :
    ∃ ms, l'.transfers = l.transfers ++ ms ∧ total ms = amount ∧ ∀ m ∈ ms, t.PaidBy m := by
  refine ⟨_, Token.transfers_of_pay h, ?_, fun m hm => ?_⟩
  · dsimp only
    split
    · simp [total]
    · simp only [total, List.map_nil, List.sum_nil]
      omega
  · split at hm
    · obtain rfl := List.mem_singleton.1 hm
      exact ⟨rfl, rfl, hdest⟩
    · cases hm

theorem withdraws_of_mayIdle (h : c.mayIdle = true) : c.withdraws = false := by
  cases c <;> first | rfl | cases h

theorem isClawback_of_refund {t : Nat} (route : c.Refunds t) : c.isClawback = false := by
  rcases route with ⟨_, rfl⟩ | rfl | ⟨_, rfl⟩ <;> rfl

theorem isClawback_of_settle {t : Nat} (route : c.Settles t) : c.isClawback = false := by
  rcases route with ⟨_, _, rfl⟩ | ⟨_, _, _, rfl⟩ | ⟨_, rfl⟩ <;> rfl

theorem isClawback_of_claw {t : Nat} {amount : Int} {destination : Address}
    (route : c.ClawsBack s t amount destination) : c.isClawback = true := by
  rcases route with rfl | ⟨_, _, rfl, -⟩ <;> rfl

/-- Every call is one of the flows. -/
theorem Effect.flow {b' : Books} (wf : WellFormed s.toSettings s.toBooks)
    (h : Effect env s c b') : Flow env s c b' := by
  cases h with
  | idle quiet =>
    exact .idle rfl (creates_of_mayIdle quiet) (withdraws_of_mayIdle quiet) (.of_same rfl rfl rfl)
  | create counter tradeId status _ _ _ _ _ _ _ _ =>
    subst counter
    exact .create _ rfl rfl tradeId status (.of_same rfl rfl rfl)
  | deposit stored status paid =>
    exact .early _ _ _ rfl rfl stored status (by simp) (.inl rfl)
      (.of_deposit paid (wf.trade _ _ stored).buyer rfl rfl)
  | openPath stored status _ _ paid =>
    exact .early _ _ _ rfl rfl stored status (by simp [status]) (.inl rfl)
      (.of_deposit paid (wf.trade _ _ stored).buyer rfl rfl)
  | finalizePath stored status pending enough _ =>
    exact .early _ _ _ rfl rfl stored status (by simp)
      (.inr ⟨rfl, _, _, rfl, pending, enough⟩) (.of_same rfl rfl rfl)
  | drop route stored status =>
    exact .early _ _ _ rfl (subject_of_drop route) stored status (by simp) (.inl rfl)
      (.of_same rfl rfl rfl)
  | request stored status =>
    exact .hold _ _ _ rfl rfl stored (by rw [status]; rfl) (by dsimp only; rw [status]; rfl) rfl
      (.of_same rfl rfl rfl)
  | extend stored status _ _ _ _ _ =>
    exact .hold _ _ _ rfl rfl stored (by rw [status]; rfl) (by dsimp only; rw [status]; rfl) rfl
      (.of_same rfl rfl rfl)
  | deliver stored status =>
    exact .hold _ _ _ rfl rfl stored (by rw [status]; rfl) rfl rfl (.of_same rfl rfl rfl)
  | dispute stored status =>
    exact .hold _ _ _ rfl rfl stored (by rw [status]; rfl) rfl rfl (.of_same rfl rfl rfl)
  | @refund _ t trade tokens route stored status paid =>
    have hnonneg := (wf.trade _ _ stored).nonneg
    obtain ⟨ms, hlog, htotal, hparties⟩ := log_of_pay hnonneg (.inr rfl) paid
    have hsince : tokens.since s.tokens = ms := Token.since_of_append hlog
    refine .payout t trade _ 0 rfl (subject_of_refund route) (isClawback_of_refund route) stored ?_
      rfl rfl ?_ ?_ ⟨le_rfl, hnonneg⟩ (fun _ => rfl) rfl rfl
    · rcases status with status | status <;> rw [status] <;> rfl
    · rwa [← hsince] at hparties
    · dsimp only
      rw [hsince]
      omega
  | @release t _ trade fee tokens stored status bounds paid =>
    have hsince : tokens.since s.tokens =
        [⟨trade.token, currentContract, trade.seller, trade.amount - fee⟩] :=
      Token.since_of_append (Token.transfers_of_transfer paid)
    refine .payout t trade _ fee rfl rfl rfl stored (by rw [status]; rfl) rfl rfl (fun m hm => ?_)
      ?_ bounds (fun h => absurd rfl h) rfl rfl
    · dsimp only at hm
      rw [hsince, List.mem_singleton] at hm
      exact hm ▸ ⟨rfl, rfl, .inl rfl⟩
    · dsimp only
      simp only [hsince, total, List.map_cons, List.map_nil, List.sum_cons, List.sum_nil]
      omega
  | @settle _ t trade split tokens₁ tokens₂ route stored status bounds whole paidSeller paidBuyer =>
    obtain ⟨ms₁, hlog₁, htotal₁, hparties₁⟩ := log_of_pay bounds.1 (.inl rfl) paidSeller
    obtain ⟨ms₂, hlog₂, htotal₂, hparties₂⟩ := log_of_pay bounds.2.1 (.inr rfl) paidBuyer
    have hsince : tokens₂.since s.tokens = ms₁ ++ ms₂ :=
      Token.since_of_append (by rw [hlog₂, hlog₁, List.append_assoc])
    refine .payout t trade _ split.fee rfl (subject_of_settle route) (isClawback_of_settle route)
      stored (by rw [status]; rfl) rfl rfl (fun m hm => ?_) ?_ ⟨bounds.2.2, by omega⟩
      (fun h => absurd rfl h) rfl rfl
    · dsimp only at hm
      rw [hsince] at hm
      exact (List.mem_append.1 hm).elim (hparties₁ m) (hparties₂ m)
    · dsimp only
      have htotal : total (ms₁ ++ ms₂) = total ms₁ + total ms₂ := by simp [total]
      rw [hsince, htotal]
      omega
  | claw route stored status bounds paid =>
    exact .clawback _ _ _ _ rfl (subject_of_claw route) (isClawback_of_claw route) stored status
      bounds (Token.since_of_append (Token.transfers_of_transfer paid)) rfl rfl
  | withdraw bounds _ _ => exact .withdraw _ _ rfl rfl bounds rfl rfl

end Amana.Escrow
