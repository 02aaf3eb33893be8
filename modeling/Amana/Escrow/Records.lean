import Amana.Escrow.WellFormed

/-!
# Trade records

What a call can do to the stored trades: nothing, write a new record, or move the one record it
works on (`Effect.record`).  A moved record was open, keeps its terms, is stamped with the ledger
time and follows the status table `TradeStatus.next`.

`create_trade` writes its record without looking for an earlier one, so a trade lasts only as long
as its identifier is not issued again.  `Reissues` is the step that does that.
-/

namespace Amana.Escrow

open Lib

variable {env : Env} {s s' : State} {c : Call}

/-- The statuses a trade can move to. -/
def TradeStatus.next : TradeStatus → List TradeStatus
  | .created => [.funded, .cancelled]
  | .funded => [.delivered, .disputed, .cancelled]
  | .delivered => [.completed, .cancelled]
  | .disputed => [.completed, .cancelled]
  | .completed => []
  | .cancelled => []

/-- Whether a trade of this status is over. -/
def TradeStatus.closed : TradeStatus → Bool
  | .completed | .cancelled => true
  | .created | .funded | .delivered | .disputed => false

/-- The fields `create_trade` fixes. -/
structure Trade.SameTerms (t t' : Trade) : Prop where
  tradeId : t'.tradeId = t.tradeId
  buyer : t'.buyer = t.buyer
  seller : t'.seller = t.seller
  token : t'.token = t.token
  createdAt : t'.createdAt = t.createdAt
  buyerLossBps : t'.buyerLossBps = t.buyerLossBps
  sellerLossBps : t'.sellerLossBps = t.sellerLossBps

theorem Trade.SameTerms.refl (t : Trade) : t.SameTerms t := ⟨rfl, rfl, rfl, rfl, rfl, rfl, rfl⟩

/-- The other fields are the ones calls change. -/
theorem Trade.SameTerms.of_update (t : Trade) (amount : Int) (status : TradeStatus)
    (updatedAt : Nat) (fundedAt deliveredAt expiresAt : Option Nat) :
    t.SameTerms { t with amount, status, updatedAt, fundedAt, deliveredAt, expiresAt } :=
  ⟨rfl, rfl, rfl, rfl, rfl, rfl, rfl⟩

theorem Trade.SameTerms.trans {t t' t'' : Trade} (h : t.SameTerms t') (h' : t'.SameTerms t'') :
    t.SameTerms t'' :=
  ⟨h'.tradeId.trans h.tradeId, h'.buyer.trans h.buyer, h'.seller.trans h.seller,
    h'.token.trans h.token, h'.createdAt.trans h.createdAt,
    h'.buyerLossBps.trans h.buyerLossBps, h'.sellerLossBps.trans h.sellerLossBps⟩

/-- A record and what a call at time `now` may replace it by. -/
structure Trade.Moved (now : Nat) (t t' : Trade) : Prop where
  wasOpen : t.status.closed = false
  status : t'.status = t.status ∨ t'.status ∈ t.status.next
  terms : t.SameTerms t'
  updatedAt : t'.updatedAt = now

/-- The identifier `create_trade` would issue. -/
def nextIdentifier (env : Env) (s : State) : Nat := tradeIdOf env.sequence (s.nextTradeId.getD 1)

/-- What a call can do to the stored trades. -/
inductive RecordChange (env : Env) (s : State) (c : Call) (b' : Books) : Prop
  /-- No record changes. -/
  | same (creates : c.creates = false) (trades : b'.trades = s.trades)
      (counter : b'.nextTradeId = s.nextTradeId)
  /-- A new record is written. -/
  | create (trade : Trade) (creates : c.creates = true)
      (tradeId : trade.tradeId = nextIdentifier env s)
      (status : trade.status = .created)
      (updatedAt : trade.updatedAt = env.timestamp)
      (trades : b'.trades = s.trades.set trade.tradeId trade)
      (counter : b'.nextTradeId = some (U64.add (s.nextTradeId.getD 1) 1))
  /-- The record the call works on moves. -/
  | move (k : Nat) (t t' : Trade) (trades : b'.trades = s.trades.set k t')
      (counter : b'.nextTradeId = s.nextTradeId) (subject : c.subject s = some k)
      (stored : s.trades.get k = some t) (moved : t.Moved env.timestamp t')

theorem Trade.moved_clawed {t : Trade} {amount : Int} (now : Nat)
    (h : t.status = .funded ∨ t.status = .disputed) : t.Moved now (t.clawed amount now) where
  wasOpen := by rcases h with h | h <;> rw [h] <;> rfl
  status := by
    unfold Trade.clawed
    split
    · rcases h with h | h <;> simp [h, TradeStatus.next]
    · exact .inl rfl
  terms := .of_update ..
  updatedAt := rfl

theorem Trade.clawed_not_created {t : Trade} {amount : Int} {now : Nat}
    (h : t.status = .funded ∨ t.status = .disputed) : (t.clawed amount now).status ≠ .created := by
  unfold Trade.clawed
  rcases h with h | h <;> simp only [h] <;> split <;> simp

theorem creates_of_subject {k : Nat} (h : c.subject s = some k) : c.creates = false := by
  cases c <;> first | rfl | cases h

/-- The subject of a settling call. -/
theorem subject_of_settle {t : Nat} (route : c.Settles t) : c.subject s = some t := by
  rcases route with ⟨_, _, rfl⟩ | ⟨_, _, _, rfl⟩ | ⟨_, rfl⟩ <;> rfl

theorem subject_of_refund {t : Nat} (route : c.Refunds t) : c.subject s = some t := by
  rcases route with ⟨_, rfl⟩ | rfl | ⟨_, rfl⟩ <;> rfl

theorem subject_of_drop {t : Nat} (route : c.Drops t) : c.subject s = some t := by
  rcases route with ⟨_, rfl⟩ | rfl <;> rfl

theorem subject_of_claw {t : Nat} {amount : Int} {destination : Address}
    (route : c.ClawsBack s t amount destination) : c.subject s = some t := by
  rcases route with rfl | ⟨id, op, rfl, hop, hpayload⟩
  · rfl
  · simp [Call.subject, hop, QueuedOperation.target, hpayload]

/-- A record whose status follows an edge and whose terms stay. -/
theorem Trade.Moved.of_edge {now : Nat} {t t' : Trade} (status status' : TradeStatus)
    (hstatus : t.status = status) (hstatus' : t'.status = status')
    (hedge : status.closed = false ∧ status' ∈ status.next) (hterms : t.SameTerms t')
    (hupdated : t'.updatedAt = now) : t.Moved now t' := by
  subst hstatus hstatus'
  exact ⟨hedge.1, .inr hedge.2, hterms, hupdated⟩

theorem creates_of_configures (h : c.configures = true) : c.creates = false := by
  cases c <;> first | rfl | cases h

theorem creates_of_mayIdle (h : c.mayIdle = true) : c.creates = false := by
  cases c <;> first | rfl | cases h

theorem Effect.record {b' : Books} (h : Effect env s c b') : RecordChange env s c b' := by
  cases h with
  | idle quiet => exact .same (creates_of_mayIdle quiet) rfl rfl
  | create counter tradeId status _ _ _ _ _ times _ _ =>
    subst counter
    exact .create _ rfl tradeId status times.2 rfl rfl
  | deposit stored status _ =>
    exact .move _ _ _ rfl rfl rfl stored (.of_edge .created .funded status rfl
      (by decide) (.of_update ..) rfl)
  | openPath stored status _ _ _ =>
    exact .move _ _ _ rfl rfl rfl stored ⟨by rw [status]; rfl, .inl rfl,
      .of_update .., rfl⟩
  | finalizePath stored status _ _ _ =>
    exact .move _ _ _ rfl rfl rfl stored (.of_edge .created .funded status rfl
      (by decide) (.of_update ..) rfl)
  | drop route stored status =>
    exact .move _ _ _ rfl rfl (subject_of_drop route) stored
      (.of_edge .created .cancelled status rfl (by decide) (.of_update ..) rfl)
  | request stored status =>
    exact .move _ _ _ rfl rfl rfl stored ⟨by rw [status]; rfl, .inl rfl,
      .of_update .., rfl⟩
  | refund route stored status _ =>
    refine .move _ _ _ rfl rfl (subject_of_refund route) stored ?_
    rcases status with status | status
    · exact .of_edge .funded .cancelled status rfl (by decide) (.of_update ..) rfl
    · exact .of_edge .delivered .cancelled status rfl (by decide) (.of_update ..) rfl
  | extend stored status _ _ _ _ _ =>
    exact .move _ _ _ rfl rfl rfl stored ⟨by rw [status]; rfl, .inl rfl,
      .of_update .., rfl⟩
  | deliver stored status =>
    exact .move _ _ _ rfl rfl rfl stored (.of_edge .funded .delivered status rfl
      (by decide) (.of_update ..) rfl)
  | dispute stored status =>
    exact .move _ _ _ rfl rfl rfl stored (.of_edge .funded .disputed status rfl
      (by decide) (.of_update ..) rfl)
  | release stored status _ _ =>
    exact .move _ _ _ rfl rfl rfl stored (.of_edge .delivered .completed status rfl
      (by decide) (.of_update ..) rfl)
  | settle route stored status _ _ _ _ =>
    exact .move _ _ _ rfl rfl (subject_of_settle route) stored
      (.of_edge .disputed .completed status rfl (by decide) (.of_update ..) rfl)
  | claw route stored status _ _ =>
    exact .move _ _ _ rfl rfl (subject_of_claw route) stored (Trade.moved_clawed _ status)
  | withdraw _ _ _ => exact .same rfl rfl rfl

/-! ## Steps -/

/-- Whether an action is a successful creation under an identifier that is in use. -/
def Reissues (s : State) : Action → Prop
  | .call env c =>
    c.creates = true ∧ (invoke env s c).isOk = true ∧
      (s.trades.get (nextIdentifier env s)).isSome
  | _ => False

/-- No creation of the run issues an identifier that is in use. -/
def NoReissue (tokens : Token.Ledger Address) (actions : List Action) : Prop :=
  ∀ p ∈ trail tokens actions, ¬ Reissues p.1 p.2

/-- Whether an action is the successful creation of trade `k`. -/
def Issues (k : Nat) (s : State) : Action → Prop
  | .call env c => c.creates = true ∧ (invoke env s c).isOk = true ∧ nextIdentifier env s = k
  | _ => False

section Step

variable {a : Action} {k : Nat} {t : Trade}

theorem Issues.reissues (h : Issues k s a) (stored : s.trades.get k = some t) : Reissues s a := by
  cases a with
  | transfer | mint | burn => exact h.elim
  | call env c =>
    obtain ⟨creates, ok, rfl⟩ := h
    exact ⟨creates, ok, by rw [stored]; rfl⟩

/-- What a step makes of a stored record: only a call on it moves it, and only a creation under its
identifier replaces it. -/
theorem step_record_cases (wf : WellFormed s.toSettings s.toBooks)
    (stored : s.trades.get k = some t) :
    ∃ t', (step s a).trades.get k = some t' ∧
      (t' = t ∨ ∃ env c, a = .call env c ∧
        (c.subject s = some k ∧ t.Moved env.timestamp t' ∨
          Issues k s a ∧ t'.updatedAt = env.timestamp)) := by
  have hchange := step_change wf a
  generalize hs' : step s a = s' at hchange
  cases hchange with
  | stay _ => exact ⟨t, stored, .inl rfl⟩
  | configure _ _ conf => exact ⟨t, by rw [conf.books]; exact stored, .inl rfl⟩
  | outside _ _ => exact ⟨t, stored, .inl rfl⟩
  | @effect env c _ ok effect _ =>
    cases effect.record with
    | same _ trades _ => exact ⟨t, by rw [trades]; exact stored, .inl rfl⟩
    | create trade creates tradeId _ updatedAt trades _ =>
      by_cases hk : k = trade.tradeId
      · subst hk
        exact ⟨trade, by rw [trades, Store.get_set_self], .inr ⟨env, c, rfl,
          .inr ⟨⟨creates, by rw [ok]; rfl, tradeId.symm⟩, updatedAt⟩⟩⟩
      · exact ⟨t, by rw [trades, Store.get_set_ne _ _ hk]; exact stored, .inl rfl⟩
    | move k' t₀ t' trades _ subject stored' moved =>
      by_cases hk : k = k'
      · subst hk
        obtain rfl := Option.some.inj (stored.symm.trans stored')
        exact ⟨t', by rw [trades, Store.get_set_self],
          .inr ⟨env, c, rfl, .inl ⟨subject, moved⟩⟩⟩
      · exact ⟨t, by rw [trades, Store.get_set_ne _ _ hk]; exact stored, .inl rfl⟩

/-- A stored record survives every step that does not issue its identifier again, and only a call on
it moves it. -/
theorem step_record (wf : WellFormed s.toSettings s.toBooks) (other : ¬ Issues k s a)
    (stored : s.trades.get k = some t) :
    ∃ t', (step s a).trades.get k = some t' ∧
      (t' = t ∨ ∃ env c, a = .call env c ∧ c.subject s = some k ∧ t.Moved env.timestamp t') := by
  obtain ⟨t', hget, rfl | ⟨env, c, rfl, ⟨subject, moved⟩ | ⟨issues, -⟩⟩⟩ :=
    step_record_cases (a := a) wf stored
  · exact ⟨_, hget, .inl rfl⟩
  · exact ⟨t', hget, .inr ⟨env, c, rfl, subject, moved⟩⟩
  · exact absurd issues other

end Step

end Amana.Escrow
