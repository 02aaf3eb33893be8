import Amana.Escrow.Conservation
import Amana.Escrow.Quorum

/-!
# Who authorized a payout

Money leaves a trade by a release, a settlement, a refund or a clawback.  Each of these is called by
somebody with a role, and rests on something the parties authorized before: the delivery the buyer
confirmed, the dispute a party opened, the requests of both to cancel.  `Happened` is an earlier
call of the run about the trade an identifier names now, that is, since it was last issued.

The record of a trade starts anew with it, but its cancel requests do not, so the requests behind a
joint cancellation can be those on an earlier trade of the same identifier.  In a run that issues
every identifier once that does not happen (`payoutsAuthorized_of_noReissue`).
-/

namespace Amana.Escrow

open Lib

variable {env : Env} {s s' : State} {a : Action} {c : Call} {k : Nat} {t t' : Trade}
  {d d' : Folder} {tokens : Token.Ledger Address} {actions before : List Action}
  {P : Env → State → Call → Prop} {m : Token.Transfer Address}

/-- A successful call with property `P`, after which the identifier `k` was not issued again. -/
def Happened (tokens : Token.Ledger Address) (actions : List Action) (k : Nat)
    (P : Env → State → Call → Prop) : Prop :=
  Machine.Since step
    (fun s a => ∃ env c, a = .call env c ∧ (invoke env s c).isOk = true ∧ P env s c)
    (fun s a => ¬ Issues k s a) (.deployed tokens) actions

/-- The buyer confirms the delivery of trade `k`. -/
def Confirmed (buyer : Address) (k : Nat) (env : Env) (_ : State) (c : Call) : Prop :=
  c = .confirmDelivery k ∧ buyer ∈ env.auths

/-- One of the parties opens a dispute about trade `k`. -/
def Complained (buyer seller : Address) (k : Nat) (env : Env) (_ : State) (c : Call) : Prop :=
  ∃ initiator reason, c = .initiateDispute k initiator reason ∧ initiator ∈ env.auths ∧
    (initiator = buyer ∨ initiator = seller)

/-- A party asks to cancel trade `k` while it is funded. -/
def Requested (party : Address) (k : Nat) (env : Env) (s : State) (c : Call) : Prop :=
  c = .cancelTrade k party ∧ party ∈ env.auths ∧
    (s.trades.get k).map Trade.status = some .funded

/-- Who decides a dispute about trade `k`. -/
inductive Decision (env : Env) (s : State) (k : Nat) (t : Trade) : Call → Prop
  /-- A mediator alone. -/
  | mediator {mediator : Address} {bps : Nat} (auth : mediator ∈ env.auths)
      (role : s.Mediates mediator) : Decision env s k t (.resolveDispute k mediator bps)
  /-- The vote that brings an outcome to the required weight. -/
  | quorum {mediator : Address} {bps : Nat} {rationale : String} (auth : mediator ∈ env.auths)
      (role : s.Mediates mediator)
      (reached : (getQuorumConfig s).requiredWeight ≤
        weightForOutcome (votesOn s k ++ [voteOf env s mediator bps rationale]) bps) :
      Decision env s k t (.castDisputeVote k mediator bps rationale)
  /-- The plurality, on the call of a party or a mediator. -/
  | fallback {caller : Address} (auth : caller ∈ env.auths)
      (role : t.IsParty caller ∨ isMediator s caller = true)
      (weight : (getQuorumConfig s).fallbackMinWeight ≤ totalVoteWeight (votesOn s k)) :
      Decision env s k t (.resolveDisputeByFallback k caller)

/-- Why a call may transfer `m` out of the contract, after the given actions. -/
inductive Authorized (tokens : Token.Ledger Address) (actions : List Action) (env : Env)
    (s : State) (m : Token.Transfer Address) : Call → Prop
  /-- The buyer or the admin releases to the seller what the buyer has received. -/
  | release {k : Nat} {caller : Address} {t : Trade} (stored : s.trades.get k = some t)
      (token : m.token = t.token) (dest : m.dest = t.seller) (auth : caller ∈ env.auths)
      (role : caller = t.buyer ∨ s.admin = some caller)
      (delivered : Happened tokens actions k (Confirmed t.buyer k)) :
      Authorized tokens actions env s m (.releaseFunds k caller)
  /-- A dispute one of the parties opened is decided. -/
  | settlement {k : Nat} {t : Trade} {c : Call} (stored : s.trades.get k = some t)
      (token : m.token = t.token) (dest : m.dest = t.seller ∨ m.dest = t.buyer)
      (disputed : Happened tokens actions k (Complained t.buyer t.seller k))
      (decision : Decision env s k t c) : Authorized tokens actions env s m c
  /-- The admin cancels. -/
  | override {k : Nat} {caller : Address} {t : Trade} (stored : s.trades.get k = some t)
      (token : m.token = t.token) (dest : m.dest = t.buyer) (auth : caller ∈ env.auths)
      (role : s.admin = some caller) : Authorized tokens actions env s m (.cancelTrade k caller)
  /-- The seller refunds. -/
  | refund {k : Nat} {t : Trade} (stored : s.trades.get k = some t) (token : m.token = t.token)
      (dest : m.dest = t.buyer) (auth : t.seller ∈ env.auths) :
      Authorized tokens actions env s m (.refund k)
  /-- Both parties ask to cancel, one of them with this call. -/
  | joint {k : Nat} {caller : Address} {t : Trade} (stored : s.trades.get k = some t)
      (token : m.token = t.token) (dest : m.dest = t.buyer) (auth : caller ∈ env.auths)
      (status : t.status = .funded)
      (buyer : caller = t.buyer ∨ Happened tokens actions k (Requested t.buyer k))
      (seller : caller = t.seller ∨ Happened tokens actions k (Requested t.seller k)) :
      Authorized tokens actions env s m (.cancelTrade k caller)
  /-- A party claims the refund of an expired trade. -/
  | expiry {k deadline : Nat} {caller : Address} {t : Trade} (stored : s.trades.get k = some t)
      (token : m.token = t.token) (dest : m.dest = t.buyer) (auth : caller ∈ env.auths)
      (party : t.IsParty caller) (expires : t.expiresAt = some deadline)
      (late : deadline ≤ env.timestamp) :
      Authorized tokens actions env s m (.claimExpiryRefund k caller)
  /-- The admin claws back. -/
  | clawback {k : Nat} {amount : Int} {destination admin : Address} {t : Trade} {c : Call}
      (route : c.ClawsBack s k amount destination) (stored : s.trades.get k = some t)
      (token : m.token = t.token) (dest : m.dest = destination) (sum : m.amount = amount)
      (auth : admin ∈ env.auths) (role : s.admin = some admin) :
      Authorized tokens actions env s m c
  /-- The admin withdraws fees, which are no trade's escrow. -/
  | withdrawal {amount : Int} {destination admin : Address} (sum : m.amount = amount)
      (fees : amount ≤ getAccruedFees s) (auth : admin ∈ env.auths)
      (role : s.admin = some admin) :
      Authorized tokens actions env s m (.withdrawFees amount destination)

/-- Every transfer out of the contract is authorized. -/
def PayoutsAuthorized (tokens : Token.Ledger Address) (actions : List Action) : Prop :=
  ∀ before a later, actions = before ++ a :: later → ∀ m ∈ logged (run tokens before) a,
    m.source = currentContract →
      ∃ env c, a = .call env c ∧ Authorized tokens before env (run tokens before) m c

/-! ## Earlier calls -/

/-- A call that just succeeded has happened. -/
theorem Happened.now (ok : invoke env (run tokens actions) c = .ok s')
    (h : P env (run tokens actions) c) : Happened tokens (actions ++ [.call env c]) k P := by
  refine (Machine.since_snoc_iff step).2 (.inl ⟨env, c, rfl, ?_, h⟩)
  exact isOk_iff.2 ⟨s', ok⟩

/-- What happened goes on having happened, until the identifier is issued again. -/
theorem Happened.later (h : Happened tokens actions k P)
    (quiet : ¬ Issues k (run tokens actions) a) : Happened tokens (actions ++ [a]) k P :=
  (Machine.since_snoc_iff step).2 (.inr ⟨quiet, h⟩)

/-- What happened before an action, unless the action is what happened. -/
theorem Happened.earlier (h : Happened tokens (actions ++ [a]) k P)
    (other : ∀ env c, a = .call env c → ¬ P env (run tokens actions) c) :
    ¬ Issues k (run tokens actions) a ∧ Happened tokens actions k P := by
  rcases (Machine.since_snoc_iff step).1 h with ⟨env, c, rfl, -, hP⟩ | hbefore
  · exact absurd hP (other env c rfl)
  · exact hbefore

/-! ## What stands behind a record and its folder -/

/-- The cancel requests in a folder, of the buyer and of the seller. -/
def Folder.requests (d : Folder) : Bool × Bool := d.cancelRequest.getD (false, false)

/-- What the parties did to bring a trade and its cancel requests to where they are. -/
structure Grounded (tokens : Token.Ledger Address) (actions : List Action) (k : Nat) (t : Trade)
    (d : Folder) : Prop where
  delivered : t.status = .delivered → Happened tokens actions k (Confirmed t.buyer k)
  disputed : t.status = .disputed → Happened tokens actions k (Complained t.buyer t.seller k)
  buyer : d.requests.1 = true → Happened tokens actions k (Requested t.buyer k)
  seller : d.requests.2 = true → Happened tokens actions k (Requested t.seller k)

/-- A clawback cancels the trade or leaves its status. -/
theorem Trade.clawed_status (t : Trade) (amount : Int) (now : Nat) :
    (t.clawed amount now).status = .cancelled ∨ (t.clawed amount now).status = t.status :=
  ite_eq_or_eq ..

/-- No call changes the parties. -/
theorem Entry.parties (h : Entry env s k t d c t' d') :
    t'.buyer = t.buyer ∧ t'.seller = t.seller := by
  cases h with
  | deposit _ _ record | deliver _ _ record | dispute _ _ _ record => rw [record]; exact ⟨rfl, rfl⟩
  | openPath | finalizePath | drop | cancelByBuyer | request | override | agree | refund | expire
  | extend | release | resolve | vote | decide | fallback | evidence | video | manifest | clawPart
  | clawAll | clawQueued => exact ⟨rfl, rfl⟩

/-- Only the buyer's confirmation makes a trade delivered. -/
theorem Entry.confirmed (h : Entry env s k t d c t' d') (delivered : t'.status = .delivered) :
    t.status = .delivered ∨ Confirmed t.buyer k env s c := by
  cases h with
  | deliver _ auth _ => exact .inr ⟨rfl, auth⟩
  | openPath | request | extend | vote | evidence | video | manifest => exact .inl delivered
  | deposit _ _ record | dispute _ _ _ record => rw [record] at delivered; cases delivered
  | @clawPart amount | @clawAll amount | @clawQueued _ _ amount =>
    rcases t.clawed_status amount env.timestamp with e | e
    · cases e.symm.trans delivered
    · exact .inl (e.symm.trans delivered)
  | finalizePath | drop | cancelByBuyer | override | agree | refund | expire | release | resolve
  | decide | fallback => cases delivered

/-- Only a complaint of a party makes a trade disputed. -/
theorem Entry.complained (h : Entry env s k t d c t' d') (disputed : t'.status = .disputed) :
    t.status = .disputed ∨ Complained t.buyer t.seller k env s c := by
  cases h with
  | dispute _ auth party _ => exact .inr ⟨_, _, rfl, auth, party⟩
  | openPath | request | extend | vote | evidence | video | manifest => exact .inl disputed
  | deposit _ _ record | deliver _ _ record => rw [record] at disputed; cases disputed
  | @clawPart amount | @clawAll amount | @clawQueued _ _ amount =>
    rcases t.clawed_status amount env.timestamp with e | e
    · cases e.symm.trans disputed
    · exact .inl (e.symm.trans disputed)
  | finalizePath | drop | cancelByBuyer | override | agree | refund | expire | release | resolve
  | decide | fallback => cases disputed

/-- The cancel requests stay, are cleared, or are joined by the caller's. -/
theorem Entry.requests (h : Entry env s k t d c t' d') :
    d'.requests = d.requests ∨ d'.requests = (false, false) ∨
      ∃ caller, c = .cancelTrade k caller ∧ caller ∈ env.auths ∧ t.status = .funded ∧
        d'.requests = joinCancelRequest t caller d.requests := by
  cases h with
  | request status auth _ joined => exact .inr (.inr ⟨_, rfl, auth, status, joined⟩)
  | agree => exact .inr (.inl rfl)
  | deposit | openPath | finalizePath | drop | cancelByBuyer | override | refund | expire | extend
  | deliver | release | dispute | resolve | vote | decide | fallback | evidence | video | manifest
  | clawPart | clawAll | clawQueued => exact .inl rfl

theorem of_joinCancelRequest {caller : Address} {requests : Bool × Bool} :
    ((joinCancelRequest t caller requests).1 = true → requests.1 = true ∨ t.buyer = caller) ∧
      ((joinCancelRequest t caller requests).2 = true →
        requests.2 = true ∨ t.seller = caller) := by
  unfold joinCancelRequest
  split
  · next hbuyer => exact ⟨fun _ => .inr hbuyer.symm, .inl⟩
  · split
    · next hseller => exact ⟨.inl, fun _ => .inr hseller.symm⟩
    · exact ⟨.inl, .inl⟩

/-- A request that is on record after a call was there before, or is what the party just called. -/
theorem Entry.requested (h : Entry env s k t d c t' d') (stored : s.trades.get k = some t) :
    (d'.requests.1 = true → d.requests.1 = true ∨ Requested t.buyer k env s c) ∧
      (d'.requests.2 = true → d.requests.2 = true ∨ Requested t.seller k env s c) := by
  rcases h.requests with hsame | hnone | ⟨caller, rfl, auth, status, hjoined⟩
  · rw [hsame]
    exact ⟨.inl, .inl⟩
  · rw [hnone]
    constructor <;> intro hrequest <;> cases hrequest
  · have hstatus : (s.trades.get k).map Trade.status = some .funded := by
      rw [stored, Option.map_some, status]
    rw [hjoined]
    constructor
    · intro hrequest
      exact (of_joinCancelRequest.1 hrequest).imp id fun e => by
        rw [e]
        exact ⟨rfl, auth, hstatus⟩
    · intro hrequest
      exact (of_joinCancelRequest.2 hrequest).imp id fun e => by
        rw [e]
        exact ⟨rfl, auth, hstatus⟩

/-- A call on a trade keeps it grounded. -/
theorem Grounded.entry (h : Grounded tokens actions k t d)
    (stored : (run tokens actions).trades.get k = some t)
    (ok : invoke env (run tokens actions) c = .ok s')
    (quiet : ¬ Issues k (run tokens actions) (.call env c))
    (entry : Entry env (run tokens actions) k t d c t' d') :
    Grounded tokens (actions ++ [.call env c]) k t' d' := by
  obtain ⟨hbuyer, hseller⟩ := entry.parties
  constructor
  · intro hstatus
    rw [hbuyer]
    exact (entry.confirmed hstatus).elim (fun e => (h.delivered e).later quiet) (.now ok)
  · intro hstatus
    rw [hbuyer, hseller]
    exact (entry.complained hstatus).elim (fun e => (h.disputed e).later quiet) (.now ok)
  · intro hrequest
    rw [hbuyer]
    exact ((entry.requested stored).1 hrequest).elim (fun e => (h.buyer e).later quiet) (.now ok)
  · intro hrequest
    rw [hseller]
    exact ((entry.requested stored).2 hrequest).elim (fun e => (h.seller e).later quiet) (.now ok)

/-- In a run that issues every identifier once, every trade is grounded. -/
theorem grounded_run (fresh : NoReissue tokens actions)
    (stored : (run tokens actions).trades.get k = some t) :
    Grounded tokens actions k t ((run tokens actions).toFiles.folder k) := by
  induction actions using List.reverseRecOn generalizing t with
  | nil => cases stored
  | append_singleton actions a ih =>
    have wf := wellFormed_run tokens actions
    have hchange := step_at wf a k
    rw [run_snoc] at stored ⊢
    generalize step (run tokens actions) a = s' at hchange stored
    cases hchange with
    | same quiet record folder =>
      rw [folder]
      have h := ih fresh.of_append (record ▸ stored)
      exact ⟨fun e => (h.delivered e).later quiet, fun e => (h.disputed e).later quiet,
        fun e => (h.buyer e).later quiet, fun e => (h.seller e).later quiet⟩
    | @create env c _ trade ok creates tradeId issued status _ record folder =>
      -- The folder of a new trade is empty, since its identifier was not in use.
      have issues : Issues k (run tokens actions) (.call env c) :=
        ⟨creates, isOk_iff.2 ⟨_, ok⟩, issued.symm⟩
      have hunused := unused_of_not_stored tokens actions
        (NoReissue.not_stored fresh.last issues)
      rw [hunused.folder] at folder
      obtain rfl := Option.some.inj (record.symm.trans stored)
      rw [folder]
      constructor
      · intro hstatus
        cases status.symm.trans hstatus
      · intro hstatus
        cases status.symm.trans hstatus
      · intro hrequest
        cases hrequest
      · intro hrequest
        cases hrequest
    | @write env c _ t₀ t' ok subject stored₀ record entry =>
      obtain rfl := Option.some.inj (record.symm.trans stored)
      have quiet : ¬ Issues k (run tokens actions) (.call env c) := fun issues => by
        cases (creates_of_subject subject).symm.trans issues.1
      exact (ih fresh.of_append stored₀).entry stored₀ ok quiet entry

/-! ## Payouts -/

section Payouts

variable (stored : s.trades.get k = some t) (token : m.token = t.token)
  (entry : Entry env s k t (s.toFiles.folder k) c t' d')
include stored token entry

theorem authorized_of_claw {amount : Int} {destination : Address}
    (route : c.ClawsBack s k amount destination) (dest : m.dest = destination)
    (sum : m.amount = amount) : Authorized tokens actions env s m c := by
  have hroute := route
  rcases hroute with rfl | ⟨id, q, rfl, -, -⟩
  · cases entry with
    | clawPart _ auth role | clawAll _ auth role =>
      exact .clawback route stored token dest sum auth role
  · cases entry with
    | clawQueued _ auth role => exact .clawback route stored token dest sum auth role

variable (grounded : Grounded tokens actions k t (s.toFiles.folder k))
include grounded

theorem authorized_of_release {caller : Address} (route : c = .releaseFunds k caller)
    (dest : m.dest = t.seller) : Authorized tokens actions env s m c := by
  subst route
  cases entry with
  | release status auth role =>
    exact .release stored token dest auth role (grounded.delivered status)

theorem authorized_of_settle (route : c.Settles k) (status : t'.status = .completed)
    (dest : m.dest = t.seller ∨ m.dest = t.buyer) : Authorized tokens actions env s m c := by
  rcases route with ⟨mediator, bps, rfl⟩ | ⟨mediator, bps, rationale, rfl⟩ | ⟨caller, rfl⟩
  · cases entry with
    | resolve disputed auth role _ =>
      exact .settlement stored token dest (grounded.disputed disputed) (.mediator auth role)
  · cases entry with
    | vote disputed => cases disputed.symm.trans status
    | decide disputed auth role _ _ ballot reached =>
      refine .settlement stored token dest (grounded.disputed disputed) (.quorum auth role ?_)
      have hvotes : votesOn s k = ((s.toFiles.folder k).ballot env k).votes :=
        (Folder.ballot_votes (s.toFiles.folder k) env k).symm
      rw [ballot] at reached
      rw [hvotes]
      exact reached
  · cases entry with
    | @fallback _ _ state disputed auth role _ votes _ weight =>
      refine .settlement stored token dest (grounded.disputed disputed) (.fallback auth role ?_)
      have hvotes : votesOn s k = state.votes := by
        show (s.toFiles.folder k).voteList = state.votes
        rw [Folder.voteList, votes]
        rfl
      rw [hvotes]
      exact weight

theorem authorized_of_refund (route : c.Refunds k) (status : t'.status = .cancelled)
    (funded : t.status ≠ .created) (dest : m.dest = t.buyer) :
    Authorized tokens actions env s m c := by
  rcases route with ⟨caller, rfl⟩ | rfl | ⟨caller, rfl⟩
  · cases entry with
    | drop created => exact absurd created funded
    | request open' => cases open'.symm.trans status
    | override _ auth admin => exact .override stored token dest auth admin
    | agree open' auth party joined =>
      have hbuyer := (of_joinCancelRequest (t := t)).1 (congrArg Prod.fst joined)
      have hseller := (of_joinCancelRequest (t := t)).2 (congrArg Prod.snd joined)
      exact .joint stored token dest auth open'
        (hbuyer.elim (fun e => .inr (grounded.buyer e)) fun e => .inl e.symm)
        (hseller.elim (fun e => .inr (grounded.seller e)) fun e => .inl e.symm)
  · cases entry with
    | refund _ auth => exact .refund stored token dest auth
  · cases entry with
    | expire _ auth party expires late => exact .expiry stored token dest auth party expires late

end Payouts

/-- A withdrawal is the admin's and takes no more than the fees. -/
theorem authorized_of_withdrawal {amount : Int} {destination : Address}
    (ok : invoke env s (.withdrawFees amount destination) = .ok s')
    (logged : m ∈ s'.tokens.since s.tokens) :
    Authorized tokens actions env s m (.withdrawFees amount destination) := by
  simp only [invoke, withdrawFees, bind_eq_ok, requireAdmin_eq_ok, assert_eq_ok, expect_eq_ok,
    tokenTransfer_eq_ok, pure_eq_ok, exists_const] at ok
  obtain ⟨admin, ⟨hadmin, hauth, -⟩, -, hfees, token, -, _, ⟨ledger, hpaid, rfl⟩, rfl⟩ := ok
  have hlog := Token.since_of_append (Token.transfers_of_transfer hpaid)
  obtain rfl := List.mem_singleton.1 (hlog ▸ logged)
  exact .withdrawal rfl hfees hauth hadmin

/-- What a call pays out is authorized. -/
theorem authorized_of_logged (wf : WellFormed s.toSettings s.toBooks) (hc : c.configures = false)
    (grounded : ∀ k t, s.trades.get k = some t → Grounded tokens actions k t (s.toFiles.folder k))
    (ok : invoke env s c = .ok s') (logged : m ∈ s'.tokens.since s.tokens)
    (source : m.source = currentContract) : Authorized tokens actions env s m c := by
  have heffect := (invoke_effect wf hc ok).1
  have hentry {k : Nat} {t t' : Trade} (subject : c.subject s = some k)
      (stored : s.trades.get k = some t) (record : s'.trades.get k = some t') :
      Entry env s k t (s.toFiles.folder k) c t' (s'.toFiles.folder k) := by
    obtain ⟨t₀, t₁, stored₀, record₁, entry⟩ := (invoke_filing wf hc ok).of_subject subject
    obtain rfl := Option.some.inj (stored.symm.trans stored₀)
    obtain rfl := Option.some.inj (record.symm.trans record₁)
    exact entry
  have hquiet (h : NoPayout s s'.toBooks) : Authorized tokens actions env s m c :=
    absurd source (h.incoming m logged)
  generalize hbooks : s'.toBooks = b at heffect hquiet
  have hrecord {k : Nat} {t' : Trade} (h : b.trades = s.trades.set k t') :
      s'.trades.get k = some t' := by
    rw [hbooks, h, Store.get_set_self]
  rw [hbooks] at logged
  cases heffect with
  | idle | create | finalizePath | drop | request | extend | deliver | dispute =>
    exact hquiet (.of_same rfl rfl rfl)
  | deposit stored _ paid | openPath stored _ _ _ paid =>
    exact hquiet (.of_deposit paid (wf.trade _ _ stored).buyer rfl rfl)
  | @refund _ k t ledger route stored status paid =>
    have hlog := Token.since_of_append (Token.transfers_of_pay paid)
    obtain ⟨-, rfl⟩ : t.amount > 0 ∧ m = ⟨t.token, currentContract, t.buyer, t.amount⟩ := by
      dsimp only at logged
      rw [hlog] at logged
      simpa using logged
    refine authorized_of_refund stored rfl (hentry (subject_of_refund route) stored (hrecord rfl))
      (grounded k t stored) route rfl ?_ rfl
    rcases status with e | e <;> simp [e]
  | @release k caller t fee ledger stored status _ paid =>
    have hlog := Token.since_of_append (Token.transfers_of_transfer paid)
    obtain rfl := List.mem_singleton.1 (hlog ▸ logged)
    exact authorized_of_release stored rfl (hentry rfl stored (hrecord rfl))
      (grounded k t stored) rfl rfl
  | @settle _ k t split ledger₁ ledger₂ route stored _ bounds _ paidSeller paidBuyer =>
    obtain ⟨ms₁, hlog₁, -, hparties₁⟩ := log_of_pay bounds.1 (.inl rfl) paidSeller
    obtain ⟨ms₂, hlog₂, -, hparties₂⟩ := log_of_pay bounds.2.1 (.inr rfl) paidBuyer
    have hlog : ledger₂.since s.tokens = ms₁ ++ ms₂ :=
      Token.since_of_append (by rw [hlog₂, hlog₁, List.append_assoc])
    obtain ⟨token, -, dest⟩ : t.PaidBy m :=
      (List.mem_append.1 (hlog ▸ logged)).elim (hparties₁ m) (hparties₂ m)
    exact authorized_of_settle stored token
      (hentry (subject_of_settle route) stored (hrecord rfl)) (grounded k t stored) route rfl dest
  | @claw _ k amount destination t ledger route stored _ _ paid =>
    have hlog := Token.since_of_append (Token.transfers_of_transfer paid)
    obtain rfl := List.mem_singleton.1 (hlog ▸ logged)
    exact authorized_of_claw stored rfl (hentry (subject_of_claw route) stored (hrecord rfl)) route
      rfl rfl
  | withdraw _ _ _ =>
    rw [← hbooks] at logged
    exact authorized_of_withdrawal ok logged

/-- The log of a token movement outside the contract. -/
theorem since_withTokens {o : Option (Token.Ledger Address)} {ms : List (Token.Transfer Address)}
    (h : ∀ l, o = some l → l.transfers = s.tokens.transfers ++ ms)
    (hm : m ∈ (s.withTokens o).tokens.since s.tokens) : m ∈ ms := by
  cases o with
  | none =>
    rw [State.withTokens, Token.since_self] at hm
    cases hm
  | some l =>
    have hlog : (s.withTokens (some l)).tokens.since s.tokens = ms :=
      Token.since_of_append (h l rfl)
    rwa [hlog] at hm

/-- Only a successful call moves the contract's tokens. -/
theorem call_of_logged (hm : m ∈ logged s a) (source : m.source = currentContract) :
    ∃ env c s', a = .call env c ∧ invoke env s c = .ok s' ∧ m ∈ s'.tokens.since s.tokens := by
  have hempty : m ∉ s.tokens.since s.tokens := by simp [Token.since_self]
  unfold logged at hm
  cases a with
  | call env c =>
    cases h : invoke env s c with
    | error e =>
      rw [step_call_of_error h] at hm
      exact absurd hm hempty
    | ok s' =>
      rw [step_call_of_ok h] at hm
      exact ⟨env, c, s', rfl, h, hm⟩
  | transfer m' =>
    simp only [step] at hm
    split at hm
    · exact absurd hm hempty
    · next hne =>
      have hmem := since_withTokens (fun _ => Token.transfers_of_transfer) hm
      obtain rfl := List.mem_singleton.1 hmem
      exact absurd source hne
  | mint token dest amount =>
    have hnone : m ∈ [] := since_withTokens (fun _ h => by
      rw [Token.transfers_of_mint h, List.append_nil]) hm
    cases hnone
  | burn token holder amount =>
    simp only [step] at hm
    split at hm
    · exact absurd hm hempty
    · have hnone : m ∈ [] := since_withTokens (fun _ h => by
        rw [Token.transfers_of_burn h, List.append_nil]) hm
      cases hnone

/-- In a run that issues every identifier once, every payout is authorized. -/
theorem payoutsAuthorized_of_noReissue (fresh : NoReissue tokens actions) :
    PayoutsAuthorized tokens actions := by
  rintro before a later rfl m hm source
  obtain ⟨env, c, s', rfl, ok, hlogged⟩ := call_of_logged hm source
  have hc : c.configures = false := by
    by_contra hc
    have hbooks := (invoke_configured (by simpa using hc) ok).books
    rw [hbooks, Token.since_self] at hlogged
    cases hlogged
  refine ⟨env, c, rfl, ?_⟩
  exact authorized_of_logged (wellFormed_run tokens before) hc
    (fun k t stored => grounded_run fresh.of_append stored) ok hlogged source

/-- Alice funds the first trade and asks to cancel it, all in the ledger it was created in. -/
def Sample.asked : List Action :=
  [Sample.setup, Sample.create none, Sample.call 2 Sample.alice (.deposit Sample.first),
    Sample.call 2 Sample.alice (.cancelTrade Sample.first Sample.alice)]

/-- Bob asks to cancel the first trade. -/
def Sample.agree (now : Nat) : Action :=
  Sample.call now Sample.bob (.cancelTrade Sample.first Sample.bob)

theorem payoutsAuthorized_of_joint_cancellation :
    logged (run Sample.tokens Sample.asked) (Sample.agree 5) =
        [⟨Sample.cngn, currentContract, Sample.alice, 100⟩] ∧
      PayoutsAuthorized Sample.tokens (Sample.asked ++ [Sample.agree 5]) :=
  ⟨by decide, payoutsAuthorized_of_noReissue (noReissue_of_creations_le (by decide))⟩

/-! ## At the wrap -/

/-- `cancel_trade` refunds when the other party's request is on record. -/
theorem cancelTrade_of_requests {caller admin : Address} (hpaused : s.paused.getD false = false)
    (stored : s.trades.get k = some t) (status : t.status = .funded)
    (hadmin : s.admin = some admin) (hne : caller ≠ admin)
    (hauth : caller ∈ env.auths ∧ caller ≠ currentContract) (party : t.IsParty caller)
    (joined : joinCancelRequest t caller (s.toFiles.folder k).requests = (true, true))
    (positive : 0 < t.amount)
    (covered : Token.Covered s.tokens.balance ⟨t.token, currentContract, t.buyer, t.amount⟩) :
    ∃ s', invoke env s (.cancelTrade k caller) = .ok s' ∧ s'.tokens.transfers =
      s.tokens.transfers ++ [⟨t.token, currentContract, t.buyer, t.amount⟩] := by
  have hjoined : joinCancelRequest t caller ((s.cancelRequest.get k).getD (false, false)) =
      (true, true) := joined
  obtain ⟨ledger, hpaid⟩ : ∃ ledger, Token.transfer s.tokens
      ⟨t.token, currentContract, t.buyer, t.amount⟩ = some ledger := ⟨_, dif_pos covered⟩
  obtain ⟨mid, hmid, htokens⟩ : ∃ mid, executeCancellation env t t.amount caller s = .ok mid ∧
      mid.tokens = ledger := by
    simp only [executeCancellation, bind_eq_ok, payOut_eq_ok, pure_eq_ok]
    exact ⟨_, ⟨_, ⟨ledger, (if_pos positive).trans hpaid, rfl⟩, rfl⟩, rfl⟩
  refine ⟨{ mid with cancelRequest := mid.cancelRequest.erase k }, ?_, ?_⟩
  · simp only [invoke, cancelTrade, bind_eq_ok, assertNotPaused_eq_ok, loadTrade_eq_ok,
      loadAdmin_eq_ok, requireAuth_eq_ok, exists_const]
    refine ⟨hpaused, t, stored, admin, hadmin, hauth, ?_⟩
    rw [status]
    simp only [if_neg hne, hjoined, bind_eq_ok, assert_eq_ok, pure_eq_ok, exists_const,
      Bool.and_self, if_true]
    exact ⟨party, mid, hmid, rfl⟩
  · exact (congrArg Token.Ledger.transfers htokens).trans (Token.transfers_of_transfer hpaid)

/-- Bob refunds the trade Alice asked to cancel. -/
def Sample.askedAndRefunded : List Action :=
  Sample.asked ++ [Sample.call 2 Sample.bob (.refund Sample.first)]

/-- Where an identifier is issued again, the request to cancel the old trade stands for the new
one: Bob alone cancels it. -/
theorem not_payoutsAuthorized_at_wrap :
    ¬ PayoutsAuthorized Sample.tokens (Sample.countUp Sample.askedAndRefunded none ++
      [Sample.create none, Sample.fund] ++ [Sample.agree 6]) := by
  intro h
  have issues := issues_at_wrap Sample.tokens Sample.askedAndRefunded none (by decide) (by decide)
    (by simp) (by decide)
  obtain ⟨s, t, hrun, stored, ⟨status, hbuyer, hseller, hamount⟩, hsettings, hbalance, -,
    hrequests⟩ := funded_at_wrap Sample.tokens Sample.askedAndRefunded (by decide) (by decide)
      (by decide) (by decide) (by decide)
  have hcngn : t.token = Sample.cngn := by
    have wf : WellFormed s.toSettings s.toBooks := hrun ▸ wellFormed_run Sample.tokens _
    have htoken := wf.token _ t stored
    rw [hsettings] at htoken
    exact Option.some.inj (htoken.symm.trans (by decide))
  have hasked : (s.toFiles.folder Sample.first).requests = (true, false) := by
    rw [Folder.requests, hrequests]
    decide
  have hadmin : s.admin = some Sample.admin := by
    rw [hsettings]
    decide
  have hjoined : joinCancelRequest t Sample.bob (s.toFiles.folder Sample.first).requests =
      (true, true) := by
    rw [hasked, joinCancelRequest, hbuyer, hseller]
    decide
  obtain ⟨s', ok, hlog⟩ : ∃ s', invoke ⟨6, 1, [Sample.bob]⟩ s
      (.cancelTrade Sample.first Sample.bob) = .ok s' ∧ s'.tokens.transfers =
        s.tokens.transfers ++ [⟨t.token, currentContract, t.buyer, t.amount⟩] := by
    have hroom : (run Sample.tokens Sample.askedAndRefunded).tokens.balance Sample.cngn
        Sample.alice ≤ I128.maxValue := Token.Ledger.balance_le ..
    refine cancelTrade_of_requests (by rw [hsettings]; decide) stored status hadmin (by decide)
      (by decide) (.inr hseller.symm) hjoined (by omega) ⟨?_, ?_, .inr ?_⟩
    · show 0 ≤ t.amount
      omega
    · rw [hcngn, hamount]
      exact hbalance.1
    · rw [hcngn, hbuyer, hamount]
      exact hbalance.2.trans_le hroom
  obtain ⟨env, c, hcall, hauthorized⟩ := h _ (Sample.agree 6) [] rfl
    ⟨t.token, currentContract, t.buyer, t.amount⟩ (by
      rw [hrun, logged, Sample.agree, Sample.call, step_call_of_ok ok, Token.since_of_append hlog]
      exact List.mem_singleton_self _) rfl
  rw [hrun] at hauthorized
  cases hcall
  -- Bob is not the admin, so it takes a request of Alice since the identifier was last issued.
  cases hauthorized with
  | settlement _ _ _ _ decision => cases decision
  | clawback route => rcases route with e | ⟨_, _, e, -⟩ <;> cases e
  | override _ _ _ _ role => cases hadmin.symm.trans role
  | joint stored₀ _ _ _ _ buyer _ =>
    obtain rfl := Option.some.inj (stored.symm.trans stored₀)
    rw [hbuyer] at buyer
    rcases buyer with e | hrequested
    · cases e
    · have hearlier : Sample.countUp Sample.askedAndRefunded none ++
          [Sample.create none, Sample.fund] = Sample.countUp Sample.askedAndRefunded none ++
            [Sample.create none] ++ [Sample.fund] := by simp
      rw [hearlier] at hrequested
      have hcreated := (hrequested.earlier fun _ _ e hrequest => by cases e; cases hrequest.1).2
      exact (hcreated.earlier fun _ _ e hrequest => by cases e; cases hrequest.1).1 issues

end Amana.Escrow
