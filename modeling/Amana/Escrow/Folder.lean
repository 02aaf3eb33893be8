import Amana.Escrow.Identifiers

/-!
# The folder of a trade

Beside its record the contract keeps a folder for every trade: its history, its release sequence,
cancel requests, the dispute with its votes, and the documents.  `Entry` lists what a call on a
trade can write, to the record and to the folder at once, with who authorized it; `invoke_filing`
is the only place where the entrypoints are taken apart for the folders.

Whatever a call writes, it writes to the trade it is called on or to the one it creates
(`step_at`), so an invariant that speaks of one trade is a case analysis on `Entry`.
-/

namespace Amana.Escrow

open Lib

/-- Everything kept beside the record of one trade. -/
structure Folder where
  history : Option (List TradeEvent)
  sequence : Option ReleaseSequence
  cancelRequest : Option (Bool × Bool)
  dispute : Option DisputeRecord
  votes : Option QuorumState
  evidence : Address → Option (List UInt8)
  evidenceList : Option (List EvidenceRecord)
  videoProof : Option VideoProofRecord
  manifest : Option DeliveryManifestRecord

/-- The folder of trade `k`. -/
def Files.folder (f : Files) (k : Nat) : Folder where
  history := f.tradeHistory.get k
  sequence := f.releaseSequence.get k
  cancelRequest := f.cancelRequest.get k
  dispute := f.disputeData.get k
  votes := f.disputeVotes.get k
  evidence := fun a => f.evidence.get (k, a)
  evidenceList := f.evidenceList.get k
  videoProof := f.videoProof.get k
  manifest := f.manifest.get k

namespace Folder

/-- A folder nothing was written to. -/
def empty : Folder := ⟨none, none, none, none, none, fun _ => none, none, none, none⟩

/-- What `record_trade_event` does to the folder. -/
def log (d : Folder) (env : Env) (eventType : String) (actor : Address) (data : String) :
    Folder :=
  { d with history := some (d.history.getD [] ++ [⟨eventType, env.timestamp, actor, data⟩]) }

/-- What `update_release_sequence` does to the folder of trade `t`. -/
def stamp (d : Folder) (env : Env) (t : Trade)
    (updater : ReleaseSequence → Nat → ReleaseSequence) : Folder :=
  { d with
    sequence := some (updater (d.sequence.getD (defaultReleaseSequence t)) env.timestamp) }

/-- The votes on record, or an empty ballot opened now. -/
def ballot (d : Folder) (env : Env) (k : Nat) : QuorumState :=
  d.votes.getD { tradeId := k, votes := [], openedAt := env.timestamp }

/-- The ballot with one more vote. -/
def cast (d : Folder) (env : Env) (k : Nat) (vote : MediatorVote) : QuorumState :=
  { d.ballot env k with votes := (d.ballot env k).votes ++ [vote] }

end Folder

/-- The vote `mediator` casts, at the weight it has. -/
def voteOf (env : Env) (s : State) (mediator : Address) (bps : Nat) (rationale : String) :
    MediatorVote :=
  ⟨mediator, bps, getMediatorWeight s mediator, rationale, env.timestamp⟩

/-- Whether the quorum rules apply to a trade. -/
def Trade.NeedsQuorum (s : State) (t : Trade) : Prop :=
  (getQuorumConfig s).enabled = true ∧ t.amount ≥ (getQuorumConfig s).valueThreshold

/-- Whether `a` is a party of the trade. -/
def Trade.IsParty (t : Trade) (a : Address) : Prop := a = t.buyer ∨ a = t.seller

/-- Whether `require_mediator` accepts `a`, given its authorization. -/
def State.Mediates (s : State) (a : Address) : Prop :=
  isMediator s a = true ∨ s.mediator = some a

/-- The record of a trade that is cancelled now. -/
def Trade.cancel (t : Trade) (env : Env) : Trade :=
  { t with status := .cancelled, updatedAt := env.timestamp }

/-- The record of a trade that is completed now. -/
def Trade.complete (t : Trade) (env : Env) : Trade :=
  { t with status := .completed, updatedAt := env.timestamp }

/-- The folder of a trade that `execute_cancellation` cancels. -/
def Folder.cancelled (d : Folder) (env : Env) (t : Trade) (caller : Address) : Folder :=
  (d.stamp env (t.cancel env) fun sequence now => { sequence with cancelledAt := some now }).log
    env "cancelled" caller "trade cancelled"

/-- The folder of a trade that `settle_dispute` settles. -/
def Folder.resolved (d : Folder) (env : Env) (t : Trade) (mediator : Address) : Folder :=
  (d.stamp env (t.complete env) fun sequence now => { sequence with resolvedAt := some now }).log
    env "resolved" mediator "dispute resolved"

/-- What a call can write to the record `t` and the folder `d` of trade `k`. -/
inductive Entry (env : Env) (s : State) (k : Nat) (t : Trade) (d : Folder) :
    Call → Trade → Folder → Prop
  | deposit {t' : Trade} (status : t.status = .created) (auth : t.buyer ∈ env.auths)
      (record : t' = { t with
        status := .funded, fundedAt := some env.timestamp, updatedAt := env.timestamp }) :
      Entry env s k t d (.deposit k) t'
        ((d.stamp env t' fun sequence now => { sequence with fundedAt := some now }).log
          env "funded" t.buyer "escrow funded")
  | openPath {sourceAmount destMin : Int} {path : List Address} (status : t.status = .created) :
      Entry env s k t d (.depositWithPath k t.buyer sourceAmount destMin path)
        { t with updatedAt := env.timestamp } d
  | finalizePath {caller : Address} {amount : Int} (status : t.status = .created) :
      Entry env s k t d (.finalizePathPayment k caller)
        { t with
          amount, status := .funded, fundedAt := some env.timestamp
          updatedAt := env.timestamp } d
  | drop {caller : Address} (status : t.status = .created) :
      Entry env s k t d (.cancelTrade k caller) (t.cancel env) (d.cancelled env t caller)
  | cancelByBuyer (status : t.status = .created) :
      Entry env s k t d (.cancelByBuyer k) (t.cancel env)
        (d.stamp env (t.cancel env) fun sequence now => { sequence with cancelledAt := some now })
  /-- One party asks to cancel, and the other has not yet. -/
  | request {caller : Address} {requests : Bool × Bool} (status : t.status = .funded)
      (auth : caller ∈ env.auths) (party : t.IsParty caller)
      (joined : requests = joinCancelRequest t caller (d.cancelRequest.getD (false, false))) :
      Entry env s k t d (.cancelTrade k caller) { t with updatedAt := env.timestamp }
        { d with cancelRequest := some requests }
  /-- The admin cancels a funded trade. -/
  | override {caller : Address} (status : t.status = .funded) (auth : caller ∈ env.auths)
      (admin : s.admin = some caller) :
      Entry env s k t d (.cancelTrade k caller) (t.cancel env) (d.cancelled env t caller)
  /-- The second party asks to cancel. -/
  | agree {caller : Address} (status : t.status = .funded) (auth : caller ∈ env.auths)
      (party : t.IsParty caller)
      (joined : joinCancelRequest t caller (d.cancelRequest.getD (false, false)) = (true, true)) :
      Entry env s k t d (.cancelTrade k caller) (t.cancel env)
        { d.cancelled env t caller with cancelRequest := none }
  | refund (status : t.status = .funded ∨ t.status = .delivered) (auth : t.seller ∈ env.auths) :
      Entry env s k t d (.refund k) (t.cancel env) (d.cancelled env t t.seller)
  | expire {caller : Address} {deadline : Nat} (status : t.status = .funded)
      (auth : caller ∈ env.auths) (party : t.IsParty caller)
      (expires : t.expiresAt = some deadline) (late : deadline ≤ env.timestamp) :
      Entry env s k t d (.claimExpiryRefund k caller) (t.cancel env)
        (d.stamp env (t.cancel env) fun sequence now =>
          { sequence with expiredAt := some now, cancelledAt := some now })
  | extend {newDeadline : Nat} (status : t.status = .funded) :
      Entry env s k t d (.extendDeadline k newDeadline)
        { t with expiresAt := some newDeadline, updatedAt := env.timestamp }
        (d.log env "deadline_extended" t.buyer "delivery deadline extended")
  | deliver {t' : Trade} (status : t.status = .funded) (auth : t.buyer ∈ env.auths)
      (record : t' = { t with
        status := .delivered, deliveredAt := some env.timestamp, updatedAt := env.timestamp }) :
      Entry env s k t d (.confirmDelivery k) t'
        ((d.stamp env t' fun sequence now => { sequence with deliveredAt := some now }).log
          env "delivered" t.buyer "delivery confirmed")
  | release {caller : Address} (status : t.status = .delivered) (auth : caller ∈ env.auths)
      (role : caller = t.buyer ∨ s.admin = some caller) :
      Entry env s k t d (.releaseFunds k caller) (t.complete env)
        ((d.stamp env (t.complete env) fun sequence now =>
          { sequence with releasedAt := some now }).log
            env "released" caller "funds released to seller")
  | dispute {t' : Trade} {initiator : Address} {reason : String} (status : t.status = .funded)
      (auth : initiator ∈ env.auths) (party : t.IsParty initiator)
      (record : t' = { t with status := .disputed, updatedAt := env.timestamp }) :
      Entry env s k t d (.initiateDispute k initiator reason) t'
        (({ d with dispute := some ⟨initiator, reason, env.timestamp⟩ }.stamp env t'
          fun sequence now => { sequence with disputedAt := some now }).log
            env "disputed" initiator "dispute initiated")
  | resolve {mediator : Address} {bps : Nat} (status : t.status = .disputed)
      (auth : mediator ∈ env.auths) (role : s.Mediates mediator) (single : ¬ t.NeedsQuorum s) :
      Entry env s k t d (.resolveDispute k mediator bps) (t.complete env)
        (d.resolved env t mediator)
  /-- A vote that does not bring its outcome to the required weight. -/
  | vote {mediator : Address} {bps : Nat} {rationale : String} {state : QuorumState}
      (status : t.status = .disputed) (auth : mediator ∈ env.auths) (role : s.Mediates mediator)
      (quorum : t.NeedsQuorum s) (once : ∀ v ∈ (d.ballot env k).votes, v.mediator ≠ mediator)
      (ballot : state = d.cast env k (voteOf env s mediator bps rationale))
      (short : weightForOutcome state.votes bps < (getQuorumConfig s).requiredWeight) :
      Entry env s k t d (.castDisputeVote k mediator bps rationale) t
        { d with votes := some state }
  /-- A vote that does, and settles the trade. -/
  | decide {mediator recorder : Address} {bps : Nat} {rationale : String} {state : QuorumState}
      (status : t.status = .disputed) (auth : mediator ∈ env.auths) (role : s.Mediates mediator)
      (quorum : t.NeedsQuorum s) (once : ∀ v ∈ (d.ballot env k).votes, v.mediator ≠ mediator)
      (ballot : state = d.cast env k (voteOf env s mediator bps rationale))
      (reached : (getQuorumConfig s).requiredWeight ≤ weightForOutcome state.votes bps) :
      Entry env s k t d (.castDisputeVote k mediator bps rationale) (t.complete env)
        ({ d with votes := some state }.resolved env t recorder)
  | fallback {caller recorder : Address} {state : QuorumState} (status : t.status = .disputed)
      (auth : caller ∈ env.auths) (role : t.IsParty caller ∨ isMediator s caller = true)
      (quorum : t.NeedsQuorum s) (votes : d.votes = some state)
      (window : U64.add state.openedAt (getQuorumConfig s).voteWindowSecs ≤ env.timestamp)
      (weight : (getQuorumConfig s).fallbackMinWeight ≤ totalVoteWeight state.votes) :
      Entry env s k t d (.resolveDisputeByFallback k caller) (t.complete env)
        (d.resolved env t recorder)
  | evidence {caller : Address} {hash description : String} (status : t.status = .disputed)
      (role : t.IsParty caller ∨ isMediator s caller = true) :
      Entry env s k t d (.submitEvidence k caller hash description) t
        { d with
          evidenceList :=
            some (d.evidenceList.getD [] ++ [⟨caller, hash, description, env.timestamp⟩])
          evidence := fun a => if a = caller then some [] else d.evidence a }
  | video {submitter : Address} {cid : String}
      (status : t.status = .funded ∨ t.status = .disputed) (fresh : d.videoProof = none) :
      Entry env s k t d (.submitVideoProof k submitter cid) t
        { d with videoProof := some ⟨submitter, cid, env.timestamp⟩ }
  | manifest {seller : Address} {name driver : String} (status : t.status = .funded)
      (fresh : d.manifest = none) :
      Entry env s k t d (.submitManifest k seller name driver) t
        ({ d with manifest := some ⟨seller, name, driver, env.timestamp⟩ }.stamp env t
          fun sequence now => { sequence with manifestSubmittedAt := some now })
  | clawPart {amount : Int} {destination admin : Address}
      (status : t.status = .funded ∨ t.status = .disputed) (auth : admin ∈ env.auths)
      (role : s.admin = some admin) (left : t.amount - amount ≠ 0) :
      Entry env s k t d (.adminClawback k amount destination) (t.clawed amount env.timestamp)
        (d.log env "clawback_partial" admin "admin partial clawback")
  | clawAll {amount : Int} {destination admin : Address}
      (status : t.status = .funded ∨ t.status = .disputed) (auth : admin ∈ env.auths)
      (role : s.admin = some admin) (left : t.amount - amount = 0) :
      Entry env s k t d (.adminClawback k amount destination) (t.clawed amount env.timestamp)
        ((d.stamp env (t.clawed amount env.timestamp) fun sequence now =>
          { sequence with cancelledAt := some now }).log
            env "clawback_full" admin "admin full clawback — trade cancelled")
  /-- A queued clawback leaves the folder as it is. -/
  | clawQueued {id : Nat} {q : QueuedOperation} {amount : Int} {destination admin : Address}
      (status : t.status = .funded ∨ t.status = .disputed) (auth : admin ∈ env.auths)
      (role : s.admin = some admin) (queued : s.timelockOperation.get id = some q)
      (payload : q.payload = .clawback ⟨k, amount, destination⟩) :
      Entry env s k t d (.executeClawback id) (t.clawed amount env.timestamp) d

/-! ## What a call writes -/

/-- A counter, one higher if something was counted. -/
def countIf (counted : Bool) (counter : Option Nat) : Option Nat :=
  if counted then some (U64.add (counter.getD 0) 1) else counter

/-- A step from `t` to `t'` that opens a dispute. -/
def Trade.opensDispute (t t' : Trade) : Bool := t.status = .funded && t'.status = .disputed

/-- A step from `t` to `t'` that settles a dispute. -/
def Trade.settles (t t' : Trade) : Bool := t.status = .disputed && t'.status = .completed

/-- Records and folders of all trades but `k` are as before. -/
def Elsewhere (s s' : State) (k : Nat) : Prop :=
  ∀ k', k' ≠ k → s'.trades.get k' = s.trades.get k' ∧ s'.toFiles.folder k' = s.toFiles.folder k'

/-- What a call does to the records and the folders. -/
inductive Filing (env : Env) (s : State) (c : Call) (s' : State) : Prop
  /-- Nothing is written. -/
  | idle (creates : c.creates = false) (subject : c.subject s = none)
      (trades : s'.trades = s.trades) (files : s'.toFiles = s.toFiles)
  /-- A trade is created. -/
  | create (trade : Trade)
      (call : c = .createTrade trade.buyer trade.seller trade.amount trade.buyerLossBps
        trade.sellerLossBps trade.expiresAt)
      (tradeId : trade.tradeId = nextIdentifier env s)
      (status : trade.status = .created)
      (stamps : trade.fundedAt = none ∧ trade.deliveredAt = none)
      (record : s'.trades.get trade.tradeId = some trade)
      (folder : s'.toFiles.folder trade.tradeId =
        { s.toFiles.folder trade.tradeId with
          sequence := some (defaultReleaseSequence trade) }.log env "created" trade.buyer
            "trade created")
      (elsewhere : Elsewhere s s' trade.tradeId)
      (created : s'.totalTrades = countIf true s.totalTrades)
      (disputes : s'.totalDisputes = s.totalDisputes)
      (resolved : s'.totalResolved = s.totalResolved)
  /-- A call writes to the trade it works on. -/
  | write (k : Nat) (t t' : Trade) (d' : Folder) (subject : c.subject s = some k)
      (stored : s.trades.get k = some t) (record : s'.trades.get k = some t')
      (folder : s'.toFiles.folder k = d')
      (entry : Entry env s k t (s.toFiles.folder k) c t' d')
      (elsewhere : Elsewhere s s' k)
      (created : s'.totalTrades = s.totalTrades)
      (disputes : s'.totalDisputes = countIf (t.opensDispute t') s.totalDisputes)
      (resolved : s'.totalResolved = countIf (t.settles t') s.totalResolved)

section Entrypoints

variable {env : Env} {s s' : State}

attribute [local simp] Files.folder Folder.log Folder.stamp Folder.cancelled Folder.resolved
  Trade.cancel Trade.complete publish recordTradeEvent updateReleaseSequence saveTrade accrueFee
  countIf Trade.opensDispute Trade.settles Store.get_set Store.get_erase Elsewhere

theorem createTrade_filing {buyer seller : Address} {amount : Int} {buyerLoss sellerLoss : Nat}
    {expiresAt : Option Nat} {id : Nat}
    (h : createTrade env buyer seller amount buyerLoss sellerLoss expiresAt s = .ok (id, s')) :
    Filing env s (.createTrade buyer seller amount buyerLoss sellerLoss expiresAt) s' := by
  simp only [createTrade, bind_eq_ok, assertNotPaused_eq_ok, requireAuth_eq_ok, assert_eq_ok,
    expect_eq_ok, pure_eq_ok, exists_const, Prod.mk.injEq] at h
  obtain ⟨-, -, -, -, -, -, -, -, -, token, -, -, rfl⟩ := h
  refine .create ⟨nextIdentifier env s, buyer, seller, token, amount, .created, env.timestamp,
    env.timestamp, none, none, buyerLoss, sellerLoss, expiresAt⟩ rfl rfl rfl ⟨rfl, rfl⟩ ?_ ?_ ?_
    rfl rfl rfl
  · simp [nextIdentifier]
  · simp [nextIdentifier]
  · intro k' hk
    simp [show k' ≠ tradeIdOf env.sequence (s.nextTradeId.getD 1) from hk]

theorem deposit_filing {t : Nat} (keyed : ∀ trade, s.trades.get t = some trade → trade.tradeId = t)
    (h : deposit env t s = .ok s') : Filing env s (.deposit t) s' := by
  simp only [deposit, bind_eq_ok, assertNotPaused_eq_ok, loadTrade_eq_ok, assert_eq_ok,
    requireAuth_eq_ok, tokenTransfer_eq_ok, pure_eq_ok, exists_const] at h
  obtain ⟨-, trade, hstored, hstatus, hauth, _, ⟨tokens, -, rfl⟩, rfl⟩ := h
  obtain rfl := keyed trade hstored
  exact .write trade.tradeId trade _ _ rfl hstored (by simp) (by simp)
    (.deposit hstatus hauth.1 rfl) (fun k' hk => by simp [hk]) rfl (by simp [hstatus])
    (by simp [hstatus])

theorem depositWithPath_filing {t : Nat} {buyer : Address} {sourceAmount destMin : Int}
    {path : List Address} (h : depositWithPath env t buyer sourceAmount destMin path s = .ok s') :
    Filing env s (.depositWithPath t buyer sourceAmount destMin path) s' := by
  simp only [depositWithPath, bind_eq_ok, loadTrade_eq_ok, assert_eq_ok, requireAuth_eq_ok,
    expect_eq_ok, tokenTransfer_eq_ok, pure_eq_ok, exists_const] at h
  obtain ⟨-, -, trade, hstored, hstatus, rfl, -, _, -, _, ⟨tokens, -, rfl⟩, -, rfl⟩ := h
  exact .write t trade _ _ rfl hstored (by simp) rfl (.openPath hstatus)
    (fun k' hk => by simp [hk]) rfl (by simp [hstatus]) (by simp [hstatus])

theorem finalizePathPayment_filing {t : Nat} {caller : Address}
    (h : finalizePathPayment env t caller s = .ok s') :
    Filing env s (.finalizePathPayment t caller) s' := by
  simp only [finalizePathPayment, bind_eq_ok, requireAuth_eq_ok, expect_eq_ok, loadTrade_eq_ok,
    assert_eq_ok, loadAdmin_eq_ok, pure_eq_ok, exists_const] at h
  obtain ⟨-, intent, -, trade, hstored, hstatus, _, -, -, amount, -, -, _, -, rfl⟩ := h
  exact .write t trade _ _ rfl hstored (by simp) rfl
    (@Entry.finalizePath env s t trade _ caller amount hstatus) (fun k' hk => by simp [hk]) rfl
    (by simp [hstatus]) (by simp [hstatus])

theorem cancelByBuyer_filing {t : Nat}
    (keyed : ∀ trade, s.trades.get t = some trade → trade.tradeId = t)
    (h : cancelByBuyer env t s = .ok s') : Filing env s (.cancelByBuyer t) s' := by
  simp only [cancelByBuyer, bind_eq_ok, loadTrade_eq_ok, requireAuth_eq_ok, assert_eq_ok,
    pure_eq_ok, exists_const] at h
  obtain ⟨trade, hstored, -, hstatus, rfl⟩ := h
  obtain rfl := keyed trade hstored
  exact .write trade.tradeId trade _ _ rfl hstored (by simp) (by simp) (.cancelByBuyer hstatus)
    (fun k' hk => by simp [hk]) rfl (by simp [hstatus]) (by simp [hstatus])

/-- What `execute_cancellation` writes. -/
theorem executeCancellation_files {trade : Trade} {amount : Int} {caller : Address}
    (h : executeCancellation env trade amount caller s = .ok s') :
    s'.trades.get trade.tradeId = some (trade.cancel env) ∧
      s'.toFiles.folder trade.tradeId =
        (s.toFiles.folder trade.tradeId).cancelled env trade caller ∧
      Elsewhere s s' trade.tradeId ∧ s'.cancelRequest = s.cancelRequest ∧
      s'.totalTrades = s.totalTrades ∧ s'.totalDisputes = s.totalDisputes ∧
      s'.totalResolved = s.totalResolved := by
  simp only [executeCancellation, bind_eq_ok, payOut_eq_ok, pure_eq_ok] at h
  obtain ⟨_, ⟨tokens, -, rfl⟩, rfl⟩ := h
  exact ⟨by simp, by simp, fun k' hk => by simp [hk], rfl, rfl, rfl, rfl⟩

theorem cancelTrade_filing {t : Nat} {caller : Address}
    (keyed : ∀ trade, s.trades.get t = some trade → trade.tradeId = t)
    (h : cancelTrade env t caller s = .ok s') : Filing env s (.cancelTrade t caller) s' := by
  simp only [cancelTrade, bind_eq_ok, assertNotPaused_eq_ok, loadTrade_eq_ok, loadAdmin_eq_ok,
    requireAuth_eq_ok, exists_const] at h
  obtain ⟨-, trade, hstored, admin, hadmin, hauth, h⟩ := h
  obtain rfl := keyed trade hstored
  split at h
  · next hstatus =>
    simp only [bind_eq_ok, assert_eq_ok, exists_const] at h
    obtain ⟨hrecord, hfolder, helse, -, hcreated, hdisputes, hresolved⟩ :=
      executeCancellation_files h.2
    exact .write _ trade _ _ rfl hstored hrecord hfolder (.drop hstatus) helse hcreated
      (by simp [hdisputes]) (by simp [hresolved])
  · next hstatus =>
    split at h
    · next hcaller =>
      subst hcaller
      obtain ⟨hrecord, hfolder, helse, -, hcreated, hdisputes, hresolved⟩ :=
        executeCancellation_files h
      exact .write _ trade _ _ rfl hstored hrecord hfolder (.override hstatus hauth.1 hadmin) helse
        hcreated (by simp [hdisputes]) (by simp [hresolved])
    · simp only [bind_eq_ok, assert_eq_ok, exists_const] at h
      obtain ⟨hparty, h⟩ := h
      split at h
      · next hboth =>
        simp only [bind_eq_ok, pure_eq_ok] at h
        obtain ⟨mid, hmid, rfl⟩ := h
        obtain ⟨hrecord, hfolder, helse, hrequests, hcreated, hdisputes, hresolved⟩ :=
          executeCancellation_files hmid
        have hjoined : joinCancelRequest trade caller
            ((s.cancelRequest.get trade.tradeId).getD (false, false)) = (true, true) :=
          Prod.ext_iff.2 (by simpa using hboth)
        refine .write _ trade _ _ rfl hstored hrecord ?_ (.agree hstatus hauth.1 hparty hjoined)
          (fun k' hk => ?_) hcreated (by simp [hdisputes]) (by simp [hresolved])
        · rw [← hfolder]
          simp
        · obtain ⟨hrest, hfolder'⟩ := helse k' hk
          refine ⟨hrest, ?_⟩
          rw [← hfolder']
          simp [hk]
      · cases pure_eq_ok.1 h
        exact .write _ trade _ _ rfl hstored (by simp) (by simp)
          (.request hstatus hauth.1 hparty rfl) (fun k' hk => by simp [hk]) rfl
          (by simp [hstatus]) (by simp [hstatus])
  · cases h

theorem refund_filing {t : Nat} (keyed : ∀ trade, s.trades.get t = some trade → trade.tradeId = t)
    (h : refund env t s = .ok s') : Filing env s (.refund t) s' := by
  simp only [refund, bind_eq_ok, loadTrade_eq_ok, requireAuth_eq_ok, assert_eq_ok,
    exists_const] at h
  obtain ⟨trade, hstored, hauth, hstatus, h⟩ := h
  obtain rfl := keyed trade hstored
  obtain ⟨hrecord, hfolder, helse, -, hcreated, hdisputes, hresolved⟩ :=
    executeCancellation_files h
  exact .write _ trade _ _ rfl hstored hrecord hfolder (.refund hstatus hauth.1) helse hcreated
    (by simp [hdisputes]) (by simp [hresolved])

theorem claimExpiryRefund_filing {t : Nat} {caller : Address}
    (keyed : ∀ trade, s.trades.get t = some trade → trade.tradeId = t)
    (h : claimExpiryRefund env t caller s = .ok s') :
    Filing env s (.claimExpiryRefund t caller) s' := by
  simp only [claimExpiryRefund, bind_eq_ok, loadTrade_eq_ok, requireAuth_eq_ok, assert_eq_ok,
    expect_eq_ok, tokenTransfer_eq_ok, pure_eq_ok, exists_const] at h
  obtain ⟨hauth, trade, hstored, hparty, hstatus, _, hdeadline, hlate, _, ⟨tokens, -, rfl⟩, rfl⟩ :=
    h
  obtain rfl := keyed trade hstored
  exact .write _ trade _ _ rfl hstored (by simp) (by simp)
    (.expire hstatus hauth.1 hparty hdeadline hlate) (fun k' hk => by simp [hk]) rfl (by simp)
    (by simp)

theorem extendDeadline_filing {t newDeadline : Nat}
    (h : extendDeadline env t newDeadline s = .ok s') :
    Filing env s (.extendDeadline t newDeadline) s' := by
  simp only [extendDeadline, bind_eq_ok, loadTrade_eq_ok, requireAuth_eq_ok, assert_eq_ok,
    expect_eq_ok, pure_eq_ok, exists_const] at h
  obtain ⟨trade, hstored, -, -, hstatus, _, -, -, -, -, -, -, rfl⟩ := h
  exact .write t trade _ _ rfl hstored (by simp) (by simp) (.extend hstatus)
    (fun k' hk => by simp [hk]) rfl (by simp [hstatus]) (by simp [hstatus])

theorem confirmDelivery_filing {t : Nat}
    (keyed : ∀ trade, s.trades.get t = some trade → trade.tradeId = t)
    (h : confirmDelivery env t s = .ok s') : Filing env s (.confirmDelivery t) s' := by
  simp only [confirmDelivery, bind_eq_ok, loadTrade_eq_ok, requireAuth_eq_ok, assert_eq_ok,
    pure_eq_ok, exists_const] at h
  obtain ⟨trade, hstored, hauth, hstatus, rfl⟩ := h
  obtain rfl := keyed trade hstored
  exact .write _ trade _ _ rfl hstored (by simp) (by simp) (.deliver hstatus hauth.1 rfl)
    (fun k' hk => by simp [hk]) rfl (by simp) (by simp)

theorem releaseFunds_filing {t : Nat} {caller : Address}
    (keyed : ∀ trade, s.trades.get t = some trade → trade.tradeId = t)
    (h : releaseFunds env t caller s = .ok s') : Filing env s (.releaseFunds t caller) s' := by
  simp only [releaseFunds, bind_eq_ok, assertNotPaused_eq_ok, loadTrade_eq_ok, assert_eq_ok,
    requireAuth_eq_ok, loadAdmin_eq_ok, tokenTransfer_eq_ok, pure_eq_ok, exists_const] at h
  obtain ⟨-, trade, hstored, hstatus, hauth, admin, hadmin, hrole, _, -, -, -, -, _,
    ⟨tokens, -, rfl⟩, rfl⟩ := h
  obtain rfl := keyed trade hstored
  have hrole : caller = trade.buyer ∨ s.admin = some caller :=
    hrole.imp_right fun e => hadmin.trans (congrArg some e.symm)
  exact .write _ trade _ _ rfl hstored (by simp) (by simp) (.release hstatus hauth.1 hrole)
    (fun k' hk => by simp [hk]) rfl (by simp) (by simp [hstatus])

theorem initiateDispute_filing {t : Nat} {initiator : Address} {reason : String}
    (keyed : ∀ trade, s.trades.get t = some trade → trade.tradeId = t)
    (h : initiateDispute env t initiator reason s = .ok s') :
    Filing env s (.initiateDispute t initiator reason) s' := by
  simp only [initiateDispute, bind_eq_ok, requireAuth_eq_ok, assert_eq_ok, loadTrade_eq_ok,
    pure_eq_ok, exists_const] at h
  obtain ⟨hauth, -, -, trade, hstored, hstatus, hparty, rfl⟩ := h
  obtain rfl := keyed trade hstored
  exact .write _ trade _ _ rfl hstored (by simp) (by simp) (.dispute hstatus hauth.1 hparty rfl)
    (fun k' hk => by simp [hk]) rfl (by simp [hstatus]) (by simp)

/-- What `settle_dispute` writes. -/
theorem settleDispute_files {t bps : Nat} {mediator : Address}
    (keyed : ∀ trade, s.trades.get t = some trade → trade.tradeId = t)
    (h : settleDispute env t bps mediator s = .ok s') :
    ∃ trade, s.trades.get t = some trade ∧ trade.status = .disputed ∧
      s'.trades.get t = some (trade.complete env) ∧
      s'.toFiles.folder t = (s.toFiles.folder t).resolved env trade mediator ∧
      Elsewhere s s' t ∧ s'.totalTrades = s.totalTrades ∧ s'.totalDisputes = s.totalDisputes ∧
      s'.totalResolved = countIf true s.totalResolved := by
  simp only [settleDispute, bind_eq_ok, loadTrade_eq_ok, assert_eq_ok, payOut_eq_ok, pure_eq_ok,
    exists_const] at h
  obtain ⟨trade, hstored, hstatus, split, -, _, ⟨tokens₁, -, rfl⟩, _, ⟨tokens₂, -, rfl⟩, rfl⟩ := h
  obtain rfl := keyed trade hstored
  exact ⟨trade, hstored, hstatus, by simp, by simp, fun k' hk => by simp [hk], rfl, rfl, rfl⟩

/-- What `finalize_quorum` writes, after a vote was filed or not. -/
theorem finalizeQuorum_files {t bps weight : Nat} {state : QuorumState} {outcome : QuorumOutcome}
    {mid : State} {d : Folder}
    (h : finalizeQuorum env t state bps weight outcome mid = .ok s')
    (keyed : ∀ trade, s.trades.get t = some trade → trade.tradeId = t)
    (trades : mid.trades = s.trades) (folder : mid.toFiles.folder t = d)
    (elsewhere : ∀ k', k' ≠ t → mid.toFiles.folder k' = s.toFiles.folder k') :
    ∃ trade recorder, s.trades.get t = some trade ∧
      s'.trades.get t = some (trade.complete env) ∧
      s'.toFiles.folder t = d.resolved env trade recorder ∧ Elsewhere s s' t ∧
      s'.totalTrades = mid.totalTrades ∧ s'.totalDisputes = mid.totalDisputes ∧
      s'.totalResolved = countIf true mid.totalResolved := by
  simp only [finalizeQuorum, bind_eq_ok, expect_eq_ok, pure_eq_ok] at h
  obtain ⟨vote, -, settled, hsettled, rfl⟩ := h
  obtain ⟨trade, hstored, -, hrecord, hfolder, helse, htotals⟩ :=
    settleDispute_files (by rw [trades]; exact keyed) hsettled
  rw [trades] at hstored
  rw [folder] at hfolder
  refine ⟨trade, vote.mediator, hstored, hrecord, hfolder, fun k' hk => ?_, htotals⟩
  obtain ⟨hrest, hfolder'⟩ := helse k' hk
  exact ⟨by rw [← trades]; exact hrest, hfolder'.trans (elsewhere k' hk)⟩

theorem requireMediator_eq_ok {mediator m : Address} :
    requireMediator env s mediator = .ok m ↔
      (mediator ∈ env.auths ∧ mediator ≠ currentContract) ∧ s.Mediates mediator ∧
        mediator = m := by
  simp only [requireMediator, bind_eq_ok, requireAuth_eq_ok, assert_eq_ok, pure_eq_ok,
    exists_const]
  rfl

theorem requiresQuorum_eq_ok {t : Nat} {trade : Trade} {b : Bool}
    (hstored : s.trades.get t = some trade) :
    requiresQuorum s t = .ok b ↔ (b = true ↔ trade.NeedsQuorum s) := by
  have hload : loadTrade s t = .ok trade := loadTrade_eq_ok.2 hstored
  unfold requiresQuorum Trade.NeedsQuorum
  by_cases henabled : (getQuorumConfig s).enabled = true
  · simp only [henabled, Bool.true_eq_false, if_false, hload, true_and]
    by_cases hlarge : trade.amount ≥ (getQuorumConfig s).valueThreshold
    · cases b <;> simp [hlarge, bind, Except.bind, pure, Except.pure]
    · cases b <;> simp [hlarge, bind, Except.bind, pure, Except.pure]
  · simp only [Bool.not_eq_true] at henabled
    cases b <;> simp [henabled, pure, Except.pure]

theorem resolveDispute_filing {t : Nat} {mediator : Address} {bps : Nat}
    (keyed : ∀ trade, s.trades.get t = some trade → trade.tradeId = t)
    (h : resolveDispute env t mediator bps s = .ok s') :
    Filing env s (.resolveDispute t mediator bps) s' := by
  simp only [resolveDispute, bind_eq_ok, assert_eq_ok, requireMediator_eq_ok, exists_const] at h
  obtain ⟨_, ⟨hauth, hrole, rfl⟩, -, quorum, hquorum, rfl, h⟩ := h
  obtain ⟨trade, hstored, hstatus, hrecord, hfolder, helse, hcreated, hdisputes, hresolved⟩ :=
    settleDispute_files keyed h
  have hsingle : ¬ trade.NeedsQuorum s := fun hneeds => by
    cases ((requiresQuorum_eq_ok hstored).1 hquorum).2 hneeds
  exact .write t trade _ _ rfl hstored hrecord hfolder (.resolve hstatus hauth.1 hrole hsingle)
    helse hcreated (by simp [hdisputes]) (by simp [hresolved, hstatus])

theorem castDisputeVote_filing {t : Nat} {mediator : Address} {bps : Nat} {rationale : String}
    (keyed : ∀ trade, s.trades.get t = some trade → trade.tradeId = t)
    (h : castDisputeVote env t mediator bps rationale s = .ok s') :
    Filing env s (.castDisputeVote t mediator bps rationale) s' := by
  simp only [castDisputeVote, bind_eq_ok, assert_eq_ok, loadTrade_eq_ok, requireMediator_eq_ok,
    exists_const] at h
  obtain ⟨_, ⟨hauth, hrole, rfl⟩, -, -, -, trade, hstored, hstatus, hquorum, honce, h⟩ := h
  split at h
  · next hreached =>
    obtain ⟨trade', recorder, hstored', hrecord, hfolder, helse, hcreated, hdisputes,
      hresolved⟩ := finalizeQuorum_files (s := s) h keyed rfl rfl fun k' hk => by simp [hk]
    obtain rfl := Option.some.inj (hstored.symm.trans hstored')
    have hentry := @Entry.decide env s t trade (s.toFiles.folder t) mediator recorder bps rationale
      _ hstatus hauth.1 hrole hquorum honce rfl hreached
    refine .write t trade _ _ rfl hstored hrecord (hfolder.trans ?_) hentry helse hcreated
      (by simpa using hdisputes) (by simpa [hstatus] using hresolved)
    simp [Folder.cast, Folder.ballot, voteOf]
  · next hshort =>
    cases pure_eq_ok.1 h
    exact .write t trade trade _ rfl hstored hstored (by simp [Folder.cast, Folder.ballot, voteOf])
      (.vote hstatus hauth.1 hrole hquorum honce rfl (Nat.lt_of_not_le hshort))
      (fun k' hk => by simp [hk]) rfl (by simp [hstatus]) (by simp [hstatus])

theorem resolveDisputeByFallback_filing {t : Nat} {caller : Address}
    (keyed : ∀ trade, s.trades.get t = some trade → trade.tradeId = t)
    (h : resolveDisputeByFallback env t caller s = .ok s') :
    Filing env s (.resolveDisputeByFallback t caller) s' := by
  simp only [resolveDisputeByFallback, bind_eq_ok, requireAuth_eq_ok, assert_eq_ok,
    loadTrade_eq_ok, expect_eq_ok, exists_const] at h
  obtain ⟨hauth, trade, hstored, hstatus, hrole, hquorum, state, hvotes, -, hwindow, hweight, h⟩ :=
    h
  obtain ⟨trade', recorder, hstored', hrecord, hfolder, helse, hcreated, hdisputes, hresolved⟩ :=
    finalizeQuorum_files h keyed rfl rfl fun _ _ => rfl
  obtain rfl := Option.some.inj (hstored.symm.trans hstored')
  exact .write t trade _ _ rfl hstored hrecord hfolder
    (.fallback hstatus hauth.1 hrole hquorum hvotes hwindow hweight) helse hcreated
    (by simpa using hdisputes) (by simpa [hstatus] using hresolved)

theorem submitEvidence_filing {t : Nat} {caller : Address} {hash description : String}
    (h : submitEvidence env t caller hash description s = .ok s') :
    Filing env s (.submitEvidence t caller hash description) s' := by
  simp only [submitEvidence, bind_eq_ok, requireAuth_eq_ok, assert_eq_ok, loadTrade_eq_ok,
    pure_eq_ok, exists_const] at h
  obtain ⟨-, -, -, -, trade, hstored, hstatus, hrole, rfl⟩ := h
  exact .write t trade trade _ rfl hstored hstored (by simp) (.evidence hstatus hrole)
    (fun k' hk => by simp [hk]) rfl (by simp [hstatus]) (by simp [hstatus])

theorem submitVideoProof_filing {t : Nat} {submitter : Address} {cid : String}
    (h : submitVideoProof env t submitter cid s = .ok s') :
    Filing env s (.submitVideoProof t submitter cid) s' := by
  simp only [submitVideoProof, bind_eq_ok, requireAuth_eq_ok, assert_eq_ok, loadTrade_eq_ok,
    pure_eq_ok, exists_const, Store.has_eq_false_iff] at h
  obtain ⟨-, -, -, trade, hstored, hstatus, -, hfresh, rfl⟩ := h
  exact .write t trade trade _ rfl hstored hstored (by simp) (.video hstatus hfresh)
    (fun k' hk => by simp [hk]) rfl (by rcases hstatus with e | e <;> simp [e])
    (by rcases hstatus with e | e <;> simp [e])

theorem submitManifest_filing {t : Nat} {seller : Address} {name driver : String}
    (keyed : ∀ trade, s.trades.get t = some trade → trade.tradeId = t)
    (h : submitManifest env t seller name driver s = .ok s') :
    Filing env s (.submitManifest t seller name driver) s' := by
  simp only [submitManifest, bind_eq_ok, requireAuth_eq_ok, assert_eq_ok, loadTrade_eq_ok,
    pure_eq_ok, exists_const, Store.has_eq_false_iff] at h
  obtain ⟨-, -, -, -, -, trade, hstored, hstatus, -, hfresh, rfl⟩ := h
  obtain rfl := keyed trade hstored
  exact .write _ trade trade _ rfl hstored hstored (by simp) (.manifest hstatus hfresh)
    (fun k' hk => by simp [hk]) rfl (by simp [hstatus]) (by simp [hstatus])

/-- Neither a clawback opens a dispute nor does it settle one. -/
theorem Trade.clawed_counts (t : Trade) (amount : Int) (now : Nat)
    (status : t.status = .funded ∨ t.status = .disputed) :
    t.opensDispute (t.clawed amount now) = false ∧ t.settles (t.clawed amount now) = false := by
  unfold Trade.opensDispute Trade.settles Trade.clawed
  rcases status with e | e <;> simp only [e] <;> split <;> decide

theorem adminClawback_filing {t : Nat} {amount : Int} {destination : Address}
    (range : AmountsInRange s.toBooks)
    (keyed : ∀ trade, s.trades.get t = some trade → trade.tradeId = t)
    (h : adminClawback env t amount destination s = .ok s') :
    Filing env s (.adminClawback t amount destination) s' := by
  simp only [adminClawback, bind_eq_ok, requireAdmin_eq_ok, assert_eq_ok, loadTrade_eq_ok,
    tokenTransfer_eq_ok, expect_eq_ok, pure_eq_ok, exists_const] at h
  obtain ⟨admin, ⟨hadmin, hauth, -⟩, -, hpos, trade, hstored, hstatus, hle, _,
    ⟨tokens, -, rfl⟩, _, -, rfl⟩ := h
  obtain rfl := keyed trade hstored
  have hcounts := trade.clawed_counts amount env.timestamp hstatus
  rw [sub_clawback (range _ trade hstored).2 hpos hle]
  by_cases hleft : trade.amount - amount = 0
  · rw [if_pos hleft]
    refine .write _ trade _ _ rfl hstored ?_ ?_ (.clawAll hstatus hauth hadmin hleft)
      (fun k' hk => by simp [hk]) rfl ?_ ?_
    · simp [Trade.clawed, hleft]
    · simp [Trade.clawed, hleft]
    · rw [hcounts.1]
      rfl
    · rw [hcounts.2]
      rfl
  · rw [if_neg hleft]
    refine .write _ trade _ _ rfl hstored ?_ (by simp) (.clawPart hstatus hauth hadmin hleft)
      (fun k' hk => by simp [hk]) rfl ?_ ?_
    · simp [Trade.clawed, hleft]
    · rw [hcounts.1]
      rfl
    · rw [hcounts.2]
      rfl

theorem executeClawback_filing {id : Nat} (range : AmountsInRange s.toBooks)
    (h : executeClawback env id s = .ok s') : Filing env s (.executeClawback id) s' := by
  simp only [executeClawback, bind_eq_ok, requireAdmin_eq_ok] at h
  obtain ⟨admin, ⟨hadmin, hauth, -⟩, q, hq, h⟩ := h
  split at h
  · next op hpayload =>
    simp only [bind_eq_ok, assert_eq_ok, loadTrade_eq_ok, tokenTransfer_eq_ok, pure_eq_ok,
      exists_const] at h
    obtain ⟨hpos, trade, hstored, hstatus, hle, _, ⟨tokens, -, rfl⟩, rfl⟩ := h
    have hcounts := trade.clawed_counts op.clawbackAmount env.timestamp hstatus
    have hqueued := (loadDueOperation_eq_ok.1 hq).1
    have hsubject : Call.subject s (.executeClawback id) = some op.tradeId := by
      simp [Call.subject, hqueued, QueuedOperation.target, hpayload]
    rw [sub_clawback (range _ trade hstored).2 hpos hle]
    refine .write op.tradeId trade _ _ hsubject hstored ?_ rfl
      (.clawQueued hstatus hauth hadmin hqueued hpayload)
      (fun k' hk => by simp [markExecuted, hk]) rfl ?_ ?_
    · simp [Trade.clawed, markExecuted]
    · rw [hcounts.1]
      rfl
    · rw [hcounts.2]
      rfl
  · next op hpayload =>
    cases pure_eq_ok.1 h
    refine .idle rfl ?_ rfl rfl
    simp [Call.subject, (loadDueOperation_eq_ok.1 hq).1, QueuedOperation.target, hpayload]

end Entrypoints

variable {env : Env} {s s' : State} {c : Call}

/-- Every successful call that does not configure the contract is one of the filings. -/
theorem invoke_filing (wf : WellFormed s.toSettings s.toBooks) (hc : c.configures = false)
    (h : invoke env s c = .ok s') : Filing env s c s' := by
  have range := wf.amountsInRange
  cases c
  case withdrawFees =>
    simp only [invoke, withdrawFees, bind_eq_ok, requireAdmin_eq_ok, assert_eq_ok, expect_eq_ok,
      tokenTransfer_eq_ok, pure_eq_ok, exists_const] at h
    obtain ⟨_, -, -, -, _, -, _, ⟨_, -, rfl⟩, rfl⟩ := h
    exact .idle rfl rfl rfl rfl
  case createTrade =>
    obtain ⟨⟨id, _⟩, hcreate, rfl⟩ := map_eq_ok.1 h
    exact createTrade_filing hcreate
  case deposit t => exact deposit_filing (wf.keyed t) h
  case depositWithPath => exact depositWithPath_filing h
  case finalizePathPayment => exact finalizePathPayment_filing h
  case cancelTrade t _ => exact cancelTrade_filing (wf.keyed t) h
  case cancelByBuyer t => exact cancelByBuyer_filing (wf.keyed t) h
  case refund t => exact refund_filing (wf.keyed t) h
  case claimExpiryRefund t _ => exact claimExpiryRefund_filing (wf.keyed t) h
  case extendDeadline => exact extendDeadline_filing h
  case confirmDelivery t => exact confirmDelivery_filing (wf.keyed t) h
  case releaseFunds t _ => exact releaseFunds_filing (wf.keyed t) h
  case initiateDispute t _ _ => exact initiateDispute_filing (wf.keyed t) h
  case resolveDispute t _ _ => exact resolveDispute_filing (wf.keyed t) h
  case castDisputeVote t _ _ _ => exact castDisputeVote_filing (wf.keyed t) h
  case resolveDisputeByFallback t _ => exact resolveDisputeByFallback_filing (wf.keyed t) h
  case submitEvidence => exact submitEvidence_filing h
  case submitVideoProof => exact submitVideoProof_filing h
  case submitManifest t _ _ _ => exact submitManifest_filing (wf.keyed t) h
  case adminClawback t _ _ => exact adminClawback_filing range (wf.keyed t) h
  case executeClawback => exact executeClawback_filing range h
  case queueClawback =>
    obtain ⟨_, hqueue, rfl⟩ := map_eq_ok.1 h
    simp only [queueClawback, bind_eq_ok, requireAdmin_eq_ok, assert_eq_ok, pure_eq_ok,
      exists_const] at hqueue
    obtain ⟨_, -, -, rfl⟩ := hqueue
    exact .idle rfl rfl rfl rfl
  case cancelQueuedOperation =>
    simp only [invoke, cancelQueuedOperation, bind_eq_ok, requireAdmin_eq_ok, expect_eq_ok,
      assert_eq_ok, pure_eq_ok, exists_const] at h
    obtain ⟨_, -, _, -, -, -, rfl⟩ := h
    exact .idle rfl rfl rfl rfl
  case queueUpgrade =>
    obtain ⟨_, hqueue, rfl⟩ := map_eq_ok.1 h
    simp only [queueUpgrade, bind_eq_ok, requireAdmin_eq_ok, pure_eq_ok] at hqueue
    obtain ⟨_, -, rfl⟩ := hqueue
    exact .idle rfl rfl rfl rfl
  case executeUpgrade =>
    simp only [invoke, executeUpgrade, bind_eq_ok, requireAdmin_eq_ok] at h
    obtain ⟨_, -, _, -, h⟩ := h
    split at h <;> cases pure_eq_ok.1 h <;> exact .idle rfl rfl rfl rfl
  all_goals exact absurd hc (by simp [Call.configures])

/-- Only open trades are worked on. -/
theorem Entry.wasOpen {k : Nat} {t t' : Trade} {d d' : Folder}
    (h : Entry env s k t d c t' d') : t.status.closed = false := by
  cases h with
  | refund status _ | video status _ | clawPart status _ _ _ | clawAll status _ _ _
  | clawQueued status _ _ _ _ => rcases status with e | e <;> rw [e] <;> rfl
  | deposit status | openPath status | finalizePath status | drop status | cancelByBuyer status
  | request status | override status | agree status | expire status | extend status
  | deliver status | release status | dispute status | resolve status | vote status
  | decide status | fallback status | evidence status | manifest status => rw [status]; rfl

/-- The status stays or follows the table. -/
theorem Entry.status {k : Nat} {t t' : Trade} {d d' : Folder} (h : Entry env s k t d c t' d') :
    t'.status = t.status ∨ t'.status ∈ t.status.next := by
  cases h with
  | openPath | request | extend | vote | evidence | video | manifest => exact .inl rfl
  | clawPart status | clawAll status | clawQueued status =>
    exact (Trade.moved_clawed env.timestamp status).status
  | refund status _ => rcases status with e | e <;> simp [e, Trade.cancel, TradeStatus.next]
  | deposit status _ record | deliver status _ record | dispute status _ _ record =>
    simp [record, status, TradeStatus.next]
  | finalizePath status | drop status | cancelByBuyer status | override status | agree status
  | expire status | release status | resolve status | decide status | fallback status =>
    simp [status, Trade.cancel, Trade.complete, TradeStatus.next]

/-- A call on a trade writes to it. -/
theorem Filing.of_subject {k : Nat} (h : Filing env s c s') (hsubject : c.subject s = some k) :
    ∃ t t', s.trades.get k = some t ∧ s'.trades.get k = some t' ∧
      Entry env s k t (s.toFiles.folder k) c t' (s'.toFiles.folder k) := by
  cases h with
  | idle _ subject _ _ => cases subject.symm.trans hsubject
  | create _ call _ _ _ _ _ _ _ _ _ =>
    subst call
    cases hsubject
  | write k' t t' d' subject stored record folder entry _ _ _ _ =>
    obtain rfl := Option.some.inj (hsubject.symm.trans subject)
    exact ⟨t, t', stored, record, folder ▸ entry⟩

/-- A creation writes a new record and starts its folder. -/
theorem Filing.of_creates (h : Filing env s c s') (hcreates : c.creates = true) :
    ∃ trade : Trade, trade.tradeId = nextIdentifier env s ∧ trade.status = .created ∧
      s'.trades.get (nextIdentifier env s) = some trade ∧
      s'.toFiles.folder (nextIdentifier env s) =
        { s.toFiles.folder (nextIdentifier env s) with
          sequence := some (defaultReleaseSequence trade) }.log env "created" trade.buyer
            "trade created" := by
  cases h with
  | idle creates _ _ _ => cases creates.symm.trans hcreates
  | create trade _ tradeId status _ record folder _ _ _ _ =>
    rw [← tradeId]
    exact ⟨trade, rfl, status, record, folder⟩
  | write _ _ _ _ subject _ _ _ _ _ _ _ _ =>
    cases (creates_of_subject subject).symm.trans hcreates

/-! ## Steps, one trade at a time -/

/-- What a step does to the record and the folder of trade `k`. -/
inductive TradeChange (s : State) (k : Nat) : Action → State → Prop
  /-- Both stay. -/
  | same {a : Action} {s' : State} (quiet : ¬ Issues k s a)
      (record : s'.trades.get k = s.trades.get k)
      (folder : s'.toFiles.folder k = s.toFiles.folder k) : TradeChange s k a s'
  /-- The trade is created. -/
  | create {env : Env} {c : Call} {s' : State} (trade : Trade) (ok : invoke env s c = .ok s')
      (creates : c.creates = true) (tradeId : trade.tradeId = k)
      (issued : k = nextIdentifier env s) (status : trade.status = .created)
      (stamps : trade.fundedAt = none ∧ trade.deliveredAt = none)
      (record : s'.trades.get k = some trade)
      (folder : s'.toFiles.folder k =
        { s.toFiles.folder k with sequence := some (defaultReleaseSequence trade) }.log env
          "created" trade.buyer "trade created") : TradeChange s k (.call env c) s'
  /-- A call works on the trade. -/
  | write {env : Env} {c : Call} {s' : State} (t t' : Trade) (ok : invoke env s c = .ok s')
      (subject : c.subject s = some k) (stored : s.trades.get k = some t)
      (record : s'.trades.get k = some t')
      (entry : Entry env s k t (s.toFiles.folder k) c t' (s'.toFiles.folder k)) :
      TradeChange s k (.call env c) s'

/-- A step is a filing, or leaves all records and folders. -/
theorem step_filing (wf : WellFormed s.toSettings s.toBooks) (a : Action) :
    (¬ Creates s a ∧ (step s a).trades = s.trades ∧ (step s a).toFiles = s.toFiles) ∨
      ∃ env c, a = .call env c ∧ invoke env s c = .ok (step s a) ∧ Filing env s c (step s a) := by
  have hchange := step_change wf a
  generalize step s a = s' at hchange
  cases hchange with
  | stay failed => exact .inl ⟨not_creates_of_failed failed, rfl, rfl⟩
  | configure _ configures conf =>
    refine .inl ⟨fun h => ?_, by rw [conf.books], conf.files⟩
    cases (creates_of_configures configures).symm.trans h.1
  | outside call _ => exact .inl ⟨not_creates_of_outside call, rfl, rfl⟩
  | @effect env c _ ok _ _ _ =>
    by_cases hc : c.configures = true
    · have hconf := invoke_configured hc ok
      refine .inl ⟨fun h => ?_, by rw [hconf.books], hconf.files⟩
      cases (creates_of_configures hc).symm.trans h.1
    · exact .inr ⟨env, c, rfl, ok, invoke_filing wf (by simpa using hc) ok⟩

/-- Every step does one of these to every trade. -/
theorem step_at (wf : WellFormed s.toSettings s.toBooks) (a : Action) (k : Nat) :
    TradeChange s k a (step s a) := by
  have hfiling := step_filing wf a
  generalize step s a = s' at hfiling
  obtain ⟨hquiet, htrades, hfiles⟩ | ⟨env, c, rfl, ok, hfiling⟩ := hfiling
  · exact .same (not_issues_of_creates hquiet) (by rw [htrades]) (by rw [hfiles])
  cases hfiling with
  | idle creates _ trades files =>
    refine .same (not_issues_of_creates fun h => ?_) (by rw [trades]) (by rw [files])
    cases creates.symm.trans h.1
  | create trade call tradeId status stamps record folder elsewhere _ _ _ =>
    by_cases hk : k = trade.tradeId
    · subst hk
      exact .create trade ok (by rw [call]; rfl) rfl tradeId status stamps record folder
    · exact .same (fun h => hk (h.2.2.symm.trans tradeId.symm)) (elsewhere k hk).1
        (elsewhere k hk).2
  | write k' t t' d' subject stored record folder entry elsewhere _ _ _ =>
    by_cases hk : k = k'
    · subst hk
      subst folder
      exact .write t t' ok subject stored record entry
    · refine .same (not_issues_of_creates fun h => ?_) (elsewhere k hk).1 (elsewhere k hk).2
      cases (creates_of_subject subject).symm.trans h.1

end Amana.Escrow
