import Amana.Escrow.AuditTrail

/-!
# What the contract announces

Six events announce a status of a trade.  A step announces at most one milestone of a trade, and
the trade then has the status it announces; path payments, cancellations, expiries and clawbacks
move trades without one (`step_announces`).
-/

namespace Amana.Escrow

open Lib

variable {env : Env} {s s' : State} {a : Action} {c : Call} {k : Nat}

/-- The events that announce a status. -/
inductive Milestone where
  | created
  | funded
  | delivered
  | released
  | disputed
  | resolved
  deriving DecidableEq, Repr

/-- The status a milestone announces. -/
def Milestone.status : Milestone → TradeStatus
  | .created => .created
  | .funded => .funded
  | .delivered => .delivered
  | .released => .completed
  | .disputed => .disputed
  | .resolved => .completed

/-- The statuses a milestone can follow; a trade can be created at any time. -/
def Milestone.follows : Milestone → Option TradeStatus
  | .created => none
  | .funded => some .created
  | .delivered => some .funded
  | .released => some .delivered
  | .disputed => some .funded
  | .resolved => some .disputed

/-- The trade and the milestone an event announces. -/
def Event.milestone : Event → Option (Nat × Milestone)
  | .tradeCreated tradeId .. => some (tradeId, .created)
  | .tradeFunded tradeId .. => some (tradeId, .funded)
  | .deliveryConfirmed tradeId .. => some (tradeId, .delivered)
  | .fundsReleased tradeId .. => some (tradeId, .released)
  | .disputeInitiated tradeId .. => some (tradeId, .disputed)
  | .disputeResolved tradeId .. => some (tradeId, .resolved)
  | _ => none

/-- The events among these that announce a milestone of trade `k`. -/
def announcements (k : Nat) (events : List Event) : List Event :=
  events.filter fun e => (e.milestone.map Prod.fst) = some k

/-- The milestones a successful call announces. -/
def Call.milestones (env : Env) (s s' : State) : Call → List (Nat × Milestone)
  | .createTrade .. => [(nextIdentifier env s, .created)]
  | .deposit tradeId => [(tradeId, .funded)]
  | .confirmDelivery tradeId => [(tradeId, .delivered)]
  | .releaseFunds tradeId _ => [(tradeId, .released)]
  | .initiateDispute tradeId .. => [(tradeId, .disputed)]
  | .resolveDispute tradeId .. => [(tradeId, .resolved)]
  | .resolveDisputeByFallback tradeId _ => [(tradeId, .resolved)]
  | .castDisputeVote tradeId .. =>
    if (s'.trades.get tradeId).map Trade.status = some .completed then [(tradeId, .resolved)]
    else []
  | _ => []

/-- Between two states these milestones are announced. -/
def Publishes (s s' : State) (milestones : List (Nat × Milestone)) : Prop :=
  ∃ new, s'.events = s.events ++ new ∧ new.filterMap Event.milestone = milestones

theorem Publishes.of_same (h : s'.events = s.events) : Publishes s s' [] :=
  ⟨[], by rw [h, List.append_nil], rfl⟩

theorem Publishes.of_one (e : Event) (h : s'.events = s.events ++ [e]) :
    Publishes s s' e.milestone.toList := by
  refine ⟨[e], h, ?_⟩
  cases he : e.milestone <;> simp [he]

theorem Publishes.publish (e : Event) : Publishes s (publish s e) e.milestone.toList :=
  .of_one e rfl

theorem Publishes.trans {mid : State} {ms ms' : List (Nat × Milestone)} (h : Publishes s mid ms)
    (h' : Publishes mid s' ms') : Publishes s s' (ms ++ ms') := by
  obtain ⟨new, hevents, rfl⟩ := h
  obtain ⟨new', hevents', rfl⟩ := h'
  exact ⟨new ++ new', by rw [hevents', hevents, List.append_assoc], List.filterMap_append⟩

/-! ## One call -/

section Calls

theorem settleDispute_publishes {bps : Nat} {mediator : Address}
    (h : settleDispute env k bps mediator s = .ok s') :
    Publishes s s' [(k, .resolved)] ∧
      (s'.trades.get k).map Trade.status = some .completed := by
  simp only [settleDispute, bind_eq_ok, loadTrade_eq_ok, assert_eq_ok, payOut_eq_ok, pure_eq_ok,
    exists_const] at h
  obtain ⟨_, -, -, split, -, _, ⟨_, -, rfl⟩, _, ⟨_, -, rfl⟩, rfl⟩ := h
  refine ⟨.of_one (.disputeResolved k split.sellerNet split.buyerRefund mediator) rfl, ?_⟩
  simp [publish, recordTradeEvent, updateReleaseSequence, saveTrade]

theorem finalizeQuorum_publishes {state : QuorumState} {bps weight : Nat}
    {outcome : QuorumOutcome} (h : finalizeQuorum env k state bps weight outcome s = .ok s') :
    Publishes s s' [(k, .resolved)] ∧
      (s'.trades.get k).map Trade.status = some .completed := by
  simp only [finalizeQuorum, bind_eq_ok, expect_eq_ok, pure_eq_ok] at h
  obtain ⟨_, -, mid, hsettle, rfl⟩ := h
  obtain ⟨hpublishes, hstatus⟩ := settleDispute_publishes hsettle
  exact ⟨hpublishes.trans (.of_one (.disputeQuorumResolved ..) rfl), hstatus⟩

theorem castDisputeVote_publishes {mediator : Address} {bps : Nat} {rationale : String}
    (h : castDisputeVote env k mediator bps rationale s = .ok s') :
    Publishes s s' (Call.milestones env s s' (.castDisputeVote k mediator bps rationale)) := by
  simp only [castDisputeVote, bind_eq_ok, assert_eq_ok, loadTrade_eq_ok, exists_const] at h
  obtain ⟨_, -, -, -, -, t, hstored, hstatus, -, -, h⟩ := h
  split at h
  · obtain ⟨hpublishes, hcompleted⟩ := finalizeQuorum_publishes h
    rw [Call.milestones, if_pos hcompleted]
    exact Publishes.trans (.of_one (.disputeVoteCast ..) rfl) hpublishes
  · cases pure_eq_ok.1 h
    rw [Call.milestones, if_neg (by simp [publish, hstored, hstatus])]
    exact .of_one (.disputeVoteCast ..) rfl

theorem invoke_publishes_of_configures (hc : c.configures = true) (h : invoke env s c = .ok s') :
    Publishes s s' [] := by
  cases c
  case initializeContract =>
    simp only [invoke, initializeContract, bind_eq_ok, assert_eq_ok, requireAuth_eq_ok, pure_eq_ok,
      exists_const] at h
    obtain ⟨-, -, -, rfl⟩ := h
    exact .of_one (.initialized ..) rfl
  case setMediator | addMediator =>
    simp only [invoke, setMediator, addMediator, bind_eq_ok, requireAdmin_eq_ok, pure_eq_ok] at h
    obtain ⟨_, -, rfl⟩ := h
    exact .of_one (.mediatorAdded _) rfl
  case removeMediator =>
    simp only [invoke, removeMediator, bind_eq_ok, requireAdmin_eq_ok, pure_eq_ok] at h
    obtain ⟨_, -, rfl⟩ := h
    exact .of_one (.mediatorRemoved _) rfl
  case addGuardian | removeGuardian | disallowAsset | setClawbackEnabled =>
    simp only [invoke, addGuardian, removeGuardian, disallowAsset, setClawbackEnabled, bind_eq_ok,
      requireAdmin_eq_ok, pure_eq_ok] at h
    obtain ⟨_, -, rfl⟩ := h
    exact .of_same rfl
  case pause | unpause =>
    simp only [invoke, pause, unpause, setPaused, bind_eq_ok, requireAuth_eq_ok, assert_eq_ok,
      pure_eq_ok, exists_const] at h
    obtain ⟨-, -, rfl⟩ := h
    exact .of_same rfl
  case setMediatorWeight =>
    simp only [invoke, setMediatorWeight, bind_eq_ok, requireAdmin_eq_ok, assert_eq_ok,
      pure_eq_ok, exists_const] at h
    obtain ⟨_, -, -, -, rfl⟩ := h
    exact .of_one (.mediatorWeightUpdated ..) rfl
  case allowAsset =>
    simp only [invoke, allowAsset, bind_eq_ok, requireAdmin_eq_ok, assert_eq_ok, pure_eq_ok,
      exists_const] at h
    obtain ⟨_, -, -, rfl⟩ := h
    exact .of_same rfl
  case setQuorumConfig =>
    simp only [invoke, setQuorumConfig, bind_eq_ok, requireAdmin_eq_ok, assert_eq_ok, pure_eq_ok,
      exists_const] at h
    obtain ⟨_, -, -, -, -, -, -, rfl⟩ := h
    exact .of_one (.quorumConfigUpdated ..) rfl
  case updateFeeBps =>
    simp only [invoke, updateFeeBps, bind_eq_ok, requireAdmin_eq_ok, assert_eq_ok, pure_eq_ok,
      exists_const] at h
    obtain ⟨_, -, -, rfl⟩ := h
    exact .of_one (.feeRateUpdated ..) rfl
  case setExtensionPolicy =>
    simp only [invoke, setExtensionPolicy, bind_eq_ok, requireAdmin_eq_ok, assert_eq_ok,
      pure_eq_ok, exists_const] at h
    obtain ⟨_, -, -, -, rfl⟩ := h
    exact .of_one (.extensionPolicyUpdated ..) rfl
  all_goals exact absurd hc (by simp [Call.configures])

theorem executeCancellation_publishes {t : Trade} {amount : Int} {caller : Address}
    (h : executeCancellation env t amount caller s = .ok s') : Publishes s s' [] := by
  simp only [executeCancellation, bind_eq_ok, payOut_eq_ok, pure_eq_ok] at h
  obtain ⟨_, ⟨_, -, rfl⟩, rfl⟩ := h
  exact .of_one (.tradeCancelled ..) rfl

theorem cancelTrade_publishes {caller : Address} (h : cancelTrade env k caller s = .ok s') :
    Publishes s s' [] := by
  simp only [cancelTrade, bind_eq_ok, assertNotPaused_eq_ok, loadTrade_eq_ok, loadAdmin_eq_ok,
    requireAuth_eq_ok, exists_const] at h
  obtain ⟨-, t, -, admin, -, -, h⟩ := h
  split at h
  · simp only [bind_eq_ok, assert_eq_ok, exists_const] at h
    exact executeCancellation_publishes h.2
  · split at h
    · exact executeCancellation_publishes h
    · simp only [bind_eq_ok, assert_eq_ok, exists_const] at h
      replace h := h.2
      split at h
      · obtain ⟨mid, hcancel, h⟩ := bind_eq_ok.1 h
        cases pure_eq_ok.1 h
        exact (executeCancellation_publishes hcancel).trans (.of_same rfl)
      · cases pure_eq_ok.1 h
        exact .of_same rfl
  · cases h

/-- The milestones of a successful call are published, and no others. -/
theorem invoke_publishes (h : invoke env s c = .ok s') :
    Publishes s s' (c.milestones env s s') := by
  cases c
  case withdrawFees =>
    simp only [invoke, withdrawFees, bind_eq_ok, requireAdmin_eq_ok, assert_eq_ok, expect_eq_ok,
      tokenTransfer_eq_ok, pure_eq_ok, exists_const] at h
    obtain ⟨_, -, -, -, _, -, _, ⟨_, -, rfl⟩, rfl⟩ := h
    exact .of_one (.feesWithdrawn ..) rfl
  case createTrade =>
    obtain ⟨⟨id, _⟩, hcreate, rfl⟩ := map_eq_ok.1 h
    simp only [createTrade, bind_eq_ok, assertNotPaused_eq_ok, requireAuth_eq_ok, assert_eq_ok,
      expect_eq_ok, pure_eq_ok, exists_const, Prod.mk.injEq] at hcreate
    obtain ⟨-, -, -, -, -, -, -, -, -, _, -, -, rfl⟩ := hcreate
    exact .of_one (.tradeCreated ..) rfl
  case deposit =>
    simp only [invoke, deposit, bind_eq_ok, assertNotPaused_eq_ok, loadTrade_eq_ok, assert_eq_ok,
      requireAuth_eq_ok, tokenTransfer_eq_ok, pure_eq_ok, exists_const] at h
    obtain ⟨-, _, -, -, -, _, ⟨_, -, rfl⟩, rfl⟩ := h
    exact .of_one (.tradeFunded ..) rfl
  case depositWithPath =>
    simp only [invoke, depositWithPath, bind_eq_ok, assert_eq_ok, loadTrade_eq_ok,
      requireAuth_eq_ok, expect_eq_ok, tokenTransfer_eq_ok, pure_eq_ok, exists_const] at h
    obtain ⟨-, -, _, -, -, -, -, _, -, _, ⟨_, -, rfl⟩, -, rfl⟩ := h
    exact .of_one (.pathPaymentInitiated ..) rfl
  case finalizePathPayment =>
    simp only [invoke, finalizePathPayment, bind_eq_ok, requireAuth_eq_ok, expect_eq_ok,
      loadTrade_eq_ok, assert_eq_ok, loadAdmin_eq_ok, pure_eq_ok, exists_const] at h
    obtain ⟨-, _, -, _, -, -, _, -, -, _, -, -, _, -, rfl⟩ := h
    exact .of_one (.pathPaymentExecuted ..) rfl
  case cancelTrade => exact cancelTrade_publishes h
  case cancelByBuyer =>
    simp only [invoke, cancelByBuyer, bind_eq_ok, loadTrade_eq_ok, requireAuth_eq_ok, assert_eq_ok,
      pure_eq_ok, exists_const] at h
    obtain ⟨_, -, -, -, rfl⟩ := h
    exact .of_one (.tradeCancelledByBuyer ..) rfl
  case refund =>
    simp only [invoke, refund, bind_eq_ok, loadTrade_eq_ok, requireAuth_eq_ok, assert_eq_ok,
      exists_const] at h
    obtain ⟨_, -, -, -, h⟩ := h
    exact executeCancellation_publishes h
  case claimExpiryRefund =>
    simp only [invoke, claimExpiryRefund, bind_eq_ok, requireAuth_eq_ok, loadTrade_eq_ok,
      assert_eq_ok, expect_eq_ok, tokenTransfer_eq_ok, pure_eq_ok, exists_const] at h
    obtain ⟨-, _, -, -, -, _, -, -, _, ⟨_, -, rfl⟩, rfl⟩ := h
    exact .of_one (.tradeExpired ..) rfl
  case extendDeadline =>
    simp only [invoke, extendDeadline, bind_eq_ok, loadTrade_eq_ok, requireAuth_eq_ok, assert_eq_ok,
      expect_eq_ok, pure_eq_ok, exists_const] at h
    obtain ⟨_, -, -, -, -, _, -, -, -, -, -, -, rfl⟩ := h
    exact (Publishes.publish (.deadlineExtensionBudget ..)).trans
      (.of_one (.deadlineExtended ..) rfl)
  case confirmDelivery =>
    simp only [invoke, confirmDelivery, bind_eq_ok, loadTrade_eq_ok, requireAuth_eq_ok,
      assert_eq_ok, pure_eq_ok, exists_const] at h
    obtain ⟨_, -, -, -, rfl⟩ := h
    exact .of_one (.deliveryConfirmed ..) rfl
  case releaseFunds =>
    simp only [invoke, releaseFunds, bind_eq_ok, assertNotPaused_eq_ok, loadTrade_eq_ok,
      assert_eq_ok, requireAuth_eq_ok, loadAdmin_eq_ok, tokenTransfer_eq_ok, pure_eq_ok,
      exists_const] at h
    obtain ⟨-, _, -, -, -, _, -, -, _, -, -, -, -, _, ⟨_, -, rfl⟩, rfl⟩ := h
    exact .of_one (.fundsReleased ..) rfl
  case initiateDispute =>
    simp only [invoke, initiateDispute, bind_eq_ok, requireAuth_eq_ok, assert_eq_ok,
      loadTrade_eq_ok, pure_eq_ok, exists_const] at h
    obtain ⟨-, -, -, _, -, -, -, rfl⟩ := h
    exact .of_one (.disputeInitiated ..) rfl
  case resolveDispute =>
    simp only [invoke, resolveDispute, bind_eq_ok, assert_eq_ok, exists_const] at h
    obtain ⟨_, -, -, _, -, -, h⟩ := h
    exact (settleDispute_publishes h).1
  case castDisputeVote => exact castDisputeVote_publishes h
  case resolveDisputeByFallback =>
    simp only [invoke, resolveDisputeByFallback, bind_eq_ok, requireAuth_eq_ok, loadTrade_eq_ok,
      assert_eq_ok, expect_eq_ok, exists_const] at h
    obtain ⟨-, _, -, -, -, -, _, -, -, -, -, h⟩ := h
    exact (finalizeQuorum_publishes h).1
  case submitEvidence =>
    simp only [invoke, submitEvidence, bind_eq_ok, requireAuth_eq_ok, assert_eq_ok,
      loadTrade_eq_ok, pure_eq_ok, exists_const] at h
    obtain ⟨-, -, -, -, _, -, -, -, rfl⟩ := h
    exact .of_one (.evidenceSubmitted ..) rfl
  case submitVideoProof =>
    simp only [invoke, submitVideoProof, bind_eq_ok, requireAuth_eq_ok, assert_eq_ok,
      loadTrade_eq_ok, pure_eq_ok, exists_const] at h
    obtain ⟨-, -, -, _, -, -, -, -, rfl⟩ := h
    exact .of_one (.videoProofSubmitted ..) rfl
  case submitManifest =>
    simp only [invoke, submitManifest, bind_eq_ok, requireAuth_eq_ok, assert_eq_ok,
      loadTrade_eq_ok, pure_eq_ok, exists_const] at h
    obtain ⟨-, -, -, -, -, _, -, -, -, -, rfl⟩ := h
    exact .of_one (.manifestSubmitted ..) rfl
  case adminClawback =>
    simp only [invoke, adminClawback, bind_eq_ok, requireAdmin_eq_ok, assert_eq_ok,
      loadTrade_eq_ok, tokenTransfer_eq_ok, expect_eq_ok, pure_eq_ok, exists_const] at h
    obtain ⟨_, -, -, -, _, -, -, -, _, ⟨_, -, rfl⟩, _, -, rfl⟩ := h
    exact Publishes.trans (.of_same (by split <;> rfl)) (.of_one (.clawbackExecuted ..) rfl)
  case executeClawback =>
    simp only [invoke, executeClawback, bind_eq_ok, requireAdmin_eq_ok] at h
    obtain ⟨_, -, _, -, h⟩ := h
    split at h
    · simp only [bind_eq_ok, assert_eq_ok, loadTrade_eq_ok, tokenTransfer_eq_ok, pure_eq_ok,
        exists_const] at h
      obtain ⟨-, _, -, -, -, _, ⟨_, -, rfl⟩, rfl⟩ := h
      exact .of_one (.timelockOperationExecuted ..) rfl
    · cases pure_eq_ok.1 h
      exact .of_same rfl
  case queueClawback =>
    obtain ⟨_, hqueue, rfl⟩ := map_eq_ok.1 h
    simp only [queueClawback, bind_eq_ok, requireAdmin_eq_ok, assert_eq_ok, pure_eq_ok,
      exists_const] at hqueue
    obtain ⟨_, -, -, rfl⟩ := hqueue
    exact .of_one (.timelockOperationQueued ..) rfl
  case cancelQueuedOperation =>
    simp only [invoke, cancelQueuedOperation, bind_eq_ok, requireAdmin_eq_ok, expect_eq_ok,
      assert_eq_ok, pure_eq_ok, exists_const] at h
    obtain ⟨_, -, _, -, -, -, rfl⟩ := h
    exact .of_one (.timelockOperationCancelled ..) rfl
  case queueUpgrade =>
    obtain ⟨_, hqueue, rfl⟩ := map_eq_ok.1 h
    simp only [queueUpgrade, bind_eq_ok, requireAdmin_eq_ok, pure_eq_ok] at hqueue
    obtain ⟨_, -, rfl⟩ := hqueue
    exact .of_one (.contractUpgradeQueued ..) rfl
  case executeUpgrade =>
    simp only [invoke, executeUpgrade, bind_eq_ok, requireAdmin_eq_ok] at h
    obtain ⟨_, -, _, -, h⟩ := h
    split at h
    · cases pure_eq_ok.1 h
      exact .of_one (.contractUpgraded ..) rfl
    · cases pure_eq_ok.1 h
      exact .of_same rfl
  all_goals exact invoke_publishes_of_configures rfl h

end Calls

/-! ## Steps -/

/-- The statuses a trade can be moved between without a milestone. -/
def Silent (old new : Option TradeStatus) : Prop :=
  old = some .created ∧ new = some .funded ∨
    (∃ status, old = some status ∧ status.closed = false) ∧ new = some .cancelled

theorem Silent.ne {old new : Option TradeStatus} (h : Silent old new) : new ≠ old := by
  rcases h with ⟨rfl, rfl⟩ | ⟨⟨status, rfl, hopen⟩, rfl⟩
  · decide
  · rintro heq
    cases heq
    cases hopen

/-- The status of a stored trade. -/
def statusOf (s : State) (k : Nat) : Option TradeStatus := (s.trades.get k).map Trade.status

/-- What is announced about trade `k` while its status goes from `old` to `new`. -/
inductive Announces (k : Nat) (old new : Option TradeStatus) : List Event → Prop
  | quiet (same : new = old) : Announces k old new []
  | silent (moved : Silent old new) : Announces k old new []
  | milestone {e : Event} (m : Milestone) (event : e.milestone = some (k, m))
      (status : new = some m.status) (follows : ∀ status ∈ m.follows, old = some status) :
      Announces k old new [e]

/-- Filtering the events is filtering the milestones. -/
theorem announcements_milestones (k : Nat) (events : List Event) :
    (announcements k events).filterMap Event.milestone =
      (events.filterMap Event.milestone).filter fun p => p.1 = k := by
  induction events with
  | nil => rfl
  | cons e events ih =>
    unfold announcements at ih ⊢
    cases he : e.milestone with
    | none => simpa [he] using ih
    | some p => by_cases hp : p.1 = k <;> simp [he, hp, ih]

theorem mem_announcements {e : Event} {events : List Event} :
    e ∈ announcements k events ↔ e ∈ events ∧ ∃ m, e.milestone = some (k, m) := by
  simp [announcements]

/-- Where no milestone of the trade is announced there is nothing to filter. -/
theorem announcements_eq_nil {events : List Event}
    (h : (events.filterMap Event.milestone).filter (fun p => p.1 = k) = []) :
    announcements k events = [] := by
  rw [← announcements_milestones] at h
  apply List.eq_nil_iff_forall_not_mem.2
  intro e he
  obtain ⟨-, m, hm⟩ := mem_announcements.1 he
  exact List.eq_nil_iff_forall_not_mem.1 h (k, m) (List.mem_filterMap.2 ⟨e, he, hm⟩)

theorem announcements_eq_singleton {events : List Event} {m : Milestone}
    (h : (events.filterMap Event.milestone).filter (fun p => p.1 = k) = [(k, m)]) :
    ∃ e, announcements k events = [e] ∧ e.milestone = some (k, m) := by
  rw [← announcements_milestones] at h
  have hall : ∀ e ∈ announcements k events, e.milestone.isSome = true := by
    intro e he
    obtain ⟨-, m, hm⟩ := mem_announcements.1 he
    rw [hm]
    rfl
  generalize announcements k events = es at h hall
  match es with
  | [] => cases h
  | [e] =>
    obtain ⟨p, hp⟩ := Option.isSome_iff_exists.1 (hall e (by simp))
    refine ⟨e, rfl, ?_⟩
    rw [List.filterMap_cons_some hp] at h
    rw [hp, (List.cons.inj h).1]
  | e :: e' :: rest =>
    obtain ⟨p, hp⟩ := Option.isSome_iff_exists.1 (hall e (by simp))
    obtain ⟨p', hp'⟩ := Option.isSome_iff_exists.1 (hall e' (by simp))
    rw [List.filterMap_cons_some hp, List.filterMap_cons_some hp'] at h
    cases (List.cons.inj h).2

/-- A call announces milestones of the trade it works on or creates. -/
theorem milestones_about {p : Nat × Milestone} (h : p ∈ c.milestones env s s') :
    c.subject s = some p.1 ∨ c.creates = true ∧ p.1 = nextIdentifier env s := by
  cases c with
  | createTrade =>
    obtain rfl := List.mem_singleton.1 h
    exact .inr ⟨rfl, rfl⟩
  | deposit | confirmDelivery | releaseFunds | initiateDispute | resolveDispute
  | resolveDisputeByFallback =>
    obtain rfl := List.mem_singleton.1 h
    exact .inl rfl
  | castDisputeVote =>
    rw [Call.milestones] at h
    split at h
    · obtain rfl := List.mem_singleton.1 h
      exact .inl rfl
    · cases h
  | _ => cases h

/-- What a call announces about the trade it works on. -/
theorem Entry.announces {t t' : Trade} {d d' : Folder} (h : Entry env s k t d c t' d')
    (record : s'.trades.get k = some t') :
    (c.milestones env s s' = [] ∧
        (t'.status = t.status ∨ Silent (some t.status) (some t'.status))) ∨
      ∃ m, c.milestones env s s' = [(k, m)] ∧ t'.status = m.status ∧
        ∀ status ∈ m.follows, t.status = status := by
  have hcancels : ∀ u : Trade, u.status = .cancelled →
      t.status.closed = false → Silent (some t.status) (some u.status) := by
    intro u hu hopen
    exact .inr ⟨⟨_, rfl, hopen⟩, congrArg some hu⟩
  cases h with
  | deposit status _ ht =>
    subst ht
    exact .inr ⟨.funded, rfl, rfl, by simp [Milestone.follows, status]⟩
  | deliver status _ ht =>
    subst ht
    exact .inr ⟨.delivered, rfl, rfl, by simp [Milestone.follows, status]⟩
  | release status => exact .inr ⟨.released, rfl, rfl, by simp [Milestone.follows, status]⟩
  | dispute status _ _ ht =>
    subst ht
    exact .inr ⟨.disputed, rfl, rfl, by simp [Milestone.follows, status]⟩
  | resolve status | fallback status =>
    exact .inr ⟨.resolved, rfl, rfl, by simp [Milestone.follows, status]⟩
  | decide status =>
    refine .inr ⟨.resolved, ?_, rfl, by simp [Milestone.follows, status]⟩
    rw [Call.milestones, record]
    rfl
  | vote status =>
    refine .inl ⟨?_, .inl rfl⟩
    rw [Call.milestones, record, if_neg (by simp [status])]
  | openPath | request | extend | evidence | video | manifest => exact .inl ⟨rfl, .inl rfl⟩
  | finalizePath status => exact .inl ⟨rfl, .inr (.inl ⟨by rw [status], rfl⟩)⟩
  | drop status | cancelByBuyer status | override status | agree status | expire status =>
    exact .inl ⟨rfl, .inr (hcancels _ rfl (by rw [status]; rfl))⟩
  | refund status =>
    exact .inl ⟨rfl, .inr (hcancels _ rfl (by rcases status with e | e <;> rw [e] <;> rfl))⟩
  | clawPart status _ _ left =>
    refine .inl ⟨rfl, .inl ?_⟩
    rw [Trade.clawed, if_neg left]
  | clawAll status _ _ left =>
    refine .inl ⟨rfl, .inr (hcancels _ ?_ (by rcases status with e | e <;> rw [e] <;> rfl))⟩
    rw [Trade.clawed, if_pos left]
  | @clawQueued _ _ amount _ _ status =>
    refine .inl ⟨rfl, ?_⟩
    by_cases left : t.amount - amount = 0
    · refine .inr (hcancels _ ?_ (by rcases status with e | e <;> rw [e] <;> rfl))
      rw [Trade.clawed, if_pos left]
    · rw [Trade.clawed, if_neg left]
      exact .inl rfl

/-- Nothing is said about a trade the call neither works on nor creates. -/
theorem announcements_elsewhere {new : List Event}
    (hnew : new.filterMap Event.milestone = c.milestones env s s') (subject : c.subject s ≠ some k)
    (creates : c.creates = true → k ≠ nextIdentifier env s) : announcements k new = [] := by
  apply announcements_eq_nil
  rw [hnew, List.filter_eq_nil_iff]
  intro p hp heq
  have heq : p.1 = k := by simpa using heq
  obtain habout | ⟨hcreate, hid⟩ := milestones_about hp
  · exact subject (by rw [habout, heq])
  · exact creates hcreate (by rw [← heq, hid])

/-- A successful call announces the milestone it brings a trade to, except for the silent ones. -/
theorem invoke_announces (wf : WellFormed s.toSettings s.toBooks) (ok : invoke env s c = .ok s')
    (k : Nat) :
    ∃ new, s'.events = s.events ++ new ∧
      Announces k (statusOf s k) (statusOf s' k) (announcements k new) := by
  obtain ⟨new, hevents, hnew⟩ := invoke_publishes ok
  refine ⟨new, hevents, ?_⟩
  have hother : s'.trades.get k = s.trades.get k → c.subject s ≠ some k →
      (c.creates = true → k ≠ nextIdentifier env s) →
        Announces k (statusOf s k) (statusOf s' k) (announcements k new) := by
    intro hsame hsubject hcreates
    rw [announcements_elsewhere hnew hsubject hcreates, statusOf, statusOf, hsame]
    exact .quiet rfl
  by_cases hc : c.configures = true
  · apply hother
    · rw [(invoke_configured hc ok).books]
    · cases c <;> simp [Call.subject, Call.configures] at hc ⊢
    · intro hcreates
      cases (creates_of_configures hc).symm.trans hcreates
  have hfiling := invoke_filing wf (by simpa using hc) ok
  cases hfiling with
  | idle creates subject trades _ =>
    apply hother
    · rw [trades]
    · simp [subject]
    · simp [creates]
  | create trade call tradeId status _ record _ elsewhere _ _ _ =>
    by_cases hk : k = nextIdentifier env s
    · obtain ⟨e, he, hm⟩ : ∃ e, announcements k new = [e] ∧
          e.milestone = some (k, .created) := by
        apply announcements_eq_singleton
        rw [hnew, call, hk]
        simp [Call.milestones]
      rw [he]
      refine .milestone .created hm ?_ (by simp [Milestone.follows])
      rw [statusOf, hk, ← tradeId, record]
      exact congrArg some status
    · apply hother
      · exact (elsewhere k (by rw [tradeId]; exact hk)).1
      · rw [call]
        simp [Call.subject]
      · exact fun _ => hk
  | write k' t t' d' subject stored record _ entry elsewhere _ _ _ =>
    by_cases hk : k = k'
    · subst hk
      rw [statusOf, statusOf, stored, record]
      obtain ⟨hnone, hstatus⟩ | ⟨m, hone, hstatus, hfollows⟩ := entry.announces record
      · have hempty : announcements k new = [] := by
          apply announcements_eq_nil
          rw [hnew, hnone]
          rfl
        rw [hempty]
        obtain hsame | hsilent := hstatus
        · exact .quiet (congrArg some hsame)
        · exact .silent hsilent
      · obtain ⟨e, he, hm⟩ : ∃ e, announcements k new = [e] ∧ e.milestone = some (k, m) := by
          apply announcements_eq_singleton
          rw [hnew, hone]
          simp
        rw [he]
        exact .milestone m hm (congrArg some hstatus) fun status hmem =>
          congrArg some (hfollows status hmem)
    · apply hother
      · exact (elsewhere k hk).1
      · rw [subject]
        exact fun h => hk (Option.some.inj h).symm
      · intro hcreates
        cases (creates_of_subject subject).symm.trans hcreates

/-- A step announces the milestone it brings a trade to, except for the silent ones. -/
theorem step_announces (wf : WellFormed s.toSettings s.toBooks) (a : Action) (k : Nat) :
    ∃ new, (step s a).events = s.events ++ new ∧
      Announces k (statusOf s k) (statusOf (step s a) k) (announcements k new) := by
  have hchange := step_change wf a
  generalize step s a = s' at hchange
  cases hchange with
  | stay _ => exact ⟨[], (List.append_nil _).symm, .quiet rfl⟩
  | configure ok _ _ => exact invoke_announces wf ok k
  | effect ok _ _ _ => exact invoke_announces wf ok k
  | outside _ _ => exact ⟨[], (List.append_nil _).symm, .quiet rfl⟩

/-! ## Runs -/

/-- The milestones of trade `k` among these events. -/
def milestonesOf (k : Nat) (events : List Event) : List Milestone :=
  (announcements k events).filterMap fun e => e.milestone.map Prod.snd

theorem milestonesOf_append (k : Nat) (events new : List Event) :
    milestonesOf k (events ++ new) = milestonesOf k events ++ milestonesOf k new := by
  simp [milestonesOf, announcements]

/-- The milestones of a trade, and the status it can have after them. -/
inductive Course : List Milestone → Option TradeStatus → Prop
  | absent : Course [] none
  | created : Course [.created] (some .created)
  | silent {ms : List Milestone} {old new : Option TradeStatus} (course : Course ms old)
      (moved : Silent old new) : Course ms new
  | milestone {ms : List Milestone} {m : Milestone} {status : TradeStatus}
      (course : Course ms (some status)) (follows : m.follows = some status) :
      Course (ms ++ [m]) (some m.status)

/-- The milestones that can be behind a trade with this status.  One that was paid for by a path
payment has no funding among them. -/
def coursesTo : Option TradeStatus → List (List Milestone)
  | none => [[]]
  | some .created => [[.created]]
  | some .funded => [[.created], [.created, .funded]]
  | some .delivered => [[.created, .delivered], [.created, .funded, .delivered]]
  | some .disputed => [[.created, .disputed], [.created, .funded, .disputed]]
  | some .completed =>
    [[.created, .delivered, .released], [.created, .funded, .delivered, .released],
      [.created, .disputed, .resolved], [.created, .funded, .disputed, .resolved]]
  | some .cancelled =>
    [[.created], [.created, .funded], [.created, .delivered], [.created, .funded, .delivered],
      [.created, .disputed], [.created, .funded, .disputed]]

theorem Course.mem_coursesTo {ms : List Milestone} {status : Option TradeStatus}
    (h : Course ms status) : ms ∈ coursesTo status := by
  induction h with
  | absent => decide
  | created => decide
  | @silent ms old new course moved ih =>
    have hsub : ∀ ms ∈ coursesTo old, ms ∈ coursesTo new := by
      rcases moved with ⟨rfl, rfl⟩ | ⟨⟨status, rfl, hopen⟩, rfl⟩
      · decide
      · cases status with
        | completed | cancelled => cases hopen
        | _ => decide
    exact hsub ms ih
  | @milestone ms m status course follows ih =>
    have hsub : ∀ ms ∈ coursesTo (some status), ms ++ [m] ∈ coursesTo (some m.status) := by
      cases m with
      | created => cases follows
      | _ =>
        cases follows
        decide
    exact hsub ms ih

/-- All courses. -/
def courses : List (List Milestone) :=
  [none, some .created, some .funded, some .delivered, some .disputed, some .completed,
    some .cancelled].flatMap coursesTo

theorem Course.mem_courses {ms : List Milestone} {status : Option TradeStatus}
    (h : Course ms status) : ms ∈ courses := by
  refine List.mem_flatMap.2 ⟨status, ?_, h.mem_coursesTo⟩
  cases status with
  | none => decide
  | some status => cases status <;> decide

/-- A trade is announced before it has a status. -/
theorem Course.eq_nil {ms : List Milestone} (h : Course ms none) : ms = [] :=
  List.mem_singleton.1 h.mem_coursesTo

theorem creates_of_created (h : (k, .created) ∈ c.milestones env s s') :
    c.creates = true ∧ nextIdentifier env s = k := by
  cases c with
  | createTrade => exact ⟨rfl, (congrArg Prod.fst (List.mem_singleton.1 h)).symm⟩
  | deposit | confirmDelivery | releaseFunds | initiateDispute | resolveDispute
  | resolveDisputeByFallback => simp [Call.milestones] at h
  | castDisputeVote =>
    rw [Call.milestones] at h
    split at h <;> simp at h
  | _ => simp [Call.milestones] at h

theorem issues_of_invoke {new : List Event} {e : Event} (ok : invoke env s c = .ok s')
    (hevents : s'.events = s.events ++ new) (he : e ∈ new)
    (hm : e.milestone = some (k, .created)) : Issues k s (.call env c) := by
  obtain ⟨new', hevents', hnew⟩ := invoke_publishes ok
  obtain rfl := List.append_cancel_left (hevents.symm.trans hevents')
  have hmem := List.mem_filterMap.2 ⟨e, he, hm⟩
  rw [hnew] at hmem
  obtain ⟨hcreates, hid⟩ := creates_of_created hmem
  exact ⟨hcreates, isOk_iff.2 ⟨s', ok⟩, hid⟩

/-- Only a creation announces one. -/
theorem issues_of_created (wf : WellFormed s.toSettings s.toBooks) {new : List Event} {e : Event}
    (hevents : (step s a).events = s.events ++ new) (he : e ∈ new)
    (hm : e.milestone = some (k, .created)) : Issues k s a := by
  have hsome : ¬ s.events = s.events ++ new := fun hsame => by
    rw [List.self_eq_append_right.1 hsame] at he
    cases he
  have hchange := step_change wf a
  generalize step s a = s' at hchange hevents
  cases hchange with
  | stay _ => exact absurd hevents hsome
  | configure ok _ _ => exact issues_of_invoke ok hevents he hm
  | effect ok _ _ _ => exact issues_of_invoke ok hevents he hm
  | outside _ _ => exact absurd hevents hsome

/-- A creation puts the amount it is called with on record, and announces it. -/
theorem createTrade_records {buyer seller : Address} {amount : Int} {buyerLossBps sellerLossBps : Nat}
    {expiresAt : Option Nat}
    (h : createTrade env buyer seller amount buyerLossBps sellerLossBps expiresAt s = .ok (k, s')) :
    0 < amount ∧ (s'.trades.get k).map Trade.amount = some amount ∧
      s'.events = s.events ++ [.tradeCreated k buyer seller amount] := by
  simp only [createTrade, bind_eq_ok, assertNotPaused_eq_ok, requireAuth_eq_ok, assert_eq_ok,
    expect_eq_ok, pure_eq_ok, exists_const, Prod.mk.injEq] at h
  obtain ⟨-, -, hpos, -, -, -, -, -, -, _, -, rfl, rfl⟩ := h
  refine ⟨hpos, ?_, rfl⟩
  simp [publish, recordTradeEvent, saveTrade]

/-- The amount of a creation that is announced is the one on record, and it is positive. -/
theorem recorded_of_announced (wf : WellFormed s.toSettings s.toBooks) {new : List Event}
    {buyer seller : Address} {amount : Int} (hevents : (step s a).events = s.events ++ new)
    (announced : .tradeCreated k buyer seller amount ∈ new) :
    0 < amount ∧ ((step s a).trades.get k).map Trade.amount = some amount := by
  have hissues := issues_of_created wf hevents announced rfl
  match a, hissues with
  | .call env (.createTrade buyer' seller' amount' buyerLossBps sellerLossBps expiresAt), hissues =>
    obtain ⟨s', hok⟩ := isOk_iff.1 hissues.2.1
    obtain ⟨⟨k', s''⟩, hcreate, rfl⟩ := map_eq_ok.1 hok
    obtain ⟨hpos, hrecord, hnew⟩ := createTrade_records hcreate
    rw [step_call_of_ok hok] at hevents ⊢
    obtain rfl := List.append_cancel_left (hevents.symm.trans hnew)
    cases List.mem_singleton.1 announced
    exact ⟨hpos, hrecord⟩

/-- What a step does to the status of a trade, and to its milestones. -/
inductive Advances (k : Nat) (s : State) (a : Action) : Prop
  | quiet (same : statusOf (step s a) k = statusOf s k)
      (none : milestonesOf k (step s a).events = milestonesOf k s.events)
  | silent (moved : Silent (statusOf s k) (statusOf (step s a) k))
      (none : milestonesOf k (step s a).events = milestonesOf k s.events)
  | create (issues : Issues k s a) (status : statusOf (step s a) k = some .created)
      (new : milestonesOf k (step s a).events = milestonesOf k s.events ++ [.created])
  | reach (m : Milestone) (old : TradeStatus) (follows : m.follows = some old)
      (before : statusOf s k = some old) (status : statusOf (step s a) k = some m.status)
      (new : milestonesOf k (step s a).events = milestonesOf k s.events ++ [m])

theorem step_advances (wf : WellFormed s.toSettings s.toBooks) (a : Action) (k : Nat) :
    Advances k s a := by
  obtain ⟨new, hevents, hannounces⟩ := step_announces wf a k
  have hms : milestonesOf k (step s a).events =
      milestonesOf k s.events ++ (announcements k new).filterMap fun e =>
        e.milestone.map Prod.snd := by
    rw [hevents, milestonesOf_append]
    rfl
  generalize hes : announcements k new = es at hannounces hms
  cases hannounces with
  | quiet same => exact .quiet same (by simpa using hms)
  | silent moved => exact .silent moved (by simpa using hms)
  | @milestone e m event status follows =>
    have hnew : milestonesOf k (step s a).events = milestonesOf k s.events ++ [m] := by
      rw [hms]
      simp [event]
    cases hfollows : m.follows with
    | some old => exact .reach m old hfollows (follows old hfollows) status hnew
    | none =>
      obtain rfl : m = .created := by
        cases m <;> first | rfl | cases hfollows
      have hmem : e ∈ announcements k new := by simp [hes]
      exact .create (issues_of_created wf hevents (mem_announcements.1 hmem).1 event) status hnew

theorem course_run {tokens : Token.Ledger Address} {actions : List Action}
    (once : IssuedOnce tokens actions k) :
    Course (milestonesOf k (run tokens actions).events) (statusOf (run tokens actions) k) := by
  induction actions using List.reverseRecOn with
  | nil => exact .absent
  | append_singleton actions a ih =>
    replace ih := ih once.of_append
    rw [run_snoc]
    cases step_advances (wellFormed_run tokens actions) a k with
    | quiet same none =>
      rw [same, none]
      exact ih
    | silent moved none =>
      rw [none]
      exact ih.silent moved
    | create issues status new =>
      rw [statusOf, once.last issues] at ih
      rw [status, new, ih.eq_nil]
      exact .created
    | reach m old follows before status new =>
      rw [before] at ih
      rw [status, new]
      exact ih.milestone follows

end Amana.Escrow
