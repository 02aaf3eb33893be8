import Amana.Backend.Workers
import Amana.Lib.Jobs
import Mathlib.Data.List.Sort

/-!
# What the expiry sweep reports

`tradeExpiry.service.ts`: a sweep reads the trades that are stale and then moves them one by one,
each only if it is still as it was read; but how many rows an update has moved is not looked at, and
the trade is announced and counted in any case.  So what is announced and counted was moved by the
sweep as long as every update whose answer is heard finds its row (`sweep_reports`).

Beside the sweeps the handlers of events move trades, each in a transaction of its own.
-/

namespace Amana.Backend.Expiry

open Lib Lib.Database Lib.Jobs

/-! ## Sweeps -/

inductive NotificationType where
  | inApp
  | sms
  deriving DecidableEq, Repr

/-- `NotificationJobData`, with the metadata of a trade. -/
structure NotificationJobData where
  type : NotificationType
  userAddress : String
  title : String
  message : String
  tradeId : String
  amountUsdc : Option String
  deriving DecidableEq, Repr

/-- A trade as a sweep has read it. -/
structure StaleTrade where
  tradeId : String
  row : TradeRow
  deriving DecidableEq, Repr

/-- What a user has set: the channels of every kind of notification. -/
abbrev Preferences : Type := List (String × List String)

inductive SweepOp where
  /-- `new Date()`. -/
  | now
  | findStale (now batchSize : Nat)
  | expireTrade (tradeId : String) (version now : Nat)
  | enqueue (name : String) (job : NotificationJobData)
  | findPreference (userAddress : String)
  | findTrade (tradeId : String)
  | upsertTrade (tradeId : String) (payload : TradeRow)
  | moveTrade (tradeId : String) (status : TradeStatus) (version : Nat) (target : TradeStatus)
  deriving DecidableEq, Repr

abbrev SweepOp.Res : SweepOp → Type
  | .now => Nat
  | .findStale .. => List StaleTrade
  | .expireTrade .. => Nat
  | .enqueue .. => Unit
  | .findPreference _ => Option Preferences
  | .findTrade _ => Option TradeRow
  | .upsertTrade .. => Unit
  | .moveTrade .. => Nat

abbrev SweepAnswer (op : SweepOp) : Type := Except Fault op.Res

abbrev SweepJob := ExceptT Fault (Jobs.Job SweepAnswer)

def SweepOp.ask (op : SweepOp) : SweepJob op.Res := ExceptT.mk <| .ask op .done

/-- What becomes of a job, whether it fails or not. -/
def settled {α : Type} (job : SweepJob α) : SweepJob (Except Fault α) := ExceptT.lift job.run

/-- `Promise.all` of two jobs, which are both carried out. -/
def both (first second : Except Fault Unit) : SweepJob Unit :=
  match first, second with
  | .error fault, _ => throw fault
  | .ok _, .error fault => throw fault
  | .ok _, .ok _ => return ()

/-- Whether the user wants to have text messages. -/
def wantsSms (eventKey : String) (preference : Except Fault (Option Preferences)) : Bool :=
  match preference with
  | .ok (some channels) => (channels.lookup eventKey).any fun wanted => wanted.contains "sms"
  | _ => false

def enqueueTradeLifecycleNotification (eventKey : String) (job : NotificationJobData) :
    SweepJob Unit := do
  let added ← settled (SweepOp.enqueue eventKey { job with type := .inApp }).ask
  let preference ← settled (SweepOp.findPreference job.userAddress).ask
  if wantsSms eventKey preference then
    let texted ← settled (SweepOp.enqueue (eventKey ++ "-sms") { job with type := .sms }).ask
    both added texted
  else both added (.ok ())

structure SweepResult where
  scanned : Nat
  expired : Nat
  errors : Nat
  deriving DecidableEq, Repr

/-- The notification of the buyer. -/
def StaleTrade.buyerNotice (trade : StaleTrade) : NotificationJobData where
  type := .inApp
  userAddress := trade.row.buyerAddress
  title := "Trade Expired"
  message := "Trade " ++ trade.tradeId ++ " has expired. A refund will be processed shortly."
  tradeId := trade.tradeId
  amountUsdc := some trade.row.amountUsdc

/-- The notification of the seller. -/
def StaleTrade.sellerNotice (trade : StaleTrade) : NotificationJobData where
  type := .inApp
  userAddress := trade.row.sellerAddress
  title := "Trade Expired"
  message := "Trade " ++ trade.tradeId ++ " has expired and was not completed."
  tradeId := trade.tradeId
  amountUsdc := none

/-- Both parties are told, side by side. -/
def announce (trade : StaleTrade) : SweepJob Unit := do
  let buyer ← settled (enqueueTradeLifecycleNotification "trade-expired" trade.buyerNotice)
  let seller ← settled (enqueueTradeLifecycleNotification "trade-expired" trade.sellerNotice)
  both buyer seller

/-- The loop of a sweep, over the trades that are left. -/
def expireTrades (now : Nat) : List StaleTrade → SweepResult → SweepJob SweepResult
  | [], result => return result
  | trade :: rest, result => do
    let outcome ← settled do
      -- How many rows were moved is not looked at.
      let _ ← (SweepOp.expireTrade trade.tradeId trade.row.version now).ask
      announce trade
    match outcome with
    | .ok () => expireTrades now rest { result with expired := result.expired + 1 }
    | .error _ => expireTrades now rest { result with errors := result.errors + 1 }

def sweepExpiredTrades (batchSize : Nat) : SweepJob SweepResult := do
  let now ← SweepOp.now.ask
  let stale ← (SweepOp.findStale now batchSize).ask
  expireTrades now stale ⟨stale.length, 0, 0⟩

/-! ## Events -/

/-- The payload a handler creates a trade with. -/
def payloadOf (event : ParsedEvent) : TradeRow :=
  if event.eventType = .tradeCreated then createdPayload event else barePayload event

/-- `applyStatusTransition`, in the transaction of an event.  Its write is seen by the others when it
is committed. -/
def applyStatusTransition (event : ParsedEvent) : SweepJob Unit := do
  match ← (SweepOp.findTrade event.tradeId).ask with
  | none => (SweepOp.upsertTrade event.tradeId (payloadOf event)).ask
  | some existing =>
    if existing.status ∈ (validPredecessors event.eventType).getD [] then
      let count ← (SweepOp.moveTrade event.tradeId existing.status existing.version
        ((eventToStatus event.eventType).getD existing.status)).ask
      if count = 0 then throw (.raised "Concurrency conflict")

/-- The part of `dispatchEvent` that is about trades. -/
def dispatchEvent (event : ParsedEvent) : SweepJob Unit :=
  if event.eventType = .streamClawback then return () else applyStatusTransition event

/-! ## The database and the queue -/

/-- The trades, with their ids in an order. -/
structure TradeTable where
  rows : Db fun _ : String => TradeRow
  tradeIds : List String
  distinct : tradeIds.Nodup

def TradeTable.put (trades : TradeTable) (tradeId : String) (row : TradeRow) : TradeTable where
  rows := Function.update trades.rows tradeId (some row)
  tradeIds := trades.tradeIds.insert tradeId
  distinct := trades.distinct.insert

/-- A job of the notification queue. -/
structure Queued where
  worker : Nat
  name : String
  job : NotificationJobData
  deriving DecidableEq, Repr

/-- What is shared.  `moved` is which worker has expired which trade; nothing looks at it, nor at the
worker of a job. -/
structure Trading where
  now : Nat
  trades : TradeTable
  preferences : String → Option Preferences
  queue : List Queued
  moved : List (Nat × String)

/-- The trades a sweep finds. -/
def Trading.stale (s : Trading) (now batchSize : Nat) : List StaleTrade :=
  ((s.trades.tradeIds.filterMap fun tradeId =>
    ((s.trades.rows tradeId).filter fun row : TradeRow => row.stale now).map fun row =>
      (⟨tradeId, row⟩ : StaleTrade)).insertionSort
    fun a b => a.row.expiresAt.getD 0 ≤ b.row.expiresAt.getD 0).take batchSize

/-- The row an update of a sweep is to move. -/
def Trading.expirable (s : Trading) (tradeId : String) (version : Nat) : Option TradeRow :=
  (s.trades.rows tradeId).filter fun row =>
    row.version = version && expirableStatuses.contains row.status

def Trading.expireTrade (s : Trading) (worker : Nat) (tradeId : String) (version now : Nat) :
    Nat × Trading :=
  match s.expirable tradeId version with
  | none => (0, s)
  | some row =>
    (1, { s with
      trades := s.trades.put tradeId
        { row with status := .expired, expiredAt := some now, version := row.version + 1 }
      moved := s.moved ++ [(worker, tradeId)] })

def Trading.moveTrade (s : Trading) (tradeId : String) (status : TradeStatus) (version : Nat)
    (target : TradeStatus) : Nat × Trading :=
  match (s.trades.rows tradeId).filter fun row => row.status = status && row.version = version with
  | none => (0, s)
  | some row => (1, { s with trades := s.trades.put tradeId (row.moveTo target) })

def Trading.upsertTrade (s : Trading) (tradeId : String) (payload : TradeRow) : Trading :=
  match s.trades.rows tradeId with
  | none => { s with trades := s.trades.put tradeId payload }
  | some row => { s with trades := s.trades.put tradeId (row.moveTo payload.status) }

/-- What worker `i` is answered.  A transaction that fails is not reached. -/
def serveTrading (i : Nat) : (op : SweepOp) → Connection → Trading → SweepAnswer op × Trading
  | .now, _, s => (.ok s.now, s)
  | .findStale now batchSize, connection, s => deliver connection s (.ok (s.stale now batchSize, s))
  | .expireTrade tradeId version now, connection, s =>
    deliver connection s (.ok (s.expireTrade i tradeId version now))
  | .enqueue name job, connection, s =>
    deliver connection s (.ok ((), { s with queue := s.queue ++ [⟨i, name, job⟩] }))
  | .findPreference userAddress, connection, s =>
    deliver connection s (.ok (s.preferences userAddress, s))
  | .findTrade tradeId, connection, s => deliver connection s (.ok (s.trades.rows tradeId, s))
  | .upsertTrade tradeId payload, connection, s =>
    deliver connection s (.ok ((), s.upsertTrade tradeId payload))
  | .moveTrade tradeId status version target, connection, s =>
    deliver connection s (.ok (s.moveTrade tradeId status version target))

inductive TradingCall where
  | sweepExpiredTrades (batchSize : Nat)
  | dispatchEvent (event : ParsedEvent)

/-- What a call returns. -/
inductive TradingReturn where
  | swept (result : Except Fault SweepResult)
  | dispatched (result : Except Fault Unit)
  deriving DecidableEq

def TradingCall.job : TradingCall → Jobs.Job SweepAnswer TradingReturn
  | .sweepExpiredTrades batchSize => .swept <$> (Expiry.sweepExpiredTrades batchSize).run
  | .dispatchEvent event => .dispatched <$> (Expiry.dispatchEvent event).run

/-- Sweeps and events side by side. -/
def trading : Service TradingCall SweepAnswer Trading Connection Nat TradingReturn where
  program := TradingCall.job
  serve := serveTrading
  drift ms s := { s with now := s.now + ms }

abbrev TradingWorld := World TradingCall SweepAnswer Trading TradingReturn

abbrev TradingStep := Activity TradingCall Connection Nat

/-! ## What is asked -/

/-- What tells the notifications of a trade apart. -/
def NotificationJobData.key (job : NotificationJobData) : String × String × NotificationType :=
  (job.tradeId, job.message, job.type)

/-- Rows stay, and every change of a row raises its version. -/
def Later (s s' : Trading) : Prop :=
  ∀ tradeId row, s.trades.rows tradeId = some row → ∃ row', s'.trades.rows tradeId = some row' ∧
    (row' = row ∨ row.version < row'.version)

/-- What the others leave alone of worker `i`. -/
structure KeepsOwn (i : Nat) (s s' : Trading) : Prop where
  later : Later s s'
  queue : ∀ q, q.worker = i → (q ∈ s'.queue ↔ q ∈ s.queue)
  moved : ∀ tradeId, (i, tradeId) ∈ s'.moved ↔ (i, tradeId) ∈ s.moved

theorem Later.refl (s : Trading) : Later s s := fun _ row hrow => ⟨row, hrow, .inl rfl⟩

theorem Later.trans {s s' s'' : Trading} (h : Later s s') (h' : Later s' s'') : Later s s'' := by
  intro tradeId row hrow
  obtain ⟨mid, hmid, hfirst⟩ := h tradeId row hrow
  obtain ⟨new, hnew, hsecond⟩ := h' tradeId mid hmid
  refine ⟨new, hnew, ?_⟩
  rcases hfirst with rfl | hlt
  · exact hsecond
  · rcases hsecond with rfl | hlt'
    · exact .inr hlt
    · exact .inr (hlt.trans hlt')

theorem keepsOwn_onward (i : Nat) : Onward (KeepsOwn i) where
  refl s := ⟨.refl s, fun _ _ => Iff.rfl, fun _ => Iff.rfl⟩
  trans h h' :=
    ⟨h.later.trans h'.later, fun q hq => (h'.queue q hq).trans (h.queue q hq),
      fun tradeId => (h'.moved tradeId).trans (h.moved tradeId)⟩

/-- An update of a sweep whose answer is heard finds its row. -/
def Hits : SweepOp → Connection → Trading → Prop
  | .expireTrade tradeId version _, connection, s =>
    connection = .heard → (s.expirable tradeId version).isSome = true
  | _, _, _ => True

/-- Worker `i` expires a trade that was not expired when it was read, and announces one it has moved,
which it has not announced yet. -/
def Asked (i : Nat) : SweepOp → Trading → Prop
  | .expireTrade tradeId version _, s => ∀ row, s.trades.rows tradeId = some row →
    row.version = version → row.expiredAt = none
  | .enqueue _ job, s => (i, job.tradeId) ∈ s.moved ∧
    ∀ q ∈ s.queue, q.worker = i → q.job.key ≠ job.key
  | _, _ => True

section Serve

variable {i : Nat} {op : SweepOp} {connection : Connection} {s : Trading}

theorem later_put {tradeId : String} {row : TradeRow}
    (higher : ∀ old, s.trades.rows tradeId = some old → old.version < row.version) :
    Later s { s with trades := s.trades.put tradeId row } := by
  intro other old hold
  by_cases hsame : other = tradeId
  · subst hsame
    exact ⟨row, Function.update_self .., .inr (higher old hold)⟩
  · exact ⟨old, (Function.update_of_ne hsame ..).trans hold, .inl rfl⟩

/-- What is asked leaves the others alone: it changes rows, adds a trade that was moved, or a
notification. -/
inductive TradingEffect (i : Nat) (s : Trading) : SweepOp → Trading → Prop
  | nothing (op : SweepOp) : TradingEffect i s op s
  | expired (tradeId : String) (row : TradeRow) (now : Nat)
      (found : s.trades.rows tradeId = some row) :
      TradingEffect i s (.expireTrade tradeId row.version now)
        { s with
          trades := s.trades.put tradeId
            { row with status := .expired, expiredAt := some now, version := row.version + 1 }
          moved := s.moved ++ [(i, tradeId)] }
  | moved (op : SweepOp) (tradeId : String) (row : TradeRow) (status : TradeStatus)
      (found : s.trades.rows tradeId = some row) :
      TradingEffect i s op { s with trades := s.trades.put tradeId (row.moveTo status) }
  | created (tradeId : String) (row : TradeRow) (free : s.trades.rows tradeId = none) :
      TradingEffect i s (.upsertTrade tradeId row) { s with trades := s.trades.put tradeId row }
  | enqueued (name : String) (job : NotificationJobData) :
      TradingEffect i s (.enqueue name job) { s with queue := s.queue ++ [⟨i, name, job⟩] }

theorem deliver_cases {β : Type} (connection : Connection) (s s' : Trading) (r : β) :
    (deliver connection s (.ok (r, s'))).2 = s' ∨ (deliver connection s (.ok (r, s'))).2 = s := by
  cases connection with
  | heard | unheard => exact .inl rfl
  | down => exact .inr rfl

theorem serveTrading_effect (i : Nat) (op : SweepOp) (connection : Connection) (s : Trading) :
    TradingEffect i s op (serveTrading i op connection s).2 := by
  cases op with
  | now => exact .nothing _
  | findStale | findPreference | findTrade =>
    rw [serveTrading, deliver_read]
    exact .nothing _
  | enqueue name job =>
    rw [serveTrading]
    obtain h | h := deliver_cases connection s { s with queue := s.queue ++ [⟨i, name, job⟩] } ()
    · rw [h]
      exact .enqueued ..
    · rw [h]
      exact .nothing _
  | expireTrade tradeId version now =>
    rw [serveTrading]
    obtain h | h := deliver_cases connection s (s.expireTrade i tradeId version now).2
      (s.expireTrade i tradeId version now).1
    · rw [h, Trading.expireTrade]
      cases hrow : s.expirable tradeId version with
      | none => exact .nothing _
      | some row =>
        obtain ⟨hfound, hmatches⟩ := Option.filter_eq_some_iff.1 hrow
        obtain rfl : row.version = version := by simp at hmatches; exact hmatches.1
        exact .expired tradeId row now hfound
    · rw [h]
      exact .nothing _
  | upsertTrade tradeId payload =>
    rw [serveTrading]
    obtain h | h := deliver_cases connection s (s.upsertTrade tradeId payload) ()
    · rw [h, Trading.upsertTrade]
      cases hrow : s.trades.rows tradeId with
      | none => exact .created _ _ hrow
      | some row => exact .moved _ _ _ _ hrow
    · rw [h]
      exact .nothing _
  | moveTrade tradeId status version target =>
    rw [serveTrading]
    obtain h | h := deliver_cases connection s (s.moveTrade tradeId status version target).2
      (s.moveTrade tradeId status version target).1
    · rw [h, Trading.moveTrade]
      cases hrow : (s.trades.rows tradeId).filter fun row =>
          row.status = status && row.version = version with
      | none => exact .nothing _
      | some row => exact .moved _ _ _ _ (Option.filter_eq_some_iff.1 hrow).1
    · rw [h]
      exact .nothing _

theorem TradingEffect.later {s' : Trading} (h : TradingEffect i s op s') : Later s s' := by
  cases h with
  | nothing => exact .refl s
  | expired tradeId row now found =>
    refine @later_put s tradeId { row with
      status := .expired, expiredAt := some now, version := row.version + 1 } fun old hold => ?_
    cases found.symm.trans hold
    exact Nat.lt_succ_self _
  | moved _ tradeId row status found =>
    refine later_put fun old hold => ?_
    cases found.symm.trans hold
    exact Nat.lt_succ_self _
  | created tradeId row free =>
    refine later_put fun old hold => ?_
    cases free.symm.trans hold
  | enqueued => exact .refl s

/-- What worker `i` asks keeps what is of the others. -/
theorem TradingEffect.keepsOwn {s' : Trading} (h : TradingEffect i s op s') {j : Nat}
    (hne : j ≠ i) : KeepsOwn j s s' := by
  refine ⟨h.later, fun q hq => ?_, fun tradeId => ?_⟩
  · cases h with
    | enqueued name job =>
      rw [List.mem_append, List.mem_singleton, or_iff_left]
      rintro rfl
      exact hne hq.symm
    | _ => rfl
  · cases h with
    | expired tradeId' row now found =>
      rw [List.mem_append, List.mem_singleton, or_iff_left]
      rintro ⟨⟩
      exact hne rfl
    | _ => rfl

end Serve

/-! ## A sweep -/

/-- Worker `i` is sweeping: the trades in `rest` were not expired when they were read, it has moved
those in `counted`, and its notifications are in `K`. -/
structure Sweeping (i : Nat) (rest : List StaleTrade) (counted : List String)
    (K : NotificationJobData → Prop) (s : Trading) : Prop where
  unexpired : ∀ trade ∈ rest, ∃ row, s.trades.rows trade.tradeId = some row ∧
    trade.row.version ≤ row.version ∧ (row.version = trade.row.version → row.expiredAt = none)
  own : ∀ q ∈ s.queue, q.worker = i → K q.job
  counted : ∀ tradeId ∈ counted, (i, tradeId) ∈ s.moved

/-- What a sweep asks, and what it returns. -/
abbrev DoesSweep {α : Type} (i : Nat) (Ψ : Except Fault α → Trading → Prop)
    (job : Jobs.Job SweepAnswer (Except Fault α)) (s : Trading) : Prop :=
  Does (serveTrading i) (KeepsOwn i) Hits (fun op _ s => Asked i op s) Ψ job s

section Sweep

variable {i : Nat} {rest : List StaleTrade} {counted : List String} {s s' : Trading}
  {K K' : NotificationJobData → Prop} {α β : Type}

theorem Sweeping.later (h : Sweeping i rest counted K s) (keeps : KeepsOwn i s s') :
    Sweeping i rest counted K s' where
  unexpired trade htrade := by
    obtain ⟨row, hrow, hversion, hunexpired⟩ := h.unexpired trade htrade
    obtain ⟨new, hnew, rfl | hlt⟩ := keeps.later trade.tradeId row hrow
    · exact ⟨new, hnew, hversion, hunexpired⟩
    · exact ⟨new, hnew, by omega, fun hsame => by omega⟩
  own q hq hown := h.own q ((keeps.queue q hown).1 hq) hown
  counted tradeId hcounted := (keeps.moved tradeId).2 (h.counted tradeId hcounted)

/-- What worker `i` asks itself. -/
theorem Sweeping.serve {op : SweepOp} (h : Sweeping i rest counted K s)
    (effect : TradingEffect i s op s')
    (kept : ∀ name job, op = .enqueue name job → K' job) (weaker : ∀ job, K job → K' job) :
    Sweeping i rest counted K' s' where
  unexpired trade htrade := by
    obtain ⟨row, hrow, hversion, hunexpired⟩ := h.unexpired trade htrade
    obtain ⟨new, hnew, rfl | hlt⟩ := effect.later trade.tradeId row hrow
    · exact ⟨new, hnew, hversion, hunexpired⟩
    · exact ⟨new, hnew, by omega, fun hsame => by omega⟩
  own q hq hown := by
    cases effect with
    | enqueued name job =>
      rcases List.mem_append.1 hq with hold | hnew
      · exact weaker _ (h.own q hold hown)
      · rw [List.mem_singleton.1 hnew]
        exact kept name job rfl
    | _ => exact weaker _ (h.own q hq hown)
  counted tradeId hcounted := by
    cases effect with
    | expired => exact List.mem_append_left _ (h.counted tradeId hcounted)
    | _ => exact h.counted tradeId hcounted

theorem Sweeping.mono {rest' : List StaleTrade} {counted' : List String}
    (h : Sweeping i rest counted K s) (fewer : rest' ⊆ rest) (less : counted' ⊆ counted)
    (weaker : ∀ job, K job → K' job) : Sweeping i rest' counted' K' s where
  unexpired trade htrade := h.unexpired trade (fewer htrade)
  own q hq hown := weaker _ (h.own q hq hown)
  counted tradeId hcounted := h.counted tradeId (less hcounted)

theorem does_settled {job : SweepJob α} {f : Except Fault α → SweepJob β}
    {Ψ : Except Fault β → Trading → Prop} :
    DoesSweep i Ψ (settled job >>= f).run s ↔
      DoesSweep i (fun r s => DoesSweep i Ψ (f r).run s) job.run s :=
  does_except_bind.trans does_map

/-- Whatever is answered. -/
theorem does_ask {op : SweepOp} {Ψ : Except Fault op.Res → Trading → Prop}
    (h : Sweeping i rest counted K s)
    (asked : ∀ s', Sweeping i rest counted K s' → Asked i op s')
    (goes : ∀ r s', Sweeping i rest counted (fun job => K job ∨ ∃ name, op = .enqueue name job) s' →
      Ψ r s') : DoesSweep i Ψ op.ask.run s := by
  intro s' hkept connection _
  have hnow := h.later hkept
  refine ⟨asked s' hnow, goes _ _ (hnow.serve (serveTrading_effect ..) ?_ fun job => .inl)⟩
  exact fun name job hop => .inr ⟨name, hop⟩

/-- A notification is added, and another one if the user wants it. -/
theorem does_enqueue {eventKey : String} {data : NotificationJobData}
    {Ψ : Except Fault Unit → Trading → Prop} (h : Sweeping i rest counted K s)
    (moved : data.tradeId ∈ counted)
    (fresh : ∀ job, K job → job.tradeId = data.tradeId → job.message ≠ data.message)
    (goes : ∀ r s', Sweeping i rest counted (fun job =>
      K job ∨ job.tradeId = data.tradeId ∧ job.message = data.message) s' → Ψ r s') :
    DoesSweep i Ψ (enqueueTradeLifecycleNotification eventKey data).run s := by
  unfold enqueueTradeLifecycleNotification
  refine does_settled.2 (does_ask h (fun s' hs => ⟨hs.counted _ moved, ?_⟩) fun added s' hs => ?_)
  · intro q hq hown hkey
    obtain ⟨htrade, hmessage, -⟩ : _ ∧ _ ∧ _ := by simpa [NotificationJobData.key] using hkey
    exact fresh _ (hs.own q hq hown) htrade hmessage
  have hasks (s' : Trading) : Asked i (.findPreference data.userAddress) s' := trivial
  refine does_settled.2 (does_ask hs (fun s' _ => hasks s') fun preference s'' hs' => ?_)
  have hboth {texted : Except Fault Unit} {s : Trading} (hdone : Sweeping i rest counted (fun job =>
      K job ∨ job.tradeId = data.tradeId ∧ job.message = data.message) s) :
      DoesSweep i Ψ (both added texted).run s := by
    cases added with
    | error fault => exact goes _ s hdone
    | ok _ =>
      cases texted with
      | error fault => exact goes _ s hdone
      | ok _ => exact goes _ s hdone
  split
  · refine does_settled.2 (does_ask hs' (fun s hs => ⟨hs.counted _ moved, ?_⟩) fun texted s hs => ?_)
    · intro q hq hown hkey
      obtain ⟨htrade, hmessage, htype⟩ : _ ∧ _ ∧ _ := by
        simpa [NotificationJobData.key] using hkey
      rcases hs.own q hq hown with (hold | ⟨name, hadded⟩) | ⟨name, hop⟩
      · exact fresh _ hold htrade hmessage
      · obtain ⟨-, hjob⟩ := SweepOp.enqueue.inj hadded
        rw [← hjob] at htype
        cases htype
      · cases hop
    · refine hboth (hs.mono (List.Subset.refl _) (List.Subset.refl _) fun job hjob => ?_)
      rcases hjob with ((hold | ⟨name, hadded⟩) | ⟨name, hop⟩) | ⟨name, hadded⟩
      · exact .inl hold
      · obtain ⟨-, rfl⟩ := SweepOp.enqueue.inj hadded
        exact .inr ⟨rfl, rfl⟩
      · cases hop
      · obtain ⟨-, rfl⟩ := SweepOp.enqueue.inj hadded
        exact .inr ⟨rfl, rfl⟩
  · refine hboth (hs'.mono (List.Subset.refl _) (List.Subset.refl _) fun job hjob => ?_)
    rcases hjob with (hold | ⟨name, hadded⟩) | ⟨name, hop⟩
    · exact .inl hold
    · obtain ⟨-, rfl⟩ := SweepOp.enqueue.inj hadded
      exact .inr ⟨rfl, rfl⟩
    · cases hop

/-- The messages to the parties differ. -/
theorem StaleTrade.message_ne (trade : StaleTrade) :
    trade.buyerNotice.message ≠ trade.sellerNotice.message := by
  intro h
  have hlists := congrArg String.toList h
  simp only [buyerNotice, sellerNotice, String.toList_append, List.append_assoc] at hlists
  have hrest := List.append_cancel_left (List.append_cancel_left hlists)
  exact absurd hrest (by decide)

theorem does_announce {trade : StaleTrade} {Ψ : Except Fault Unit → Trading → Prop}
    (h : Sweeping i rest counted K s) (moved : trade.tradeId ∈ counted)
    (fresh : ∀ job, K job → job.tradeId ≠ trade.tradeId)
    (goes : ∀ r s', Sweeping i rest counted (fun job => K job ∨ job.tradeId = trade.tradeId) s' →
      Ψ r s') : DoesSweep i Ψ (announce trade).run s := by
  unfold announce
  refine does_settled.2 (does_enqueue h moved (fun job hold hsame => absurd hsame (fresh job hold))
    fun buyer s' hs => ?_)
  refine does_settled.2 (does_enqueue hs moved (fun job hjob hsame => ?_) fun seller s'' hs' => ?_)
  · rcases hjob with hold | ⟨-, hmessage⟩
    · exact absurd hsame (fresh job hold)
    · rw [hmessage]
      exact trade.message_ne
  · have hdone : Sweeping i rest counted (fun job => K job ∨ job.tradeId = trade.tradeId) s'' := by
      refine hs'.mono (List.Subset.refl _) (List.Subset.refl _) fun job hjob => ?_
      rcases hjob with (hold | ⟨hsame, -⟩) | ⟨hsame, -⟩
      · exact .inl hold
      · exact .inr hsame
      · exact .inr hsame
    cases buyer with
    | error fault => exact goes _ s'' hdone
    | ok _ =>
      cases seller with
      | error fault => exact goes _ s'' hdone
      | ok _ => exact goes _ s'' hdone

/-- The trade that is expired next was not expired when it was read. -/
theorem Sweeping.asked {trade : StaleTrade} {now : Nat}
    (h : Sweeping i (trade :: rest) counted K s) :
    Asked i (.expireTrade trade.tradeId trade.row.version now) s := by
  intro row hrow hversion
  obtain ⟨row', hrow', -, hunexpired⟩ := h.unexpired trade List.mem_cons_self
  cases hrow.symm.trans hrow'
  exact hunexpired hversion

/-- An update that is heard has moved the trade. -/
theorem moved_of_heard {tradeId : String} {version now : Nat}
    (hits : Hits (.expireTrade tradeId version now) .heard s) :
    (i, tradeId) ∈ (serveTrading i (.expireTrade tradeId version now) .heard s).2.moved := by
  have hfound := hits rfl
  rw [serveTrading, Trading.expireTrade]
  cases hrow : s.expirable tradeId version with
  | none =>
    rw [hrow] at hfound
    cases hfound
  | some row => exact List.mem_append_right _ List.mem_cons_self

/-- One trade of the loop: it is counted only if it was moved. -/
theorem does_expireTrade {trade : StaleTrade} {now : Nat}
    {Ψ : Except Fault Unit → Trading → Prop} (h : Sweeping i (trade :: rest) counted K s)
    (fresh : ∀ job, K job → job.tradeId ≠ trade.tradeId)
    (counts : ∀ s', Sweeping i rest (trade.tradeId :: counted)
      (fun job => K job ∨ job.tradeId = trade.tradeId) s' → Ψ (.ok ()) s')
    (fails : ∀ fault s', Sweeping i rest counted
      (fun job => K job ∨ job.tradeId = trade.tradeId) s' → Ψ (.error fault) s') :
    DoesSweep i Ψ (do
      let _ ← (SweepOp.expireTrade trade.tradeId trade.row.version now).ask
      announce trade : SweepJob Unit).run s := by
  apply does_except_bind.2
  intro s' hkept connection hhits
  have hnow := h.later hkept
  refine ⟨hnow.asked, ?_⟩
  have hgone : Sweeping i rest counted K
      (serveTrading i (.expireTrade trade.tradeId trade.row.version now) connection s').2 :=
    (hnow.serve (serveTrading_effect ..) nofun fun _ => id).mono (List.subset_cons_self ..)
      (List.Subset.refl _) fun _ => id
  cases connection with
  | down | unheard =>
    exact fails _ _ (hgone.mono (List.Subset.refl _) (List.Subset.refl _) fun _ => .inl)
  | heard =>
    have hmoved := moved_of_heard (i := i) hhits
    have hcounted : Sweeping i rest (trade.tradeId :: counted) K
        (serveTrading i (.expireTrade trade.tradeId trade.row.version now) .heard s').2 :=
      ⟨hgone.unexpired, hgone.own, List.forall_mem_cons.2 ⟨hmoved, hgone.counted⟩⟩
    refine does_announce hcounted List.mem_cons_self fresh fun r s'' hs => ?_
    cases r with
    | ok _ => exact counts s'' hs
    | error fault =>
      exact fails fault s'' (hs.mono (List.Subset.refl _) (List.subset_cons_self ..) fun _ => id)

/-- What is counted was moved. -/
def Counted (i : Nat) (r : Except Fault SweepResult) (s : Trading) : Prop :=
  ∀ result, r = .ok result → ∃ counted : List String, counted.Nodup ∧
    counted.length = result.expired ∧ ∀ tradeId ∈ counted, (i, tradeId) ∈ s.moved

theorem does_expireTrades (now : Nat) (stale : List StaleTrade) (result : SweepResult)
    (h : Sweeping i stale counted (fun job => job.tradeId ∉ stale.map StaleTrade.tradeId) s)
    (distinct : (stale.map StaleTrade.tradeId).Nodup) (nodup : counted.Nodup)
    (length : counted.length = result.expired)
    (apart : ∀ tradeId ∈ counted, tradeId ∉ stale.map StaleTrade.tradeId) :
    DoesSweep i (Counted i) (expireTrades now stale result).run s := by
  induction stale generalizing counted result s with
  | nil =>
    rintro _ ⟨⟩
    exact ⟨counted, nodup, length, h.counted⟩
  | cons trade rest ih =>
    obtain ⟨hfirst, hrest⟩ := List.nodup_cons.1 distinct
    have hleft {counted' : List String} {s' : Trading} (hs : Sweeping i rest counted'
        (fun job => job.tradeId ∉ (trade :: rest).map StaleTrade.tradeId ∨
          job.tradeId = trade.tradeId) s') :
        Sweeping i rest counted' (fun job => job.tradeId ∉ rest.map StaleTrade.tradeId) s' := by
      refine hs.mono (List.Subset.refl _) (List.Subset.refl _) fun job hjob hin => ?_
      rcases hjob with hout | hsame
      · exact hout (List.mem_cons_of_mem _ hin)
      · exact hfirst (hsame ▸ hin)
    refine does_settled.2 (does_expireTrade h (fun job hjob hsame => ?_) (fun s' hs => ?_)
      fun fault s' hs => ?_)
    · exact hjob (hsame ▸ List.mem_cons_self)
    · refine ih _ (hleft hs) hrest ?_ ?_ ?_
      · exact List.nodup_cons.2 ⟨fun hin => apart _ hin List.mem_cons_self, nodup⟩
      · rw [List.length_cons, length]
      · exact List.forall_mem_cons.2
          ⟨hfirst, fun tradeId hin hout => apart tradeId hin (List.mem_cons_of_mem _ hout)⟩
    · exact ih _ (hleft hs) hrest nodup length
        fun tradeId hin hout => apart tradeId hin (List.mem_cons_of_mem _ hout)

theorem mem_stale {now batchSize : Nat} {trade : StaleTrade} (h : trade ∈ s.stale now batchSize) :
    s.trades.rows trade.tradeId = some trade.row ∧ trade.row.expiredAt = none := by
  have hsorted := List.mem_of_mem_take h
  rw [List.mem_insertionSort] at hsorted
  obtain ⟨tradeId, -, hfound⟩ := List.mem_filterMap.1 hsorted
  obtain ⟨row, hrow, rfl⟩ := Option.map_eq_some_iff.1 hfound
  obtain ⟨hrow, hstale⟩ := Option.filter_eq_some_iff.1 hrow
  rw [TradeRow.stale, Bool.and_eq_true, Option.isNone_iff_eq_none] at hstale
  exact ⟨hrow, hstale.2⟩

/-- No trade is found twice. -/
theorem nodup_stale (s : Trading) (now batchSize : Nat) :
    ((s.stale now batchSize).map StaleTrade.tradeId).Nodup := by
  apply List.Nodup.sublist ((List.take_sublist _ _).map _)
  rw [((List.perm_insertionSort _ _).map StaleTrade.tradeId).nodup_iff, List.map_filterMap]
  have hsame : (s.trades.tradeIds.filterMap fun tradeId =>
      (((s.trades.rows tradeId).filter fun row : TradeRow => row.stale now).map fun row =>
        (⟨tradeId, row⟩ : StaleTrade)).map StaleTrade.tradeId) =
      s.trades.tradeIds.filter fun tradeId =>
        ((s.trades.rows tradeId).filter fun row : TradeRow => row.stale now).isSome := by
    rw [← List.filterMap_eq_filter]
    apply List.filterMap_congr
    intro tradeId _
    cases hfound : (s.trades.rows tradeId).filter fun row : TradeRow => row.stale now with
    | none => simp only [Option.guard, hfound]; rfl
    | some row => simp only [Option.guard, hfound]; rfl
  rw [hsame]
  exact s.trades.distinct.filter _

theorem does_sweepExpiredTrades (batchSize : Nat) (idle : ∀ q ∈ s.queue, q.worker ≠ i) :
    DoesSweep i (Counted i) (sweepExpiredTrades batchSize).run s := by
  have hidle : Sweeping i [] [] (fun _ => False) s :=
    ⟨nofun, fun q hq hown => idle q hq hown, nofun⟩
  unfold sweepExpiredTrades
  apply does_except_bind.2
  refine does_ask hidle (fun _ _ => trivial) fun r s hs => ?_
  cases r with
  | error fault => nofun
  | ok now =>
    apply does_except_bind.2
    intro s' hkept connection _
    refine ⟨trivial, ?_⟩
    have hread : (serveTrading i (.findStale now batchSize) connection s').2 = s' := deliver_read ..
    rw [hread]
    cases connection with
    | unheard | down => nofun
    | heard =>
      have hnow := hs.later hkept
      have hnew : ∀ tradeId ∈ ([] : List String),
          tradeId ∉ (s'.stale now batchSize).map StaleTrade.tradeId :=
        fun _ h => absurd h List.not_mem_nil
      refine does_expireTrades now (s'.stale now batchSize) _ ⟨?_, ?_, ?_⟩ (nodup_stale ..)
        List.nodup_nil rfl hnew
      · intro trade htrade
        obtain ⟨hrow, hunexpired⟩ := mem_stale htrade
        exact ⟨trade.row, hrow, Nat.le_refl _, fun _ => hunexpired⟩
      · intro q hq hown
        rcases hnow.own q hq hown with hnone | ⟨name, hop⟩
        · exact hnone.elim
        · cases hop
      · intro tradeId hcounted
        cases hcounted

end Sweep

/-! ## Everything together -/

/-- What a call returns. -/
def Returned (i : Nat) (_ : TradingCall) : TradingReturn → Trading → Prop
  | .swept result, s => Counted i result s
  | .dispatched _, _ => True

/-- A trade is moved once and is expired then; what is announced was moved, and is announced once. -/
structure Consistent (s : Trading) : Prop where
  distinct : (s.moved.map Prod.snd).Nodup
  expired : ∀ p ∈ s.moved, ∃ row, s.trades.rows p.2 = some row ∧ row.expiredAt ≠ none
  announced : ∀ q ∈ s.queue, (q.worker, q.job.tradeId) ∈ s.moved
  once : (s.queue.map fun q => q.job.key).Nodup

section Together

variable {i : Nat} {s s' : Trading} {op : SweepOp}

/-- Rows that are written stay expired. -/
theorem expired_put {tradeId : String} {row : TradeRow}
    (expired : ∀ p ∈ s.moved, ∃ row, s.trades.rows p.2 = some row ∧ row.expiredAt ≠ none)
    (keeps : ∀ old, s.trades.rows tradeId = some old → old.expiredAt ≠ none → row.expiredAt ≠ none) :
    ∀ p ∈ s.moved, ∃ row', (s.trades.put tradeId row).rows p.2 = some row' ∧
      row'.expiredAt ≠ none := by
  intro p hp
  obtain ⟨old, hold, hexpired⟩ := expired p hp
  by_cases hsame : p.2 = tradeId
  · rw [hsame] at hold ⊢
    exact ⟨row, Function.update_self .., keeps old hold hexpired⟩
  · exact ⟨old, (Function.update_of_ne hsame ..).trans hold, hexpired⟩

theorem Consistent.serve (h : Consistent s) (asked : Asked i op s)
    (effect : TradingEffect i s op s') : Consistent s' := by
  cases effect with
  | nothing => exact h
  | expired tradeId row now found =>
    have hunexpired : row.expiredAt = none := asked row found rfl
    have hfresh : tradeId ∉ s.moved.map Prod.snd := by
      intro hin
      obtain ⟨p, hp, rfl⟩ := List.mem_map.1 hin
      obtain ⟨row', hrow', hexpired⟩ := h.expired p hp
      cases found.symm.trans hrow'
      exact hexpired hunexpired
    refine ⟨?_, fun p hp => ?_, fun q hq => List.mem_append_left _ (h.announced q hq), h.once⟩
    · rw [List.map_append]
      exact List.nodup_append_comm.1 (List.nodup_cons.2 ⟨hfresh, h.distinct⟩)
    · rcases List.mem_append.1 hp with hold | hnew
      · exact expired_put h.expired (fun _ _ _ => Option.some_ne_none now) p hold
      · rw [List.mem_singleton.1 hnew]
        exact ⟨_, Function.update_self .., Option.some_ne_none now⟩
  | moved _ tradeId row status found =>
    refine ⟨h.distinct, expired_put h.expired fun old hold hexpired => ?_, h.announced, h.once⟩
    cases found.symm.trans hold
    exact hexpired
  | created tradeId row free =>
    refine ⟨h.distinct, expired_put h.expired fun old hold => ?_, h.announced, h.once⟩
    cases free.symm.trans hold
  | enqueued name job =>
    obtain ⟨hmoved, hfresh⟩ := asked
    refine ⟨h.distinct, h.expired, fun q hq => ?_, ?_⟩
    · rcases List.mem_append.1 hq with hold | hnew
      · exact h.announced q hold
      · rw [List.mem_singleton.1 hnew]
        exact hmoved
    · rw [List.map_append]
      refine List.nodup_append_comm.1 (List.nodup_cons.2 ⟨fun hin => ?_, h.once⟩)
      obtain ⟨q, hq, hkey⟩ := List.mem_map.1 hin
      -- Whoever has announced the trade has moved it, and only one worker has.
      have htrade : q.job.tradeId = job.tradeId := congrArg Prod.fst hkey
      have hsame : (q.worker, q.job.tradeId) = (i, job.tradeId) :=
        List.inj_on_of_nodup_map h.distinct (h.announced q hq) hmoved htrade
      exact hfresh q hq (congrArg Prod.fst hsame) hkey

theorem does_dispatchEvent (event : ParsedEvent) (s : Trading) :
    DoesSweep i (fun _ _ => True) (dispatchEvent event).run s := by
  unfold dispatchEvent
  split
  · trivial
  unfold applyStatusTransition
  apply does_except_bind.2
  intro s' _ connection _
  refine ⟨trivial, ?_⟩
  cases (serveTrading i (.findTrade event.tradeId) connection s').1 with
  | error fault => trivial
  | ok found =>
    cases found with
    | none => exact fun s'' _ connection' _ => ⟨trivial, trivial⟩
    | some existing =>
      show Does _ _ _ _ _ (ExceptT.run (ite _ _ _)) _
      split
      · apply does_except_bind.2
        intro s'' _ connection' _
        refine ⟨trivial, ?_⟩
        cases (serveTrading i (.moveTrade event.tradeId existing.status existing.version
          ((eventToStatus event.eventType).getD existing.status)) connection' s'').1 with
        | error fault => trivial
        | ok count =>
          show Does _ _ _ _ _ (ExceptT.run (ite _ _ _)) _
          split <;> trivial
      · trivial

end Together

/-- What is announced was moved to `EXPIRED` by the sweep that announces it, so is every trade that a
sweep counts, and no trade is moved or announced twice. -/
structure SweepsReport (w : TradingWorld) : Prop where
  announced : ∀ q ∈ w.shared.queue, (q.worker, q.job.tradeId) ∈ w.shared.moved
  counted : ∀ i batchSize result, w.call i = some (.sweepExpiredTrades batchSize) →
    w.result i = some (.swept (.ok result)) → ∃ counted : List String, counted.Nodup ∧
      counted.length = result.expired ∧ ∀ tradeId ∈ counted, (i, tradeId) ∈ w.shared.moved
  movedOnce : (w.shared.moved.map Prod.snd).Nodup
  announcedOnce : (w.shared.queue.map fun q => q.job.key).Nodup

/-- An update of a sweep whose answer is heard finds its row. -/
abbrev UpdatesHit (w : TradingWorld) (a : TradingStep) : Prop :=
  Permits (fun _ => Hits) (fun _ _ => True) (fun _ _ => True) w a

instance : (op : SweepOp) → (connection : Connection) → (s : Trading) →
    Decidable (Hits op connection s)
  | .expireTrade tradeId version _, connection, s =>
    inferInstanceAs (Decidable (connection = .heard → (s.expirable tradeId version).isSome = true))
  | .now, _, _ | .findStale .., _, _ | .enqueue .., _, _ | .findPreference _, _, _
  | .findTrade _, _, _ | .upsertTrade .., _, _ | .moveTrade .., _, _ => isTrue trivial

/-- The workers ask what they should. -/
structure Honest (w : TradingWorld) : Prop where
  does : w.Does trading KeepsOwn (fun _ => Hits) (fun i _ op _ s => Asked i op s) Returned
  consistent : Consistent w.shared
  known : ∀ p ∈ w.shared.moved, p.1 < w.workers.length

section Worlds

variable {w : TradingWorld} {a : TradingStep}

theorem Counted.later {i : Nat} {r : Except Fault SweepResult} {s s' : Trading}
    (h : Counted i r s) (keeps : KeepsOwn i s s') : Counted i r s' := by
  intro result hr
  obtain ⟨counted, hnodup, hlength, hmoved⟩ := h result hr
  exact ⟨counted, hnodup, hlength, fun tradeId hin => (keeps.moved tradeId).2 (hmoved tradeId hin)⟩

theorem Honest.does_step (h : Honest w) (hits : UpdatesHit w a) :
    (step trading w a).Does trading KeepsOwn (fun _ => Hits) (fun i _ op _ s => Asked i op s)
      Returned := by
  refine h.does.step keepsOwn_onward (fun i c r s s' keeps hr => ?_) hits
    (fun i c op connection s _ j hne => (serveTrading_effect ..).keepsOwn hne)
    (fun ms _ j => ⟨.refl _, fun _ _ => Iff.rfl, fun _ => Iff.rfl⟩) fun c _ => ?_
  · cases r with
    | swept result => exact hr.later keeps
    | dispatched result => trivial
  · cases c with
    | sweepExpiredTrades batchSize =>
      refine does_map.2 (does_sweepExpiredTrades batchSize fun q hq hnew => ?_)
      have hlt := h.known _ (h.consistent.announced q hq)
      rw [hnew] at hlt
      exact absurd hlt (Nat.lt_irrefl _)
    | dispatchEvent event => exact does_map.2 (does_dispatchEvent event _)

theorem Honest.step (h : Honest w) (hits : UpdatesHit w a) : Honest (step trading w a) := by
  have hdoes := h.does_step hits
  obtain hsame | hmoves := step_moves trading w a
  · rwa [hsame]
  generalize Jobs.step trading w a = w' at hdoes hmoves
  cases hmoves with
  | call c workers same =>
    refine ⟨hdoes, by rw [same]; exact h.consistent, fun p hp => ?_⟩
    rw [same] at hp
    rw [workers, List.length_append]
    exact Nat.lt_add_right _ (h.known p hp)
  | advance i connection c op next found workers shared =>
    have heffect := serveTrading_effect i op connection w.shared
    have hasked : Asked i op w.shared :=
      h.does.asked keepsOwn_onward connection found (hits c op next found)
    have hi := (List.getElem?_eq_some_iff.1 found).1
    refine ⟨hdoes, by rw [shared]; exact h.consistent.serve hasked heffect, fun p hp => ?_⟩
    rw [workers, List.length_set]
    by_cases hown : p.1 = i
    · rw [hown]
      exact hi
    · rw [shared] at hp
      exact h.known p (((heffect.keepsOwn hown).moved p.2).1 hp)
  | crash i c op next found workers same =>
    refine ⟨hdoes, by rw [same]; exact h.consistent, fun p hp => ?_⟩
    rw [same] at hp
    rw [workers, List.length_set]
    exact h.known p hp
  | outside ms workers shared =>
    refine ⟨hdoes, ?_, fun p hp => ?_⟩
    · rw [shared]
      exact ⟨h.consistent.distinct, h.consistent.expired, h.consistent.announced,
        h.consistent.once⟩
    · rw [shared] at hp
      rw [workers]
      exact h.known p hp

theorem Honest.sweepsReport (h : Honest w) : SweepsReport w where
  announced := h.consistent.announced
  counted i _ result hcall hresult :=
    (h.does i _ _ (World.done_of_result hcall hresult)) result rfl
  movedOnce := h.consistent.distinct
  announcedOnce := h.consistent.once

end Worlds

/-- Nothing was announced yet. -/
def opened (now : Nat) (trades : TradeTable) (preferences : String → Option Preferences) :
    TradingWorld := .fresh ⟨now, trades, preferences, [], []⟩

/-- However sweeps and events go on side by side: where every update of a sweep whose answer is
heard finds its row, the sweeps report what they have done. -/
theorem sweep_reports (now : Nat) (trades : TradeTable)
    (preferences : String → Option Preferences) (as : List TradingStep)
    (hits : ∀ p ∈ trail trading (opened now trades preferences) as, UpdatesHit p.1 p.2) :
    ∀ before, before <+: as →
      SweepsReport (run trading (opened now trades preferences) before) := by
  intro before hbefore
  apply Honest.sweepsReport
  apply Machine.run_invariant (step trading)
  · exact ⟨by rintro i c job ⟨⟩, ⟨List.nodup_nil, nofun, nofun, List.nodup_nil⟩, nofun⟩
  · rintro ⟨w, a⟩ hp hhonest
    exact hhonest.step (hits _ (Machine.trail_of_isPrefix _ hbefore hp))

namespace Sample

/-- A trade that has been created and is past its time. -/
def overdue : TradeTable :=
  TradeTable.put ⟨fun _ => none, [], .nil⟩ "7" ⟨"b", "s", "100", 3, .created, some 0, none⟩

def sweepSteps (n i : Nat) : List TradingStep := List.replicate n (.advance i .heard)

def sweepAlone : List TradingStep := .call (.sweepExpiredTrades 100) :: sweepSteps 7 0

/-- The trade is funded after the sweep has found it. -/
def fundedMeanwhile : List TradingStep :=
  .call (.sweepExpiredTrades 100) :: sweepSteps 2 0 ++
    .call (.dispatchEvent { Backend.Sample.chainEvent 1 .tradeFunded with tradeId := "7" }) ::
      sweepSteps 2 1 ++ sweepSteps 5 0

end Sample

theorem sweep_reports_alone :
    SweepsReport (run trading (opened 0 Sample.overdue fun _ => none) Sample.sweepAlone) :=
  sweep_reports 0 Sample.overdue (fun _ => none) Sample.sweepAlone (by decide +kernel) _
    (List.prefix_refl _)

/-- The sweep announces and counts a trade that it has not moved. -/
theorem not_sweepsReport :
    ¬ SweepsReport (run trading (opened 0 Sample.overdue fun _ => none) Sample.fundedMeanwhile) := by
  intro h
  exact absurd (h.announced ⟨0, "trade-expired",
    ⟨.inApp, "b", "Trade Expired", "Trade 7 has expired. A refund will be processed shortly.", "7",
      some "100"⟩⟩ (by decide +kernel)) (by decide +kernel)

end Amana.Backend.Expiry
