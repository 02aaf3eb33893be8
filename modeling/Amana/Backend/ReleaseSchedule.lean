import Amana.Backend.MilestoneRelease
import Amana.Backend.TradeIntake

/-!
# The schedule of a release

`escrow.schedule.routes.ts`: the route deletes the milestones of a trade and creates those of the
request, one statement after the other.  Nothing puts the old ones back when a later statement
fails, so the replacement is all or nothing only where none fails, or where what was created so far
is what there was before (`schedule_replaced_iff`).
-/

namespace Amana.Backend

open Lib Lib.Database Lib.Jobs

/-! ## Requests -/

/-- A row of `EscrowReleaseMilestone`. -/
structure MilestoneRow extends ReleaseMilestone where
  conditionHash : Option String
  deriving DecidableEq, Repr

/-- A milestone of a request; `dueAt` is a time. -/
structure MilestoneBody where
  milestoneIndex : Nat
  amountUsdc : String
  dueAt : Nat
  conditionHash : Option String
  deriving DecidableEq, Repr

def milestoneSchema (milestone : MilestoneBody) : Bool :=
  amountUsdcPattern milestone.amountUsdc.toList &&
    milestone.conditionHash.all fun hash => Text.utf16Length hash ≤ 64

def createScheduleBodySchema (milestones : List MilestoneBody) : Bool :=
  1 ≤ milestones.length && milestones.length ≤ 100 && milestones.all milestoneSchema

/-- What a character becomes in `sanitizeString`. -/
def escaped : Char → List Char
  | '&' => "&amp;".toList
  | '<' => "&lt;".toList
  | '>' => "&gt;".toList
  | '"' => "&quot;".toList
  | '\'' => "&#x27;".toList
  | c => [c]

def sanitizeString (value : String) : String :=
  String.ofList ((Text.trim value).toList.flatMap escaped)

/-- What a request may carry. -/
structure CreateScheduleBody where
  milestones : List MilestoneBody
  accepted : createScheduleBodySchema milestones = true
  deriving DecidableEq, Repr

/-- A request to set the schedule of a trade; `walletAddress` is that of the token. -/
structure ScheduleRequest where
  id : String
  walletAddress : Option String
  body : CreateScheduleBody
  deriving DecidableEq, Repr

/-- The row that is created for a milestone. -/
def MilestoneBody.row (m : MilestoneBody) (tradeId : String) : MilestoneRow where
  tradeId := tradeId
  milestoneIndex := m.milestoneIndex
  -- An amount of digits is left as it is.
  amountUsdc := m.amountUsdc
  dueAt := m.dueAt
  releasedAt := none
  conditionHash := m.conditionHash.map sanitizeString

/-- The rows that are created for milestones. -/
def rowsOf (tradeId : String) (milestones : List MilestoneBody) : List MilestoneRow :=
  milestones.map fun m => m.row tradeId

@[simp] theorem rowsOf_nil (tradeId : String) : rowsOf tradeId [] = [] := rfl

@[simp] theorem MilestoneBody.row_tradeId (m : MilestoneBody) (tradeId : String) :
    (m.row tradeId).tradeId = tradeId := rfl

/-- A milestone in a response. -/
structure ScheduledMilestone where
  milestoneIndex : Nat
  amountUsdc : String
  dueAt : Nat
  conditionHash : Option String
  released : Bool
  deriving DecidableEq, Repr

def MilestoneRow.scheduled (row : MilestoneRow) : ScheduledMilestone where
  milestoneIndex := row.milestoneIndex
  amountUsdc := row.amountUsdc
  dueAt := row.dueAt
  conditionHash := row.conditionHash
  released := row.releasedAt.isSome

inductive ScheduleResponse where
  | error (statusCode : Nat) (error : String)
  /-- 201. -/
  | created (tradeId : String) (milestoneCount : Nat) (nextReleaseDate : Option Nat)
      (milestones : List ScheduledMilestone)
  deriving DecidableEq, Repr

/-! ## The route -/

/-- What the routes of an escrow ask for. -/
inductive EscrowOp where
  | payout (op : PayoutOp)
  | deleteMilestones (tradeId : String)
  | createMilestone (row : MilestoneRow)
  deriving DecidableEq, Repr

abbrev EscrowOp.Res : EscrowOp → Type
  | .payout op => op.Res
  | .deleteMilestones _ => Nat
  | .createMilestone _ => MilestoneRow

abbrev EscrowAnswer (op : EscrowOp) : Type := Except Fault op.Res

/-- What is raised goes to the error handler. -/
abbrev ScheduleJob := ExceptT Fault (Jobs.Job EscrowAnswer)

def EscrowOp.ask (op : EscrowOp) : ScheduleJob op.Res := ExceptT.mk <| .ask op .done

def isBuyerOrSeller (trade : ReleaseTrade) (walletAddress : String) : Bool :=
  Text.toLowerCase trade.buyerAddress = Text.toLowerCase walletAddress ||
    Text.toLowerCase trade.sellerAddress = Text.toLowerCase walletAddress

/-- The loop of the route, over the milestones that are left. -/
def createMilestones (tradeId : String) :
    List MilestoneBody → List MilestoneRow → ScheduleJob (List MilestoneRow)
  | [], created => return created
  | m :: rest, created => do
    let record ← (EscrowOp.createMilestone (m.row tradeId)).ask
    createMilestones tradeId rest (created ++ [record])

def respondCreated (tradeId : String) (created : List MilestoneRow) (now : Nat) :
    ScheduleResponse :=
  .created tradeId created.length
    ((created.find? fun row => row.dueAt > now).map fun row => row.dueAt)
    (created.map MilestoneRow.scheduled)

/-- What the route does once the request is admitted. -/
def replaceMilestones (tradeId : String) (milestones : List MilestoneBody) :
    ScheduleJob ScheduleResponse := do
  let _ ← (EscrowOp.deleteMilestones tradeId).ask
  let created ← createMilestones tradeId milestones []
  let now ← (EscrowOp.payout .now).ask
  return respondCreated tradeId created now

/-- `POST /:id/schedule`. -/
def postSchedule (config : PayoutConfig) (request : ScheduleRequest) :
    ScheduleJob ScheduleResponse := do
  match trimmed request.walletAddress with
  | none => return .error 401 "Unauthorized"
  | some walletAddress =>
    match ← (EscrowOp.payout (.findTrade request.id (config.toNumber request.id))).ask with
    | none => return .error 404 "Trade not found"
    | some trade =>
      if trade.status ≠ .created ∧ trade.status ≠ .funded then
        return .error 400 ("Trade must be CREATED or FUNDED to set a release schedule (current: " ++
          trade.status.name ++ ")")
      else if ¬ isBuyerOrSeller trade walletAddress then
        return .error 403 "Only the buyer or seller may set the release schedule"
      else
        replaceMilestones trade.tradeId request.body.milestones

/-! ## The database -/

/-- What the routes share: the milestones with all that a schedule sets, and what the release of a
milestone works on besides. -/
structure EscrowStore where
  payouts : Payouts
  rows : List MilestoneRow

/-- What the release of a milestone sees. -/
def EscrowStore.tables (s : EscrowStore) : Payouts :=
  { s.payouts with schedule := s.rows.map fun row => row.toReleaseMilestone }

/-- A text column takes a text that is not too long and has no U+0000 in it. -/
def fitsColumn (width : Nat) (text : String) : Bool :=
  text.length ≤ width && !text.toList.contains (Char.ofNat 0)

/-- The columns take the row. -/
def MilestoneRow.fits (row : MilestoneRow) : Bool :=
  row.milestoneIndex < 2 ^ 31 && fitsColumn 100 row.amountUsdc &&
    row.conditionHash.all (fitsColumn 255)

def EscrowStore.deleteMilestones (s : EscrowStore) (tradeId : String) : Nat × EscrowStore :=
  (s.rows.countP fun row => row.tradeId = tradeId,
    { s with rows := s.rows.filter fun row => row.tradeId ≠ tradeId })

/-- The key of a milestone is unique, and its trade has to be there. -/
def EscrowStore.createMilestone (s : EscrowStore) (row : MilestoneRow) :
    Except Fault (MilestoneRow × EscrowStore) :=
  if ¬ row.fits then .error (.raised "The provided value is too long for the column's type")
  else if s.rows.any fun other =>
      other.tradeId = row.tradeId && other.milestoneIndex = row.milestoneIndex then .error .unique
  else if ¬ s.payouts.trades.any fun trade => trade.tradeId = row.tradeId then .error .reference
  else .ok (row, { s with rows := s.rows ++ [row] })

/-- What worker `i` is answered. -/
def serveEscrow (hash : String → String) (i : Nat) :
    (op : EscrowOp) → PayoutInput → EscrowStore → EscrowAnswer op × EscrowStore
  | .payout op, given, s =>
    ((answer hash i op given s.tables).1, { s with payouts := (answer hash i op given s.tables).2 })
  | .deleteMilestones tradeId, given, s =>
    deliver given.connection s (.ok (s.deleteMilestones tradeId))
  | .createMilestone row, given, s => deliver given.connection s (s.createMilestone row)

/-! ## A request alone -/

section Alone

variable {hash : String → String} {i : Nat} {s : EscrowStore} {given : PayoutInput}
  {inputs : List PayoutInput} {α : Type}

theorem alone_escrow_cons {op : EscrowOp} {f : op.Res → ScheduleJob α} :
    Job.alone (serveEscrow hash i) (op.ask >>= f).run (given :: inputs) s =
      match (serveEscrow hash i op given s).1 with
      | .ok r => Job.alone (serveEscrow hash i) (f r).run inputs (serveEscrow hash i op given s).2
      | .error fault => (some (.error fault), (serveEscrow hash i op given s).2) := by
  have hask : Job.alone (serveEscrow hash i) (op.ask >>= f).run (given :: inputs) s =
      Job.alone (serveEscrow hash i) (ExceptT.bindCont f (serveEscrow hash i op given s).1)
        inputs (serveEscrow hash i op given s).2 := rfl
  rw [hask]
  cases (serveEscrow hash i op given s).1 <;> rfl

theorem ask_bind_bind {β : Type} {op : EscrowOp} {g : op.Res → ScheduleJob α}
    {f : α → ScheduleJob β} : ((op.ask >>= g) >>= f) = op.ask >>= fun r => g r >>= f :=
  congrArg (Jobs.Job.ask op) (funext fun r => by cases r <;> rfl)

end Alone

/-- The trade of a request, if its schedule may be set. -/
def ScheduleRequest.admitted (request : ScheduleRequest) (config : PayoutConfig)
    (s : EscrowStore) : Option ReleaseTrade :=
  (trimmed request.walletAddress).bind fun walletAddress =>
    (s.payouts.trades.find? fun t =>
      t.tradeId = request.id || some t.id = config.toNumber request.id).filter fun trade =>
        (trade.status = .created || trade.status = .funded) && isBuyerOrSeller trade walletAddress

/-- The milestones of a trade. -/
def EscrowStore.stored (s : EscrowStore) (tradeId : String) : List MilestoneRow :=
  s.rows.filter fun row => row.tradeId = tradeId

/-- What becomes of a request that is handled alone. -/
def ScheduleRequest.handled (request : ScheduleRequest) (config : PayoutConfig)
    (inputs : List PayoutInput) (s : EscrowStore) :
    Option (Except Fault ScheduleResponse) × EscrowStore :=
  Job.alone (serveEscrow config.hash 0) (postSchedule config request).run inputs s

/-- The response to a request whose milestones have been created. -/
def Created (outcome : Option (Except Fault ScheduleResponse) × EscrowStore) (tradeId : String) :
    Prop := ∃ count next milestones,
  outcome.1 = some (.ok (.created tradeId count next milestones))

/-- If the request succeeds, the milestones of the trade are those of the request; if not, every
trade has the milestones it had. -/
structure AllOrNothing (request : ScheduleRequest) (s : EscrowStore)
    (outcome : Option (Except Fault ScheduleResponse) × EscrowStore) : Prop where
  all : ∀ tradeId, Created outcome tradeId →
    (outcome.2.stored tradeId).Perm (rowsOf tradeId request.body.milestones)
  nothing : (∀ tradeId, ¬ Created outcome tradeId) →
    ∀ tradeId, (outcome.2.stored tradeId).Perm (s.stored tradeId)

/-- The milestones can be stored side by side, and every answer up to the response is heard. -/
def Completes (tradeId : String) (milestones : List MilestoneBody)
    (connections : List Connection) : Prop :=
  (milestones.map fun m => m.milestoneIndex).Nodup ∧
    (∀ m ∈ milestones, (m.row tradeId).fits = true) ∧ milestones.length < connections.length ∧
    ∀ connection ∈ connections.take milestones.length, connection = .heard

/-- The milestones that are stored before something fails, beside some whose indices are taken. -/
def landed (tradeId : String) : List Nat → List MilestoneBody → List Connection → List MilestoneBody
  | taken, m :: rest, connection :: connections =>
    if taken.contains m.milestoneIndex || ¬ (m.row tradeId).fits then []
    else
      match connection with
      | .down => []
      | .unheard => [m]
      | .heard => m :: landed tradeId (m.milestoneIndex :: taken) rest connections
  | _, _, _ => []

/-- If the milestones that are stored are deleted, the request completes, or they are the ones it
has stored when it fails. -/
def Replaces (tradeId : String) (milestones : List MilestoneBody) (before : List MilestoneRow) :
    List Connection → Prop
  | .heard :: .heard :: connections => Completes tradeId milestones connections ∨
      before.Perm (rowsOf tradeId (landed tradeId [] milestones connections))
  | .heard :: .unheard :: _ => before = []
  | _ => True

/-! ## The loop -/

section Loop

variable {tradeId : String} {taken : List Nat} {milestones : List MilestoneBody}
  {connections : List Connection}

/-- All milestones are stored, beside some whose indices are taken, and that is heard. -/
def Stores (tradeId : String) : List Nat → List MilestoneBody → List Connection → Prop
  | _, [], _ => True
  | _, _ :: _, [] => False
  | taken, m :: rest, connection :: connections =>
    m.milestoneIndex ∉ taken ∧ (m.row tradeId).fits = true ∧ connection = .heard ∧
      Stores tradeId (m.milestoneIndex :: taken) rest connections

theorem stores_iff : Stores tradeId taken milestones connections ↔
    (∀ m ∈ milestones, m.milestoneIndex ∉ taken) ∧
      (milestones.map fun m => m.milestoneIndex).Nodup ∧
      (∀ m ∈ milestones, (m.row tradeId).fits = true) ∧ milestones.length ≤ connections.length ∧
      ∀ connection ∈ connections.take milestones.length, connection = .heard := by
  induction milestones generalizing taken connections with
  | nil => simp [Stores]
  | cons m rest ih =>
    cases connections with
    | nil => simp [Stores]
    | cons connection connections =>
      have hapart : (∀ m' ∈ rest, m'.milestoneIndex ∉ m.milestoneIndex :: taken) ↔
          (∀ m' ∈ rest, m'.milestoneIndex ≠ m.milestoneIndex) ∧
            ∀ m' ∈ rest, m'.milestoneIndex ∉ taken := by
        simp only [List.mem_cons, not_or]
        exact ⟨fun h => ⟨fun m' hm' => (h m' hm').1, fun m' hm' => (h m' hm').2⟩,
          fun h m' hm' => ⟨h.1 m' hm', h.2 m' hm'⟩⟩
      have hfresh : (∀ m' ∈ rest, m'.milestoneIndex ≠ m.milestoneIndex) ↔
          m.milestoneIndex ∉ rest.map fun m => m.milestoneIndex := by
        simp [List.mem_map]
      simp only [Stores, ih, List.forall_mem_cons, List.map_cons, List.nodup_cons,
        List.length_cons, List.take_succ_cons, Nat.add_le_add_iff_right, hapart, hfresh]
      tauto

theorem completes_iff : Completes tradeId milestones connections ↔
    Stores tradeId [] milestones connections ∧ milestones.length < connections.length := by
  rw [Completes, stores_iff]
  constructor
  · rintro ⟨hapart, hfit, hlong, hheard⟩
    exact ⟨⟨fun _ _ => List.not_mem_nil, hapart, hfit, hlong.le, hheard⟩, hlong⟩
  · rintro ⟨⟨-, hapart, hfit, -, hheard⟩, hlong⟩
    exact ⟨hapart, hfit, hlong, hheard⟩

theorem landed_nil : landed tradeId taken milestones [] = [] := by cases milestones <;> rfl

theorem landed_cons {m : MilestoneBody} {rest : List MilestoneBody} {connection : Connection} :
    landed tradeId taken (m :: rest) (connection :: connections) =
      if taken.contains m.milestoneIndex || ¬ (m.row tradeId).fits then []
      else
        match connection with
        | .down => []
        | .unheard => [m]
        | .heard => m :: landed tradeId (m.milestoneIndex :: taken) rest connections := rfl

theorem landed_of_stores (h : Stores tradeId taken milestones connections) :
    landed tradeId taken milestones connections = milestones := by
  induction milestones generalizing taken connections with
  | nil => simp [landed]
  | cons m rest ih =>
    cases connections with
    | nil => exact h.elim
    | cons connection connections =>
      obtain ⟨hfree, hfits, rfl, hrest⟩ := h
      simp [landed, hfree, hfits, ih hrest]

/-- The trade is there, and these are the indices of its milestones. -/
structure Holding (tradeId : String) (taken : List Nat) (s : EscrowStore) : Prop where
  known : (s.payouts.trades.any fun trade => trade.tradeId = tradeId) = true
  indices : ∀ milestoneIndex, (∃ other ∈ s.rows,
    other.tradeId = tradeId ∧ other.milestoneIndex = milestoneIndex) ↔ milestoneIndex ∈ taken

/-- The table with more rows. -/
def EscrowStore.append (s : EscrowStore) (rows : List MilestoneRow) : EscrowStore :=
  { s with rows := s.rows ++ rows }

variable {s : EscrowStore} {row : MilestoneRow}

theorem Holding.createMilestone (h : Holding row.tradeId taken s)
    (free : row.milestoneIndex ∉ taken) (fits : row.fits = true) :
    s.createMilestone row = .ok (row, s.append [row]) := by
  have hknown := h.known
  have hfresh := mt (h.indices row.milestoneIndex).1 free
  rw [EscrowStore.createMilestone, if_neg (by simp [fits]), if_neg, if_neg]
  · rfl
  · simpa using hknown
  · simpa using hfresh

theorem Holding.createMilestone_error (h : Holding row.tradeId taken s)
    (blocked : row.milestoneIndex ∈ taken ∨ row.fits = false) :
    ∃ fault, s.createMilestone row = .error fault := by
  rw [EscrowStore.createMilestone]
  split
  · exact ⟨_, rfl⟩
  · next hfits =>
    have hin : row.milestoneIndex ∈ taken := blocked.resolve_right (by simpa using hfits)
    have htaken := (h.indices row.milestoneIndex).2 hin
    rw [if_pos (by simpa using htaken)]
    exact ⟨_, rfl⟩

theorem Holding.append (h : Holding row.tradeId taken s) :
    Holding row.tradeId (row.milestoneIndex :: taken) (s.append [row]) where
  known := h.known
  indices milestoneIndex := by
    rw [List.mem_cons, ← h.indices]
    simp [EscrowStore.append, or_and_right, exists_or, or_comm, eq_comm]

@[simp] theorem EscrowStore.append_nil (s : EscrowStore) : s.append [] = s := by
  simp [EscrowStore.append]

theorem EscrowStore.append_append (s : EscrowStore) (rows rows' : List MilestoneRow) :
    (s.append rows).append rows' = s.append (rows ++ rows') := by
  simp [EscrowStore.append]

/-- What was started has stopped at `s`, without a result. -/
def StopsAt {α : Type} (outcome : Option (Except Fault α) × EscrowStore) (s : EscrowStore) : Prop :=
  outcome.2 = s ∧ ∀ a, outcome.1 ≠ some (.ok a)

/-- The loop stores all milestones and the request goes on, or it stops. -/
theorem alone_createMilestones (hash : String → String) {i : Nat} {α : Type}
    {f : List MilestoneRow → ScheduleJob α} (milestones : List MilestoneBody) {taken : List Nat}
    (created : List MilestoneRow) (inputs : List PayoutInput) (h : Holding tradeId taken s) :
    (Stores tradeId taken milestones (inputs.map PayoutInput.connection) ∧
      Job.alone (serveEscrow hash i) (createMilestones tradeId milestones created >>= f).run inputs s =
        Job.alone (serveEscrow hash i) (f (created ++ rowsOf tradeId milestones)).run
          (inputs.drop milestones.length) (s.append (rowsOf tradeId milestones))) ∨
    (¬ Stores tradeId taken milestones (inputs.map PayoutInput.connection) ∧
      StopsAt
        (Job.alone (serveEscrow hash i) (createMilestones tradeId milestones created >>= f).run inputs s)
        (s.append (rowsOf tradeId
          (landed tradeId taken milestones (inputs.map PayoutInput.connection))))) := by
  induction milestones generalizing taken created inputs s with
  | nil =>
    refine .inl ⟨trivial, ?_⟩
    rw [rowsOf_nil, List.append_nil, EscrowStore.append_nil]
    rfl
  | cons m rest ih =>
    have hloop : (createMilestones tradeId (m :: rest) created >>= f) =
        (EscrowOp.createMilestone (m.row tradeId)).ask >>= fun record =>
          createMilestones tradeId rest (created ++ [record]) >>= f := ask_bind_bind
    rw [hloop]
    cases inputs with
    | nil => exact .inr ⟨id, by rw [List.map_nil, landed_nil]; exact s.append_nil.symm, nofun⟩
    | cons given inputs =>
      rw [alone_escrow_cons, serveEscrow, List.map_cons, landed_cons]
      by_cases hblocked : m.milestoneIndex ∈ taken ∨ (m.row tradeId).fits = false
      · obtain ⟨fault, hfault⟩ := @Holding.createMilestone_error _ _ (m.row tradeId) h hblocked
        rw [hfault, if_pos (by simpa using hblocked)]
        exact .inr ⟨fun hs => hblocked.elim hs.1 (by simp [hs.2.1]), s.append_nil.symm, nofun⟩
      obtain ⟨hfree, hfits⟩ := not_or.1 hblocked
      rw [Bool.not_eq_false] at hfits
      rw [@Holding.createMilestone _ _ (m.row tradeId) h hfree hfits,
        if_neg (by simpa using hblocked), Stores]
      cases given.connection with
      | down => exact .inr ⟨fun hs => (nomatch hs.2.2.1), s.append_nil.symm, nofun⟩
      | unheard => exact .inr ⟨fun hs => (nomatch hs.2.2.1), rfl, nofun⟩
      | heard =>
        have hrest := ih (created ++ [m.row tradeId]) inputs (@Holding.append _ _ (m.row tradeId) h)
        rw [EscrowStore.append_append, EscrowStore.append_append, List.append_assoc] at hrest
        refine hrest.imp (fun hall => ⟨⟨hfree, hfits, rfl, hall.1⟩, hall.2⟩)
          fun hstops => ⟨fun hs => hstops.1 hs.2.2.2, hstops.2⟩

end Loop

/-! ## The whole request -/

section Request

variable {request : ScheduleRequest} {config : PayoutConfig} {s : EscrowStore} {tradeId : String}
  {outcome : Option (Except Fault ScheduleResponse) × EscrowStore}

/-- The table without the milestones of a trade, and with others. -/
theorem stored_append_delete (s : EscrowStore) (tradeId other : String)
    (milestones : List MilestoneBody) :
    ((s.deleteMilestones tradeId).2.append (rowsOf tradeId milestones)).stored other =
      if other = tradeId then rowsOf tradeId milestones else s.stored other := by
  have hadded : (rowsOf tradeId milestones).filter (fun row => row.tradeId = other) =
      if other = tradeId then rowsOf tradeId milestones else [] := by
    split
    · next hsame => exact List.filter_eq_self.2 (by simp [rowsOf, hsame])
    · next hother => exact List.filter_eq_nil_iff.2 (by simp [rowsOf, Ne.symm hother])
  have hkept : (s.rows.filter fun row => row.tradeId ≠ tradeId).filter
      (fun row => row.tradeId = other) = if other = tradeId then [] else s.stored other := by
    rw [List.filter_filter]
    split
    · next hsame => exact List.filter_eq_nil_iff.2 (by simp [hsame])
    · next hother =>
      apply List.filter_congr
      simp only [ne_eq, decide_not, Bool.and_eq_left_iff_imp, decide_eq_true_eq]
      rintro row - rfl
      simpa using hother
  show List.filter _ (_ ++ _) = _
  rw [List.filter_append, hadded]
  show (s.rows.filter fun row => row.tradeId ≠ tradeId).filter _ ++ _ = _
  rw [hkept]
  split <;> simp

theorem allOrNothing_of_rows (failed : ∀ tradeId, ¬ Created outcome tradeId)
    (same : outcome.2.rows = s.rows) : AllOrNothing request s outcome where
  all tradeId created := absurd created (failed tradeId)
  nothing _ tradeId := by rw [EscrowStore.stored, same]; rfl

theorem allOrNothing_iff_of_failed (tradeId : String) (failed : ∀ tradeId, ¬ Created outcome tradeId)
    (others : ∀ other, other ≠ tradeId → outcome.2.stored other = s.stored other) :
    AllOrNothing request s outcome ↔ (outcome.2.stored tradeId).Perm (s.stored tradeId) := by
  refine ⟨fun h => h.nothing failed tradeId, fun h => ⟨fun other created => absurd created (failed other),
    fun _ other => ?_⟩⟩
  by_cases hsame : other = tradeId
  · rw [hsame]
    exact h
  · rw [others other hsame]

theorem allOrNothing_of_created (tradeId : String) (created : Created outcome tradeId)
    (stored : outcome.2.stored tradeId = rowsOf tradeId request.body.milestones) :
    AllOrNothing request s outcome where
  all other hother := by
    obtain ⟨_, _, _, hout⟩ := created
    obtain ⟨_, _, _, hout'⟩ := hother
    obtain rfl : tradeId = other := by
      rw [hout] at hout'
      cases hout'
      rfl
    rw [stored]
  nothing failed := absurd created (failed tradeId)

theorem StopsAt.failed {s : EscrowStore} (h : StopsAt outcome s) (tradeId : String) :
    ¬ Created outcome tradeId := fun ⟨_, _, _, created⟩ => h.2 _ created

/-- The store with what was read from it. -/
def EscrowStore.seen (s : EscrowStore) : EscrowStore := { s with payouts := s.tables }

theorem serveEscrow_findTrade (hash : String → String) (i : Nat) (tradeId : String)
    (id : Option Nat) (given : PayoutInput) (s : EscrowStore) :
    serveEscrow hash i (.payout (.findTrade tradeId id)) given s =
      (if given.connection = .heard then
        .ok (s.payouts.trades.find? fun t => t.tradeId = tradeId || some t.id = id)
      else .error .lost, s.seen) := by
  rw [serveEscrow, answer]
  cases given.connection <;> rfl

/-- A request whose trade is found goes on to replace the milestones, or changes nothing. -/
theorem handled_cases (request : ScheduleRequest) (config : PayoutConfig)
    (inputs : List PayoutInput) (s : EscrowStore) :
    (∃ trade given rest, request.admitted config s = some trade ∧ inputs = given :: rest ∧
      given.connection = .heard ∧ trade ∈ s.payouts.trades ∧
      request.handled config inputs s = Job.alone (serveEscrow config.hash 0)
        (replaceMilestones trade.tradeId request.body.milestones).run rest s.seen) ∨
    ((∀ trade given rest, request.admitted config s = some trade → inputs = given :: rest →
        given.connection ≠ .heard) ∧
      (request.handled config inputs s).2.rows = s.rows ∧
      ∀ tradeId, ¬ Created (request.handled config inputs s) tradeId) := by
  unfold ScheduleRequest.handled ScheduleRequest.admitted postSchedule
  cases trimmed request.walletAddress with
  | none =>
    refine .inr ⟨fun trade given rest h => (by cases h), rfl, ?_⟩
    rintro tradeId ⟨_, _, _, h⟩
    cases h
  | some walletAddress =>
    cases inputs with
    | nil =>
      refine .inr ⟨fun trade given rest _ h => (by cases h), rfl, ?_⟩
      rintro tradeId ⟨_, _, _, h⟩
      cases h
    | cons given rest =>
      dsimp only
      rw [alone_escrow_cons, serveEscrow_findTrade]
      by_cases hheard : given.connection = .heard
      · rw [if_pos hheard]
        dsimp only
        cases hfound : s.payouts.trades.find? fun t =>
            t.tradeId = request.id || some t.id = config.toNumber request.id with
        | none =>
          exact .inr ⟨fun _ _ _ h => by simp at h, rfl, fun _ ⟨_, _, _, h⟩ => nomatch h⟩
        | some trade =>
          dsimp only
          by_cases hstatus : trade.status ≠ .created ∧ trade.status ≠ .funded
          · rw [if_pos hstatus]
            refine .inr ⟨fun _ _ _ h => ?_, rfl, fun _ ⟨_, _, _, h⟩ => nomatch h⟩
            simp [Option.filter, hstatus.1, hstatus.2] at h
          rw [if_neg hstatus]
          by_cases hparty : isBuyerOrSeller trade walletAddress = true
          · rw [if_neg (not_not.2 hparty)]
            refine .inl ⟨trade, given, rest, ?_, rfl, hheard, List.mem_of_find?_eq_some hfound, rfl⟩
            rw [not_and_or, not_not, not_not] at hstatus
            simpa [hfound, Option.filter, hparty, or_iff_not_imp_left] using hstatus
          · rw [if_pos hparty]
            refine .inr ⟨fun _ _ _ h => ?_, rfl, fun _ ⟨_, _, _, h⟩ => nomatch h⟩
            simp [Option.filter, hparty] at h
      · rw [if_neg hheard]
        refine .inr ⟨fun _ _ _ _ hsame => ?_, rfl, fun _ ⟨_, _, _, h⟩ => nomatch h⟩
        cases hsame
        exact hheard

theorem holding_delete {trade : ReleaseTrade} (known : trade ∈ s.payouts.trades) :
    Holding trade.tradeId [] (s.deleteMilestones trade.tradeId).2 where
  known := List.any_eq_true.2 ⟨trade, known, by simp⟩
  indices milestoneIndex := by
    simp only [EscrowStore.deleteMilestones, List.mem_filter, List.not_mem_nil, iff_false]
    rintro ⟨other, ⟨-, hkept⟩, hsame, -⟩
    simp [hsame] at hkept

/-- What replacing the milestones does. -/
theorem replaced_iff {trade : ReleaseTrade} (known : trade ∈ s.payouts.trades) (hash : String → String)
    (inputs : List PayoutInput) :
    AllOrNothing request s (Job.alone (serveEscrow hash 0)
        (replaceMilestones trade.tradeId request.body.milestones).run inputs s.seen) ↔
      Replaces trade.tradeId request.body.milestones (s.stored trade.tradeId)
        (.heard :: inputs.map PayoutInput.connection) := by
  have hstored (milestones : List MilestoneBody) (other : String) :
      ((s.seen.deleteMilestones trade.tradeId).2.append
        (rowsOf trade.tradeId milestones)).stored other =
        if other = trade.tradeId then rowsOf trade.tradeId milestones else s.stored other :=
    stored_append_delete s.seen trade.tradeId other milestones
  have hstops {outcome : Option (Except Fault ScheduleResponse) × EscrowStore}
      {milestones : List MilestoneBody} (stops : StopsAt outcome
        ((s.seen.deleteMilestones trade.tradeId).2.append (rowsOf trade.tradeId milestones))) :
      AllOrNothing request s outcome ↔
        (s.stored trade.tradeId).Perm (rowsOf trade.tradeId milestones) := by
    rw [allOrNothing_iff_of_failed trade.tradeId stops.failed, stops.1, hstored,
      if_pos rfl, List.perm_comm]
    intro other hother
    rw [stops.1, hstored, if_neg hother]
  unfold replaceMilestones
  cases inputs with
  | nil => exact iff_of_true (allOrNothing_of_rows (fun _ ⟨_, _, _, h⟩ => nomatch h) rfl) trivial
  | cons given rest =>
    rw [alone_escrow_cons, serveEscrow, List.map_cons]
    cases given.connection with
    | down => exact iff_of_true (allOrNothing_of_rows (fun _ ⟨_, _, _, h⟩ => nomatch h) rfl) trivial
    | unheard =>
      show _ ↔ s.stored trade.tradeId = []
      rw [← List.perm_nil]
      exact @hstops _ [] ⟨(EscrowStore.append_nil _).symm, nofun⟩
    | heard =>
      show AllOrNothing request s (Job.alone (serveEscrow hash 0) (createMilestones trade.tradeId
        request.body.milestones [] >>= fun created => (EscrowOp.payout .now).ask >>= fun now =>
          return respondCreated trade.tradeId created now).run rest
            (s.seen.deleteMilestones trade.tradeId).2) ↔ Completes .. ∨ _
      rw [completes_iff]
      obtain ⟨hall, hgoes⟩ | ⟨hnot, hstopped⟩ := alone_createMilestones hash (i := 0)
          (f := fun created => (EscrowOp.payout .now).ask >>= fun now =>
            return respondCreated trade.tradeId created now)
          request.body.milestones [] rest (holding_delete (s := s.seen) known)
      · rw [hgoes]
        cases hleft : rest.drop request.body.milestones.length with
        | nil =>
          have hshort := List.drop_eq_nil_iff.1 hleft
          rw [landed_of_stores hall, or_iff_right fun h => by simp at h; omega]
          exact hstops ⟨rfl, nofun⟩
        | cons given' rest' =>
          have hlong : request.body.milestones.length < rest.length := by
            by_contra hge
            rw [List.drop_eq_nil_of_le (Nat.le_of_not_lt hge)] at hleft
            cases hleft
          refine iff_of_true (allOrNothing_of_created trade.tradeId ⟨_, _, _, rfl⟩ ?_)
            (.inl ⟨hall, by simpa using hlong⟩)
          exact (hstored _ _).trans (if_pos rfl)
      · rw [or_iff_right fun h => hnot h.1]
        exact hstops hstopped

end Request

/-- Setting the schedule of a trade is all or nothing exactly if the milestones that are stored are
not deleted, or the request completes, or those that are stored when it fails are the same again. -/
theorem schedule_replaced_iff (config : PayoutConfig) (request : ScheduleRequest) (s : EscrowStore)
    (inputs : List PayoutInput) :
    AllOrNothing request s (request.handled config inputs s) ↔
      ∀ trade, request.admitted config s = some trade →
        Replaces trade.tradeId request.body.milestones (s.stored trade.tradeId)
          (inputs.map PayoutInput.connection) := by
  obtain ⟨trade, given, rest, hadmitted, rfl, hheard, hknown, hhandled⟩ |
    ⟨hnot, hrows, hfailed⟩ := handled_cases request config inputs s
  · rw [hhandled, replaced_iff hknown, List.map_cons, hheard]
    constructor
    · intro h other hother
      cases hadmitted.symm.trans hother
      exact h
    · intro h
      exact h trade hadmitted
  · refine iff_of_true (allOrNothing_of_rows hfailed hrows) fun trade hadmitted => ?_
    cases inputs with
    | nil => trivial
    | cons given rest =>
      have hlost := hnot trade given rest hadmitted rfl
      rw [List.map_cons]
      cases hc : given.connection with
      | heard => exact absurd hc hlost
      | unheard | down => trivial

namespace Sample

/-- A trade with one milestone, of 100. -/
def scheduled : EscrowStore :=
  ⟨unpaid, [⟨⟨"7", 0, "100", 0, none⟩, none⟩]⟩

/-- The buyer asks for two milestones of 50, with one index. -/
def repeatedIndex : ScheduleRequest :=
  ⟨"7", some "gbuyer", ⟨[⟨0, "50", 0, none⟩, ⟨0, "50", 0, none⟩], by decide +kernel⟩⟩

end Sample

/-- The request fails, and the milestone of 100 is gone. -/
theorem not_allOrNothing :
    ¬ AllOrNothing Sample.repeatedIndex Sample.scheduled
      (Sample.repeatedIndex.handled Sample.payoutConfig (List.replicate 5 Sample.reached)
        Sample.scheduled) := by
  intro h
  have hfails : (Sample.repeatedIndex.handled Sample.payoutConfig
      (List.replicate 5 Sample.reached) Sample.scheduled).1 = some (.error .unique) := by
    decide +kernel
  refine absurd (h.nothing ?_ "7") (by decide +kernel)
  rintro tradeId ⟨_, _, _, hcreated⟩
  rw [hfails] at hcreated
  cases hcreated

end Amana.Backend
