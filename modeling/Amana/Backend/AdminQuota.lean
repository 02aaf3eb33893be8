import Mathlib
import Amana.Backend.AuthStore
import Amana.Lib.FixedWindow
import Amana.Lib.Text

/-!
# Quotas of admin operations

`createAdminQuotaMiddleware` counts the requests of each admin for each operation in windows of a
fixed width, in a map whose keys are texts.  Different operations and different admins have different
keys (`AdminKey.text_inj`), so that at each key the map is a counter of its own (`store_run`), and
what holds of such counters holds of the quotas (`quota_run`).
-/

namespace Amana.Backend.AdminQuota

open Lib Lib.Machine Lib.FixedWindow

/-- The operations with a quota. -/
inductive AdminOperation where
  | treasuryWithdraw
  | tradeBatchStatus
  deriving DecidableEq

/-- The name that a route gives its operation. -/
def AdminOperation.name : AdminOperation → String
  | treasuryWithdraw => "treasury.withdraw"
  | tradeBatchStatus => "admin.trades.batch.status"

structure AdminQuotaPreset where
  windowMs : Nat
  max : Nat
  message : String

/-- The settings of the environment, which its schema makes positive. -/
structure QuotaEnv where
  clawbackWindowMs : Nat
  clawbackMax : Nat
  tradeBatchWindowMs : Nat
  tradeBatchMax : Nat
  positive : 0 < clawbackWindowMs ∧ 0 < clawbackMax ∧ 0 < tradeBatchWindowMs ∧ 0 < tradeBatchMax

/-- `ADMIN_QUOTA_CONFIG`. -/
def adminQuotaConfig (env : QuotaEnv) : AdminOperation → AdminQuotaPreset
  | .treasuryWithdraw => ⟨env.clawbackWindowMs, env.clawbackMax,
      "Treasury withdrawal (clawback) quota exceeded for this admin, try again later."⟩
  | .tradeBatchStatus => ⟨env.tradeBatchWindowMs, env.tradeBatchMax,
      "Batch trade status update quota exceeded for this admin, try again later."⟩

/-- What the middleware reads of a request.  A header that is sent more than once is a list. -/
structure AdminRequest where
  apiKey : Option (String ⊕ List String)
  walletAddress : Option String
  path : String
  deriving DecidableEq

/-- The part of `resolveAdminIdentity` for requests without an API key. -/
def resolveWallet (req : AdminRequest) : String :=
  match req.walletAddress.map Text.trim with
  | some walletAddress => if walletAddress ≠ "" then "wallet:" ++ walletAddress else "unknown"
  | none => "unknown"

def resolveAdminIdentity (req : AdminRequest) : String :=
  match req.apiKey with
  | some (.inl apiKey) =>
    if Text.trim apiKey ≠ "" then "apikey:" ++ Text.trim apiKey else resolveWallet req
  | _ => resolveWallet req

structure QuotaWindow where
  count : Nat
  resetAt : Nat
  deriving DecidableEq

/-- `quotaStore`. -/
abbrev QuotaStore := String → Option QuotaWindow

structure QuotaExceeded where
  code : String
  message : String
  operation : String
  limit : Nat
  windowMs : Nat
  retryAfterSeconds : Nat
  path : String
  deriving DecidableEq

inductive QuotaAnswer where
  | next
  /-- Status 429, with the header `Retry-After`. -/
  | tooMany (retryAfter : String) (body : QuotaExceeded)
  deriving DecidableEq

/-- A request that reaches the middleware of an operation, and the clock there. -/
structure Arrival where
  operation : AdminOperation
  request : AdminRequest
  now : Nat
  deriving DecidableEq

/-- The window that a request counts in: a new one, when there is none or it is over. -/
def currentWindow (preset : AdminQuotaPreset) (now : Nat) : Option QuotaWindow → QuotaWindow
  | some window => if window.resetAt ≤ now then ⟨0, now + preset.windowMs⟩ else window
  | none => ⟨0, now + preset.windowMs⟩

section

variable (env : QuotaEnv)

/-- The handler that `createAdminQuotaMiddleware` makes. -/
def quotaMiddleware (store : QuotaStore) (a : Arrival) : QuotaStore × QuotaAnswer :=
  let preset := adminQuotaConfig env a.operation
  let key := a.operation.name ++ ":" ++ resolveAdminIdentity a.request
  let current := currentWindow preset a.now (store key)
  let window : QuotaWindow := { current with count := current.count + 1 }
  let store := Function.update store key (some window)
  if window.count > preset.max then
    -- The difference is cut off at zero, as `Math.max` does.
    let retryAfterSeconds := (window.resetAt - a.now + 999) / 1000
    (store, .tooMany (toString retryAfterSeconds)
      ⟨"ADMIN_QUOTA_EXCEEDED", preset.message, a.operation.name, preset.max, preset.windowMs,
        retryAfterSeconds, a.request.path⟩)
  else (store, .next)

def quotaStep (store : QuotaStore) (a : Arrival) : QuotaStore := (quotaMiddleware env store a).1

/-- The store of a process that has served requests. -/
def storeAfter (as : List Arrival) : QuotaStore := run (quotaStep env) (fun _ => none) as

/-- What a request is answered after others. -/
def answerAfter (as : List Arrival) (a : Arrival) : QuotaAnswer :=
  (quotaMiddleware env (storeAfter env as) a).2

/-- The requests that are passed on. -/
def passed (as : List Arrival) : List Arrival :=
  ((trail (quotaStep env) (fun _ => none) as).filter fun p =>
    (quotaMiddleware env p.1 p.2).2 = .next).map Prod.snd

end

/-! ## Whom a request counts for -/

/-- Whom a request counts for. -/
inductive AdminIdentity where
  | apiKey (key : String)
  | wallet (address : String)
  | unknown
  deriving DecidableEq

def AdminIdentity.text : AdminIdentity → String
  | apiKey key => "apikey:" ++ key
  | wallet address => "wallet:" ++ address
  | unknown => "unknown"

/-- An API key comes before a wallet, and blank ones do not count. -/
def AdminRequest.identity (req : AdminRequest) : AdminIdentity :=
  let wallet := (req.walletAddress.map Text.trim).filter fun walletAddress => walletAddress ≠ ""
  let apiKey := ((req.apiKey.bind Sum.getLeft?).map Text.trim).filter fun apiKey => apiKey ≠ ""
  match apiKey, wallet with
  | some key, _ => .apiKey key
  | none, some address => .wallet address
  | none, none => .unknown

/-- The counter of an admin for an operation. -/
structure AdminKey where
  operation : AdminOperation
  identity : AdminIdentity
  deriving DecidableEq

def AdminKey.text (k : AdminKey) : String := k.operation.name ++ ":" ++ k.identity.text

def Arrival.key (a : Arrival) : AdminKey := ⟨a.operation, a.request.identity⟩

/-- The requests that count together, in a list of requests. -/
def countedAt (k : AdminKey) (as : List Arrival) : List Arrival := as.filter fun a => a.key = k

variable {env : QuotaEnv} {k : AdminKey} {a : Arrival} {as : List Arrival} {store : QuotaStore}

theorem resolveAdminIdentity_eq (req : AdminRequest) :
    resolveAdminIdentity req = req.identity.text := by
  have hwallet : ∀ apiKey : Option (String ⊕ List String),
      ((apiKey.bind Sum.getLeft?).map Text.trim).filter (fun key => key ≠ "") = none →
        resolveWallet req = (AdminRequest.identity { req with apiKey := apiKey }).text := by
    intro apiKey hnone
    simp only [AdminRequest.identity, hnone, resolveWallet]
    cases req.walletAddress with
    | none => rfl
    | some address =>
      by_cases h : Text.trim address = "" <;> simp [h, Option.filter, AdminIdentity.text]
  rw [resolveAdminIdentity]
  split
  · next key hkey =>
    split
    · next h => simp [AdminRequest.identity, hkey, Option.filter, h, AdminIdentity.text]
    · next h =>
      rw [hwallet (some (.inl key)) (by simp [Option.filter, not_not.1 h]), ← hkey]
  · next hother =>
    rw [hwallet req.apiKey]
    cases hkey : req.apiKey with
    | none => rfl
    | some header =>
      cases header with
      | inl key => exact absurd hkey (hother key)
      | inr keys => rfl

theorem AdminIdentity.text_inj {i j : AdminIdentity} : i.text = j.text ↔ i = j := by
  have hhead : ∀ s t : String, "apikey:" ++ s ≠ "wallet:" ++ t := fun s t =>
    ne_of_head rfl rfl (by decide)
  have hunknown : ∀ s : String, "unknown" ≠ "apikey:" ++ s := fun s =>
    ne_of_head (p := "unknown") (a := "") rfl rfl (by decide)
  have hwallet : ∀ s : String, "unknown" ≠ "wallet:" ++ s := fun s =>
    ne_of_head (p := "unknown") (a := "") rfl rfl (by decide)
  refine ⟨fun h => ?_, fun h => h ▸ rfl⟩
  cases i <;> cases j <;> simp_all [text, Ne.symm]

/-- Different counters have different keys. -/
theorem AdminKey.text_inj {k l : AdminKey} : k.text = l.text ↔ k = l := by
  have hnames : ∀ s t : String, AdminOperation.treasuryWithdraw.name ++ s ≠
      AdminOperation.tradeBatchStatus.name ++ t := fun s t => ne_of_head rfl rfl (by decide)
  refine ⟨fun h => ?_, fun h => h ▸ rfl⟩
  obtain ⟨op, i⟩ := k
  obtain ⟨op', j⟩ := l
  simp only [text, String.append_assoc] at h
  have hop : op = op' := by
    cases op <;> cases op' <;> first | rfl | exact absurd h (hnames _ _) |
      exact absurd h.symm (hnames _ _)
  subst hop
  rw [String.append_right_inj, String.append_right_inj, AdminIdentity.text_inj] at h
  rw [h]

/-! ## The counters -/

/-- The width of the windows of a counter. -/
def AdminKey.width (env : QuotaEnv) (k : AdminKey) : Nat :=
  (adminQuotaConfig env k.operation).windowMs

def AdminKey.limit (env : QuotaEnv) (k : AdminKey) : Nat := (adminQuotaConfig env k.operation).max

theorem AdminKey.width_pos : 0 < k.width env := by
  obtain ⟨hclawback, -, hbatch, -⟩ := env.positive
  rcases k with ⟨_ | _, i⟩
  · exact hclawback
  · exact hbatch

theorem AdminKey.limit_pos : 0 < k.limit env := by
  obtain ⟨-, hclawback, -, hbatch⟩ := env.positive
  rcases k with ⟨_ | _, i⟩
  · exact hclawback
  · exact hbatch

/-- A window as the map has it, which keeps its end instead of its start. -/
def ofWindow (width : Nat) (v : Window) : QuotaWindow := ⟨v.count, v.start + width⟩

theorem currentWindow_eq (preset : AdminQuotaPreset) (now : Nat) (w : Option Window) :
    currentWindow preset now (w.map (ofWindow preset.windowMs)) =
      ofWindow preset.windowMs (windowAt preset.windowMs now w) := by
  cases w with
  | none => rfl
  | some v =>
    simp only [Option.map_some, currentWindow, windowAt, ofWindow]
    split <;> rfl

/-- The seconds that a request which is turned away is told to wait. -/
def retryAfter (width : Nat) (w : Option Window) (now : Nat) : Nat :=
  ((windowAt width now w).start + width - now + 999) / 1000

/-- The middleware counts a request, and passes it on within the limit. -/
theorem quotaMiddleware_eq (w : Option Window)
    (h : store a.key.text = w.map (ofWindow (a.key.width env))) :
    quotaMiddleware env store a =
      (Function.update store a.key.text
          ((hit (a.key.width env) w a.now).map (ofWindow (a.key.width env))),
        if admits (a.key.width env) (a.key.limit env) w a.now then .next
        else .tooMany (toString (retryAfter (a.key.width env) w a.now))
          ⟨"ADMIN_QUOTA_EXCEEDED", (adminQuotaConfig env a.operation).message, a.operation.name,
            a.key.limit env, a.key.width env, retryAfter (a.key.width env) w a.now,
            a.request.path⟩) := by
  have hkey : a.operation.name ++ ":" ++ resolveAdminIdentity a.request = a.key.text := by
    rw [resolveAdminIdentity_eq]
    rfl
  have hcurrent : currentWindow (adminQuotaConfig env a.operation) a.now (store a.key.text) =
      ofWindow (a.key.width env) (windowAt (a.key.width env) a.now w) := by
    rw [h]
    exact currentWindow_eq ..
  simp only [quotaMiddleware, hkey, hcurrent, admits, decide_eq_true_eq, ofWindow]
  by_cases hle : (windowAt (a.key.width env) a.now w).count + 1 ≤ a.key.limit env
  · have hfew : ¬ (windowAt (a.key.width env) a.now w).count + 1 >
        (adminQuotaConfig env a.operation).max := not_lt.2 hle
    rw [if_neg hfew, if_pos hle]
    rfl
  · have hmany : (windowAt (a.key.width env) a.now w).count + 1 >
        (adminQuotaConfig env a.operation).max := not_le.1 hle
    rw [if_pos hmany, if_neg hle]
    rfl

/-- The times of the requests that count together. -/
def timesAt (k : AdminKey) (as : List Arrival) : List Nat := (countedAt k as).map Arrival.now

theorem timesAt_snoc : timesAt k (as ++ [a]) =
    timesAt k as ++ if a.key = k then [a.now] else [] := by
  by_cases h : a.key = k <;> simp [timesAt, countedAt, h]

/-- At each key, the map has the window of the requests that count there. -/
theorem store_run (k : AdminKey) (as : List Arrival) : storeAfter env as k.text =
    (run (hit (k.width env)) none (timesAt k as)).map (ofWindow (k.width env)) := by
  induction as using List.reverseRecOn generalizing k with
  | nil => rfl
  | append_singleton as a ih =>
    rw [storeAfter, run_snoc, ← storeAfter, quotaStep, quotaMiddleware_eq _ (ih a.key),
      timesAt_snoc]
    dsimp only
    by_cases h : a.key = k
    · subst h
      rw [Function.update_self, if_pos rfl, run_snoc]
    · have hne : k.text ≠ a.key.text := fun heq => h (AdminKey.text_inj.1 heq).symm
      rw [Function.update_of_ne hne, if_neg h, List.append_nil]
      exact ih k

theorem answerAfter_eq : answerAfter env as a =
    if admits (a.key.width env) (a.key.limit env)
        (run (hit (a.key.width env)) none (timesAt a.key as)) a.now then .next
    else .tooMany
      (toString (retryAfter (a.key.width env) (run (hit (a.key.width env)) none (timesAt a.key as))
        a.now))
      ⟨"ADMIN_QUOTA_EXCEEDED", (adminQuotaConfig env a.operation).message, a.operation.name,
        a.key.limit env, a.key.width env,
        retryAfter (a.key.width env) (run (hit (a.key.width env)) none (timesAt a.key as)) a.now,
        a.request.path⟩ := by
  rw [answerAfter, quotaMiddleware_eq _ (store_run a.key as)]

theorem answerAfter_eq_next_iff : answerAfter env as a = .next ↔
    admits (a.key.width env) (a.key.limit env)
      (run (hit (a.key.width env)) none (timesAt a.key as)) a.now = true := by
  rw [answerAfter_eq]
  split <;> simp_all

theorem passed_snoc : passed env (as ++ [a]) =
    passed env as ++ if answerAfter env as a = .next then [a] else [] := by
  rw [passed, trail_snoc, List.filter_append, List.map_append, answerAfter, storeAfter]
  split <;> simp_all [passed]

/-- At each key, what is passed on is what a counter admits. -/
theorem timesAt_passed (k : AdminKey) (as : List Arrival) : timesAt k (passed env as) =
    admitted (k.width env) (k.limit env) (timesAt k as) := by
  induction as using List.reverseRecOn with
  | nil => rfl
  | append_singleton as a ih =>
    rw [passed_snoc, timesAt_snoc]
    by_cases h : a.key = k
    · subst h
      rw [if_pos rfl, admitted_snoc, ← ih]
      simp only [answerAfter_eq_next_iff]
      split
      · rw [timesAt_snoc, if_pos rfl]
      · simp
    · rw [if_neg h, List.append_nil, ← ih]
      split
      · rw [timesAt_snoc, if_neg h, List.append_nil]
      · rw [List.append_nil]

theorem passed_sublist (env : QuotaEnv) (as : List Arrival) : (passed env as).Sublist as := by
  induction as using List.reverseRecOn with
  | nil => exact List.Sublist.refl _
  | append_singleton as a ih =>
    rw [passed_snoc]
    split
    · exact ih.append (List.Sublist.refl _)
    · exact ih.append (List.nil_sublist _)

/-- The clock does not go back. -/
def InOrder (as : List Arrival) : Prop := as.Pairwise fun a b => a.now ≤ b.now

instance (as : List Arrival) : Decidable (InOrder as) :=
  inferInstanceAs (Decidable (List.Pairwise ..))

theorem InOrder.timesAt (h : InOrder as) (k : AdminKey) : (timesAt k as).Pairwise (· ≤ ·) :=
  List.pairwise_map.2 (h.filter _)

theorem countP_timesAt (k : AdminKey) (as : List Arrival) (p : Nat → Prop) [DecidablePred p] :
    (timesAt k as).countP (fun x => p x) = as.countP fun a => a.key = k ∧ p a.now := by
  rw [timesAt, List.countP_map, countedAt, List.countP_filter]
  exact List.countP_congr fun a _ => by simp [and_comm]

/-! ## The quotas -/

/-- The quotas over the requests that a process serves. -/
structure QuotasHold (env : QuotaEnv) (as : List Arrival) : Prop where
  /-- An admin gets at most twice the limit passed on in any interval of the width. -/
  bounded : ∀ k t, (passed env as).countP
    (fun a => a.key = k ∧ t ≤ a.now ∧ a.now < t + k.width env) ≤ 2 * k.limit env
  /-- Nobody is turned away who has not had as many requests as the limit passed on within the
  width. -/
  earned : ∀ bs a cs, as = bs ++ a :: cs → answerAfter env bs a ≠ .next →
    a.key.limit env ≤ (passed env bs).countP fun b =>
      b.key = a.key ∧ b.now ≤ a.now ∧ a.now < b.now + a.key.width env
  /-- Who then waits as long as told to is passed on. -/
  waited : ∀ bs a cs b ds header body, as = bs ++ a :: (cs ++ b :: ds) →
    answerAfter env bs a = .tooMany header body → b.key = a.key → (∀ c ∈ cs, c.key ≠ a.key) →
      a.now + 1000 * body.retryAfterSeconds ≤ b.now → answerAfter env (bs ++ a :: cs) b = .next
  /-- The requests of others, and those for another operation, make no difference. -/
  separate : ∀ bs a cs, as = bs ++ a :: cs →
    answerAfter env bs a = answerAfter env (countedAt a.key bs) a

/-- While the clock does not go back, the quotas hold. -/
theorem quota_run (env : QuotaEnv) (as : List Arrival) (ordered : InOrder as) :
    QuotasHold env as := by
  refine ⟨fun k t => ?_, ?_, ?_, ?_⟩
  · rw [← countP_timesAt k (passed env as) fun x => t ≤ x ∧ x < t + k.width env, timesAt_passed]
    exact admitted_le AdminKey.width_pos (ordered.timesAt k) t
  · rintro bs a cs rfl hrejected
    obtain ⟨hbefore, -, hle⟩ := List.pairwise_append.1 ordered
    have hcount := limit_le_of_not_admits AdminKey.width_pos
      (InOrder.timesAt hbefore a.key) (by simpa [answerAfter_eq_next_iff] using hrejected)
    rw [← timesAt_passed, countP_timesAt] at hcount
    refine hcount.trans (List.countP_mono_left fun b hb hin => ?_)
    have hearlier := hle b ((passed_sublist env bs).subset hb) a (List.mem_cons_self ..)
    simp only [decide_eq_true_eq] at hin ⊢
    exact ⟨hin.1, hearlier, hin.2⟩
  · rintro bs a cs b ds header body rfl hrejected hkey hothers hwaited
    have hnone : countedAt a.key cs = [] := List.filter_eq_nil_iff.2 (by simpa using hothers)
    have hquiet : timesAt a.key (bs ++ a :: cs) = timesAt a.key bs ++ [a.now] := by
      simpa [timesAt, countedAt] using hnone
    rw [answerAfter_eq_next_iff, hkey, hquiet, run_snoc]
    refine admits_of_over AdminKey.limit_pos fun v hv => ?_
    obtain rfl := Option.some.inj hv
    rw [answerAfter_eq] at hrejected
    split at hrejected
    · cases hrejected
    · obtain ⟨-, rfl⟩ := QuotaAnswer.tooMany.inj hrejected
      dsimp only [retryAfter] at hwaited ⊢
      omega
  · rintro bs a cs rfl
    rw [answerAfter_eq, answerAfter_eq]
    simp [timesAt, countedAt]

/-! ## A burst -/

def sampleEnv : QuotaEnv := ⟨1000, 1, 1000, 2, by decide⟩

/-- Two requests of an admin at once, and one a second later. -/
def burst : List Arrival :=
  [⟨.treasuryWithdraw, ⟨some (.inl " key "), none, "/withdraw"⟩, 5⟩,
    ⟨.treasuryWithdraw, ⟨some (.inl "key"), some "G", "/withdraw"⟩, 5⟩,
    ⟨.treasuryWithdraw, ⟨some (.inl "key"), none, "/withdraw"⟩, 1005⟩]

theorem quota_run_burst : InOrder burst ∧ QuotasHold sampleEnv burst :=
  ⟨by decide, quota_run sampleEnv burst (by decide)⟩

end Amana.Backend.AdminQuota
