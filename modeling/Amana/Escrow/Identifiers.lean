import Amana.Escrow.Records

/-!
# Trade identifiers

An identifier carries the running counter in its low 32 bits, so the first `2 ^ 32` trades never
meet (`noReissue_of_creations_le`).  Beyond that they can: see `run_creations`, which counts a
contract up to any identifier.
-/

namespace Amana.Escrow

open Lib

variable {env : Env} {s s' : State} {c : Call}

/-- Whether an action is a successful creation. -/
def Creates (s : State) : Action → Prop
  | .call env c => c.creates = true ∧ (invoke env s c).isOk = true
  | _ => False

instance (s : State) : (a : Action) → Decidable (Creates s a)
  | .call _ _ => inferInstanceAs (Decidable (_ ∧ _))
  | .transfer _ | .mint .. | .burn .. => inferInstanceAs (Decidable False)

/-- The number of successful creations in a run. -/
def creations (tokens : Token.Ledger Address) (actions : List Action) : Nat :=
  Machine.tally step (fun s a => if Creates s a then 1 else 0) (.deployed tokens) actions

/-! ## The counter in the low bits -/

/-- The low 32 bits of an identifier are those of the counter. -/
theorem tradeIdOf_mod (sequence n : Nat) : tradeIdOf sequence n % 2 ^ 32 = n % 2 ^ 32 := by
  have hshift : U64.shiftLeft sequence 32 % 2 ^ 32 = 0 := by
    rw [U64.shiftLeft, Nat.shiftLeft_eq]
    omega
  rw [tradeIdOf, Nat.or_mod_two_pow, hshift, Nat.zero_or]

/-- The counter and the stored identifiers after `n` creations. -/
structure Numbered (b : Books) (n : Nat) : Prop where
  counter : b.nextTradeId.getD 1 = n + 1
  issued : ∀ k t, b.trades.get k = some t → ∃ i, 1 ≤ i ∧ i ≤ n ∧ k % 2 ^ 32 = i % 2 ^ 32

/-- The next identifier is new as long as its counter fits in 32 bits. -/
theorem Numbered.fresh {n : Nat} (h : Numbered s.toBooks n) (hn : n < 2 ^ 32) (env : Env) :
    s.trades.get (nextIdentifier env s) = none := by
  by_contra hne
  obtain ⟨t, ht⟩ := Option.ne_none_iff_exists'.1 hne
  obtain ⟨i, hpos, hle, hi⟩ := h.issued _ t ht
  rw [nextIdentifier, tradeIdOf_mod, h.counter] at hi
  omega

theorem not_creates_of_failed {a : Action}
    (failed : ∀ env c, a = .call env c → (invoke env s c).isOk = false) : ¬ Creates s a := by
  cases a with
  | call env c => simp [Creates, failed env c rfl]
  | transfer | mint | burn => exact id

theorem not_creates_of_outside {a : Action} (call : ∀ env c, a ≠ .call env c) : ¬ Creates s a := by
  cases a with
  | call env c => exact absurd rfl (call env c)
  | transfer | mint | burn => exact id

theorem not_issues_of_creates {a : Action} {k : Nat} (h : ¬ Creates s a) : ¬ Issues k s a := by
  cases a with
  | call env c => exact fun hissues => h ⟨hissues.1, hissues.2.1⟩
  | transfer | mint | burn => exact id

/-- An identifier that is not reissued was not in use. -/
theorem NoReissue.not_stored {a : Action} {k : Nat} (h : ¬ Reissues s a) (issues : Issues k s a) :
    s.trades.get k = none := by
  by_contra hne
  obtain ⟨t, stored⟩ := Option.ne_none_iff_exists'.1 hne
  exact h (issues.reissues stored)

theorem Numbered.step {a : Action} {n : Nat} (wf : WellFormed s.toSettings s.toBooks)
    (h : Numbered s.toBooks n) (hn : n ≤ 2 ^ 32) :
    Numbered (step s a).toBooks (n + if Creates s a then 1 else 0) := by
  have hchange := step_change wf a
  generalize hs' : Escrow.step s a = s' at hchange
  cases hchange with
  | stay failed => rwa [if_neg (not_creates_of_failed failed)]
  | @configure env c _ ok configures conf =>
    have hquiet : ¬ Creates s (.call env c) := by
      rintro ⟨hcreates, -⟩
      cases (creates_of_configures configures).symm.trans hcreates
    rw [if_neg hquiet, conf.books]
    exact h
  | outside call _ =>
    rw [if_neg (not_creates_of_outside call)]
    exact ⟨h.counter, h.issued⟩
  | @effect env c _ ok effect _ =>
    cases effect.record with
    | same creates trades counter =>
      rw [if_neg (by simp [Creates, creates])]
      exact ⟨by rw [counter]; exact h.counter, by rw [trades]; exact h.issued⟩
    | create trade creates tradeId _ _ trades counter =>
      have hcreates : Creates s (.call env c) := ⟨creates, by rw [ok]; rfl⟩
      rw [if_pos hcreates]
      refine ⟨?_, fun k t ht => ?_⟩
      · rw [counter, h.counter]
        exact U64.add_of_lt (by omega)
      · rw [trades] at ht
        obtain ⟨hk, -⟩ | ⟨-, ht⟩ := Store.get_set_cases ht
        · refine ⟨n + 1, by omega, le_rfl, ?_⟩
          rw [hk, tradeId, nextIdentifier, tradeIdOf_mod, h.counter]
        · obtain ⟨i, hpos, hle, hi⟩ := h.issued k t ht
          exact ⟨i, hpos, by omega, hi⟩
    | move k t t' trades counter subject stored _ =>
      have hquiet : ¬ Creates s (.call env c) := by
        rintro ⟨hcreates, -⟩
        cases (creates_of_subject subject).symm.trans hcreates
      rw [if_neg hquiet]
      refine ⟨by rw [counter]; exact h.counter, fun k' t'' ht => ?_⟩
      rw [trades] at ht
      obtain ⟨rfl, -⟩ | ⟨-, ht⟩ := Store.get_set_cases ht
      · exact h.issued _ t stored
      · exact h.issued k' t'' ht

theorem creations_append (tokens : Token.Ledger Address) (actions : List Action) (a : Action)
    (later : List Action) :
    creations tokens (actions ++ [a]) ≤ creations tokens (actions ++ a :: later) := by
  have happ : actions ++ a :: later = (actions ++ [a]) ++ later := by simp
  rw [happ]
  unfold creations
  rw [Machine.tally_append step _ _ (actions ++ [a])]
  exact Nat.le_add_right _ _

theorem creations_snoc (tokens : Token.Ledger Address) (actions : List Action) (a : Action) :
    creations tokens (actions ++ [a]) =
      creations tokens actions + if Creates (run tokens actions) a then 1 else 0 :=
  Machine.tally_snoc step _ _ actions a

theorem numbered_run (tokens : Token.Ledger Address) (actions : List Action)
    (h : creations tokens actions ≤ 2 ^ 32) :
    Numbered (run tokens actions).toBooks (creations tokens actions) := by
  induction actions using List.reverseRecOn with
  | nil => exact ⟨rfl, fun _ _ ht => by cases ht⟩
  | append_singleton actions a ih =>
    rw [creations_snoc] at h ⊢
    have hbefore := Nat.le_of_add_right_le h
    have hstep := (ih hbefore).step (a := a) (wellFormed_run tokens actions) hbefore
    rwa [run, Machine.run_snoc]

/-- A run of at most `2 ^ 32` creations issues every identifier once. -/
theorem noReissue_of_creations_le {tokens : Token.Ledger Address} {actions : List Action}
    (h : creations tokens actions ≤ 2 ^ 32) : NoReissue tokens actions := by
  rintro ⟨s, a⟩ hp hreissue
  obtain ⟨before, later, rfl, rfl⟩ := Machine.exists_append_of_mem_trail step hp
  have hle := (creations_append tokens before a later).trans h
  rw [creations_snoc] at hle
  cases a with
  | call env c =>
    obtain ⟨hcreates, hok, hsome⟩ := hreissue
    have hone : Creates (run tokens before) (.call env c) := ⟨hcreates, hok⟩
    rw [if_pos hone] at hle
    have hnum := numbered_run tokens before (by omega)
    have hnone := hnum.fresh (by omega) env
    rw [← run, hnone] at hsome
    cases hsome
  | transfer | mint | burn => exact hreissue

/-! ## Past the 32 bits -/

/-- `create_trade` succeeds on valid arguments in an unpaused, initialized contract. -/
theorem createTrade_isOk {buyer seller token : Address} {amount : Int} {buyerLoss sellerLoss : Nat}
    {expiresAt : Option Nat} (hpaused : s.paused.getD false = false)
    (htoken : s.cngnContract = some token) (hauth : buyer ∈ env.auths ∧ buyer ≠ currentContract)
    (hamount : 0 < amount ∧ amount ≤ maxTradeValue) (hne : buyer ≠ seller)
    (hloss : buyerLoss + sellerLoss = 10000) (hdeadline : ∀ d ∈ expiresAt, d > env.timestamp) :
    ∃ s', invoke env s (.createTrade buyer seller amount buyerLoss sellerLoss expiresAt) =
      .ok s' := by
  simp only [invoke, map_eq_ok, createTrade, bind_eq_ok, assertNotPaused_eq_ok, requireAuth_eq_ok,
    assert_eq_ok, expect_eq_ok, pure_eq_ok, exists_const]
  exact ⟨_, _, ⟨hpaused, hauth, hamount.1, hamount.2, hne, by omega, by omega, hloss, hdeadline,
    token, htoken, rfl⟩, rfl⟩

/-- What a creation does to the books and the settings. -/
theorem creation_books {buyer seller : Address} {amount : Int} {buyerLoss sellerLoss : Nat}
    {expiresAt : Option Nat}
    (h : invoke env s (.createTrade buyer seller amount buyerLoss sellerLoss expiresAt) = .ok s') :
    ∃ trade : Trade, trade.status = .created ∧ trade.expiresAt = expiresAt ∧
      s'.toBooks =
        { s.toBooks with
          nextTradeId := some (U64.add (s.nextTradeId.getD 1) 1)
          trades := s.trades.set (nextIdentifier env s) trade } ∧
      s'.toSettings = s.toSettings := by
  obtain ⟨⟨id, s'⟩, hcreate, rfl⟩ := map_eq_ok.1 h
  simp only [createTrade, bind_eq_ok, assertNotPaused_eq_ok, requireAuth_eq_ok, assert_eq_ok,
    expect_eq_ok, pure_eq_ok, exists_const, Prod.mk.injEq] at hcreate
  obtain ⟨-, -, -, -, -, -, -, -, -, token, -, -, rfl⟩ := hcreate
  exact ⟨⟨nextIdentifier env s, buyer, seller, token, amount, .created, env.timestamp,
    env.timestamp, none, none, buyerLoss, sellerLoss, expiresAt⟩, rfl, rfl, rfl, rfl⟩

/-- Counting on: `m` creations leave everything in the books but the counter and the records under
the identifiers they issue. -/
theorem run_creations {buyer seller token : Address} {amount : Int} {buyerLoss sellerLoss : Nat}
    {expiresAt : Option Nat} {n : Nat} (m : Nat) (hpaused : s.paused.getD false = false)
    (htoken : s.cngnContract = some token) (hauth : buyer ∈ env.auths ∧ buyer ≠ currentContract)
    (hamount : 0 < amount ∧ amount ≤ maxTradeValue) (hne : buyer ≠ seller)
    (hloss : buyerLoss + sellerLoss = 10000) (hdeadline : ∀ d ∈ expiresAt, d > env.timestamp)
    (hcounter : s.nextTradeId.getD 1 = n) (hm : n + m < 2 ^ 64) :
    ∃ s', Machine.run step s (List.replicate m (.call env
        (.createTrade buyer seller amount buyerLoss sellerLoss expiresAt))) = s' ∧
      s'.toSettings = s.toSettings ∧ s'.nextTradeId.getD 1 = n + m ∧
      s'.toBooks = { s.toBooks with nextTradeId := s'.nextTradeId, trades := s'.trades } ∧
      ∀ k, (∀ i, n ≤ i → i < n + m → k % 2 ^ 32 ≠ i % 2 ^ 32) →
        s'.trades.get k = s.trades.get k := by
  induction m with
  | zero => exact ⟨s, rfl, rfl, hcounter, rfl, fun _ _ => rfl⟩
  | succ m ih =>
    obtain ⟨mid, hrun, hsettings, hcount, hbooks, hkeep⟩ := ih (by omega)
    have hpaused' : mid.paused.getD false = false := by rw [hsettings]; exact hpaused
    have htoken' : mid.cngnContract = some token := by rw [hsettings]; exact htoken
    obtain ⟨s', hok⟩ := createTrade_isOk hpaused' htoken' hauth hamount hne hloss hdeadline
    obtain ⟨trade, -, -, hbooks', hsettings'⟩ := creation_books hok
    refine ⟨s', ?_, hsettings'.trans hsettings, ?_, ?_, fun k hk => ?_⟩
    · rw [List.replicate_succ', Machine.run_snoc, hrun, step_call_of_ok hok]
    · rw [hbooks', hcount]
      exact U64.add_of_lt (by omega)
    · rw [hbooks', hbooks]
    · have hid : k ≠ nextIdentifier env mid := by
        rintro rfl
        refine hk (n + m) (by omega) (by omega) ?_
        rw [nextIdentifier, tradeIdOf_mod, hcount]
      rw [hbooks', ← hkeep k fun i hlo hhi => hk i hlo (by omega)]
      exact Store.get_set_ne _ _ hid

/-- A run, and creations up to the last one whose counter fits in 32 bits. -/
def Sample.countUp (start : List Action) (expiresAt : Option Nat) : List Action :=
  start ++ List.replicate (2 ^ 32 - 1) (Sample.create expiresAt)

/-- All in ledger 1, after `2 ^ 32` creations the first identifier is the next to be issued. -/
theorem countUp_at_wrap (tokens : Token.Ledger Address) (start : List Action)
    (expiresAt : Option Nat) (hpaused : (run tokens start).paused.getD false = false)
    (htoken : (run tokens start).cngnContract = some Sample.cngn)
    (hdeadline : ∀ d ∈ expiresAt, d > 2) (hcounter : (run tokens start).nextTradeId.getD 1 = 2) :
    ∃ s₁ s₂, run tokens (Sample.countUp start expiresAt) = s₁ ∧
      s₁.toSettings = (run tokens start).toSettings ∧
      s₁.toBooks =
        { (run tokens start).toBooks with nextTradeId := s₁.nextTradeId, trades := s₁.trades } ∧
      s₁.trades.get Sample.first = (run tokens start).trades.get Sample.first ∧
      nextIdentifier ⟨2, 1, [Sample.alice]⟩ s₁ = Sample.first ∧
      invoke ⟨2, 1, [Sample.alice]⟩ s₁
        (.createTrade Sample.alice Sample.bob 100 5000 5000 expiresAt) = .ok s₂ := by
  let env : Env := ⟨2, 1, [Sample.alice]⟩
  have hauth : Sample.alice ∈ env.auths ∧ Sample.alice ≠ currentContract := by decide
  have hamount : (0 : Int) < 100 ∧ (100 : Int) ≤ maxTradeValue := by decide
  have hne : Sample.alice ≠ Sample.bob := by decide
  have hloss : 5000 + 5000 = 10000 := rfl
  have hdeadline : ∀ d ∈ expiresAt, d > env.timestamp := hdeadline
  obtain ⟨s₁, hrun, hsettings, hcount, hbooks, hkeep⟩ :=
    run_creations (2 ^ 32 - 1) hpaused htoken hauth hamount hne hloss hdeadline hcounter
      (by decide)
  obtain ⟨s₂, hok⟩ := createTrade_isOk (by rw [hsettings]; exact hpaused)
    (by rw [hsettings]; exact htoken) hauth hamount hne hloss hdeadline
  refine ⟨s₁, s₂, (Machine.run_append step _ start _).trans hrun, hsettings, hbooks,
    hkeep _ fun i hlo hhi => ?_, ?_, hok⟩
  · show (2 ^ 32 + 1) % 2 ^ 32 ≠ i % 2 ^ 32
    omega
  · rw [nextIdentifier, hcount]
    show tradeIdOf 1 (2 + (2 ^ 32 - 1)) = 2 ^ 32 + 1
    decide

/-- The creation that follows issues it again. -/
theorem issues_at_wrap (tokens : Token.Ledger Address) (start : List Action)
    (expiresAt : Option Nat) (hpaused : (run tokens start).paused.getD false = false)
    (htoken : (run tokens start).cngnContract = some Sample.cngn)
    (hdeadline : ∀ d ∈ expiresAt, d > 2) (hcounter : (run tokens start).nextTradeId.getD 1 = 2) :
    Issues Sample.first (run tokens (Sample.countUp start expiresAt))
      (Sample.create expiresAt) := by
  obtain ⟨s₁, s₂, hrun, -, -, -, hid, hok⟩ :=
    countUp_at_wrap tokens start expiresAt hpaused htoken hdeadline hcounter
  rw [hrun]
  exact ⟨rfl, by rw [hok]; rfl, hid⟩

/-- The record that was there is overwritten, and nothing else in the books but the counter. -/
theorem reissue_at_wrap (tokens : Token.Ledger Address) (start : List Action)
    (expiresAt : Option Nat) (hpaused : (run tokens start).paused.getD false = false)
    (htoken : (run tokens start).cngnContract = some Sample.cngn)
    (hdeadline : ∀ d ∈ expiresAt, d > 2) (hcounter : (run tokens start).nextTradeId.getD 1 = 2) :
    ∃ s₁ s₂ trade, run tokens (Sample.countUp start expiresAt) = s₁ ∧
      run tokens (Sample.countUp start expiresAt ++ [Sample.create expiresAt]) = s₂ ∧
      s₁.toBooks =
        { (run tokens start).toBooks with nextTradeId := s₁.nextTradeId, trades := s₁.trades } ∧
      s₁.trades.get Sample.first = (run tokens start).trades.get Sample.first ∧
      trade.status = .created ∧ trade.expiresAt = expiresAt ∧
      s₂.toBooks =
        { s₁.toBooks with
          nextTradeId := s₂.nextTradeId, trades := s₁.trades.set Sample.first trade } ∧
      s₂.toSettings = (run tokens start).toSettings := by
  obtain ⟨s₁, s₂, hrun, hsettings, hbooks, hkeep, hid, hok⟩ :=
    countUp_at_wrap tokens start expiresAt hpaused htoken hdeadline hcounter
  obtain ⟨trade, hstatus, hexpires, hbooks', hsettings'⟩ := creation_books hok
  refine ⟨s₁, s₂, trade, hrun, ?_, hbooks, hkeep, hstatus, hexpires, ?_,
    hsettings'.trans hsettings⟩
  · rw [run_snoc, hrun]
    exact step_call_of_ok hok
  · rw [hbooks', hid]

end Amana.Escrow
