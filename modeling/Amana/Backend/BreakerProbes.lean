import Amana.Backend.CircuitBreaker

/-!
# The probes of the circuit breaker

A call that the breaker lets through when it is half open is a probe.  The breaker does not know its
probes: it counts every operation that ends while it is half open, also one that started before it
opened.  It goes by its probes as long as no other operation ends then (`only_probes`).
-/

namespace Amana.Backend.Breaking

open Lib.Machine (run Since since_snoc_iff run_snoc run_append)

variable {ε τ : Type} {w : Breaking ε τ} {a : CallStep ε τ} {i : Nat}

/-- The call whose operation ends with this step, and what the operation came to. -/
def completed (w : Breaking ε τ) : CallStep ε τ → Option (Nat × Except ε τ)
  | .call _ => none
  | .settle i outcome _ =>
    match w.calls[i]? with
    | some .running => some (i, outcome)
    | _ => none

/-- The run ends in a half-open period of the breaker, and the operation of the call started in
it. -/
def Probe (b : CircuitBreaker) (as : List (CallStep ε τ)) (i : Nat) : Prop :=
  Since step
    (fun w a => w.Starts a ∧ w.calls.length = i ∧ (w.step a).breaker.state = .halfOpen)
    (fun w a => (w.step a).breaker.state = .halfOpen) (initial b) as

instance [DecidableEq ε] [DecidableEq τ] (w : Breaking ε τ) (a : CallStep ε τ) :
    Decidable (w.Starts a) := inferInstanceAs (Decidable (_ = _))

instance [DecidableEq ε] [DecidableEq τ] (b : CircuitBreaker) (as : List (CallStep ε τ)) (i : Nat) :
    Decidable (Probe b as i) := inferInstanceAs (Decidable (Since ..))

/-- The last operations to end, so many, have succeeded, each in the half-open period it started in,
and all in one period. -/
inductive Probed (b : CircuitBreaker) : List (CallStep ε τ) → Nat → Prop
  | start (as : List (CallStep ε τ)) : Probed b as 0
  | quiet {as n a} (before : Probed b as n)
      (halfOpen : (run step (initial b) as).breaker.state = .halfOpen)
      (none : (run step (initial b) as).completed a = none) : Probed b (as ++ [a]) n
  | success {as n a i value} (before : Probed b as n)
      (halfOpen : (run step (initial b) as).breaker.state = .halfOpen)
      (ok : (run step (initial b) as).completed a = some (i, .ok value)) (probe : Probe b as i) :
      Probed b (as ++ [a]) (n + 1)

/-- The breaker closes after enough successes of probes in a row, and opens again when a probe
fails. -/
structure OnlyProbes (b : CircuitBreaker) (as : List (CallStep ε τ)) : Prop where
  closes : ∀ bs a, bs ++ [a] <+: as → (run step (initial b) bs).breaker.state = .halfOpen →
    (run step (initial b) (bs ++ [a])).breaker.state = .closed →
      ∃ n : Nat, b.successThreshold ≤ n ∧ Probed b (bs ++ [a]) n
  reopens : ∀ bs a, bs ++ [a] <+: as → (run step (initial b) bs).breaker.state = .halfOpen →
    (run step (initial b) (bs ++ [a])).breaker.state = .opened →
      ∃ i error, (run step (initial b) bs).completed a = some (i, .error error) ∧ Probe b bs i

/-- The step ends no operation in a half-open period that the operation did not start in. -/
def Timely (b : CircuitBreaker) (as : List (CallStep ε τ)) (a : CallStep ε τ) : Prop :=
  (run step (initial b) as).breaker.state = .halfOpen →
    ∀ p ∈ (run step (initial b) as).completed a, Probe b as p.1

instance [DecidableEq ε] [DecidableEq τ] (b : CircuitBreaker) (as : List (CallStep ε τ))
    (a : CallStep ε τ) : Decidable (Timely b as a) := inferInstanceAs (Decidable (_ → _))

/-! ## One step -/

theorem completed_none (h : w.completed a = none) : w.step a = w ∨ ∃ now, a = .call now := by
  cases a with
  | call now => exact .inr ⟨now, rfl⟩
  | settle i outcome now =>
    refine .inl ?_
    simp only [completed] at h
    rw [step]
    unfold settle
    split
    · next hrunning => simp [hrunning] at h
    · next hrunning => simp [hrunning] at h
    · rfl

theorem completed_some {outcome : Except ε τ} (h : w.completed a = some (i, outcome)) :
    ∃ now, a = .settle i outcome now ∧ w.calls[i]? = some .running := by
  cases a with
  | call now => cases h
  | settle j outcome' now =>
    simp only [completed] at h
    split at h
    · next hrunning =>
      obtain ⟨rfl, rfl⟩ := Prod.mk.inj (Option.some.inj h)
      exact ⟨now, rfl, hrunning⟩
    · cases h

theorem completed_ok {value : τ} (h : w.completed a = some (i, .ok value)) :
    (w.step a).breaker = w.breaker.onSuccess := by
  obtain ⟨now, rfl, hrunning⟩ := completed_some h
  simp only [step, settle, hrunning]

theorem completed_error {error : ε} (h : w.completed a = some (i, .error error)) :
    ∃ now, (w.step a).breaker = w.breaker.onFailure now := by
  obtain ⟨now, rfl, hrunning⟩ := completed_some h
  exact ⟨now, by simp only [step, settle, hrunning]⟩

/-- What a step does with a half-open breaker. -/
theorem step_halfOpen (halfOpen : w.breaker.state = .halfOpen) (a : CallStep ε τ) :
    (w.completed a = none ∧ (w.step a).breaker = w.breaker) ∨
      (∃ i value, w.completed a = some (i, .ok value) ∧
        if w.breaker.successThreshold ≤ (w.breaker.successCount + 1 : Nat) then
          (w.step a).breaker.state = .closed
        else (w.step a).breaker.state = .halfOpen ∧
          (w.step a).breaker.successCount = w.breaker.successCount + 1) ∨
      ∃ i error, w.completed a = some (i, .error error) ∧ (w.step a).breaker.state = .opened := by
  match hends : w.completed a with
  | none =>
    refine .inl ⟨rfl, ?_⟩
    obtain hsame | ⟨now, rfl⟩ := completed_none hends
    · rw [hsame]
    · obtain hsame | ⟨_, hopened, -⟩ := w.breaker.transition_cases now
      · exact hsame
      · rw [halfOpen] at hopened
        cases hopened
  | some (i, .ok value) =>
    refine .inr (.inl ⟨i, value, rfl, ?_⟩)
    rw [completed_ok hends, CircuitBreaker.onSuccess, if_pos halfOpen]
    split
    · rfl
    · exact ⟨halfOpen, rfl⟩
  | some (i, .error error) =>
    refine .inr (.inr ⟨i, error, rfl, ?_⟩)
    obtain ⟨now, hfailure⟩ := completed_error hends
    rw [hfailure, CircuitBreaker.onFailure, if_pos halfOpen]

/-- A breaker becomes half open with no success counted. -/
theorem step_becomes_halfOpen (before : w.breaker.state ≠ .halfOpen) (a : CallStep ε τ)
    (after : (w.step a).breaker.state = .halfOpen) : (w.step a).breaker.successCount = 0 := by
  cases a with
  | call now =>
    obtain hsame | ⟨_, -, -, -, hprobe⟩ := w.breaker.transition_cases now
    · rw [step, call, hsame] at after
      exact absurd after before
    · rw [step, call, hprobe]
  | settle i outcome now =>
    obtain hsame | ⟨hsuccess | hfailure, -⟩ := settle_cases w i outcome now
    · rw [hsame] at after
      exact absurd after before
    · rw [hsuccess, CircuitBreaker.onSuccess, if_neg before] at after
      exact absurd after before
    · rw [hfailure, CircuitBreaker.onFailure, if_neg before] at after
      split at after
      · cases after
      · exact absurd after before

/-! ## A run -/

variable {b : CircuitBreaker} {as : List (CallStep ε τ)}

/-- While only probes end in a half-open period, the breaker counts the successes of probes. -/
theorem probed_successCount (closed : b.state = .closed)
    (timely : ∀ bs a, bs ++ [a] <+: as → Timely b bs a)
    (halfOpen : (run step (initial b) as).breaker.state = .halfOpen) :
    Probed b as (run step (initial b) as).breaker.successCount := by
  induction as using List.reverseRecOn with
  | nil =>
    rw [Lib.Machine.run_nil, initial, closed] at halfOpen
    cases halfOpen
  | append_singleton as a ih =>
    have htimely : ∀ bs c, bs ++ [c] <+: as → Timely b bs c :=
      fun bs c h => timely bs c (h.trans (List.prefix_append as [a]))
    rw [run_snoc] at halfOpen ⊢
    by_cases hbefore : (run step (initial b) as).breaker.state = .halfOpen
    · have hcounted := ih htimely hbefore
      obtain ⟨hnone, hsame⟩ | ⟨i, value, hok, hcount⟩ | ⟨i, error, -, hopened⟩ :=
        step_halfOpen hbefore a
      · rw [hsame]
        exact .quiet hcounted hbefore hnone
      · split at hcount
        · rw [hcount] at halfOpen
          cases halfOpen
        · rw [hcount.2]
          exact .success hcounted hbefore hok (timely as a List.prefix_rfl hbefore _ hok)
      · rw [hopened] at halfOpen
        cases halfOpen
    · rw [step_becomes_halfOpen hbefore a halfOpen]
      exact .start _

theorem successThreshold_run (b : CircuitBreaker) (as : List (CallStep ε τ)) :
    (run step (initial b) as).breaker.successThreshold = b.successThreshold := by
  have hsettings := Lib.Machine.run_invariant_of_step step (s := initial b)
    (P := fun w => w.breaker.settings = b.settings) as rfl
    fun w a h => (settings_step w a).trans h
  exact congrArg (fun settings => settings.2.1) hsettings

/-- The breaker goes by its probes in every run in which only probes end in a half-open period. -/
theorem only_probes (name : String) (options : CircuitBreakerOptions) {as : List (CallStep ε τ)}
    (timely : ∀ bs a, bs ++ [a] <+: as → Timely (.new name options) bs a) :
    OnlyProbes (.new name options) as where
  closes bs a h halfOpen closed := by
    have htimely : ∀ cs c, cs ++ [c] <+: bs → Timely (.new name options) cs c :=
      fun cs c hcs => timely cs c (hcs.trans ((List.prefix_append bs [a]).trans h))
    have hcounted := probed_successCount rfl htimely halfOpen
    rw [run_snoc] at closed
    obtain ⟨-, hsame⟩ | ⟨i, value, hok, hcount⟩ | ⟨i, error, -, hopened⟩ :=
      step_halfOpen halfOpen a
    · rw [hsame, halfOpen] at closed
      cases closed
    · split at hcount
      · next henough =>
        rw [successThreshold_run] at henough
        exact ⟨_, henough, .success hcounted halfOpen hok (timely bs a h halfOpen _ hok)⟩
      · rw [hcount.1] at closed
        cases closed
    · rw [hopened] at closed
      cases closed
  reopens bs a h halfOpen opened := by
    rw [run_snoc] at opened
    obtain ⟨-, hsame⟩ | ⟨i, value, -, hcount⟩ | ⟨i, error, herror, -⟩ := step_halfOpen halfOpen a
    · rw [hsame, halfOpen] at opened
      cases opened
    · split at hcount
      · rw [hcount] at opened
        cases opened
      · rw [hcount.1] at opened
        cases opened
    · exact ⟨i, error, herror, timely bs a h halfOpen _ herror⟩

/-- A breaker that opens, is tried again and closes. -/
def probing : List (CallStep String Unit) :=
  [.call 0, .settle 0 (.error "timeout") 10, .call 1010, .settle 1 (.ok ()) 1020]

theorem only_probes_probing : OnlyProbes (.new "pinata-ipfs" ⟨some 1, some 1, some 1000⟩) probing :=
  only_probes "pinata-ipfs" _ fun bs a h => by
    have hsteps : ∀ k < probing.length, Timely (.new "pinata-ipfs" ⟨some 1, some 1, some 1000⟩)
        (probing.take k) (probing.getD k (.call 0)) := by decide +kernel
    obtain ⟨rest, hrest⟩ := h
    have hlength : bs.length < probing.length := by simp [← hrest]
    have hstep := hsteps bs.length hlength
    rw [← hrest] at hstep
    simpa [List.getD] using hstep

/-- Where the last step ends an operation, it is a success of a probe. -/
theorem Probed.last {n : Nat} {outcome : Except ε τ} (h : Probed b (as ++ [a]) n) (positive : 0 < n)
    (ends : (run step (initial b) as).completed a = some (i, outcome)) : Probe b as i := by
  generalize hlist : as ++ [a] = l at h
  cases h with
  | start => simp at positive
  | quiet before halfOpen none =>
    obtain ⟨rfl, hlast⟩ := List.append_inj' hlist rfl
    obtain rfl := List.singleton_inj.1 hlast
    rw [none] at ends
    cases ends
  | success before halfOpen ok probe =>
    obtain ⟨rfl, hlast⟩ := List.append_inj' hlist rfl
    obtain rfl := List.singleton_inj.1 hlast
    obtain ⟨rfl, -⟩ := Prod.mk.inj (Option.some.inj (ends.symm.trans ok))
    exact probe

/-- Two uploads that take long, and a third that fails and opens the breaker meanwhile. -/
def slowUploads : List (CallStep String Unit) :=
  [.call 0, .call 1, .call 2, .settle 2 (.error "timeout") 10, .call 1010, .settle 0 (.ok ()) 1020]

/-- The two slow uploads close the breaker while its only probe is under way. -/
theorem closed_without_probe : ¬ OnlyProbes (.new "pinata-ipfs" ⟨some 1, some 2, some 1000⟩)
    (slowUploads ++ [.settle 1 (.ok ()) 1030]) := by
  intro h
  obtain ⟨n, hn, hprobed⟩ := h.closes slowUploads _ List.prefix_rfl (by decide +kernel)
    (by decide +kernel)
  have hpositive : 0 < n := by
    have htwo : (2 : ℚ) ≤ n := hn
    exact_mod_cast (show (0 : ℚ) < n by linarith)
  exact absurd (hprobed.last hpositive rfl) (by decide +kernel)

end Amana.Backend.Breaking
