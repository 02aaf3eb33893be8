import Mathlib
import Amana.Lib.Machine

/-!
# Counting in windows of a fixed width

A window opens with the first hit after the last one is over, and counts the hits until it is over
itself.  A limit on the count turns nothing away below the limit (`limit_le_of_not_admits`), and lets
through at most twice the limit in any interval of the width (`admitted_le`), for such an interval
meets two windows at most.

A detector counts the same way and starts over when it goes off.  It goes off at the last of as many
hits as it waits for, all within the width (`detected`), and any twice as many hits within the width,
but for one, set it off (`exists_detects`).
-/

namespace Amana.Lib.FixedWindow

open Machine

structure Window where
  count : Nat
  start : Nat
  deriving DecidableEq

section

variable (width limit : Nat)

/-- The window that a hit counts in. -/
def windowAt (now : Nat) : Option Window → Window
  | some w => if w.start + width ≤ now then ⟨0, now⟩ else w
  | none => ⟨0, now⟩

def hit (w : Option Window) (now : Nat) : Option Window :=
  some ⟨(windowAt width now w).count + 1, (windowAt width now w).start⟩

/-- Whether a hit is within the limit. -/
def admits (w : Option Window) (now : Nat) : Bool := (windowAt width now w).count + 1 ≤ limit

/-- The hits of a run that are within the limit. -/
def admitted (times : List Nat) : List Nat :=
  ((trail (hit width) none times).filter fun p => admits width limit p.1 p.2).map Prod.snd

/-- Whether a hit sets the detector off. -/
def detects (w : Option Window) (now : Nat) : Bool := limit ≤ (windowAt width now w).count + 1

/-- The detector starts over when it has gone off. -/
def watch (w : Option Window) (now : Nat) : Option Window :=
  if detects width limit w now then some ⟨0, now⟩ else hit width w now

end

variable {width limit now : Nat} {w : Option Window} {v : Window} {times : List Nat}

theorem windowAt_cases (width now : Nat) (w : Option Window) :
    (windowAt width now w = ⟨0, now⟩ ∧ ∀ v ∈ w, v.start + width ≤ now) ∨
      ∃ v, w = some v ∧ windowAt width now w = v ∧ now < v.start + width := by
  cases w with
  | none => exact .inl ⟨rfl, by simp⟩
  | some v =>
    by_cases hover : v.start + width ≤ now
    · exact .inl ⟨if_pos hover, by simpa using hover⟩
    · exact .inr ⟨v, rfl, if_neg hover, by omega⟩

/-! ## The limit -/

/-- The hits that were let through, and the window after them: some of them count in it, and those
before it are within the limit wherever an interval also meets the window. -/
structure Limited (width limit : Nat) (v : Window) (old new : List Nat) : Prop where
  counted : new.length = min v.count limit
  inside : ∀ x ∈ new, v.start ≤ x ∧ x < v.start + width
  before : ∀ x ∈ old, x < v.start
  recent : ∀ t, v.start < t + width → old.countP (fun x => t ≤ x) ≤ limit
  twice : ∀ t, old.countP (fun x => t ≤ x ∧ x < t + width) ≤ 2 * limit

/-- The window of a run and the hits that were let through. -/
def Limits (width limit : Nat) (w : Option Window) (hits : List Nat) : Prop :=
  match w with
  | none => hits = []
  | some v => ∃ old new, hits = old ++ new ∧ Limited width limit v old new

theorem Limited.countP_le {old new : List Nat} (h : Limited width limit v old new) (t : Nat) :
    (old ++ new).countP (fun x => t ≤ x ∧ x < t + width) ≤ 2 * limit := by
  have hnew : new.length ≤ limit := h.counted.trans_le (Nat.min_le_right ..)
  rw [List.countP_append]
  by_cases hmeets : v.start < t + width
  · have hold : old.countP (fun x => t ≤ x ∧ x < t + width) ≤ old.countP (fun x => t ≤ x) :=
      List.countP_mono_left fun x _ hx => by simp only [decide_eq_true_eq] at hx ⊢; exact hx.1
    have hrecent := h.recent t hmeets
    have hcount : new.countP (fun x => t ≤ x ∧ x < t + width) ≤ new.length := List.countP_le_length
    omega
  · -- The interval is over when the window opens.
    have hnone : new.countP (fun x => t ≤ x ∧ x < t + width) = 0 := by
      rw [List.countP_eq_zero]
      intro x hx
      have hstart := (h.inside x hx).1
      simp
      omega
    have htwice := h.twice t
    omega

/-- A window that opens later has all that was let through before it. -/
theorem Limited.fresh {old new : List Nat} (h : Limited width limit v old new)
    (hwidth : 0 < width) (hover : v.start + width ≤ now) :
    Limited width limit ⟨0, now⟩ (old ++ new) [] := by
  refine ⟨by simp, by simp, fun x hx => ?_, fun t ht => ?_, h.countP_le⟩
  · dsimp only
    obtain hx | hx := List.mem_append.1 hx
    · have hbefore := h.before x hx
      omega
    · have hinside := h.inside x hx
      omega
  · have hnone : old.countP (fun x => t ≤ x) = 0 := by
      rw [List.countP_eq_zero]
      intro x hx
      have hbefore := h.before x hx
      dsimp only at ht
      simp
      omega
    have hcount : new.countP (fun x => t ≤ x) ≤ new.length := List.countP_le_length
    have hcounted := h.counted
    rw [List.countP_append]
    omega

/-- A hit counts, and is let through within the limit. -/
theorem Limited.hit {old new : List Nat} (h : Limited width limit v old new)
    (hstart : v.start ≤ now) (hnow : now < v.start + width) :
    Limited width limit ⟨v.count + 1, v.start⟩ old
      (new ++ if v.count + 1 ≤ limit then [now] else []) := by
  have hcounted := h.counted
  refine ⟨?_, fun x hx => ?_, h.before, h.recent, h.twice⟩
  · split <;> simp <;> omega
  · split at hx
    · obtain hx | hx := List.mem_append.1 hx
      · exact h.inside x hx
      · obtain rfl := List.mem_singleton.1 hx
        exact ⟨hstart, hnow⟩
    · exact h.inside x (by simpa using hx)

theorem admitted_snoc : admitted width limit (times ++ [now]) = admitted width limit times ++
    if admits width limit (run (hit width) none times) now then [now] else [] := by
  rw [admitted, trail_snoc, List.filter_append, List.map_append]
  split <;> simp_all [admitted]

theorem admitted_sublist (width limit : Nat) (times : List Nat) :
    (admitted width limit times).Sublist times := by
  induction times using List.reverseRecOn with
  | nil => exact List.Sublist.refl _
  | append_singleton times now ih =>
    rw [admitted_snoc]
    split
    · exact ih.append (List.Sublist.refl _)
    · exact ih.append (List.nil_sublist _)

/-- The window of a run opened with a hit of the run. -/
theorem start_mem (width : Nat) (times : List Nat) :
    ∀ v ∈ run (hit width) none times, v.start ∈ times := by
  induction times using List.reverseRecOn with
  | nil => simp
  | append_singleton times now ih =>
    intro v hv
    rw [run_snoc] at hv
    obtain rfl := Option.some.inj hv
    obtain ⟨hfresh, -⟩ | ⟨u, hu, hsame, -⟩ := windowAt_cases width now
      (run (hit width) none times)
    · simp [hfresh]
    · rw [hsame]
      exact List.mem_append_left _ (ih u hu)

theorem limits_run (limit : Nat) (hwidth : 0 < width) (sorted : times.Pairwise (· ≤ ·)) :
    Limits width limit (run (hit width) none times) (admitted width limit times) := by
  induction times using List.reverseRecOn with
  | nil => rfl
  | append_singleton times now ih =>
    obtain ⟨hsorted, -, hle⟩ := List.pairwise_append.1 sorted
    have hlimits := ih hsorted
    have hopened := start_mem width times
    rw [run_snoc, admitted_snoc, admits]
    obtain ⟨hfresh, hover⟩ | ⟨v, hv, hsame, hnow⟩ := windowAt_cases width now
      (run (hit width) none times)
    · have hfirst : ∃ old, admitted width limit times = old ∧
          Limited width limit ⟨0, now⟩ old [] := by
        refine ⟨_, rfl, ?_⟩
        cases hrun : run (hit width) none times with
        | none =>
          rw [hrun] at hlimits
          rw [show admitted width limit times = [] from hlimits]
          exact ⟨by simp, by simp, by simp, by simp, by simp⟩
        | some v =>
          rw [hrun] at hlimits
          obtain ⟨old, new, heq, h⟩ := hlimits
          rw [heq]
          exact h.fresh hwidth (hover v hrun)
      obtain ⟨old, rfl, h⟩ := hfirst
      refine ⟨_, _, rfl, ?_⟩
      rw [hfresh]
      simpa using h.hit le_rfl (by dsimp only; omega)
    · rw [hv] at hlimits
      obtain ⟨old, new, heq, h⟩ := hlimits
      have hstart : v.start ≤ now := hle _ (hopened v hv) now (List.mem_singleton_self _)
      have hnext := h.hit hstart hnow
      refine ⟨old, new ++ if v.count + 1 ≤ limit then [now] else [], ?_, ?_⟩
      · rw [heq, hsame, List.append_assoc]
        simp
      · rw [hsame]
        exact hnext

/-- At most twice the limit is let through in any interval of the width. -/
theorem admitted_le (hwidth : 0 < width) (sorted : times.Pairwise (· ≤ ·)) (t : Nat) :
    (admitted width limit times).countP (fun x => t ≤ x ∧ x < t + width) ≤ 2 * limit := by
  have hlimits := limits_run limit hwidth sorted
  cases hrun : run (hit width) none times with
  | none =>
    rw [hrun] at hlimits
    rw [show admitted width limit times = [] from hlimits]
    exact Nat.zero_le _
  | some v =>
    rw [hrun] at hlimits
    obtain ⟨old, new, heq, h⟩ := hlimits
    rw [heq]
    exact h.countP_le t

/-- What is turned away comes within the width after as many hits as the limit. -/
theorem limit_le_of_not_admits (hwidth : 0 < width) (sorted : times.Pairwise (· ≤ ·))
    (h : admits width limit (run (hit width) none times) now = false) :
    limit ≤ (admitted width limit times).countP fun x => now < x + width := by
  have hlimits := limits_run limit hwidth sorted
  rw [admits] at h
  obtain ⟨hfresh, -⟩ | ⟨v, hv, hsame, hnow⟩ := windowAt_cases width now
    (run (hit width) none times)
  · rw [hfresh] at h
    simp only [decide_eq_false_iff_not] at h
    omega
  · rw [hv] at hlimits
    obtain ⟨old, new, heq, hlimited⟩ := hlimits
    rw [hsame] at h
    simp only [decide_eq_false_iff_not] at h
    have hcounted := hlimited.counted
    have hall : new.countP (fun x => now < x + width) = new.length := by
      rw [List.countP_eq_length]
      intro x hx
      have hinside := hlimited.inside x hx
      simp
      omega
    rw [heq, List.countP_append]
    omega

/-- What comes when the window is over is let through. -/
theorem admits_of_over (hlimit : 0 < limit) (h : ∀ v ∈ w, v.start + width ≤ now) :
    admits width limit w now = true := by
  obtain ⟨hfresh, -⟩ | ⟨v, hv, -, hnow⟩ := windowAt_cases width now w
  · simp [admits, hfresh]
    omega
  · have hover := h v hv
    omega

/-! ## The detector -/

theorem watch_of_not_detects (h : detects width limit w now = false) :
    watch width limit w now = hit width w now := by
  simp [watch, h]

/-- The last hits of a run are in the window of the detector, and none of them has set it off. -/
structure Watched (width limit : Nat) (v : Window) (before new : List Nat) : Prop where
  counted : new.length = v.count
  inside : ∀ x ∈ new, v.start ≤ x
  quiet : ∀ p ∈ trail (watch width limit) (run (watch width limit) none before) new,
    detects width limit p.1 p.2 = false

theorem watched_run (limit : Nat) (sorted : times.Pairwise (· ≤ ·)) :
    ∀ v ∈ run (watch width limit) none times,
      (∃ x ∈ times, v.start = x) ∧
        ∃ before new, times = before ++ new ∧ Watched width limit v before new := by
  induction times using List.reverseRecOn with
  | nil => simp
  | append_singleton times now ih =>
    obtain ⟨hsorted, -, hle⟩ := List.pairwise_append.1 sorted
    intro v hv
    rw [run_snoc] at hv
    cases hdetects : detects width limit (run (watch width limit) none times) now with
    | true =>
      rw [watch, hdetects] at hv
      obtain rfl := Option.some.inj hv
      exact ⟨⟨now, by simp, rfl⟩, times ++ [now], [], by simp, ⟨rfl, by simp, by simp⟩⟩
    | false =>
      rw [watch_of_not_detects hdetects] at hv
      obtain rfl := Option.some.inj hv
      obtain ⟨hfresh, -⟩ | ⟨u, hu, hsame, -⟩ := windowAt_cases width now
        (run (watch width limit) none times)
      · rw [hfresh]
        refine ⟨⟨now, by simp, rfl⟩, times, [now], rfl, ⟨rfl, by simp, ?_⟩⟩
        simpa [trail] using hdetects
      · obtain ⟨⟨x, hx, hstart⟩, before, new, heq, h⟩ := ih hsorted u hu
        rw [hsame]
        refine ⟨⟨x, List.mem_append_left _ hx, hstart⟩, before, new ++ [now], ?_, ?_, ?_, ?_⟩
        · rw [heq, List.append_assoc]
        · simp [h.counted]
        · intro y hy
          obtain hy | hy := List.mem_append.1 hy
          · exact h.inside y hy
          · obtain rfl := List.mem_singleton.1 hy
            exact hstart.trans_le (hle x hx y (List.mem_singleton_self _))
        · intro p hp
          rw [trail_snoc, ← run_append, ← heq] at hp
          obtain hp | hp := List.mem_append.1 hp
          · exact h.quiet p hp
          · obtain rfl := List.mem_singleton.1 hp
            exact hdetects

/-- Between two hits the count stays below what sets the detector off. -/
theorem count_lt (width : Nat) (hlimit : 0 < limit) (times : List Nat) :
    ∀ v ∈ run (watch width limit) none times, v.count < limit := by
  induction times using List.reverseRecOn with
  | nil => simp
  | append_singleton times now ih =>
    intro v hv
    rw [run_snoc] at hv
    cases hdetects : detects width limit (run (watch width limit) none times) now with
    | true =>
      rw [watch, hdetects] at hv
      obtain rfl := Option.some.inj hv
      exact hlimit
    | false =>
      rw [watch_of_not_detects hdetects] at hv
      obtain rfl := Option.some.inj hv
      simpa [detects] using hdetects

/-- The count that sets the detector off. -/
theorem count_of_detects (hlimit : 0 < limit)
    (h : detects width limit (run (watch width limit) none times) now = true) :
    (windowAt width now (run (watch width limit) none times)).count + 1 = limit := by
  simp only [detects, decide_eq_true_eq] at h
  obtain ⟨hfresh, -⟩ | ⟨v, hv, hsame, -⟩ := windowAt_cases width now
    (run (watch width limit) none times)
  · rw [hfresh] at h ⊢
    dsimp only at h ⊢
    omega
  · have hless := count_lt width hlimit times v hv
    rw [hsame] at h ⊢
    omega

/-- The detector goes off at the last of as many hits as it waits for, all of them within the width
and none of them counted before. -/
theorem detected (hlimit : 0 < limit) (sorted : times.Pairwise (· ≤ ·))
    (h : detects width limit (run (watch width limit) none times) now = true) :
    ∃ before new, times = before ++ new ∧ new.length + 1 = limit ∧
      (∀ x ∈ new, now < x + width) ∧
      ∀ p ∈ trail (watch width limit) (run (watch width limit) none before) new,
        detects width limit p.1 p.2 = false := by
  have hcount := count_of_detects hlimit h
  obtain ⟨hfresh, -⟩ | ⟨v, hv, hsame, hnow⟩ := windowAt_cases width now
    (run (watch width limit) none times)
  · rw [hfresh] at hcount
    exact ⟨times, [], by simp, hcount, by simp, by simp⟩
  · obtain ⟨-, before, new, heq, hwatched⟩ := watched_run limit sorted v hv
    have hcounted := hwatched.counted
    rw [hsame] at hcount
    refine ⟨before, new, heq, by omega, fun x hx => ?_, hwatched.quiet⟩
    have hinside := hwatched.inside x hx
    omega

/-- A quiet run of hits within the width: the window that was open has at most all of them, or else
it was over at one of them, and the window opened there has the others. -/
theorem quiet_count {first : Nat}
    (inside : ∀ x ∈ times, first ≤ x ∧ x < first + width)
    (quiet : ∀ p ∈ trail (watch width limit) w times, detects width limit p.1 p.2 = false) :
    times = [] ∨ ∃ v, run (watch width limit) w times = some v ∧ v.count < limit ∧
      (times.length ≤ v.count ∨ (first ≤ v.start ∧ times.length + 1 ≤ v.count + limit)) := by
  induction times using List.reverseRecOn with
  | nil => exact .inl rfl
  | append_singleton times now ih =>
    have hinside : ∀ x ∈ times, first ≤ x ∧ x < first + width := fun x hx =>
      inside x (List.mem_append_left _ hx)
    have hnow := inside now (by simp)
    rw [trail_snoc] at quiet
    have hlast := quiet _ (List.mem_append_right _ (List.mem_singleton_self _))
    have hbefore := ih hinside fun p hp => quiet p (List.mem_append_left _ hp)
    right
    rw [run_snoc, watch_of_not_detects hlast]
    simp only [detects, decide_eq_false_iff_not, not_le] at hlast
    refine ⟨_, rfl, hlast, ?_⟩
    rw [List.length_append, List.length_singleton]
    obtain ⟨hfresh, hover⟩ | ⟨v, hv, hsame, -⟩ := windowAt_cases width now
      (run (watch width limit) w times)
    · rw [hfresh]
      obtain rfl | ⟨v, hv, hless, hcount | ⟨hstart, -⟩⟩ := hbefore
      · exact .inl (by simp)
      · exact .inr ⟨hnow.1, by dsimp only; omega⟩
      · have hpast := hover v hv
        omega
    · rw [hsame]
      obtain rfl | ⟨u, hu, -, hcount⟩ := hbefore
      · exact .inl (by simp)
      · obtain rfl := Option.some.inj (hu.symm.trans hv)
        obtain hcount | ⟨hstart, hcount⟩ := hcount
        · exact .inl (by dsimp only; omega)
        · exact .inr ⟨hstart, by dsimp only; omega⟩

/-- Among twice as many hits within the width, but for one, the detector goes off. -/
theorem exists_detects (before : List Nat) {new : List Nat} {first : Nat} (hlimit : 0 < limit)
    (inside : ∀ x ∈ new, first ≤ x ∧ x < first + width) (many : 2 * limit ≤ new.length + 1) :
    ∃ p ∈ trail (watch width limit) (run (watch width limit) none before) new,
      detects width limit p.1 p.2 = true := by
  by_contra hnone
  have hquiet : ∀ p ∈ trail (watch width limit) (run (watch width limit) none before) new,
      detects width limit p.1 p.2 = false := fun p hp => by
    rw [← Bool.not_eq_true]
    exact fun h => hnone ⟨p, hp, h⟩
  obtain rfl | ⟨v, -, hless, hcount⟩ := quiet_count inside hquiet
  · simp at many
    omega
  · omega

end Amana.Lib.FixedWindow
