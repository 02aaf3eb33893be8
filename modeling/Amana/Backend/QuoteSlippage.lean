import Amana.Backend.Numbers
import Mathlib.Algebra.Order.AbsoluteValue.Basic
import Mathlib.Tactic.Linarith

/-!
# The slippage of a quote

A path payment is executed on a cached quote if a fresh one does not deviate by more than so many
basis points.  `isQuoteWithinSlippage` reads the amounts with `BigInt`, which throws at a point, and
drops what is left of a basis point.  So it is right for whole amounts and a whole number of basis
points, unless the deviation is less than one basis point too large (`slippage_guard_iff`).
-/

namespace Amana.Backend

/-- Of a quote, what the guard reads. -/
structure Quote where
  destinationAmount : String
  deriving DecidableEq, Repr

structure CachedQuote where
  quotes : List Quote
  deriving DecidableEq, Repr

/-- `none` where `BigInt` throws. -/
def isQuoteWithinSlippage (cached : CachedQuote) (freshDestinationAmount : String)
    (maxSlippageBps : ℚ) : Option Bool :=
  match cached.quotes with
  | [] => some false
  | quote :: _ => do
    let cachedDest ← bigInt quote.destinationAmount
    let freshDest ← bigInt freshDestinationAmount
    if freshDest = 0 then some false
    else
      let deviation :=
        if freshDest < cachedDest then (cachedDest - freshDest) * 10000
        else (freshDest - cachedDest) * 10000
      let slippageBps := deviation.tdiv freshDest
      let maxSlippage ← bigIntOfNumber maxSlippageBps
      some (decide (slippageBps ≤ maxSlippage))

/-- The deviation is within `maxSlippageBps` basis points of the fresh amount. -/
def WithinSlippage (cached fresh maxSlippageBps : ℚ) : Prop :=
  |fresh - cached| * 10000 ≤ maxSlippageBps * fresh

instance (cached fresh maxSlippageBps : ℚ) : Decidable (WithinSlippage cached fresh maxSlippageBps) :=
  inferInstanceAs (Decidable (_ ≤ _))

/-- The deviation is too large by less than one basis point. -/
def BarelyOver (cached fresh maxSlippageBps : ℚ) : Prop :=
  maxSlippageBps * fresh < |fresh - cached| * 10000 ∧
    |fresh - cached| * 10000 < (maxSlippageBps + 1) * fresh

/-- A quotient is at most `m` if the dividend stays below the next multiple. -/
theorem tdiv_le_iff {d f m : Int} (nonneg : 0 ≤ d) (positive : 0 < f) :
    d.tdiv f ≤ m ↔ d < (m + 1) * f := by
  rw [Int.tdiv_eq_ediv_of_nonneg nonneg, ← Int.lt_add_one_iff, Int.ediv_lt_iff_lt_mul positive]

variable {cached : CachedQuote} {quote : Quote} {rest : List Quote} {fresh : String} {max : ℚ}

/-- The guard of whole amounts. -/
theorem isQuoteWithinSlippage_of_whole {c f m : Int} (quotes : cached.quotes = quote :: rest)
    (hc : bigInt quote.destinationAmount = some c) (hf : bigInt fresh = some f) (positive : 0 < f)
    (hm : bigIntOfNumber max = some m) :
    isQuoteWithinSlippage cached fresh max =
      some (decide (|(f : ℚ) - c| * 10000 < (m + 1) * f)) := by
  have hdeviation : (if f < c then (c - f) * 10000 else (f - c) * 10000) = |f - c| * 10000 := by
    split
    · next h => rw [abs_sub_comm, abs_of_pos (by omega)]
    · next h => rw [abs_of_nonneg (by omega)]
  simp only [isQuoteWithinSlippage, quotes, hc, hf, hm, Option.bind_eq_bind, Option.bind_some,
    if_neg positive.ne', hdeviation]
  rw [Option.some.injEq, decide_eq_decide, tdiv_le_iff (by positivity) positive]
  exact_mod_cast Iff.rfl

theorem bigIntOfNumber_eq_some {q : ℚ} {m : Int} :
    bigIntOfNumber q = some m ↔ q = m := by
  unfold bigIntOfNumber
  constructor
  · intro h
    split at h
    · next hint =>
      rw [← Option.some.inj h]
      exact (Rat.den_eq_one_iff q).1 (by simpa [Rat.isInt] using hint) |>.symm
    · cases h
  · rintro rfl
    simp [Rat.isInt]

/-- The value that is read is the one the text stands for. -/
theorem cast_of_bigInt {text : String} {decimals : Nat} {n : Int}
    (decimal : IsDecimal decimals text) (h : bigInt text = some n) : (n : ℚ) = decimalValue text := by
  have hwhole := (bigInt_isSome_iff decimal).1 (by rw [h]; rfl)
  obtain ⟨m, hm, hvalue⟩ := bigInt_of_isDecimal decimal hwhole
  rw [Option.some.inj (h.symm.trans hm), hvalue]

/-- Where the guard answers, it has read both amounts and the bound. -/
theorem reads_of_answer {answer : Bool} (quotes : cached.quotes = quote :: rest)
    (freshDecimal : IsDecimal 7 fresh) (freshPositive : 0 < decimalValue fresh)
    (h : isQuoteWithinSlippage cached fresh max = some answer) :
    ∃ c f m : Int, bigInt quote.destinationAmount = some c ∧ bigInt fresh = some f ∧ 0 < f ∧
      bigIntOfNumber max = some m := by
  simp only [isQuoteWithinSlippage, quotes, Option.bind_eq_bind, Option.bind_eq_some_iff] at h
  obtain ⟨c, hc, f, hf, h⟩ := h
  have hpositive : 0 < f := by
    have hvalue := cast_of_bigInt freshDecimal hf
    rw [← hvalue] at freshPositive
    exact_mod_cast freshPositive
  rw [if_neg hpositive.ne', Option.bind_eq_some_iff] at h
  obtain ⟨m, hm, -⟩ := h
  exact ⟨c, f, m, hc, hf, hpositive, hm⟩

/-- For positive amounts the guard decides the slippage just when they and the bound are whole, and
the deviation is not barely over it. -/
theorem slippage_guard_iff (quotes : cached.quotes = quote :: rest)
    (cachedDecimal : IsDecimal 7 quote.destinationAmount)
    (freshDecimal : IsDecimal 7 fresh) (freshPositive : 0 < decimalValue fresh) :
    isQuoteWithinSlippage cached fresh max =
        some (decide (WithinSlippage (decimalValue quote.destinationAmount) (decimalValue fresh)
          max)) ↔
      '.' ∉ quote.destinationAmount.toList ∧ '.' ∉ fresh.toList ∧ (∃ m : Int, max = m) ∧
        ¬ BarelyOver (decimalValue quote.destinationAmount) (decimalValue fresh) max := by
  have hdecides : ∀ c f m : Int, bigInt quote.destinationAmount = some c → bigInt fresh = some f →
      0 < f → bigIntOfNumber max = some m →
      (isQuoteWithinSlippage cached fresh max =
          some (decide (WithinSlippage (decimalValue quote.destinationAmount) (decimalValue fresh)
            max)) ↔
        ¬ BarelyOver (decimalValue quote.destinationAmount) (decimalValue fresh) max) := by
    intro c f m hc hf hpositive hm
    have hlt : (m : ℚ) * f < (m + 1) * f := by
      have hcast : (0 : ℚ) < f := by exact_mod_cast hpositive
      linarith
    rw [isQuoteWithinSlippage_of_whole quotes hc hf hpositive hm, Option.some.injEq,
      decide_eq_decide, ← cast_of_bigInt cachedDecimal hc, ← cast_of_bigInt freshDecimal hf,
      bigIntOfNumber_eq_some.1 hm, WithinSlippage, BarelyOver]
    constructor
    · rintro hiff ⟨hover, hunder⟩
      exact absurd (hiff.1 hunder) (not_le.2 hover)
    · intro hbarely
      constructor
      · intro hunder
        by_contra hover
        exact hbarely ⟨not_le.1 hover, hunder⟩
      · exact fun hwithin => hwithin.trans_lt hlt
  constructor
  · intro h
    obtain ⟨c, f, m, hc, hf, hpositive, hm⟩ :=
      reads_of_answer quotes freshDecimal freshPositive h
    exact ⟨(bigInt_isSome_iff cachedDecimal).1 (by rw [hc]; rfl),
      (bigInt_isSome_iff freshDecimal).1 (by rw [hf]; rfl), ⟨m, bigIntOfNumber_eq_some.1 hm⟩,
      (hdecides c f m hc hf hpositive hm).1 h⟩
  · rintro ⟨hcached, hfresh, ⟨m, hm⟩, hbarely⟩
    obtain ⟨c, hc, -⟩ := bigInt_of_isDecimal cachedDecimal hcached
    obtain ⟨f, hf, hvalue⟩ := bigInt_of_isDecimal freshDecimal hfresh
    rw [← hvalue] at freshPositive
    exact (hdecides c f m hc hf (by exact_mod_cast freshPositive)
      (bigIntOfNumber_eq_some.2 hm)).2 hbarely

theorem slippage_guard_iff_whole :
    isQuoteWithinSlippage ⟨[⟨"105"⟩]⟩ "100" 500 =
        some (decide (WithinSlippage (decimalValue "105") (decimalValue "100") 500)) ↔
      '.' ∉ "105".toList ∧ '.' ∉ "100".toList ∧ (∃ m : Int, (500 : ℚ) = m) ∧
        ¬ BarelyOver (decimalValue "105") (decimalValue "100") 500 :=
  slippage_guard_iff rfl (by decide) (by decide) (by decide +kernel)

/-- Horizon writes amounts with a point. -/
theorem point_stops_guard :
    ¬ ∀ (cached : CachedQuote) (quote : Quote) (rest : List Quote) (fresh : String) (max : ℚ),
      cached.quotes = quote :: rest → IsDecimal 7 quote.destinationAmount →
      0 < decimalValue quote.destinationAmount → IsDecimal 7 fresh → 0 < decimalValue fresh →
      0 ≤ max →
      isQuoteWithinSlippage cached fresh max =
        some (decide (WithinSlippage (decimalValue quote.destinationAmount) (decimalValue fresh)
          max)) := by
  intro h
  have hguard := h ⟨[⟨"0.6250000"⟩]⟩ ⟨"0.6250000"⟩ [] "0.6250000" 500 rfl (by decide)
    (by decide +kernel) (by decide) (by decide +kernel) (by decide)
  revert hguard
  decide +kernel

/-- A deviation of a hundredth of a basis point, of which none is allowed. -/
example : isQuoteWithinSlippage ⟨[⟨"1000001"⟩]⟩ "1000000" 0 = some true ∧
    ¬ WithinSlippage (decimalValue "1000001") (decimalValue "1000000") 0 := by
  decide +kernel

end Amana.Backend
