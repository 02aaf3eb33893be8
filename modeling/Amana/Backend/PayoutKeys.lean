import Amana.Backend.DecimalAmounts
import Amana.Backend.PayoutIntents
import Amana.Lib.Joined

/-!
# Derived payout keys

The key of a payout that comes without one is a digest of its fields, put together as texts.  The
fields can be told apart in it, so the key says all of them (`derive_eq_iff`): also how the amount
is spelled.  A retry that spells the same amount in another way gets another key
(`derived_key_iff`).
-/

namespace Amana.Backend

open Lib

/-- A text that a joined text can be split into. -/
def Bare (text : String) : Prop := '|' ∉ text.toList

instance (text : String) : Decidable (Bare text) := inferInstanceAs (Decidable (¬ _))

/-- The fields of a payout that are texts of their own. -/
structure BareFields (input : PayoutIntentInput) : Prop where
  tradeId : Bare input.tradeId
  amountUsdc : Bare input.amountUsdc
  destination : Bare input.destination

/-- What a key is derived from. -/
def keyParts (input : PayoutIntentInput) : List String :=
  [input.kind.name, input.tradeId, (input.milestoneIndex.map toString).getD "-",
    input.amountUsdc, Text.toLowerCase input.destination]

theorem bare_toLowerCase {text : String} (bare : Bare text) : Bare (Text.toLowerCase text) := by
  intro hmem
  rw [Text.toList_toLowerCase, List.mem_map] at hmem
  obtain ⟨c, hc, hlower⟩ := hmem
  by_cases hupper : 'A'.val ≤ c.val ∧ c.val ≤ 'Z'.val
  · have hval : c.toLower.val = c.val + ('a'.val - 'A'.val) := congrArg Char.val (dif_pos hupper)
    rw [hlower] at hval
    grind [UInt32.toNat_add]
  · have hsame : c.toLower = c := dif_neg hupper
    rw [hsame] at hlower
    exact bare (hlower ▸ hc)

theorem bare_toString (n : Nat) : Bare (toString n) := by
  intro hmem
  simpa using List.all_eq_true.1 (Bool.and_eq_true_iff.1 (isNumeral_toString n)).2 '|' hmem

theorem bare_of_mem_keyParts {input : PayoutIntentInput} (bare : BareFields input) {part : String}
    (mem : part ∈ keyParts input) : Bare part := by
  simp only [keyParts, List.mem_cons, List.not_mem_nil, or_false] at mem
  obtain rfl | rfl | rfl | rfl | rfl := mem
  · cases input.kind <;> decide
  · exact bare.tradeId
  · cases input.milestoneIndex with
    | none => decide
    | some n => exact bare_toString n
  · exact bare.amountUsdc
  · exact bare_toLowerCase bare.destination

theorem milestone_inj {m n : Option Nat}
    (h : (m.map toString).getD "-" = (n.map toString).getD "-") : m = n := by
  have hdash : ∀ k : Nat, toString k ≠ "-" := by
    intro k heq
    exact head?_ne_sign (isNumeral_toString k) (by rw [heq]; rfl)
  cases m with
  | none =>
    cases n with
    | none => rfl
    | some k => exact absurd h.symm (hdash k)
  | some j =>
    cases n with
    | none => exact absurd h (hdash j)
    | some k =>
      have heq : toString j = toString k := h
      rw [← numeralValue_toString j, heq, numeralValue_toString]

theorem PayoutKind.name_inj {k l : PayoutKind} (h : k.name = l.name) : k = l := by
  revert h
  cases k <;> cases l <;> decide

variable {sha256 : String → String} {a b : PayoutIntentInput}

/-- A derived key says every field, and how the amount is spelled. -/
theorem derive_eq_iff (injective : Function.Injective sha256) (ha : BareFields a)
    (hb : BareFields b) :
    derivePayoutIdempotencyKey sha256 a = derivePayoutIdempotencyKey sha256 b ↔
      a.kind = b.kind ∧ a.tradeId = b.tradeId ∧ a.milestoneIndex = b.milestoneIndex ∧
        Text.toLowerCase a.destination = Text.toLowerCase b.destination ∧
        a.amountUsdc = b.amountUsdc := by
  constructor
  · intro h
    have hdigest : sha256 ("|".intercalate (keyParts a)) = sha256 ("|".intercalate (keyParts b)) := by
      have hlists := congrArg String.toList h
      rw [derivePayoutIdempotencyKey, derivePayoutIdempotencyKey, String.toList_append,
        String.toList_append] at hlists
      exact String.toList_injective (List.append_cancel_left hlists)
    have hparts := Lib.Joined.intercalate_inj rfl (fun _ => bare_of_mem_keyParts ha)
      (fun _ => bare_of_mem_keyParts hb) (by simp [keyParts]) (by simp [keyParts])
      (injective hdigest)
    simp only [keyParts, List.cons.injEq, and_true] at hparts
    obtain ⟨hkind, htrade, hmilestone, hamount, hdestination⟩ := hparts
    exact ⟨PayoutKind.name_inj hkind, htrade, milestone_inj hmilestone, hdestination, hamount⟩
  · rintro ⟨hkind, htrade, hmilestone, hdestination, hamount⟩
    simp only [derivePayoutIdempotencyKey, hkind, htrade, hmilestone, hdestination, hamount]

/-- One payout, whatever way its amount is spelled. -/
structure SamePayout (a b : PayoutIntentInput) : Prop where
  kind : a.kind = b.kind
  tradeId : a.tradeId = b.tradeId
  milestoneIndex : a.milestoneIndex = b.milestoneIndex
  destination : Text.toLowerCase a.destination = Text.toLowerCase b.destination
  amount : decimalValue (Text.trim a.amountUsdc) = decimalValue (Text.trim b.amountUsdc)

/-- Derived keys identify payouts, but for one payout whose amount is spelled in two ways. -/
theorem derived_key_iff (injective : Function.Injective sha256) (ha : BareFields a)
    (hb : BareFields b) :
    (derivePayoutIdempotencyKey sha256 a = derivePayoutIdempotencyKey sha256 b ↔ SamePayout a b) ↔
      ¬ (SamePayout a b ∧ a.amountUsdc ≠ b.amountUsdc) := by
  rw [derive_eq_iff injective ha hb]
  constructor
  · rintro hiff ⟨hsame, hspelled⟩
    exact hspelled (hiff.2 hsame).2.2.2.2
  · intro hspelled
    constructor
    · rintro ⟨hkind, htrade, hmilestone, hdestination, hamount⟩
      exact ⟨hkind, htrade, hmilestone, hdestination, by rw [hamount]⟩
    · intro hsame
      refine ⟨hsame.kind, hsame.tradeId, hsame.milestoneIndex, hsame.destination, ?_⟩
      by_contra hne
      exact hspelled ⟨hsame, hne⟩

/-- The release of a trade, for an amount as it is spelled. -/
def releaseOf (amountUsdc : String) : PayoutIntentInput :=
  ⟨none, .release, "4294967297", none, amountUsdc, "GSELLER", "GBUYER"⟩

theorem derived_key_iff_release :
    (derivePayoutIdempotencyKey id (releaseOf "1") = derivePayoutIdempotencyKey id (releaseOf "2") ↔
        SamePayout (releaseOf "1") (releaseOf "2")) ↔
      ¬ (SamePayout (releaseOf "1") (releaseOf "2") ∧
        (releaseOf "1").amountUsdc ≠ (releaseOf "2").amountUsdc) :=
  derived_key_iff Function.injective_id ⟨by decide, by decide, by decide⟩
    ⟨by decide, by decide, by decide⟩

/-- A retry that writes `1.0` for `1` is another payout. -/
theorem respelled_key :
    ¬ ∀ (sha256 : String → String) (a b : PayoutIntentInput), Function.Injective sha256 →
      BareFields a → BareFields b →
      decimalPattern (Text.trim a.amountUsdc).toList = true →
      decimalPattern (Text.trim b.amountUsdc).toList = true →
      (derivePayoutIdempotencyKey sha256 a = derivePayoutIdempotencyKey sha256 b ↔
        SamePayout a b) := by
  intro h
  have hkeys := (h id (releaseOf "1") (releaseOf "1.0") Function.injective_id
    ⟨by decide, by decide, by decide⟩ ⟨by decide, by decide, by decide⟩ (by decide) (by decide)).2
    ⟨rfl, rfl, rfl, rfl, by decide +kernel⟩
  revert hkeys
  decide +kernel

end Amana.Backend
