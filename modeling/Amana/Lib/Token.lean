import Amana.Lib.MachineInt
import Mathlib.Data.List.Basic
import Mathlib.Tactic.Common

/-!
# Fungible tokens

A `Ledger` holds the balance of every account in every token, with the transfers made so far.
Balances are non-negative `i128` values by construction.  A transfer fails without the balance to
cover it and otherwise moves exactly its amount (`source_of_transfer`, `dest_of_transfer`).
-/

namespace Amana.Lib.Token

variable {A : Type}

/-- One movement of tokens. -/
structure Transfer (A : Type) where
  token : A
  source : A
  dest : A
  amount : Int
  deriving DecidableEq, Repr

/-- Balances by token and account, and the log of transfers. -/
structure Ledger (A : Type) where
  balance : A → A → Int
  transfers : List (Transfer A)
  balance_nonneg : ∀ t a, 0 ≤ balance t a
  balance_le : ∀ t a, balance t a ≤ I128.maxValue

/-- The transfers logged since an earlier ledger. -/
def Ledger.since (later earlier : Ledger A) : List (Transfer A) :=
  later.transfers.drop earlier.transfers.length

theorem since_of_append {l l' : Ledger A} {ms : List (Transfer A)}
    (h : l'.transfers = l.transfers ++ ms) : l'.since l = ms := by
  rw [Ledger.since, h, List.drop_left]

theorem since_self (l : Ledger A) : l.since l = [] := List.drop_length

variable [DecidableEq A]

/-- The balances after `amount` left `source` and reached `dest`. -/
def moved (balance : A → A → Int) (m : Transfer A) : A → A → Int := fun t a =>
  if t = m.token then
    balance t a - (if a = m.source then m.amount else 0) + (if a = m.dest then m.amount else 0)
  else balance t a

/-- The guards of a transfer: a non-negative amount, enough balance, no overflow at the
recipient. -/
def Covered (balance : A → A → Int) (m : Transfer A) : Prop :=
  0 ≤ m.amount ∧ m.amount ≤ balance m.token m.source ∧
    (m.source = m.dest ∨ balance m.token m.dest + m.amount ≤ I128.maxValue)

instance (balance : A → A → Int) (m : Transfer A) : Decidable (Covered balance m) :=
  inferInstanceAs (Decidable (_ ∧ _ ∧ _))

theorem moved_nonneg (l : Ledger A) {m : Transfer A} (h : Covered l.balance m) (t a : A) :
    0 ≤ moved l.balance m t a := by
  have hb := l.balance_nonneg t a
  obtain ⟨hpos, hsrc, -⟩ := h
  unfold moved
  split_ifs with ht hs hd hd
  · omega
  · subst ht hs
    omega
  · omega
  · omega
  · exact hb

theorem moved_le (l : Ledger A) {m : Transfer A} (h : Covered l.balance m) (t a : A) :
    moved l.balance m t a ≤ I128.maxValue := by
  have hb := l.balance_le t a
  obtain ⟨hpos, -, hdst⟩ := h
  unfold moved
  split_ifs with ht hs hd hd
  · omega
  · omega
  · subst ht hd
    rcases hdst with e | hle
    · exact absurd e.symm hs
    · omega
  · omega
  · exact hb

/-- `transfer` of the token interface. -/
def transfer (l : Ledger A) (m : Transfer A) : Option (Ledger A) :=
  if h : Covered l.balance m then
    some ⟨moved l.balance m, l.transfers ++ [m], moved_nonneg l h, moved_le l h⟩
  else none

/-- A transfer that is only made when its amount is positive. -/
def pay (l : Ledger A) (m : Transfer A) : Option (Ledger A) :=
  if m.amount > 0 then transfer l m else some l

/-- Issue new tokens to an account. -/
def mint (l : Ledger A) (token dest : A) (amount : Int) : Option (Ledger A) :=
  if h : 0 ≤ amount ∧ l.balance token dest + amount ≤ I128.maxValue then
    some
      { balance := fun t a =>
          if t = token ∧ a = dest then l.balance t a + amount else l.balance t a
        transfers := l.transfers
        balance_nonneg := fun t a => by
          have := l.balance_nonneg t a
          split <;> omega
        balance_le := fun t a => by
          have := l.balance_le t a
          split
          · next e => obtain ⟨rfl, rfl⟩ := e; exact h.2
          · exact this }
  else none

/-- Destroy tokens of an account. -/
def burn (l : Ledger A) (token source : A) (amount : Int) : Option (Ledger A) :=
  if h : 0 ≤ amount ∧ amount ≤ l.balance token source then
    some
      { balance := fun t a =>
          if t = token ∧ a = source then l.balance t a - amount else l.balance t a
        transfers := l.transfers
        balance_nonneg := fun t a => by
          have := l.balance_nonneg t a
          split
          · next e => obtain ⟨rfl, rfl⟩ := e; omega
          · exact this
        balance_le := fun t a => by
          have := l.balance_le t a
          split <;> omega }
  else none

/-- What a successful transfer did. -/
theorem transfer_eq_some_iff {l l' : Ledger A} {m : Transfer A} :
    transfer l m = some l' ↔
      Covered l.balance m ∧ l'.balance = moved l.balance m ∧ l'.transfers = l.transfers ++ [m] := by
  unfold transfer
  constructor
  · intro h
    split at h
    · next hc =>
      cases h
      exact ⟨hc, rfl, rfl⟩
    · cases h
  · rintro ⟨hc, hb, ht⟩
    rw [dif_pos hc]
    cases l'
    subst hb ht
    rfl

section Balances

variable {l l' : Ledger A} {m : Transfer A}

theorem balance_of_transfer (h : transfer l m = some l') :
    l'.balance = moved l.balance m := (transfer_eq_some_iff.1 h).2.1

theorem transfers_of_transfer (h : transfer l m = some l') : l'.transfers = l.transfers ++ [m] :=
  (transfer_eq_some_iff.1 h).2.2

/-- The source loses the amount, unless it pays itself. -/
theorem source_of_transfer (h : transfer l m = some l') :
    l'.balance m.token m.source =
      l.balance m.token m.source - if m.dest = m.source then 0 else m.amount := by
  rw [balance_of_transfer h, moved, if_pos rfl, if_pos rfl]
  by_cases e : m.dest = m.source
  · rw [if_pos e.symm, if_pos e]
    omega
  · rw [if_neg (Ne.symm e), if_neg e]
    omega

theorem dest_of_transfer (h : transfer l m = some l') (hne : m.source ≠ m.dest) :
    l'.balance m.token m.dest = l.balance m.token m.dest + m.amount := by
  rw [balance_of_transfer h, moved, if_pos rfl, if_neg hne.symm, if_pos rfl]
  omega

/-- Nobody but the source loses by a transfer. -/
theorem le_of_transfer (h : transfer l m = some l') (t : A) {a : A} (hne : a ≠ m.source) :
    l.balance t a ≤ l'.balance t a := by
  have hpos := (transfer_eq_some_iff.1 h).1.1
  rw [balance_of_transfer h, moved]
  split_ifs <;> omega

theorem source_of_pay (h : pay l m = some l') (hpos : 0 ≤ m.amount) :
    l'.balance m.token m.source =
      l.balance m.token m.source - if m.dest = m.source then 0 else m.amount := by
  unfold pay at h
  split at h
  · exact source_of_transfer h
  · next hzero =>
    have hzero : m.amount = 0 := by omega
    cases h
    simp [hzero]

theorem transfers_of_pay (h : pay l m = some l') :
    l'.transfers = l.transfers ++ if m.amount > 0 then [m] else [] := by
  unfold pay at h
  split at h
  · next hpos => rw [transfers_of_transfer h, if_pos hpos]
  · next hzero =>
    cases h
    rw [if_neg hzero, List.append_nil]

theorem balance_of_mint {token dest : A} {amount : Int} (h : mint l token dest amount = some l')
    (t a : A) :
    l'.balance t a = l.balance t a + if t = token ∧ a = dest then amount else 0 := by
  unfold mint at h
  split at h
  · cases h
    dsimp only
    split <;> omega
  · cases h

theorem le_of_mint {token dest : A} {amount : Int} (h : mint l token dest amount = some l')
    (t a : A) : l.balance t a ≤ l'.balance t a := by
  have hpos : 0 ≤ amount := by
    unfold mint at h
    split at h
    · next hok => exact hok.1
    · cases h
  rw [balance_of_mint h]
  split <;> omega

theorem balance_of_burn {token source : A} {amount : Int}
    (h : burn l token source amount = some l') (t : A) {a : A} (hne : a ≠ source) :
    l'.balance t a = l.balance t a := by
  unfold burn at h
  split at h
  · cases h
    exact if_neg fun e => hne e.2
  · cases h

theorem transfers_of_mint {token dest : A} {amount : Int}
    (h : mint l token dest amount = some l') : l'.transfers = l.transfers := by
  unfold mint at h
  split at h
  · cases h
    rfl
  · cases h

theorem transfers_of_burn {token source : A} {amount : Int}
    (h : burn l token source amount = some l') : l'.transfers = l.transfers := by
  unfold burn at h
  split at h
  · cases h
    rfl
  · cases h

end Balances

end Amana.Lib.Token
