import Mathlib
import Amana.Lib.Bytes

/-!
# Encodings of bytes

The text of bytes in hexadecimal digits, and the decoder of UTF-8 that puts `U+FFFD` where the bytes
are no text.  Digits read back as their bytes (`fromHex_toHex`), and so do the bytes of a text
(`decodeUtf8_utf8`).
-/

namespace Amana.Lib.Encodings

open Bytes

/-! ## Hexadecimal digits -/

/-- The value of a hexadecimal digit in either case. -/
def digitValue (c : Char) : Option Nat :=
  if '0' ≤ c ∧ c ≤ '9' then some (c.toNat - 48)
  else if 'a' ≤ c ∧ c ≤ 'f' then some (c.toNat - 87)
  else if 'A' ≤ c ∧ c ≤ 'F' then some (c.toNat - 55)
  else none

/-- Two digits for every byte. -/
def toHex (bs : List UInt8) : List Char :=
  bs.flatMap fun b => [(b.toNat / 16).digitChar, (b.toNat % 16).digitChar]

/-- The bytes before the first pair that is not of two digits. -/
def fromHex : List Char → List UInt8
  | c :: d :: cs =>
    match digitValue c, digitValue d with
    | some x, some y => UInt8.ofNat (16 * x + y) :: fromHex cs
    | _, _ => []
  | _ => []

theorem digitValue_digitChar {n : Nat} (h : n < 16) : digitValue n.digitChar = some n := by
  revert n
  decide

theorem fromHex_toHex (bs : List UInt8) : fromHex (toHex bs) = bs := by
  induction bs with
  | nil => rfl
  | cons b bs ih =>
    have hlt := b.toNat_lt_size
    simp only [UInt8.size] at hlt
    rw [toHex, List.flatMap_cons, ← toHex]
    simp only [List.cons_append, List.nil_append, fromHex,
      digitValue_digitChar (show b.toNat / 16 < 16 by omega),
      digitValue_digitChar (show b.toNat % 16 < 16 by omega), Nat.div_add_mod, UInt8.ofNat_toNat, ih]

@[simp] theorem length_toHex (bs : List UInt8) : (toHex bs).length = 2 * bs.length := by
  simp [toHex, mul_comm]

@[simp] theorem toHex_eq_nil_iff {bs : List UInt8} : toHex bs = [] ↔ bs = [] := by
  rw [← List.length_eq_zero_iff, length_toHex, ← List.length_eq_zero_iff]
  omega

theorem isSome_of_mem_toHex {bs : List UInt8} {c : Char} (h : c ∈ toHex bs) :
    (digitValue c).isSome := by
  obtain ⟨b, -, hc⟩ := List.mem_flatMap.1 h
  have hlt := b.toNat_lt_size
  simp only [UInt8.size] at hlt
  have hsome (n : Nat) (hn : n < 16) : (digitValue n.digitChar).isSome := by
    rw [digitValue_digitChar hn]
    rfl
  simp only [List.mem_cons, List.not_mem_nil, or_false] at hc
  obtain rfl | rfl := hc
  · exact hsome _ (by omega)
  · exact hsome _ (by omega)

/-! ## UTF-8 -/

/-- A character of which some bytes are read: the number they make up, how many are to come, and
the range of the next one. -/
structure Begun where
  code : Nat
  needed : Nat
  lower : Nat
  upper : Nat

def replacementChar : Char := '\ufffd'

/-- A byte between two characters. -/
def opening (b : Nat) : List Char × Option Begun :=
  if b < 0x80 then ([Char.ofNat b], none)
  else if 0xc2 ≤ b ∧ b ≤ 0xdf then ([], some ⟨b - 0xc0, 1, 0x80, 0xbf⟩)
  else if 0xe0 ≤ b ∧ b ≤ 0xef then
    ([], some ⟨b - 0xe0, 2, if b = 0xe0 then 0xa0 else 0x80, if b = 0xed then 0x9f else 0xbf⟩)
  else if 0xf0 ≤ b ∧ b ≤ 0xf4 then
    ([], some ⟨b - 0xf0, 3, if b = 0xf0 then 0x90 else 0x80, if b = 0xf4 then 0x8f else 0xbf⟩)
  else ([replacementChar], none)

def decodeFrom : Option Begun → List UInt8 → List Char
  | none, [] => []
  | some _, [] => [replacementChar]
  | none, b :: bs => (opening b.toNat).1 ++ decodeFrom (opening b.toNat).2 bs
  | some q, b :: bs =>
    -- A byte that does not go on with the character is read again as one between two characters.
    if b.toNat < q.lower ∨ q.upper < b.toNat then
      replacementChar :: (opening b.toNat).1 ++ decodeFrom (opening b.toNat).2 bs
    else if q.needed = 1 then
      Char.ofNat (q.code * 64 + (b.toNat - 0x80)) :: decodeFrom none bs
    else
      decodeFrom (some ⟨q.code * 64 + (b.toNat - 0x80), q.needed - 1, 0x80, 0xbf⟩) bs

/-- The text of bytes. -/
def decodeUtf8 (bs : List UInt8) : String := String.ofList (decodeFrom none bs)

theorem toNat_ofNat_add {m n : Nat} (h : m + n < 256) : (UInt8.ofNat (m + n)).toNat = m + n :=
  UInt8.toNat_ofNat_of_lt' h

theorem decodeFrom_two {m : Nat} {bs : List UInt8} (low : 2 ≤ m) (high : m < 32) :
    decodeFrom none (UInt8.ofNat (m + 0xc0) :: bs) = decodeFrom (some ⟨m, 1, 0x80, 0xbf⟩) bs := by
  rw [decodeFrom, toNat_ofNat_add (by omega), opening, if_neg (by omega), if_pos (by omega),
    Nat.add_sub_cancel]
  rfl

theorem decodeFrom_three {m : Nat} {bs : List UInt8} (high : m < 16) :
    decodeFrom none (UInt8.ofNat (m + 0xe0) :: bs) =
      decodeFrom (some ⟨m, 2, if m = 0 then 0xa0 else 0x80, if m = 13 then 0x9f else 0xbf⟩) bs := by
  rw [decodeFrom, toNat_ofNat_add (by omega), opening, if_neg (by omega), if_neg (by omega),
    if_pos (by omega), Nat.add_sub_cancel]
  simp

theorem decodeFrom_four {m : Nat} {bs : List UInt8} (high : m < 5) :
    decodeFrom none (UInt8.ofNat (m + 0xf0) :: bs) =
      decodeFrom (some ⟨m, 3, if m = 0 then 0x90 else 0x80, if m = 4 then 0x8f else 0xbf⟩) bs := by
  rw [decodeFrom, toNat_ofNat_add (by omega), opening, if_neg (by omega), if_neg (by omega),
    if_neg (by omega), if_pos (by omega), Nat.add_sub_cancel]
  simp

theorem decodeFrom_next {q : Begun} {m : Nat} {bs : List UInt8} (high : m < 64)
    (range : q.lower ≤ m + 0x80 ∧ m + 0x80 ≤ q.upper) (needed : 1 < q.needed) :
    decodeFrom (some q) (UInt8.ofNat (m + 0x80) :: bs) =
      decodeFrom (some ⟨q.code * 64 + m, q.needed - 1, 0x80, 0xbf⟩) bs := by
  rw [decodeFrom, toNat_ofNat_add (by omega), if_neg (by omega), if_neg (by omega),
    Nat.add_sub_cancel]

theorem decodeFrom_last {q : Begun} {m : Nat} {bs : List UInt8} (high : m < 64)
    (range : q.lower ≤ m + 0x80 ∧ m + 0x80 ≤ q.upper) (needed : q.needed = 1) :
    decodeFrom (some q) (UInt8.ofNat (m + 0x80) :: bs) =
      Char.ofNat (q.code * 64 + m) :: decodeFrom none bs := by
  rw [decodeFrom, toNat_ofNat_add (by omega), if_neg (by omega), if_pos needed,
    Nat.add_sub_cancel]

theorem decodeFrom_utf8EncodeChar (c : Char) (bs : List UInt8) :
    decodeFrom none (String.utf8EncodeChar c ++ bs) = c :: decodeFrom none bs := by
  have hvalid : c.val.toNat < 0xd800 ∨ 0xdfff < c.val.toNat ∧ c.val.toNat < 0x110000 := c.valid
  have hchar : Char.ofNat c.val.toNat = c := Char.ofNat_toNat c
  unfold String.utf8EncodeChar
  generalize c.val.toNat = v at hvalid hchar
  simp only
  split
  · next hone =>
    have hbyte : (UInt8.ofNat v).toNat = v := toNat_ofNat_add (n := 0) (by omega)
    rw [List.singleton_append, decodeFrom, hbyte, opening, if_pos (by omega), hchar]
    rfl
  split
  · next htwo =>
    simp only [List.cons_append, List.nil_append]
    rw [decodeFrom_two (by omega) (by omega), decodeFrom_last (by omega) (by simp; omega) rfl,
      show v / 64 % 0x20 * 64 + v % 0x40 = v by omega, hchar]
  split
  · next hthree =>
    simp only [List.cons_append, List.nil_append]
    rw [decodeFrom_three (by omega), decodeFrom_next (by omega) (by dsimp only; grind) (by simp),
      decodeFrom_last (by omega) (by simp; omega) rfl,
      show (v / 4096 % 0x10 * 64 + v / 64 % 0x40) * 64 + v % 0x40 = v by omega, hchar]
  · next hfour =>
    simp only [List.cons_append, List.nil_append]
    rw [decodeFrom_four (by omega), decodeFrom_next (by omega) (by dsimp only; grind) (by simp),
      decodeFrom_next (by omega) (by simp; omega) (by simp),
      decodeFrom_last (by omega) (by simp; omega) rfl,
      show ((v / 262144 % 0x08 * 64 + v / 4096 % 0x40) * 64 + v / 64 % 0x40) * 64 + v % 0x40 = v
        by omega, hchar]

theorem decodeUtf8_utf8 (s : String) : decodeUtf8 (utf8 s) = s := by
  have h (cs : List Char) : decodeFrom none (cs.flatMap String.utf8EncodeChar) = cs := by
    induction cs with
    | nil => rfl
    | cons c cs ih => rw [List.flatMap_cons, decodeFrom_utf8EncodeChar, ih]
  rw [decodeUtf8, utf8, h, String.ofList_toList]

theorem length_le_length_utf8 (s : String) : s.length ≤ (utf8 s).length := by
  have hone (c : Char) : 1 ≤ (String.utf8EncodeChar c).length := by
    rw [String.length_utf8EncodeChar]
    exact Char.utf8Size_pos c
  have h (cs : List Char) : cs.length ≤ (cs.flatMap String.utf8EncodeChar).length := by
    induction cs with
    | nil => exact le_rfl
    | cons c cs ih =>
      rw [List.flatMap_cons, List.length_append, List.length_cons]
      have := hone c
      omega
  rw [← String.length_toList]
  exact h _

end Amana.Lib.Encodings
