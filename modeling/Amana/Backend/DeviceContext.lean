import Amana.Backend.Money
import Amana.Lib.Joined
import Amana.Lib.TopBits

/-!
# The network of a device

`deviceContext.ts` puts the address of a request into a class by its first bits.  The class of a
dotted quad is made of one number of 32 bits, that of an IPv6 address of eight groups of sixteen,
each masked on its own; either way two addresses share a class exactly when they agree on the bits
asked for (`prefix_classes`).
-/

namespace Amana.Backend

open Lib
open Lib.Joined (splitOnPair)
open Lib.TopBits (topBits keep keepDigits number)

/-! ## The source -/

/-- `Number.parseInt(text, 10)`; `none` stands for `NaN`. -/
def parseDecimalInt (text : List Char) : Option Int :=
  let text := text.dropWhile Text.isBlank
  let unsigned := if text.head? = some '-' ∨ text.head? = some '+' then text.tail else text
  let digits := unsigned.takeWhile Char.isDigit
  if digits = [] then none
  else some (if text.head? = some '-' then -(numeralValue digits : Int) else numeralValue digits)

/-- The octets of an address as one number of 32 bits. -/
def octetsToInt (o0 o1 o2 o3 : Int) : BitVec 32 :=
  BitVec.ofInt 32 o0 <<< 24 ||| BitVec.ofInt 32 o1 <<< 16 ||| BitVec.ofInt 32 o2 <<< 8 |||
    BitVec.ofInt 32 o3

def v4Mask (bits : Int) : BitVec 32 :=
  if bits ≤ 0 then 0
  else if 32 ≤ bits then 0xffffffff#32
  else 0xffffffff#32 <<< (32 - bits).toNat

def dotted (m : BitVec 32) : String :=
  ".".intercalate ([m >>> 24 &&& 255#32, m >>> 16 &&& 255#32, m >>> 8 &&& 255#32, m &&& 255#32].map
    fun octet => toString octet.toNat)

def maskV4 (addr : List Char) (bits : Int) : Option String :=
  match (addr.splitOn '.').map parseDecimalInt with
  | [some o0, some o1, some o2, some o3] =>
    if [o0, o1, o2, o3].any fun o => o < 0 ∨ 255 < o then none
    else some (dotted (octetsToInt o0 o1 o2 o3 &&& v4Mask bits))
  | _ => none

/-- A digit of `/[0-9a-fA-F]/`. -/
def hexDigit (c : Char) : Option Nat :=
  if c.isDigit then some (c.toNat - '0'.toNat)
  else if 'a' ≤ c ∧ c ≤ 'f' then some (c.toNat - 'a'.toNat + 10)
  else if 'A' ≤ c ∧ c ≤ 'F' then some (c.toNat - 'A'.toNat + 10)
  else none

/-- `Number.parseInt(text, 16)` of a text of such digits. -/
def hexValue (text : List Char) : Nat := Nat.ofDigits 16 (text.filterMap hexDigit).reverse

/-- `/^[0-9a-fA-F]{1,4}$/`. -/
def isHextet (text : List Char) : Bool :=
  1 ≤ text.length && text.length ≤ 4 && text.all fun c => (hexDigit c).isSome

/-- `replace(/^\[|\]$/g, "")`. -/
def withoutBrackets (text : List Char) : List Char :=
  let text := if text.head? = some '[' then text.tail else text
  if text.getLast? = some ']' then text.dropLast else text

/-- What is between the colons; nothing in a text that is empty. -/
def groupsOf (half : List Char) : List (List Char) := if half = [] then [] else half.splitOn ':'

def expandV6 (addr : List Char) : Option (List Nat) :=
  let a := (withoutBrackets addr).takeWhile fun c => c ≠ '%'
  let groups := match splitOnPair ':' a with
    | [whole] => some (groupsOf whole)
    | [head, tail] =>
      if 8 < (groupsOf head).length + (groupsOf tail).length then none
      else
        let missing := 8 - (groupsOf head).length - (groupsOf tail).length
        some (groupsOf head ++ List.replicate missing ['0'] ++ groupsOf tail)
    | _ => none
  groups.bind fun groups =>
    if groups.length = 8 ∧ groups.all isHextet then some (groups.map hexValue) else none

def maskGroup (bits groupStart group : Nat) : Nat :=
  if bits ≤ groupStart then 0
  else if bits - groupStart < 16 then
    group &&& ((0xffff <<< (16 - (bits - groupStart))) &&& 0xffff)
  else group

def maskV6 (groups : List Nat) (bits : Nat) : String :=
  ":".intercalate ((groups.mapIdx fun i group => maskGroup bits (i * 16) group).map fun h =>
    String.ofList (Nat.toDigits 16 h))

def mappedPrefix : List Char := "::ffff:".toList

def ipPrefixClass (ip : Option String) (v4Bits v6Bits : Int) : String :=
  match ip with
  | none => "unknown"
  | some ip =>
    if ip = "" then "unknown"
    else
      let trimmed := (Text.trim ip).toList
      let addr := if mappedPrefix.isPrefixOf trimmed && trimmed.contains '.'
        then trimmed.drop mappedPrefix.length else trimmed
      if addr.contains '.' && !addr.contains ':' then
        match maskV4 addr v4Bits with
        | some masked => "v4/" ++ masked ++ "/" ++ toString v4Bits
        | none => "unknown"
      else if addr.contains ':' then
        match expandV6 addr with
        | some groups =>
          "v6/" ++ maskV6 groups (min (max v6Bits 0) 128).toNat ++ "/" ++ toString v6Bits
        | none => "unknown"
      else "unknown"

/-! ## Dotted quads -/

/-- The text of an IPv4 address: four decimal numbers, also after the prefix that maps it to
IPv6. -/
structure DottedQuad where
  octets : List (List Char)
  four : octets.length = 4
  numerals : ∀ octet ∈ octets, isNumeral octet = true ∧ numeralValue octet < 2 ^ 8
  mapped : Bool

namespace DottedQuad

variable (q : DottedQuad)

def plain : List Char := ['.'].intercalate q.octets

def text : String := String.ofList (if q.mapped then mappedPrefix ++ q.plain else q.plain)

/-- The address of 32 bits. -/
def address : Nat := number 8 (q.octets.map numeralValue)

end DottedQuad

theorem parseDecimalInt_of_isNumeral {cs : List Char} (h : isNumeral cs = true) :
    parseDecimalInt cs = some (numeralValue cs : Int) := by
  have hdigits := List.all_eq_true.1 (digits_of_isNumeral h)
  have hne : cs ≠ [] := by
    rintro rfl
    cases h
  have hdrop : cs.dropWhile Text.isBlank = cs := by
    rw [List.dropWhile_eq_self_iff]
    intro hlt
    simp [isBlank_of_isDigit (hdigits _ (List.getElem_mem hlt))]
  have htake : cs.takeWhile Char.isDigit = cs := List.takeWhile_eq_self_iff.2 hdigits
  have hplus : cs.head? ≠ some '+' := by
    intro hsign
    exact absurd (hdigits _ (List.mem_of_head? hsign)) (by decide)
  rw [parseDecimalInt, hdrop]
  simp only [head?_ne_sign h, hplus, or_self, if_false, htake, hne]

theorem shiftLeft_or {x y k : Nat} (hy : y < 2 ^ k) : x <<< k ||| y = x * 2 ^ k + y := by
  rw [Nat.shiftLeft_eq, Nat.mul_comm, Nat.two_pow_add_eq_or_of_lt hy]

theorem toNat_octetsToInt {a b c d : Nat} (ha : a < 2 ^ 8) (hb : b < 2 ^ 8) (hc : c < 2 ^ 8)
    (hd : d < 2 ^ 8) : (octetsToInt a b c d).toNat = number 8 [a, b, c, d] := by
  have hnumber : number 8 [a, b, c, d] = a * 2 ^ 24 + (b * 2 ^ 16 + (c * 2 ^ 8 + d)) := by
    simp only [TopBits.number_cons, List.length_cons, List.length_nil]
    simp [number]
  have hshifted : ∀ {x k : Nat}, x < 2 ^ 8 → k ≤ 24 → x <<< k % 2 ^ 32 = x <<< k := by
    intro x k hx hk
    rw [Nat.shiftLeft_eq]
    refine Nat.mod_eq_of_lt ?_
    calc x * 2 ^ k < 2 ^ 8 * 2 ^ k := Nat.mul_lt_mul_of_pos_right hx (Nat.two_pow_pos k)
      _ ≤ 2 ^ 8 * 2 ^ 24 := Nat.mul_le_mul_left _ (Nat.pow_le_pow_right (by decide) hk)
  simp only [octetsToInt, BitVec.ofInt_natCast, BitVec.toNat_or, BitVec.toNat_shiftLeft,
    BitVec.toNat_ofNat, Nat.or_assoc]
  rw [Nat.mod_eq_of_lt (by omega : d < 2 ^ 32), Nat.mod_eq_of_lt (by omega : c < 2 ^ 32),
    Nat.mod_eq_of_lt (by omega : b < 2 ^ 32), Nat.mod_eq_of_lt (by omega : a < 2 ^ 32),
    hshifted ha (by omega), hshifted hb (by omega), hshifted hc (by omega), shiftLeft_or hd,
    shiftLeft_or (by omega : c * 2 ^ 8 + d < 2 ^ 16),
    shiftLeft_or (by omega : b * 2 ^ 16 + (c * 2 ^ 8 + d) < 2 ^ 24), hnumber]

theorem toNat_and_v4Mask (word : BitVec 32) {bits : Nat} (h : bits ≤ 32) :
    (word &&& v4Mask bits).toNat = keep 32 bits word.toNat := by
  have hmask : (v4Mask bits).toNat = (2 ^ 32 - 1) <<< (32 - bits) % 2 ^ 32 := by
    unfold v4Mask
    split
    · obtain rfl : bits = 0 := by omega
      rfl
    · split
      · obtain rfl : bits = 32 := by omega
        rfl
      · rw [BitVec.toNat_shiftLeft, show ((32 : Int) - bits).toNat = 32 - bits by omega]
        rfl
  rw [BitVec.toNat_and, hmask, TopBits.and_mask word.isLt]

theorem toNat_octet (m : BitVec 32) (k : Nat) :
    (m >>> k &&& 255#32).toNat = m.toNat / 2 ^ k % 256 := by
  rw [BitVec.toNat_and, BitVec.toNat_ushiftRight, Nat.shiftRight_eq_div_pow]
  exact Nat.and_two_pow_sub_one_eq_mod _ 8

theorem dotted_inj {m n : BitVec 32} (h : dotted m = dotted n) : m = n := by
  have hbare : ∀ octets : List (BitVec 32), ∀ x ∈ octets.map fun octet => toString octet.toNat,
      '.' ∉ x.toList := by
    intro octets x hx hpoint
    obtain ⟨octet, -, rfl⟩ := List.mem_map.1 hx
    simpa using point_not_mem_of_isNumeral (isNumeral_toString _) _ hpoint
  have hparts := Joined.intercalate_inj (c := '.') rfl (hbare _) (hbare _) (by simp) (by simp) h
  have hvalues := congrArg (List.map fun s => numeralValue s.toList) hparts
  simp only [List.map_cons, List.map_nil, numeralValue_toString, toNat_octet, List.cons.injEq,
    and_true] at hvalues
  obtain ⟨h24, h16, h8, h0⟩ := hvalues
  have hlast : ∀ k : BitVec 32, (k &&& 255#32).toNat = k.toNat % 256 := fun k => by
    simpa using toNat_octet k 0
  rw [hlast, hlast] at h0
  have hm := m.isLt
  have hn := n.isLt
  exact BitVec.eq_of_toNat_eq (by omega)

namespace DottedQuad

variable (q : DottedQuad)

theorem address_lt : q.address < 2 ^ 32 := by
  have hoctets : ∀ d ∈ q.octets.map numeralValue, d < 2 ^ 8 := by
    intro d hd
    obtain ⟨octet, hoctet, rfl⟩ := List.mem_map.1 hd
    exact (q.numerals octet hoctet).2
  have hlt := TopBits.number_lt hoctets
  rwa [List.length_map, q.four] at hlt

theorem maskV4_plain (bits : Int) :
    maskV4 q.plain bits = some (dotted (BitVec.ofNat 32 q.address &&& v4Mask bits)) := by
  have hsplit : q.plain.splitOn '.' = q.octets := by
    apply List.splitOn_intercalate
    · intro octet hoctet hpoint
      simpa using point_not_mem_of_isNumeral (q.numerals octet hoctet).1 _ hpoint
    · intro hnil
      have hfour := q.four
      rw [hnil] at hfour
      cases hfour
  have hparse : q.octets.map parseDecimalInt =
      q.octets.map fun octet => some (numeralValue octet : Int) :=
    List.map_congr_left fun octet h => parseDecimalInt_of_isNumeral (q.numerals octet h).1
  rw [maskV4, hsplit, hparse]
  obtain ⟨octets, four, numerals, mapped⟩ := q
  match octets, four with
  | [a, b, c, d], _ =>
    simp only [List.forall_mem_cons] at numerals
    obtain ⟨⟨-, ha⟩, ⟨-, hb⟩, ⟨-, hc⟩, ⟨-, hd⟩, -⟩ := numerals
    have hword : octetsToInt (numeralValue a) (numeralValue b) (numeralValue c) (numeralValue d) =
        BitVec.ofNat 32
          (number 8 [numeralValue a, numeralValue b, numeralValue c, numeralValue d]) := by
      rw [← toNat_octetsToInt ha hb hc hd, BitVec.ofNat_toNat, BitVec.setWidth_eq]
    simp only [List.map_cons, List.map_nil, address, ← hword]
    rw [if_neg]
    simp only [List.any_cons, List.any_nil, Bool.or_false, Bool.or_eq_true, decide_eq_true_eq]
    omega

theorem digit_or_point {c : Char} (h : c ∈ q.plain) : c.isDigit = true ∨ c = '.' := by
  obtain h | ⟨octet, hoctet, h⟩ := Joined.mem_intercalate h
  · exact .inr h
  · exact .inl (List.all_eq_true.1 (digits_of_isNumeral (q.numerals octet hoctet).1) c h)

theorem contains_point : q.plain.contains '.' = true := by
  obtain ⟨octets, four, numerals, mapped⟩ := q
  match octets, four with
  | [a, b, c, d], _ => simp [plain, List.intercalate]

theorem contains_colon : q.plain.contains ':' = false := by
  rw [Bool.eq_false_iff]
  intro h
  obtain h | h := q.digit_or_point (List.contains_iff_mem.1 h)
  · exact absurd h (by decide)
  · exact absurd h (by decide)

theorem trim_text : Text.trim q.text = q.text := by
  apply Text.trim_of_forall
  have hplain : ∀ c ∈ q.plain, Text.isBlank c = false := by
    intro c h
    obtain h | rfl := q.digit_or_point h
    · exact isBlank_of_isDigit h
    · decide
  have hmapped : (mappedPrefix.all fun c => !Text.isBlank c) = true := by decide
  intro c h
  rw [text, String.toList_ofList] at h
  split at h
  · obtain h | h := List.mem_append.1 h
    · simpa using List.all_eq_true.1 hmapped c h
    · exact hplain c h
  · exact hplain c h

theorem ipPrefixClass_text (v4Bits v6Bits : Int) :
    ipPrefixClass (some q.text) v4Bits v6Bits =
      "v4/" ++ dotted (BitVec.ofNat 32 q.address &&& v4Mask v4Bits) ++ "/" ++ toString v4Bits := by
  have hpoint := q.contains_point
  have hne : q.text ≠ "" := by
    intro h
    have hmem : '.' ∈ q.text.toList := by
      rw [text, String.toList_ofList]
      split
      · exact List.mem_append_right _ (List.contains_iff_mem.1 hpoint)
      · exact List.contains_iff_mem.1 hpoint
    rw [h] at hmem
    cases hmem
  have haddr : (if mappedPrefix.isPrefixOf q.text.toList && q.text.toList.contains '.'
      then q.text.toList.drop mappedPrefix.length else q.text.toList) = q.plain := by
    rw [text, String.toList_ofList]
    by_cases hmapped : q.mapped = true
    · have hprefix : mappedPrefix.isPrefixOf (mappedPrefix ++ q.plain) = true :=
        List.isPrefixOf_iff_prefix.2 (List.prefix_append ..)
      rw [if_pos hmapped, hprefix, List.contains_append, hpoint, Bool.or_true, Bool.and_true,
        if_pos rfl, List.drop_left]
    · have hprefix : mappedPrefix.isPrefixOf q.plain = false := by
        rw [Bool.eq_false_iff]
        intro h
        have hcolon : ':' ∈ q.plain := (List.isPrefixOf_iff_prefix.1 h).mem (by decide)
        rw [← List.contains_iff_mem, q.contains_colon] at hcolon
        cases hcolon
      rw [if_neg hmapped, hprefix, Bool.false_and, if_neg Bool.false_ne_true]
  rw [ipPrefixClass, if_neg hne, q.trim_text]
  simp only [haddr, hpoint, q.contains_colon, Bool.not_false, Bool.and_true, if_true,
    q.maskV4_plain]

/-- Two addresses are in one class exactly when they agree on the first bits. -/
theorem ipPrefixClass_eq_iff (p q : DottedQuad) {v4Bits : Nat} (h : v4Bits ≤ 32) (v6Bits : Int) :
    ipPrefixClass (some p.text) v4Bits v6Bits = ipPrefixClass (some q.text) v4Bits v6Bits ↔
      topBits 32 v4Bits p.address = topBits 32 v4Bits q.address := by
  have hmasked : ∀ r : DottedQuad, (BitVec.ofNat 32 r.address &&& v4Mask v4Bits).toNat =
      keep 32 v4Bits r.address := fun r => by
    rw [toNat_and_v4Mask _ h, BitVec.toNat_ofNat, Nat.mod_eq_of_lt r.address_lt]
  rw [ipPrefixClass_text, ipPrefixClass_text, String.append_left_inj, String.append_left_inj,
    String.append_right_inj, ← TopBits.keep_eq_iff, ← hmasked, ← hmasked, BitVec.toNat_inj]
  exact ⟨dotted_inj, fun h => by rw [h]⟩

end DottedQuad

/-! ## Hextets -/

/-- The text of an IPv6 address: groups of hexadecimal digits between colons, and `::` for the
groups that are missing; also in brackets. -/
structure HextetText where
  head : List (List Char)
  tail : Option (List (List Char))
  hextets : ∀ group ∈ head ++ tail.getD [], isHextet group = true
  eight : if tail.isSome then head.length + (tail.getD []).length ≤ 8 else head.length = 8
  bracketed : Bool

namespace HextetText

variable (t : HextetText)

def plain : List Char :=
  [':'].intercalate t.head ++
    (t.tail.map fun tail => ':' :: ':' :: [':'].intercalate tail).getD []

def text : String := String.ofList (if t.bracketed then '[' :: t.plain ++ [']'] else t.plain)

/-- The eight groups, zeros for those that are missing. -/
def groups : List Nat :=
  t.head.map hexValue ++ List.replicate (8 - t.head.length - (t.tail.getD []).length) 0 ++
    (t.tail.getD []).map hexValue

/-- The address of 128 bits. -/
def address : Nat := number 16 t.groups

end HextetText

theorem hexDigit_spec {c : Char} {n : Nat} (h : hexDigit c = some n) :
    n < 16 ∧ c.toNat ≤ 102 := by
  unfold hexDigit at h
  split at h
  · next hdigit =>
    simp only [Char.isDigit, Bool.and_eq_true, decide_eq_true_eq, UInt32.le_iff_toNat_le] at hdigit
    obtain rfl := Option.some.inj h
    have hhigh : c.toNat ≤ 57 := hdigit.2
    have hzero : '0'.toNat = 48 := rfl
    omega
  · split at h
    · next hlower =>
      obtain rfl := Option.some.inj h
      have hhigh : c.toNat ≤ 102 := UInt32.le_iff_toNat_le.1 hlower.2
      have ha : 'a'.toNat = 97 := rfl
      omega
    · split at h
      · next hupper =>
        obtain rfl := Option.some.inj h
        have hhigh : c.toNat ≤ 70 := UInt32.le_iff_toNat_le.1 hupper.2
        have ha : 'A'.toNat = 65 := rfl
        omega
      · cases h

theorem isBlank_of_hexDigit {c : Char} {n : Nat} (h : hexDigit c = some n) :
    Text.isBlank c = false := by
  have hblanks : (Text.blanks.all fun c => (hexDigit c).isNone) = true := by decide
  have hlisted : c ∉ Text.blanks := by
    intro hmem
    have hnone := List.all_eq_true.1 hblanks c hmem
    rw [h] at hnone
    cases hnone
  have hspace : ¬ '\u2000' ≤ c := fun hle => by
    have hlow : 8192 ≤ c.toNat := UInt32.le_iff_toNat_le.1 hle
    have hhigh := (hexDigit_spec h).2
    omega
  simp [Text.isBlank, hlisted, hspace]

theorem hexValue_append {cs : List Char} {c : Char} {d : Nat} (h : hexDigit c = some d) :
    hexValue (cs ++ [c]) = d + 16 * hexValue cs := by
  simp [hexValue, h, Nat.ofDigits_cons]

theorem hexDigit_digitChar : ∀ d < 16, hexDigit (Nat.digitChar d) = some d := by decide

/-- A number is read back from its hexadecimal digits. -/
theorem hexValue_toDigits (n : Nat) : hexValue (Nat.toDigits 16 n) = n := by
  induction n using Nat.strong_induction_on with
  | _ n ih =>
    by_cases hsmall : n < 16
    · rw [Nat.toDigits_of_lt_base hsmall, ← List.nil_append [_],
        hexValue_append (hexDigit_digitChar n hsmall)]
      rfl
    · have hdigit := hexDigit_digitChar (n % 16) (Nat.mod_lt n (by decide))
      rw [Nat.toDigits_of_base_le (by decide) (not_lt.1 hsmall), hexValue_append hdigit,
        ih (n / 16) (by omega)]
      omega

theorem hexDigit_of_mem_toDigits {n : Nat} {c : Char} (h : c ∈ Nat.toDigits 16 n) :
    ∃ d, hexDigit c = some d := by
  induction n using Nat.strong_induction_on with
  | _ n ih =>
    by_cases hsmall : n < 16
    · rw [Nat.toDigits_of_lt_base hsmall, List.mem_singleton] at h
      exact ⟨n, h ▸ hexDigit_digitChar n hsmall⟩
    · rw [Nat.toDigits_of_base_le (by decide) (not_lt.1 hsmall), List.mem_append,
        List.mem_singleton] at h
      obtain h | rfl := h
      · exact ih (n / 16) (by omega) h
      · exact ⟨_, hexDigit_digitChar (n % 16) (Nat.mod_lt n (by decide))⟩

theorem hexDigit_of_isHextet {group : List Char} (h : isHextet group = true) {c : Char}
    (mem : c ∈ group) : ∃ d, hexDigit c = some d := by
  rw [isHextet, Bool.and_eq_true, List.all_eq_true] at h
  exact Option.isSome_iff_exists.1 (h.2 c mem)

theorem hexValue_lt {group : List Char} (h : isHextet group = true) : hexValue group < 2 ^ 16 := by
  have hlength : group.length ≤ 4 := by
    simp only [isHextet, Bool.and_eq_true, decide_eq_true_eq] at h
    exact h.1.2
  have hdigits : ∀ d ∈ (group.filterMap hexDigit).reverse, d < 16 := by
    intro d hd
    obtain ⟨c, -, hc⟩ := List.mem_filterMap.1 (List.mem_reverse.1 hd)
    exact (hexDigit_spec hc).1
  have hcount : (group.filterMap hexDigit).reverse.length ≤ 4 := by
    rw [List.length_reverse]
    exact (List.length_filterMap_le ..).trans hlength
  calc hexValue group < 16 ^ (group.filterMap hexDigit).reverse.length :=
        Nat.ofDigits_lt_base_pow_length (by decide) hdigits
    _ ≤ 16 ^ 4 := Nat.pow_le_pow_right (by decide) hcount

/-- A group is masked to its part of the first bits. -/
theorem maskGroup_eq {bits i group : Nat} (h : group < 2 ^ 16) :
    maskGroup bits (i * 16) group = keep 16 (bits - 16 * i) group := by
  unfold maskGroup
  rw [Nat.mul_comm i 16]
  split
  · rw [Nat.sub_eq_zero_of_le ‹_›, TopBits.keep_zero h]
  · split
    · have hmask : ∀ x, x &&& 0xffff = x % 2 ^ 16 := fun x => Nat.and_two_pow_sub_one_eq_mod x 16
      rw [hmask]
      exact TopBits.and_mask h
    · rw [TopBits.keep_of_le (by omega)]

theorem maskV6_eq {groups : List Nat} (h : ∀ group ∈ groups, group < 2 ^ 16) (bits : Nat) :
    maskV6 groups bits = ":".intercalate
      ((keepDigits 16 bits groups).map fun h => String.ofList (Nat.toDigits 16 h)) := by
  have hgroups : (groups.mapIdx fun i group => maskGroup bits (i * 16) group) =
      keepDigits 16 bits groups := by
    refine List.ext_getElem (by simp [keepDigits]) fun i hi hi' => ?_
    simp only [keepDigits, List.getElem_mapIdx]
    exact maskGroup_eq (h _ (List.getElem_mem _))
  rw [maskV6, hgroups]

theorem maskV6_inj {groups groups' : List Nat} (h : ∀ group ∈ groups, group < 2 ^ 16)
    (h' : ∀ group ∈ groups', group < 2 ^ 16) (ne : groups ≠ []) (ne' : groups' ≠ []) (bits : Nat) :
    maskV6 groups bits = maskV6 groups' bits ↔
      keepDigits 16 bits groups = keepDigits 16 bits groups' := by
  rw [maskV6_eq h, maskV6_eq h']
  refine ⟨fun heq => ?_, fun heq => by rw [heq]⟩
  have hbare : ∀ ns : List Nat, ∀ x ∈ ns.map fun h => String.ofList (Nat.toDigits 16 h),
      ':' ∉ x.toList := by
    intro ns x hx hcolon
    obtain ⟨n, -, rfl⟩ := List.mem_map.1 hx
    rw [String.toList_ofList] at hcolon
    obtain ⟨d, hd⟩ := hexDigit_of_mem_toDigits hcolon
    rw [show hexDigit ':' = none by decide] at hd
    cases hd
  have hparts := Joined.intercalate_inj (c := ':') rfl (hbare _) (hbare _)
    (by simpa [keepDigits] using ne) (by simpa [keepDigits] using ne') heq
  have hvalues := congrArg (List.map fun s => hexValue s.toList) hparts
  simpa [List.map_map, Function.comp_def, hexValue_toDigits] using hvalues

namespace HextetText

variable (t : HextetText)

theorem length_groups : t.groups.length = 8 := by
  have height := t.eight
  split at height
  · simp only [groups, List.length_append, List.length_map, List.length_replicate]
    omega
  · next hsome =>
    have htail : t.tail = none := by simpa using hsome
    simp [groups, htail, height]

theorem group_lt : ∀ group ∈ t.groups, group < 2 ^ 16 := by
  intro group h
  simp only [groups, List.mem_append, List.mem_map, List.mem_replicate] at h
  obtain (⟨g, hg, rfl⟩ | ⟨-, rfl⟩) | ⟨g, hg, rfl⟩ := h
  · exact hexValue_lt (t.hextets g (List.mem_append_left _ hg))
  · decide
  · exact hexValue_lt (t.hextets g (List.mem_append_right _ hg))

theorem address_lt : t.address < 2 ^ 128 := by
  have hlt := TopBits.number_lt t.group_lt
  rwa [t.length_groups] at hlt

theorem part_of_hextet {group : List Char} (h : isHextet group = true) :
    group ≠ [] ∧ ':' ∉ group := by
  refine ⟨?_, fun hcolon => ?_⟩
  · rintro rfl
    cases h
  · obtain ⟨d, hd⟩ := hexDigit_of_isHextet h hcolon
    rw [show hexDigit ':' = none by decide] at hd
    cases hd

/-- What stands in the text. -/
theorem digit_or_colon {c : Char} (h : c ∈ t.plain) : (∃ d, hexDigit c = some d) ∨ c = ':' := by
  have hjoined : ∀ gs : List (List Char), (∀ g ∈ gs, isHextet g = true) →
      c ∈ [':'].intercalate gs → (∃ d, hexDigit c = some d) ∨ c = ':' := by
    intro gs hgs hc
    obtain hc | ⟨g, hg, hc⟩ := Joined.mem_intercalate hc
    · exact .inr hc
    · exact .inl (hexDigit_of_isHextet (hgs g hg) hc)
  obtain h | h := List.mem_append.1 h
  · exact hjoined _ (fun g hg => t.hextets g (List.mem_append_left _ hg)) h
  · cases htail : t.tail with
    | none => simp [htail] at h
    | some tail =>
      simp only [htail, Option.map_some, Option.getD_some, List.mem_cons] at h
      obtain h | h | h := h
      · exact .inr h
      · exact .inr h
      · refine hjoined tail (fun g hg => t.hextets g (List.mem_append_right _ ?_)) h
        simpa [htail] using hg

theorem not_mem_plain {c : Char} (digit : hexDigit c = none) (colon : c ≠ ':') : c ∉ t.plain := by
  intro h
  obtain ⟨d, hd⟩ | h := t.digit_or_colon h
  · rw [digit] at hd
    cases hd
  · exact colon h

theorem colon_mem_plain : ':' ∈ t.plain := by
  have height := t.eight
  cases htail : t.tail with
  | some tail => simp [plain, htail]
  | none =>
    rw [htail] at height
    match hhead : t.head, height with
    | a :: b :: rest, _ =>
      rw [plain, hhead, Joined.intercalate_cons _ _ (List.cons_ne_nil _ _)]
      simp

theorem groupsOf_intercalate {gs : List (List Char)} (h : ∀ g ∈ gs, isHextet g = true) :
    groupsOf ([':'].intercalate gs) = gs := by
  cases gs with
  | nil => rfl
  | cons g gs =>
    have hsplit : ([':'].intercalate (g :: gs)).splitOn ':' = g :: gs :=
      List.splitOn_intercalate _ (fun g hg => (part_of_hextet (h g hg)).2) (List.cons_ne_nil _ _)
    have hne : [':'].intercalate (g :: gs) ≠ [] := by
      intro hnil
      rw [hnil] at hsplit
      obtain ⟨rfl, -⟩ := List.cons.inj hsplit
      exact (part_of_hextet (h [] (List.mem_cons_self ..))).1 rfl
    rw [groupsOf, if_neg hne, hsplit]

theorem withoutBrackets_text : withoutBrackets t.text.toList = t.plain := by
  have hopen : '[' ∉ t.plain := t.not_mem_plain (by decide) (by decide)
  have hclose : ']' ∉ t.plain := t.not_mem_plain (by decide) (by decide)
  rw [text, String.toList_ofList]
  split
  · simp [withoutBrackets]
  · have hhead : t.plain.head? ≠ some '[' := fun h => hopen (List.mem_of_head? h)
    have hlast : t.plain.getLast? ≠ some ']' := fun h => hclose (List.mem_of_getLast? h)
    simp only [withoutBrackets, if_neg hhead, if_neg hlast]

theorem expandV6_text : expandV6 t.text.toList = some t.groups := by
  have hhead : ∀ g ∈ t.head, isHextet g = true := fun g h => t.hextets g (List.mem_append_left _ h)
  have hzone : (t.plain.takeWhile fun c => c ≠ '%') = t.plain := by
    rw [List.takeWhile_eq_self_iff]
    intro c h
    rw [decide_eq_true_eq]
    rintro rfl
    exact t.not_mem_plain (by decide) (by decide) h
  have height := t.eight
  rw [expandV6, withoutBrackets_text, hzone]
  cases htail : t.tail with
  | none =>
    rw [htail] at height
    have hlength : t.head.length = 8 := height
    have hplain : t.plain = [':'].intercalate t.head := by simp [plain, htail]
    have hall : t.head.all isHextet = true := List.all_eq_true.2 hhead
    rw [hplain, Joined.splitOnPair_of_parts fun g h => part_of_hextet (hhead g h)]
    simp only [groupsOf_intercalate hhead, Option.bind_some, hlength, hall, and_self, if_true]
    simp [groups, htail, hlength]
  | some tail =>
    rw [htail] at height
    have hlength : t.head.length + tail.length ≤ 8 := height
    have hrest : ∀ g ∈ tail, isHextet g = true := fun g h =>
      t.hextets g (List.mem_append_right _ (by simpa [htail] using h))
    have hplain : t.plain = [':'].intercalate t.head ++ ':' :: ':' :: [':'].intercalate tail := by
      simp [plain, htail]
    have hcount : (t.head ++ List.replicate (8 - t.head.length - tail.length) ['0'] ++
        tail).length = 8 := by
      simp only [List.length_append, List.length_replicate]
      omega
    have hall : (t.head ++ List.replicate (8 - t.head.length - tail.length) ['0'] ++
        tail).all isHextet = true := by
      rw [List.all_eq_true]
      intro g h
      rw [List.mem_append, List.mem_append, List.mem_replicate] at h
      obtain (h | ⟨-, rfl⟩) | h := h
      · exact hhead g h
      · decide
      · exact hrest g h
    rw [hplain, Joined.splitOnPair_pair (fun g h => part_of_hextet (hhead g h))
      fun g h => part_of_hextet (hrest g h)]
    simp only [groupsOf_intercalate hhead, groupsOf_intercalate hrest, if_neg (not_lt.2 hlength),
      Option.bind_some, hcount, hall, and_self, if_true]
    simp [groups, htail, show hexValue ['0'] = 0 by rfl]

theorem mem_text {c : Char} (h : c ∈ t.text.toList) : c ∈ t.plain ∨ c = '[' ∨ c = ']' := by
  rw [text, String.toList_ofList] at h
  split at h
  · rw [List.cons_append, List.mem_cons, List.mem_append, List.mem_singleton] at h
    obtain h | h | h := h
    · exact .inr (.inl h)
    · exact .inl h
    · exact .inr (.inr h)
  · exact .inl h

theorem trim_text : Text.trim t.text = t.text := by
  apply Text.trim_of_forall
  intro c h
  obtain h | rfl | rfl := t.mem_text h
  · obtain ⟨d, hd⟩ | rfl := t.digit_or_colon h
    · exact isBlank_of_hexDigit hd
    · decide
  · decide
  · decide

theorem ipPrefixClass_text (v4Bits v6Bits : Int) :
    ipPrefixClass (some t.text) v4Bits v6Bits =
      "v6/" ++ maskV6 t.groups (min (max v6Bits 0) 128).toNat ++ "/" ++ toString v6Bits := by
  have hpoint : t.text.toList.contains '.' = false := by
    rw [Bool.eq_false_iff]
    intro h
    obtain h | h | h := t.mem_text (List.contains_iff_mem.1 h)
    · exact t.not_mem_plain (by decide) (by decide) h
    · exact absurd h (by decide)
    · exact absurd h (by decide)
  have hcolon : ':' ∈ t.text.toList := by
    rw [text, String.toList_ofList]
    split
    · exact List.mem_append_left _ (List.mem_cons_of_mem _ t.colon_mem_plain)
    · exact t.colon_mem_plain
  have hne : t.text ≠ "" := by
    intro h
    rw [h] at hcolon
    cases hcolon
  have hcontains : t.text.toList.contains ':' = true := List.contains_iff_mem.2 hcolon
  rw [ipPrefixClass, if_neg hne, t.trim_text]
  simp only [hpoint, Bool.and_false, Bool.false_and, Bool.false_eq_true, if_false, hcontains,
    if_true, t.expandV6_text]

/-- Two addresses are in one class exactly when they agree on the first bits. -/
theorem ipPrefixClass_eq_iff (s t : HextetText) (v4Bits : Int) {v6Bits : Nat} (h : v6Bits ≤ 128) :
    ipPrefixClass (some s.text) v4Bits v6Bits = ipPrefixClass (some t.text) v4Bits v6Bits ↔
      topBits 128 v6Bits s.address = topBits 128 v6Bits t.address := by
  have hbits : (min (max (v6Bits : Int) 0) 128).toNat = v6Bits := by omega
  have hne : ∀ r : HextetText, r.groups ≠ [] := fun r hnil => by
    have hlength := r.length_groups
    rw [hnil] at hlength
    cases hlength
  have hfits : v6Bits ≤ 16 * s.groups.length := by
    rw [s.length_groups]
    exact h
  have hiff := TopBits.keepDigits_eq_iff (s.length_groups.trans t.length_groups.symm) s.group_lt
    t.group_lt hfits
  rw [s.length_groups] at hiff
  rw [ipPrefixClass_text, ipPrefixClass_text, String.append_left_inj, String.append_left_inj,
    String.append_right_inj, hbits, maskV6_inj s.group_lt t.group_lt (hne s) (hne t), hiff]
  rfl

end HextetText

/-! ## Classes -/

/-- Two dotted quads share a class exactly when they agree on the first `v4Bits` bits, and two IPv6
addresses, whatever they are written like, when they agree on the first `v6Bits`. -/
theorem prefix_classes {v4Bits v6Bits : Nat} (v4 : v4Bits ≤ 32) (v6 : v6Bits ≤ 128) :
    (∀ p q : DottedQuad,
      ipPrefixClass (some p.text) v4Bits v6Bits = ipPrefixClass (some q.text) v4Bits v6Bits ↔
        ∀ i < v4Bits, p.address.testBit (31 - i) = q.address.testBit (31 - i)) ∧
    ∀ s t : HextetText,
      ipPrefixClass (some s.text) v4Bits v6Bits = ipPrefixClass (some t.text) v4Bits v6Bits ↔
        ∀ i < v6Bits, s.address.testBit (127 - i) = t.address.testBit (127 - i) := by
  constructor
  · intro p q
    rw [p.ipPrefixClass_eq_iff q v4, TopBits.topBits_eq_iff p.address_lt q.address_lt v4]
  · intro s t
    rw [s.ipPrefixClass_eq_iff t v4Bits v6, TopBits.topBits_eq_iff s.address_lt t.address_lt v6]

/-- `203.0.113.42`. -/
def sampleQuad : DottedQuad where
  octets := ["203".toList, "0".toList, "113".toList, "42".toList]
  four := rfl
  numerals := by decide
  mapped := false

/-- `::ffff:203.0.113.7`. -/
def sampleMapped : DottedQuad where
  octets := ["203".toList, "0".toList, "113".toList, "7".toList]
  four := rfl
  numerals := by decide
  mapped := true

/-- `2001:DB8::1`. -/
def sampleHextets : HextetText where
  head := ["2001".toList, "DB8".toList]
  tail := some ["1".toList]
  hextets := by decide
  eight := by decide
  bracketed := false

/-- `[2001:0db8:0:ffff::]`. -/
def sampleBrackets : HextetText where
  head := ["2001".toList, "0db8".toList, "0".toList, "ffff".toList]
  tail := some []
  hextets := by decide
  eight := by decide
  bracketed := true

theorem prefix_classes_default :
    ipPrefixClass (some sampleQuad.text) (24 : Nat) (48 : Nat) =
        ipPrefixClass (some sampleMapped.text) (24 : Nat) (48 : Nat) ∧
      ipPrefixClass (some sampleHextets.text) (24 : Nat) (48 : Nat) =
        ipPrefixClass (some sampleBrackets.text) (24 : Nat) (48 : Nat) := by
  obtain ⟨quads, hextets⟩ := @prefix_classes 24 48 (by decide) (by decide)
  exact ⟨(quads sampleQuad sampleMapped).2 (by decide +kernel),
    (hextets sampleHextets sampleBrackets).2 (by decide +kernel)⟩

end Amana.Backend
