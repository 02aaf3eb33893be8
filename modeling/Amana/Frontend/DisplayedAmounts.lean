import Amana.Frontend.Assets

/-!
# Amounts on the screen

The whole part of an amount is shown the way the user's locale shows numbers, and the places after a
point.  What is read back drops commas and blanks only: a point between the groups is taken for the
one before the places, and anything else is not read.  So an amount is read back just when its whole
part is one group, or when the separator is dropped (`reads_back_iff`).
-/

namespace Amana.Frontend

open Lib
open Backend (isNumeral numeralValue bigInt digitValue DecimalText isNumeral_toString
  numeralValue_toString numeralValue_append digits_of_isNumeral)

/-- The way a locale shows whole numbers. -/
structure Locale where
  separator : Option Char
  minusSign : List Char
  groups : Nat → List (List Char)
  /-- A separator is neither a digit, a letter nor a sign. -/
  symbol : ∀ c ∈ separator, digitValue c = none ∧ c ≠ '-' ∧ c ≠ '+'
  digits : ∀ n, (groups n).flatten = (toString n).toList
  nonempty : ∀ n, ∀ group ∈ groups n, group ≠ []

variable (locale : Locale)

/-- A whole number without its sign. -/
def Locale.grouped (n : Nat) : List Char :=
  match locale.separator with
  | none => (locale.groups n).flatten
  | some c => [c].intercalate (locale.groups n)

def Locale.toLocaleString (n : Int) : List Char :=
  (if n < 0 then locale.minusSign else []) ++ locale.grouped n.natAbs

/-- `stroopsToAmount` of a number. -/
def stroopsToAmount (stroops : Int) (decimals : Nat) : String :=
  let divisor := getAssetDivisor decimals
  let whole := stroops.tdiv divisor
  let frac := stroops.tmod divisor
  let fracStr := ((toString frac).toList.leftpad decimals '0').rdropWhile (· == '0')
  String.ofList <|
    if 0 < fracStr.length then locale.toLocaleString whole ++ '.' :: fracStr
    else locale.toLocaleString whole

/-- Groups of three of the digits of a number, which come last digit first. -/
def groupsOfThree : List Char → List (List Char)
  | a :: b :: c :: d :: rest => groupsOfThree (d :: rest) ++ [[c, b, a]]
  | [] => []
  | rest => [rest.reverse]

theorem flatten_groupsOfThree : ∀ cs, (groupsOfThree cs).flatten = cs.reverse
  | a :: b :: c :: d :: rest => by
    rw [groupsOfThree, List.flatten_append, flatten_groupsOfThree (d :: rest)]
    simp
  | [] => rfl
  | [_] => rfl
  | [_, _] => rfl
  | [_, _, _] => rfl

theorem ne_nil_of_mem_groupsOfThree : ∀ cs, ∀ group ∈ groupsOfThree cs, group ≠ []
  | a :: b :: c :: d :: rest => by
    intro group hgroup
    rw [groupsOfThree, List.mem_append, List.mem_singleton] at hgroup
    obtain hgroup | rfl := hgroup
    · exact ne_nil_of_mem_groupsOfThree (d :: rest) group hgroup
    · simp
  | [] => by simp [groupsOfThree]
  | [_] => by simp [groupsOfThree]
  | [_, _] => by simp [groupsOfThree]
  | [_, _, _] => by simp [groupsOfThree]

/-- A locale that separates the thousands. -/
def thousands (separator : Char) (symbol : digitValue separator = none ∧ separator ≠ '-' ∧
    separator ≠ '+') : Locale where
  separator := some separator
  minusSign := ['-']
  groups n := groupsOfThree (toString n).toList.reverse
  symbol := by
    rintro c ⟨⟩
    exact symbol
  digits n := by rw [flatten_groupsOfThree, List.reverse_reverse]
  nonempty n := ne_nil_of_mem_groupsOfThree _

example : stroopsToAmount (thousands ',' (by decide)) 12345670000 7 = "1,234.567" ∧
    stroopsToAmount (thousands '.' (by decide)) 12345670000 7 = "1.234.567" := by decide +kernel

/-! ## The places -/

/-- The zeros at the end come back when the places are filled up. -/
theorem rightpad_rdropWhile (cs : List Char) :
    (cs.rdropWhile (· == '0')).rightpad cs.length '0' = cs := by
  induction cs using List.reverseRecOn with
  | nil => rfl
  | append_singleton cs c ih =>
    by_cases hc : (c == '0') = true
    · have hlength := (List.rdropWhile_prefix (· == '0') cs).length_le
      obtain rfl : c = '0' := by simpa using hc
      have hmore : (cs ++ ['0']).length - (cs.rdropWhile (· == '0')).length =
          cs.length - (cs.rdropWhile (· == '0')).length + 1 := by
        rw [List.length_append, List.length_singleton]
        omega
      rw [List.rdropWhile_concat_pos (· == '0') _ _ hc, List.rightpad, hmore, List.replicate_succ',
        ← List.append_assoc]
      rw [List.rightpad] at ih
      rw [ih]
    · rw [List.rdropWhile_concat_neg (· == '0') _ _ hc]
      simp [List.rightpad]

/-- The places that are shown. -/
def places (frac decimals : Nat) : List Char :=
  ((toString frac).toList.leftpad decimals '0').rdropWhile (· == '0')

theorem digits_places (frac decimals : Nat) : (places frac decimals).all Char.isDigit = true := by
  have hpadded := digits_of_isNumeral
    (Backend.isNumeral_leftpad (isNumeral_toString frac) decimals)
  rw [List.all_eq_true] at hpadded ⊢
  intro c hc
  exact hpadded c ((List.rdropWhile_prefix _ _).subset hc)

/-- The places that are shown, filled up again, are those of the amount. -/
theorem rightpad_places {frac decimals : Nat} (small : frac < 10 ^ decimals) :
    (places frac decimals).length ≤ decimals ∧
      numeralValue ((places frac decimals).rightpad decimals '0') = frac := by
  by_cases hdecimals : decimals = 0
  · subst hdecimals
    obtain rfl : frac = 0 := by simpa using small
    decide
  · have hlength := Backend.length_leftpad_toString small (by omega)
    have hback := rightpad_rdropWhile ((toString frac).toList.leftpad decimals '0')
    rw [hlength] at hback
    refine ⟨?_, ?_⟩
    · have hle := (List.rdropWhile_prefix (· == '0')
        ((toString frac).toList.leftpad decimals '0')).length_le
      rwa [hlength] at hle
    · rw [places, hback, List.leftpad, Backend.numeralValue_replicate_append,
        numeralValue_toString]

/-- What is shown of a number that is not negative. -/
theorem toList_stroopsToAmount (s decimals : Nat) :
    (stroopsToAmount locale s decimals).toList =
      locale.grouped (s / 10 ^ decimals) ++
        (if places (s % 10 ^ decimals) decimals = [] then []
          else '.' :: places (s % 10 ^ decimals) decimals) := by
  have hwhole : (s : Int).tdiv (getAssetDivisor decimals) = (s / 10 ^ decimals : Nat) := by
    rw [getAssetDivisor]
    exact_mod_cast rfl
  have hfrac : (s : Int).tmod (getAssetDivisor decimals) = (s % 10 ^ decimals : Nat) := by
    rw [getAssetDivisor]
    exact_mod_cast rfl
  have hshown : locale.toLocaleString (s / 10 ^ decimals : Nat) =
      locale.grouped (s / 10 ^ decimals) := by
    rw [Locale.toLocaleString, if_neg (Int.natCast_nonneg _).not_gt, List.nil_append,
      Int.natAbs_natCast]
  have hplaces : ((toString ((s % 10 ^ decimals : Nat) : Int)).toList.leftpad decimals '0').rdropWhile
      (· == '0') = places (s % 10 ^ decimals) decimals := rfl
  rw [stroopsToAmount, hwhole, hfrac, hplaces, hshown, String.toList_ofList]
  by_cases hnil : places (s % 10 ^ decimals) decimals = []
  · simp [hnil]
  · rw [if_pos (List.length_pos_iff.2 hnil), if_neg hnil]

/-! ## Separators that are dropped -/

theorem isDigit_of_mem_groups {n : Nat} {group : List Char} (mem : group ∈ locale.groups n)
    {c : Char} (hc : c ∈ group) : c.isDigit = true := by
  have hmem : c ∈ (toString n).toList := by
    rw [← locale.digits n]
    exact List.mem_flatten_of_mem mem hc
  exact List.all_eq_true.1 (digits_of_isNumeral (isNumeral_toString n)) c hmem

/-- No separator of the number survives the reading. -/
def Locale.Transparent (n : Nat) : Prop :=
  (locale.groups n).length ≤ 1 ∨ ∀ c ∈ locale.separator, isDropped c = true

theorem filter_intercalate {c : Char} (dropped : isDropped c = true) :
    ∀ groups : List (List Char),
      ([c].intercalate groups).filter (fun c => !isDropped c) =
        groups.flatten.filter fun c => !isDropped c
  | [] => rfl
  | [group] => by simp
  | group :: next :: groups => by
    rw [List.intercalate_cons_cons, List.flatten_cons, List.filter_append, List.filter_append,
      filter_intercalate dropped (next :: groups), List.filter_append]
    simp [dropped]

/-- Without its separators a whole number is its digits. -/
theorem filter_grouped {n : Nat} (transparent : locale.Transparent n) :
    (locale.grouped n).filter (fun c => !isDropped c) = (toString n).toList := by
  have hdigits : (toString n).toList.filter (fun c => !isDropped c) = (toString n).toList := by
    apply List.filter_eq_self.2
    intro c hc
    rw [not_isDropped_of_isDigit
      (List.all_eq_true.1 (digits_of_isNumeral (isNumeral_toString n)) c hc)]
    rfl
  have hjoined : (locale.grouped n).filter (fun c => !isDropped c) =
      (locale.groups n).flatten.filter fun c => !isDropped c := by
    unfold Locale.grouped
    split
    · rfl
    · next c h =>
      obtain hshort | hdropped := transparent
      · match hgroups : locale.groups n with
        | [] => rfl
        | [group] => simp
        | _ :: _ :: _ => simp [hgroups] at hshort
      · exact filter_intercalate (hdropped c h) _
  rw [hjoined, locale.digits, hdigits]

/-- The number that is shown. -/
def shown (s decimals : Nat) : DecimalText where
  negative := false
  whole := (toString (s / 10 ^ decimals)).toList
  fraction :=
    if places (s % 10 ^ decimals) decimals = [] then none
    else some (places (s % 10 ^ decimals) decimals)
  whole_numeral := isNumeral_toString _
  fraction_numeral := by
    intro digits hdigits
    split at hdigits
    · cases hdigits
    · next hne =>
      obtain rfl := Option.some.inj hdigits
      simp [isNumeral, hne, digits_places]

theorem fractionDigits_shown (s decimals : Nat) :
    (shown s decimals).fractionDigits = places (s % 10 ^ decimals) decimals := by
  unfold DecimalText.fractionDigits shown
  dsimp only
  split
  · next h => exact h.symm
  · rfl

theorem cleaned_stroopsToAmount {s decimals : Nat}
    (transparent : locale.Transparent (s / 10 ^ decimals)) :
    cleaned (stroopsToAmount locale s decimals) = (shown s decimals).unsigned := by
  have hplaces : ∀ c ∈ places (s % 10 ^ decimals) decimals, isDropped c = false := fun c hc =>
    not_isDropped_of_isDigit (List.all_eq_true.1 (digits_places _ _) c hc)
  rw [cleaned, toList_stroopsToAmount, List.filter_append, filter_grouped locale transparent]
  by_cases hnil : places (s % 10 ^ decimals) decimals = []
  · simp [DecimalText.unsigned, shown, hnil]
  · have hpoint : isDropped '.' = false := by decide
    have hkept : (places (s % 10 ^ decimals) decimals).filter (fun c => !isDropped c) =
        places (s % 10 ^ decimals) decimals := by
      apply List.filter_eq_self.2
      intro c hc
      rw [hplaces c hc]
      rfl
    simp [DecimalText.unsigned, shown, hnil, hpoint, hkept]

/-- An amount whose separators are dropped is read back. -/
theorem reads_back_of_transparent {s decimals : Nat}
    (transparent : locale.Transparent (s / 10 ^ decimals)) :
    amountToStroops (stroopsToAmount locale s decimals) decimals = some (toString (s : Int)) := by
  have hsmall : s % 10 ^ decimals < 10 ^ decimals := Nat.mod_lt _ (Nat.pow_pos (by decide))
  obtain ⟨hfits, hvalue⟩ := rightpad_places hsmall
  have hplaces := fractionDigits_shown s decimals
  rw [amountToStroops_of_unsigned (cleaned_stroopsToAmount locale transparent)
    (by rwa [hplaces]), hplaces, numeralValue_append, hvalue]
  have hlength : ((places (s % 10 ^ decimals) decimals).rightpad decimals '0').length = decimals := by
    rw [List.rightpad, List.length_append, List.length_replicate]
    omega
  have hwhole : numeralValue (shown s decimals).whole = s / 10 ^ decimals := numeralValue_toString _
  rw [hlength, hwhole, Nat.div_add_mod']

/-! ## Separators that are not dropped -/

theorem numeralValue_lt {cs : List Char} (h : cs.all Char.isDigit = true) :
    numeralValue cs < 10 ^ cs.length := by
  induction cs with
  | nil => decide
  | cons c cs ih =>
    rw [List.all_cons, Bool.and_eq_true] at h
    have hdigit := (Backend.digitValue_of_isDigit h.1).2
    have hfirst : numeralValue [c] = c.toNat - '0'.toNat := by
      rw [numeralValue, Nat.ofDigitChars_cons, Nat.ofDigitChars_nil]
      omega
    have hsplit := numeralValue_append [c] cs
    have hrest := ih h.2
    have hle : numeralValue [c] * 10 ^ cs.length ≤ 9 * 10 ^ cs.length :=
      Nat.mul_le_mul_right _ (by omega)
    rw [List.singleton_append] at hsplit
    rw [hsplit, List.length_cons, pow_succ]
    omega

/-- The first part of a text ends at its first point. -/
theorem headD_splitOn {group tail : List Char} (digits : '.' ∉ group)
    (next : tail = [] ∨ ∃ rest, tail = '.' :: rest) :
    ((group ++ tail).splitOn '.').headD [] = group := by
  obtain rfl | ⟨rest, rfl⟩ := next
  · rw [List.append_nil, List.splitOn_eq_singleton digits]
    rfl
  · rw [List.splitOn_append_cons_self_of_not_mem digits]
    rfl

/-- The first of several groups is worth less than a tenth of the number. -/
theorem numeralValue_head_lt {n : Nat} {group next : List Char} {groups : List (List Char)}
    (h : locale.groups n = group :: next :: groups) : numeralValue group + 1 ≤ n := by
  have hdigits : group ++ (next :: groups).flatten = (toString n).toList := by
    rw [← locale.digits n, h]
    rfl
  have hlist : (toString n).toList = Nat.toDigits 10 n := Nat.toList_repr
  have hgroup : 0 < group.length :=
    List.length_pos_iff.2 (locale.nonempty n _ (by simp [h]))
  have hnext : 0 < next.length := List.length_pos_iff.2 (locale.nonempty n _ (by simp [h]))
  have hrest : 0 < (next :: groups).flatten.length := by
    rw [List.flatten_cons, List.length_append]
    omega
  have hall : ((next :: groups).flatten).all Char.isDigit = true := by
    have hfull := digits_of_isNumeral (isNumeral_toString n)
    rw [← hdigits, List.all_append, Bool.and_eq_true] at hfull
    exact hfull.2
  have hvalue : numeralValue group * 10 ^ (next :: groups).flatten.length +
      numeralValue (next :: groups).flatten = n := by
    rw [← numeralValue_append, hdigits, numeralValue_toString]
  -- The number has more digits than its other groups, so the first one is not zero.
  have hbig : 10 ^ (next :: groups).flatten.length ≤ n := by
    by_contra hlt
    have hlength := (Nat.length_toDigits_le_iff (by decide) hrest).2 (Nat.not_le.1 hlt)
    rw [← hlist, ← hdigits, List.length_append] at hlength
    omega
  have hlt := numeralValue_lt hall
  have hten : 10 ^ 1 ≤ 10 ^ (next :: groups).flatten.length :=
    Nat.pow_le_pow_right (by decide) hrest
  have hpos : numeralValue group ≠ 0 := by
    intro hzero
    rw [hzero] at hvalue
    omega
  have hscaled : numeralValue group * 10 ≤
      numeralValue group * 10 ^ (next :: groups).flatten.length :=
    Nat.mul_le_mul_left _ (by simpa using hten)
  omega

theorem toString_inj {m n : Nat} (h : toString (m : Int) = toString (n : Int)) : m = n := by
  have hnat : (toString m).toList = (toString n).toList := congrArg String.toList h
  rw [← numeralValue_toString m, hnat, numeralValue_toString]

theorem isDigit_or_separator {n : Nat} {c : Char} (mem : c ∈ locale.grouped n) :
    c.isDigit = true ∨ c ∈ locale.separator := by
  have hjoined : ∀ d, ∀ groups ⊆ locale.groups n, c ∈ [d].intercalate groups →
      c.isDigit = true ∨ c = d := by
    intro d groups
    induction groups with
    | nil => simp
    | cons group groups ih =>
      intro hsub hmem
      have hgroup := isDigit_of_mem_groups locale (hsub List.mem_cons_self) (c := c)
      cases groups with
      | nil => exact .inl (hgroup (by simpa using hmem))
      | cons next groups =>
        rw [List.intercalate_cons_cons, List.mem_append, List.mem_append, List.mem_singleton] at hmem
        obtain (hc | hc) | hc := hmem
        · exact .inl (hgroup hc)
        · exact .inr hc
        · exact ih (fun g hg => hsub (List.mem_cons_of_mem _ hg)) hc
  unfold Locale.grouped at mem
  split at mem
  · rw [locale.digits] at mem
    exact .inl (List.all_eq_true.1 (digits_of_isNumeral (isNumeral_toString n)) c mem)
  · next d h =>
    obtain hdigit | rfl := hjoined d _ (List.Subset.refl _) mem
    · exact .inl hdigit
    · exact .inr h

/-- What comes after the whole part of an amount. -/
def tail (s decimals : Nat) : List Char :=
  if places (s % 10 ^ decimals) decimals = [] then []
  else '.' :: places (s % 10 ^ decimals) decimals

theorem tail_cases (s decimals : Nat) : tail s decimals = [] ∨ ∃ rest, tail s decimals = '.' :: rest := by
  unfold tail
  split
  · exact .inl rfl
  · exact .inr ⟨_, rfl⟩

/-- With a separator that is not dropped, all of the amount is read. -/
theorem cleaned_of_separator {c : Char} (separator : locale.separator = some c)
    (kept : isDropped c = false) (s decimals : Nat) :
    cleaned (stroopsToAmount locale s decimals) =
      locale.grouped (s / 10 ^ decimals) ++ tail s decimals := by
  rw [cleaned, toList_stroopsToAmount]
  apply List.filter_eq_self.2
  intro d hd
  have hpoint : isDropped '.' = false := by decide
  suffices isDropped d = false by simp [this]
  obtain hd | hd := List.mem_append.1 hd
  · obtain hdigit | hsep := isDigit_or_separator locale hd
    · exact not_isDropped_of_isDigit hdigit
    · obtain rfl := Option.some.inj (separator.symm.trans hsep)
      exact kept
  · split at hd
    · simp at hd
    · obtain rfl | hd := List.mem_cons.1 hd
      · exact hpoint
      · exact not_isDropped_of_isDigit (List.all_eq_true.1 (digits_places _ _) d hd)

/-- Points between the groups: what is read is less than the first group and one. -/
theorem not_reads_back_point {s decimals : Nat} {group next : List Char}
    {groups : List (List Char)} (separator : locale.separator = some '.')
    (h : locale.groups (s / 10 ^ decimals) = group :: next :: groups) :
    amountToStroops (stroopsToAmount locale s decimals) decimals ≠ some (toString (s : Int)) := by
  have hdigits : ∀ g ∈ group :: next :: groups, g.all Char.isDigit = true := by
    intro g hg
    rw [← h] at hg
    exact List.all_eq_true.2 fun c => isDigit_of_mem_groups locale hg
  have hpoint : ∀ g : List Char, g.all Char.isDigit = true → '.' ∉ g := by
    intro g hg hmem
    simpa using List.all_eq_true.1 hg '.' hmem
  have hgroup := hdigits group (by simp)
  have hnext := hdigits next (by simp)
  have hne : group ≠ [] := locale.nonempty _ _ (by rw [h]; simp)
  -- The parts that are read are the first two groups.
  obtain ⟨rest, hrest, htext⟩ : ∃ rest, (rest = [] ∨ ∃ more, rest = '.' :: more) ∧
      cleaned (stroopsToAmount locale s decimals) = group ++ '.' :: (next ++ rest) := by
    rw [cleaned_of_separator locale separator (by decide), Locale.grouped, separator]
    dsimp only
    rw [h]
    cases groups with
    | nil => exact ⟨tail s decimals, tail_cases s decimals, by simp⟩
    | cons third groups =>
      refine ⟨'.' :: (['.'].intercalate (third :: groups) ++ tail s decimals), .inr ⟨_, rfl⟩, ?_⟩
      simp [List.intercalate_cons_cons]
  have hsplit : (group ++ '.' :: (next ++ rest)).splitOn '.' = group :: (next ++ rest).splitOn '.' :=
    List.splitOn_append_cons_self_of_not_mem (hpoint group hgroup) _
  have hsecond : (group :: (next ++ rest).splitOn '.')[1]?.getD [] = next := by
    have hhead := headD_splitOn (hpoint next hnext) hrest
    cases hparts : (next ++ rest).splitOn '.' with
    | nil => simpa [hparts] using hhead
    | cons part parts => simpa [hparts] using hhead
  have hpadded : ((next.rightpad decimals '0').take decimals).all Char.isDigit = true := by
    have hall := digits_rightpad hnext decimals
    rw [List.all_eq_true] at hall ⊢
    exact fun c hc => hall c (List.mem_of_mem_take hc)
  have hread : amountToStroops (stroopsToAmount locale s decimals) decimals =
      some (toString ((numeralValue group * 10 ^ decimals +
        numeralValue ((next.rightpad decimals '0').take decimals) : Nat) : Int)) := by
    simp only [amountToStroops, htext, hsplit, hsecond, List.headD_cons, if_neg hne,
      bigInt_of_digits hgroup, bigInt_of_digits hpadded, Option.bind_eq_bind, Option.bind_some,
      getAssetDivisor]
    push_cast
    rfl
  rw [hread, Ne, Option.some.injEq]
  intro heq
  have hlt : numeralValue ((next.rightpad decimals '0').take decimals) < 10 ^ decimals :=
    (numeralValue_lt hpadded).trans_le
      (Nat.pow_le_pow_right (by decide) (List.length_take_le _ _))
  have hfirst := numeralValue_head_lt locale h
  have hscaled : (numeralValue group + 1) * 10 ^ decimals ≤ s / 10 ^ decimals * 10 ^ decimals :=
    Nat.mul_le_mul_right _ hfirst
  have hle := Nat.div_mul_le_self s (10 ^ decimals)
  have hvalue := toString_inj heq
  rw [Nat.add_mul] at hscaled
  omega

/-- Any other separator that is not dropped stops the reading. -/
theorem not_reads_back_other {s decimals : Nat} {c : Char} {group next : List Char}
    {groups : List (List Char)} (separator : locale.separator = some c)
    (kept : isDropped c = false) (other : c ≠ '.')
    (h : locale.groups (s / 10 ^ decimals) = group :: next :: groups) :
    amountToStroops (stroopsToAmount locale s decimals) decimals = none := by
  have hmem : c ∈ locale.grouped (s / 10 ^ decimals) := by
    rw [Locale.grouped, separator]
    dsimp only
    rw [h, List.intercalate_cons_cons]
    simp
  have hpoint : '.' ∉ locale.grouped (s / 10 ^ decimals) := by
    intro hin
    obtain hdigit | hsep := isDigit_or_separator locale hin
    · cases hdigit
    · exact other (Option.some.inj (separator.symm.trans hsep))
  have htrim : Text.trim (String.ofList (locale.grouped (s / 10 ^ decimals))) =
      String.ofList (locale.grouped (s / 10 ^ decimals)) := by
    apply Text.trim_of_forall
    intro d hd
    rw [String.toList_ofList] at hd
    obtain hdigit | hsep := isDigit_or_separator locale hd
    · exact Backend.isBlank_of_isDigit hdigit
    · obtain rfl := Option.some.inj (separator.symm.trans hsep)
      exact (Bool.or_eq_false_iff.1 kept).2
  obtain ⟨hvalue, hminus, hplus⟩ := locale.symbol c separator
  have hnone : bigInt (String.ofList (locale.grouped (s / 10 ^ decimals))) = none :=
    Backend.bigInt_eq_none (by rwa [htrim, String.toList_ofList]) hvalue hminus hplus
  have hfirst := headD_splitOn hpoint (tail_cases s decimals)
  simp only [amountToStroops, cleaned_of_separator locale separator kept, hfirst,
    if_neg (List.ne_nil_of_mem hmem), hnone, Option.bind_eq_bind, Option.bind_none]

/-- An amount is read back just when its whole part is shown as one group, or the separator is one
of those that are dropped. -/
theorem reads_back_iff (s decimals : Nat) :
    amountToStroops (stroopsToAmount locale s decimals) decimals = some (toString (s : Int)) ↔
      (locale.groups (s / 10 ^ decimals)).length ≤ 1 ∨
        ∀ c ∈ locale.separator, isDropped c = true := by
  refine ⟨fun h => ?_, reads_back_of_transparent locale⟩
  by_contra hno
  obtain ⟨hlong, hsep⟩ := not_or.1 hno
  obtain ⟨c, hmem, hkept⟩ : ∃ c ∈ locale.separator, isDropped c = false := by simpa using hsep
  match hgroups : locale.groups (s / 10 ^ decimals) with
  | [] => simp [hgroups] at hlong
  | [_] => simp [hgroups] at hlong
  | group :: next :: groups =>
    by_cases hpoint : c = '.'
    · subst hpoint
      exact not_reads_back_point locale hmem hgroups h
    · rw [not_reads_back_other locale hmem hkept hpoint hgroups] at h
      cases h

/-- Where the thousands are separated by a point, the user sees `1.234.567`. -/
theorem point_misread :
    ¬ ∀ (locale : Locale) (s decimals : Nat),
      amountToStroops (stroopsToAmount locale s decimals) decimals = some (toString (s : Int)) := by
  intro h
  have hread := h (thousands '.' (by decide)) 12345670000 7
  revert hread
  decide +kernel

end Amana.Frontend
