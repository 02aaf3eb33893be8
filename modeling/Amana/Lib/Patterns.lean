import Mathlib.Data.List.Basic

/-!
# Patterns in a text

A pattern is a choice of sequences of runs: so many characters of a class, as many as can be, next
to boundaries of words.  A match takes the first choice there is one for, and the longest run the
rest of the sequence can follow, as a regular expression does.  A text without a character that every
choice needs is not changed (`replaceAll_eq_self`).
-/

namespace Amana.Lib.Patterns

variable {α : Type}

inductive Piece (α : Type) where
  /-- At least so many characters of a class, and at most so many if there is a bound. -/
  | run (cls : α → Bool) (least : Nat) (most : Option Nat)
  /-- A word begins or ends here. -/
  | boundary (word : α → Bool)

/-- The lengths of a run at the beginning of a text, the longest first. -/
def lengths (cls : α → Bool) (least : Nat) (most : Option Nat) (cs : List α) : List Nat :=
  let longest := (cs.takeWhile cls).length
  let longest := (most.map fun m => min m longest).getD longest
  (List.range' least (longest + 1 - least)).reverse

/-- The length of the match at the beginning of a text that comes after `previous`. -/
def matchPieces : List (Piece α) → Option α → List α → Option Nat
  | [], _, _ => some 0
  | .boundary word :: pieces, previous, cs =>
    if previous.any word = cs.head?.any word then none else matchPieces pieces previous cs
  | .run cls least most :: pieces, previous, cs =>
    (lengths cls least most cs).findSome? fun n =>
      (matchPieces pieces ((cs.take n).getLast?.or previous) (cs.drop n)).map fun m => n + m

def matchAny (pattern : List (List (Piece α))) (previous : Option α) (cs : List α) : Option Nat :=
  pattern.findSome? fun pieces => matchPieces pieces previous cs

/-- What is left of a text, the first `skip` characters of which are part of a match. -/
def replaceFrom (pattern : List (List (Piece α))) (replacement : List α) :
    Option α → Nat → List α → List α
  | _, _, [] => []
  | _, skip + 1, c :: cs => replaceFrom pattern replacement (some c) skip cs
  | previous, 0, c :: cs =>
    match matchAny pattern previous (c :: cs) with
    | some (n + 1) => replacement ++ replaceFrom pattern replacement (some c) n cs
    | some 0 | none => c :: replaceFrom pattern replacement (some c) 0 cs

/-- Every match is replaced, from the left to the right. -/
def replaceAll (pattern : List (List (Piece α))) (replacement cs : List α) : List α :=
  replaceFrom pattern replacement none 0 cs

/-- No match without a character of the class. -/
def Needs (cls : α → Bool) (pieces : List (Piece α)) : Prop :=
  ∃ least most, Piece.run cls least most ∈ pieces ∧ 0 < least

theorem lengths_eq_nil {cls : α → Bool} {least : Nat} (positive : 0 < least) (most : Option Nat)
    {cs : List α} (lacks : ∀ c ∈ cs, cls c = false) : lengths cls least most cs = [] := by
  have hrun : cs.takeWhile cls = [] := by
    cases cs with
    | nil => rfl
    | cons c rest => simp [lacks c (List.mem_cons_self ..)]
  cases most with
  | none => simp [lengths, hrun, Nat.sub_eq_zero_of_le positive]
  | some m => simp [lengths, hrun, Nat.sub_eq_zero_of_le positive]

theorem matchPieces_eq_none {cls : α → Bool} {pieces : List (Piece α)} (needs : Needs cls pieces)
    (previous : Option α) {cs : List α} (lacks : ∀ c ∈ cs, cls c = false) :
    matchPieces pieces previous cs = none := by
  obtain ⟨least, most, mem, positive⟩ := needs
  induction pieces generalizing previous cs with
  | nil => simp at mem
  | cons piece pieces ih =>
    obtain rfl | hrest := List.mem_cons.1 mem
    · rw [matchPieces, lengths_eq_nil positive most lacks, List.findSome?_nil]
    · cases piece with
      | boundary word =>
        rw [matchPieces]
        split
        · rfl
        · exact ih previous lacks hrest
      | run cls' least' most' =>
        rw [matchPieces, List.findSome?_eq_none_iff]
        intro n _
        rw [ih _ (fun c hc => lacks c (List.mem_of_mem_drop hc)) hrest, Option.map_none]

theorem matchAny_eq_none {pattern : List (List (Piece α))} {cls : α → Bool}
    (needs : ∀ pieces ∈ pattern, Needs cls pieces) (previous : Option α) {cs : List α}
    (lacks : ∀ c ∈ cs, cls c = false) : matchAny pattern previous cs = none :=
  List.findSome?_eq_none_iff.2 fun pieces h => matchPieces_eq_none (needs pieces h) previous lacks

/-- A text without the characters that are needed stays as it is. -/
theorem replaceAll_eq_self {pattern : List (List (Piece α))} {cls : α → Bool}
    (needs : ∀ pieces ∈ pattern, Needs cls pieces) (replacement : List α) {cs : List α}
    (lacks : ∀ c ∈ cs, cls c = false) : replaceAll pattern replacement cs = cs := by
  have hfrom : ∀ previous, replaceFrom pattern replacement previous 0 cs = cs := by
    induction cs with
    | nil => exact fun _ => rfl
    | cons c rest ih =>
      intro previous
      rw [replaceFrom, matchAny_eq_none needs previous lacks]
      exact congrArg (c :: ·) (ih (fun d hd => lacks d (List.mem_cons_of_mem _ hd)) (some c))
  exact hfrom none

end Amana.Lib.Patterns
