import Amana.Lib.HashChain

/-!
# The chain of the audit log

`lib/auditChain.ts`, the middleware of `lib/db.ts` for `AdminActionAudit`, and
`AdminAuditService.verifyChain`.  A table is the list of its rows by their ids.  SHA-256 and
`JSON.stringify` are parameters.

A table that is verified is a chain of hashes, with rows among them that have none
(`verifyChain_valid_iff`).  So its checkpoint determines what is chained (`chained_eq_of_checkpoint`),
and what is written and then changed is verified exactly when the changes cut off its end
(`tampering_found_iff`).
-/

namespace Amana.Backend

open Lib Lib.HashChain

/-! ## Rows -/

/-- A valid `Date`, in milliseconds. -/
abbrev Date := {ms : Int // ms.natAbs ≤ 8640000000000000}

/-- `AuditChainEntryInput`. -/
structure AuditChainEntryInput where
  action : String
  actorAddress : String
  targetReference : Option String
  note : Option String
  createdAt : Date
  deriving DecidableEq, Repr

/-- A row of `AdminActionAudit`. -/
structure AuditRow extends AuditChainEntryInput where
  id : Nat
  prevHash : String
  hash : String
  deriving DecidableEq, Repr

/-- The object that is serialised.  A date becomes its `toISOString`. -/
structure CanonicalEntry where
  prevHash : String
  action : String
  actorAddress : String
  targetReference : Option String
  note : Option String
  createdAt : Date
  deriving DecidableEq, Repr

/-- `JSON.stringify` of such an object, and the digest of a text in hexadecimal digits. -/
structure AuditHashing where
  stringify : CanonicalEntry → String
  sha256 : String → String
  sha256_ne : ∀ text, sha256 text ≠ ""

/-- Neither has two arguments with the same result. -/
structure AuditHashing.Injective (h : AuditHashing) : Prop where
  stringify : Function.Injective h.stringify
  sha256 : Function.Injective h.sha256

variable (h : AuditHashing)

def computeAuditEntryHash (prevHash : String) (entry : AuditChainEntryInput) : String :=
  h.sha256 <| h.stringify
    { prevHash := prevHash
      action := entry.action
      actorAddress := entry.actorAddress
      targetReference := entry.targetReference
      note := entry.note
      createdAt := entry.createdAt }

/-- What a create is given. -/
structure AuditData where
  action : String
  actorAddress : String
  targetReference : Option String
  note : Option String
  createdAt : Option Date
  deriving DecidableEq, Repr

/-- What the middleware makes of it; `lastHash` is what `findFirst` has found. -/
def chainAuditRow (data : AuditData) (lastHash : Option String) (now : Date) (id : Nat) : AuditRow :=
  let prevHash := lastHash.getD ""
  let entry : AuditChainEntryInput :=
    { action := data.action
      actorAddress := data.actorAddress
      targetReference := data.targetReference
      note := data.note
      createdAt := data.createdAt.getD now }
  { entry with id := id, prevHash := prevHash, hash := computeAuditEntryHash h prevHash entry }

/-- `findFirst` by descending ids. -/
def findLastHash (rows : List AuditRow) : Option String := rows.getLast?.map AuditRow.hash

@[simp] theorem findLastHash_concat (rows : List AuditRow) (row : AuditRow) :
    findLastHash (rows ++ [row]) = some row.hash := by
  simp [findLastHash]

/-! ## Verification -/

structure AuditChainVerificationResult where
  valid : Bool
  entriesChecked : Nat
  brokenAtId : Option Nat
  checkpoint : Option String
  deriving DecidableEq, Repr

/-- The variables of the loop of `verifyChain`. -/
structure VerifyState where
  expectedPrevHash : String
  entriesChecked : Nat
  brokenAtId : Option Nat
  checkpoint : Option String

def VerifyState.start : VerifyState := ⟨"", 0, none, none⟩

/-- One round of the loop. -/
def VerifyState.check (s : VerifyState) (row : AuditRow) : VerifyState :=
  if row.hash = "" then s
  else
    let recomputed := computeAuditEntryHash h s.expectedPrevHash row.toAuditChainEntryInput
    { expectedPrevHash := row.hash
      entriesChecked := s.entriesChecked + 1
      brokenAtId :=
        if row.prevHash ≠ s.expectedPrevHash ∨ row.hash ≠ recomputed then
          s.brokenAtId.or (some row.id)
        else s.brokenAtId
      checkpoint := some row.hash }

def verifyChain (rows : List AuditRow) : AuditChainVerificationResult :=
  let s := rows.foldl (VerifyState.check h) .start
  { valid := s.brokenAtId.isNone
    entriesChecked := s.entriesChecked
    brokenAtId := s.brokenAtId
    checkpoint := s.checkpoint }

/-! ## Verified tables are chains -/

/-- The rows that are not from before there were hashes. -/
def chained (rows : List AuditRow) : List AuditRow := rows.filter fun row => row.hash ≠ ""

def AuditRow.link (row : AuditRow) : Link String AuditChainEntryInput :=
  ⟨row.prevHash, row.toAuditChainEntryInput, row.hash⟩

/-- The links of a table. -/
def auditLinks (rows : List AuditRow) : List (Link String AuditChainEntryInput) :=
  (chained rows).map AuditRow.link

@[simp] theorem chained_append (rows rows' : List AuditRow) :
    chained (rows ++ rows') = chained rows ++ chained rows' := List.filter_append ..

@[simp] theorem auditLinks_nil : auditLinks [] = [] := rfl

@[simp] theorem auditLinks_append (rows rows' : List AuditRow) :
    auditLinks (rows ++ rows') = auditLinks rows ++ auditLinks rows' := by
  simp [auditLinks]

theorem auditLinks_of_hash {row : AuditRow} (hash : row.hash ≠ "") :
    auditLinks [row] = [row.link] := by
  simp [auditLinks, chained, hash]

theorem auditLinks_of_empty {row : AuditRow} (hash : row.hash = "") : auditLinks [row] = [] := by
  simp [auditLinks, chained, hash]

/-- Links come with hashes. -/
theorem hash_ne_of_mem_auditLinks {rows : List AuditRow} {l : Link String AuditChainEntryInput}
    (mem : l ∈ auditLinks rows) : l.hash ≠ "" := by
  obtain ⟨row, hrow, rfl⟩ := List.mem_map.1 mem
  have hhash : row.hash ≠ "" := by simpa using (List.mem_filter.1 hrow).2
  exact hhash

theorem AuditHashing.Injective.binding {h : AuditHashing} (injective : h.Injective) :
    Binding (computeAuditEntryHash h) := by
  intro prevHash entry prevHash' entry' same
  have hfields := injective.stringify (injective.sha256 same)
  simp only [CanonicalEntry.mk.injEq] at hfields
  obtain ⟨hprev, haction, hactor, htarget, hnote, hcreated⟩ := hfields
  refine ⟨hprev, ?_⟩
  cases entry
  cases entry'
  simp only at haction hactor htarget hnote hcreated
  rw [haction, hactor, htarget, hnote, hcreated]

/-- What the loop has found out about the rows it has seen. -/
structure VerifyState.Seen (h : AuditHashing) (rows : List AuditRow) (s : VerifyState) : Prop where
  expected : s.expectedPrevHash = head "" (auditLinks rows)
  checked : s.entriesChecked = (chained rows).length
  intact : s.brokenAtId = none ↔ Linked (computeAuditEntryHash h) "" (auditLinks rows)
  checkpoint : s.checkpoint = (auditLinks rows).getLast?.map Link.hash

theorem VerifyState.Seen.check {rows : List AuditRow} {s : VerifyState} (seen : s.Seen h rows)
    (row : AuditRow) : (s.check h row).Seen h (rows ++ [row]) := by
  by_cases hrow : row.hash = ""
  · have hsame : s.check h row = s := if_pos hrow
    have hlinks : auditLinks (rows ++ [row]) = auditLinks rows := by
      rw [auditLinks_append, auditLinks_of_empty hrow, List.append_nil]
    rw [hsame]
    refine ⟨by rw [hlinks]; exact seen.expected, ?_, by rw [hlinks]; exact seen.intact,
      by rw [hlinks]; exact seen.checkpoint⟩
    rw [seen.checked]
    simp [chained, hrow]
  · have hlinks : auditLinks (rows ++ [row]) = auditLinks rows ++ [row.link] := by
      rw [auditLinks_append, auditLinks_of_hash hrow]
    rw [VerifyState.check, if_neg hrow]
    refine ⟨?_, ?_, ?_, ?_⟩
    · rw [hlinks, head_concat]
      rfl
    · simp [chained, hrow, seen.checked]
    · rw [hlinks, linked_concat, ← seen.intact, ← seen.expected]
      by_cases hlink : row.prevHash = s.expectedPrevHash
      · have hown : row.link.hash = computeAuditEntryHash h row.link.prev row.link.content ↔
            row.hash = computeAuditEntryHash h s.expectedPrevHash row.toAuditChainEntryInput := by
          rw [← hlink]
          rfl
        rw [hown]
        by_cases hhash : row.hash =
            computeAuditEntryHash h s.expectedPrevHash row.toAuditChainEntryInput
        · simp [AuditRow.link, hlink, ← hhash]
        · simp [hhash]
      · simp [AuditRow.link, hlink]
    · rw [hlinks]
      simp [AuditRow.link]

theorem verifyState_seen (rows : List AuditRow) :
    (rows.foldl (VerifyState.check h) .start).Seen h rows := by
  induction rows using List.reverseRecOn with
  | nil => exact ⟨rfl, rfl, by simp [VerifyState.start, Linked], rfl⟩
  | append_singleton rows row ih =>
    rw [List.foldl_append]
    exact ih.check h row

theorem verifyChain_valid_iff (rows : List AuditRow) :
    (verifyChain h rows).valid = true ↔
      Linked (computeAuditEntryHash h) "" (auditLinks rows) :=
  Option.isNone_iff_eq_none.trans (verifyState_seen h rows).intact

theorem verifyChain_checkpoint (rows : List AuditRow) :
    (verifyChain h rows).checkpoint = (auditLinks rows).getLast?.map Link.hash :=
  (verifyState_seen h rows).checkpoint

theorem verifyChain_entriesChecked (rows : List AuditRow) :
    (verifyChain h rows).entriesChecked = (chained rows).length :=
  (verifyState_seen h rows).checked

theorem checkpoint_getD (rows : List AuditRow) :
    (verifyChain h rows).checkpoint.getD "" = head "" (auditLinks rows) := by
  rw [verifyChain_checkpoint, head_eq_getLast?]

/-! ## Checkpoints -/

/-- Two tables that are verified with the same checkpoint have the same chained rows, up to their
ids. -/
theorem chained_eq_of_checkpoint (injective : h.Injective) {rows rows' : List AuditRow}
    (valid : (verifyChain h rows).valid = true) (valid' : (verifyChain h rows').valid = true)
    {checkpoint : String} (anchored : (verifyChain h rows).checkpoint = some checkpoint)
    (anchored' : (verifyChain h rows').checkpoint = some checkpoint) :
    (chained rows).map AuditRow.link = (chained rows').map AuditRow.link := by
  apply eq_of_head_eq injective.binding ((verifyChain_valid_iff h rows).1 valid)
    ((verifyChain_valid_iff h rows').1 valid') (fun _ => hash_ne_of_mem_auditLinks)
    fun _ => hash_ne_of_mem_auditLinks
  calc head "" (auditLinks rows) = (verifyChain h rows).checkpoint.getD "" :=
        (checkpoint_getD h rows).symm
    _ = (verifyChain h rows').checkpoint.getD "" := by rw [anchored, anchored']
    _ = head "" (auditLinks rows') := checkpoint_getD h rows'

/-! ## Writing one row after the other -/

/-- Ids are handed out in order. -/
def nextAuditId (rows : List AuditRow) : Nat := (rows.getLast?.map AuditRow.id).getD 0 + 1

/-- A create that has the table to itself. -/
def createAudit (rows : List AuditRow) (write : AuditData × Date) : List AuditRow :=
  rows ++ [chainAuditRow h write.1 (findLastHash rows) write.2 (nextAuditId rows)]

/-- The table is verified, and the next create finds the hash at the end of the chain. -/
structure ChainIntact (rows : List AuditRow) : Prop where
  linked : Linked (computeAuditEntryHash h) "" (auditLinks rows)
  anchored : head "" (auditLinks rows) = (findLastHash rows).getD ""

/-- A row with its own hash continues a chain exactly when it carries the hash before it. -/
theorem chainIntact_concat_iff {rows : List AuditRow} {row : AuditRow}
    (intact : ChainIntact h rows)
    (own : row.hash = computeAuditEntryHash h row.prevHash row.toAuditChainEntryInput) :
    ChainIntact h (rows ++ [row]) ↔ row.prevHash = (findLastHash rows).getD "" := by
  have hhash : row.hash ≠ "" := by
    rw [own]
    exact h.sha256_ne _
  have hlinks : auditLinks (rows ++ [row]) = auditLinks rows ++ [row.link] := by
    rw [auditLinks_append, auditLinks_of_hash hhash]
  constructor
  · intro hnext
    have hlinked := hnext.linked
    rw [hlinks, linked_concat] at hlinked
    rw [← intact.anchored]
    exact hlinked.2.1
  · intro hprev
    refine ⟨?_, ?_⟩
    · rw [hlinks, linked_concat]
      exact ⟨intact.linked, hprev.trans intact.anchored.symm, own⟩
    · rw [hlinks, head_concat]
      simp [AuditRow.link]

theorem chainIntact_of_empty {rows : List AuditRow} (legacy : ∀ row ∈ rows, row.hash = "") :
    ChainIntact h rows := by
  have hlinks : auditLinks rows = [] := by
    simp only [auditLinks, chained, List.map_eq_nil_iff, List.filter_eq_nil_iff]
    intro row hrow
    simp [legacy row hrow]
  refine ⟨by rw [hlinks]; trivial, ?_⟩
  rw [hlinks, head_nil, findLastHash]
  cases hlast : rows.getLast? with
  | none => rfl
  | some row => exact (legacy row (List.mem_of_getLast? hlast)).symm

theorem ChainIntact.create {rows : List AuditRow} (intact : ChainIntact h rows)
    (write : AuditData × Date) : ChainIntact h (createAudit h rows write) :=
  (chainIntact_concat_iff h intact rfl).2 rfl

/-- Writes one after the other keep the chain. -/
theorem ChainIntact.writes {rows : List AuditRow} (intact : ChainIntact h rows)
    (writes : List (AuditData × Date)) : ChainIntact h (writes.foldl (createAudit h) rows) := by
  induction writes generalizing rows with
  | nil => exact intact
  | cons write writes ih => exact ih (intact.create h write)

/-! ## Tampering -/

/-- Every row is deleted, or keeps its hashes and gets other fields. -/
def tamper (edits : Nat → Option AuditChainEntryInput) (rows : List AuditRow) : List AuditRow :=
  rows.zipIdx.filterMap fun p =>
    (edits p.2).map fun entry => { p.1 with toAuditChainEntryInput := entry }

/-- A chained row is deleted or gets other fields. -/
def Touches (edits : Nat → Option AuditChainEntryInput) (rows : List AuditRow) : Prop :=
  ∃ p ∈ rows.zipIdx, p.1.hash ≠ "" ∧ edits p.2 ≠ some p.1.toAuditChainEntryInput

/-- What is left of the chain is its beginning. -/
def CutsOff (edits : Nat → Option AuditChainEntryInput) (rows : List AuditRow) : Prop :=
  auditLinks (tamper edits rows) <+: auditLinks rows

instance (edits : Nat → Option AuditChainEntryInput) (rows : List AuditRow) :
    Decidable (Touches edits rows) := inferInstanceAs (Decidable (∃ p ∈ rows.zipIdx, _ ∧ _))

instance (edits : Nat → Option AuditChainEntryInput) (rows : List AuditRow) :
    Decidable (CutsOff edits rows) := inferInstanceAs (Decidable (_ <+: _))

/-- A row that is verified has the fields it was written with. -/
theorem mem_auditLinks_of_tampered (injective : h.Injective) {rows : List AuditRow}
    (linked : Linked (computeAuditEntryHash h) "" (auditLinks rows))
    {edits : Nat → Option AuditChainEntryInput} {l : Link String AuditChainEntryInput}
    (mem : l ∈ auditLinks (tamper edits rows))
    (own : l.hash = computeAuditEntryHash h l.prev l.content) : l ∈ auditLinks rows := by
  obtain ⟨row', hrow', rfl⟩ := List.mem_map.1 mem
  obtain ⟨htampered, hhash⟩ := List.mem_filter.1 hrow'
  obtain ⟨⟨row, i⟩, hzip, hedit⟩ := List.mem_filterMap.1 htampered
  obtain ⟨entry, -, rfl⟩ := Option.map_eq_some_iff.1 hedit
  have hrow : row.link ∈ auditLinks rows :=
    List.mem_map_of_mem (List.mem_filter.2 ⟨List.fst_mem_of_mem_zipIdx hzip, hhash⟩)
  have hwritten := own_of_linked linked hrow
  obtain ⟨-, hentry⟩ := injective.binding _ _ _ _ (hwritten.symm.trans own)
  have hentry : row.toAuditChainEntryInput = entry := hentry
  rw [← hentry]
  exact hrow

/-- Whoever changes what was written and leaves the hashes alone is found out, unless the end of the
chain is cut off. -/
theorem tampering_found_iff (injective : h.Injective) {legacy : List AuditRow}
    (unchained : ∀ row ∈ legacy, row.hash = "") (writes : List (AuditData × Date))
    (edits : Nat → Option AuditChainEntryInput) :
    let rows := writes.foldl (createAudit h) legacy
    (Touches edits rows → (verifyChain h (tamper edits rows)).valid = false) ↔
      ¬ (Touches edits rows ∧ CutsOff edits rows) := by
  intro rows
  have hlinked := ((chainIntact_of_empty h unchained).writes h writes).linked
  have hvalid : (verifyChain h (tamper edits rows)).valid = true ↔ CutsOff edits rows := by
    rw [verifyChain_valid_iff]
    constructor
    · intro hleft
      apply prefix_of_linked injective.binding hlinked hleft
        (fun _ => hash_ne_of_mem_auditLinks)
      intro l hl
      exact mem_auditLinks_of_tampered h injective hlinked hl (own_of_linked hleft hl)
    · exact hlinked.of_isPrefix
  rw [← Bool.not_eq_true, hvalid, not_and]

namespace Sample

/-! Texts that are serialised with their lengths. -/

def framed (cs : List Char) : List Char := List.replicate cs.length '1' ++ '0' :: cs

theorem framed_append_inj {cs ds xs ys : List Char} (same : framed cs ++ xs = framed ds ++ ys) :
    cs = ds ∧ xs = ys := by
  have hones (cs zs : List Char) :
      (framed cs ++ zs).takeWhile (· == '1') = List.replicate cs.length '1' := by
    rw [framed, List.append_assoc, List.takeWhile_append_of_pos (by simp)]
    simp
  have hlength : cs.length = ds.length := by
    simpa [hones] using congrArg (fun zs => (zs.takeWhile (· == '1')).length) same
  have hrest : cs ++ xs = ds ++ ys := by simpa [framed, hlength] using same
  exact List.append_inj hrest hlength

theorem flatMap_framed_inj {as bs : List (List Char)} (length : as.length = bs.length)
    (same : as.flatMap framed = bs.flatMap framed) : as = bs := by
  induction as generalizing bs with
  | nil => exact (List.length_eq_zero_iff.1 length.symm).symm
  | cons a as ih =>
    match bs, length with
    | b :: bs, length =>
      rw [List.flatMap_cons, List.flatMap_cons] at same
      obtain ⟨hab, hrest⟩ := framed_append_inj same
      rw [hab, ih (Nat.succ.inj length) hrest]

def optional (text : Option String) : List Char := text.elim [] fun text => 'x' :: text.toList

theorem optional_inj {text text' : Option String} (same : optional text = optional text') :
    text = text' := by
  cases text <;> cases text' <;> simp_all [optional, String.toList_inj]

def auditFields (entry : CanonicalEntry) : List (List Char) :=
  [entry.prevHash.toList, entry.action.toList, entry.actorAddress.toList,
    optional entry.targetReference, optional entry.note,
    List.replicate entry.createdAt.1.toNat '1', List.replicate (-entry.createdAt.1).toNat '1']

def auditHashing : AuditHashing where
  stringify entry := String.ofList ((auditFields entry).flatMap framed)
  sha256 text := "#" ++ text
  sha256_ne text h := by simpa using congrArg String.toList h

theorem auditHashing_injective : auditHashing.Injective where
  stringify := by
    intro entry entry' same
    have hfields : auditFields entry = auditFields entry' :=
      flatMap_framed_inj rfl (String.ofList_inj.1 same)
    simp only [auditFields, List.cons.injEq, String.toList_inj, List.replicate_inj] at hfields
    obtain ⟨hprev, haction, hactor, htarget, hnote, hpos, hneg, -⟩ := hfields
    have hcreated : entry.createdAt = entry'.createdAt := by
      apply Subtype.ext
      omega
    cases entry
    cases entry'
    simp only at hprev haction hactor htarget hnote hcreated
    rw [hprev, haction, hactor, optional_inj htarget, optional_inj hnote, hcreated]
  sha256 := fun _ _ same => (String.append_right_inj _).1 same

def day (n : Nat) : Date := ⟨min n 7, by omega⟩

/-- An action of an administrator. -/
def pausing (note : Option String) : AuditData :=
  { action := "PAUSE", actorAddress := "GA", targetReference := none, note := note,
    createdAt := none }

/-- A row from before there were hashes. -/
def unchainedRow : AuditRow :=
  { action := "PAUSE", actorAddress := "GA", targetReference := some "1", note := none,
    createdAt := day 0, id := 1, prevHash := "", hash := "" }

def auditWrites : List (AuditData × Date) := [(pausing none, day 1), (pausing (some "a"), day 2)]

def auditLog : List AuditRow := auditWrites.foldl (createAudit auditHashing) [unchainedRow]

/-- The last row is deleted. -/
def lastDeleted (i : Nat) : Option AuditChainEntryInput :=
  if i < 2 then (auditLog[i]?).map AuditRow.toAuditChainEntryInput else none

/-- A note is removed. -/
def noteRemoved (i : Nat) : Option AuditChainEntryInput :=
  (auditLog[i]?).map fun row => { row.toAuditChainEntryInput with note := none }

end Sample

/-- A row at the end is deleted, and the table is verified. -/
theorem not_tampering_found :
    Sample.auditHashing.Injective ∧ Touches Sample.lastDeleted Sample.auditLog ∧
      (verifyChain Sample.auditHashing (tamper Sample.lastDeleted Sample.auditLog)).valid = true :=
  ⟨Sample.auditHashing_injective, by decide +kernel, by decide +kernel⟩

theorem tampering_found_of_note :
    (verifyChain Sample.auditHashing (tamper Sample.noteRemoved Sample.auditLog)).valid = false :=
  (tampering_found_iff Sample.auditHashing Sample.auditHashing_injective
    (by decide : ∀ row ∈ [Sample.unchainedRow], row.hash = "") Sample.auditWrites
    Sample.noteRemoved).2
    (by decide +kernel) (by decide +kernel)

/-- The same chain, in a table without the old row. -/
theorem chained_eq_of_log :
    (chained Sample.auditLog).map AuditRow.link =
      (chained (Sample.auditWrites.foldl (createAudit Sample.auditHashing) [])).map
        AuditRow.link :=
  chained_eq_of_checkpoint Sample.auditHashing Sample.auditHashing_injective (by decide +kernel)
    (by decide +kernel) rfl (by decide +kernel)

end Amana.Backend
