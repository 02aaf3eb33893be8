import Amana.Lib.Jobs
import Amana.Backend.AuditChain

/-!
# Writers of the audit log

The middleware of `lib/db.ts` reads the last hash through the client, outside of the transaction
that creates the row, and the row is written later.  Rows get their ids when they are written, and
are seen by others when they are committed.

What is seen is verified all along a run exactly when every row that comes to be seen is the last
one, and nothing has come to be seen since the hash before it was read (`chain_verified_iff`).
-/

namespace Amana.Backend

open Lib Lib.HashChain
open Lib.Jobs (Job Does Onward)

/-- A row on disk; `writer` is the worker that has not committed it yet. -/
structure AuditSlot where
  row : AuditRow
  writer : Option Nat
  deriving DecidableEq, Repr

/-- The rows everybody sees. -/
def visible (slots : List AuditSlot) : List AuditRow :=
  (slots.filter fun slot => slot.writer = none).map AuditSlot.row

/-- The rows everybody sees once worker `i` has committed. -/
def visibleAfter (i : Nat) (slots : List AuditSlot) : List AuditRow :=
  (slots.filter fun slot => slot.writer = none ∨ slot.writer = some i).map AuditSlot.row

def commitSlots (i : Nat) (slots : List AuditSlot) : List AuditSlot :=
  slots.map fun slot => if slot.writer = some i then { slot with writer := none } else slot

inductive AuditOp where
  /-- The hash of the last row. -/
  | findFirst
  /-- `new Date()`. -/
  | newDate
  /-- The row is written, in the transaction of the worker or on its own; the id is set here. -/
  | create (inTransaction : Bool) (row : AuditRow)
  | commit
  deriving DecidableEq, Repr

abbrev AuditAnswer : AuditOp → Type
  | .findFirst => Option String
  | .newDate => Date
  | .create .. | .commit => Unit

def AuditOp.ask (op : AuditOp) : Job AuditAnswer (AuditAnswer op) := .ask op .done

def serveAudit (i : Nat) : (op : AuditOp) → Date → List AuditSlot → AuditAnswer op × List AuditSlot
  | .findFirst, _, slots => (findLastHash (visible slots), slots)
  | .newDate, date, slots => (date, slots)
  | .create inTransaction row, _, slots =>
    ((), slots ++ [{
      row := { row with id := nextAuditId (slots.map AuditSlot.row) }
      writer := if inTransaction then some i else none }])
  | .commit, _, slots => ((), commitSlots i slots)

inductive AuditCall where
  | create (data : AuditData)
  /-- A transaction of several creates. -/
  | transaction (creates : List AuditData)

variable (h : AuditHashing)

/-- The middleware, and the create it lets through. -/
def createWithHash (inTransaction : Bool) (data : AuditData) : Job AuditAnswer Unit := do
  let last ← AuditOp.ask .findFirst
  let now ← AuditOp.ask .newDate
  AuditOp.ask (.create inTransaction (chainAuditRow h data last now 0))

def createAllWithHash : List AuditData → Job AuditAnswer Unit
  | [] => AuditOp.ask .commit
  | data :: rest => do
    createWithHash h true data
    createAllWithHash rest

def AuditCall.program : AuditCall → Job AuditAnswer Unit
  | .create data => createWithHash h false data
  | .transaction creates => createAllWithHash h creates

/-- The writers. -/
def auditService : Jobs.Service AuditCall AuditAnswer (List AuditSlot) Date Empty Unit where
  program := AuditCall.program h
  serve := serveAudit
  drift := nofun

abbrev AuditWorld := Jobs.World AuditCall AuditAnswer (List AuditSlot) Unit

abbrev AuditActivity := Jobs.Activity AuditCall Date Empty

/-- A table, and no writers yet. -/
def AuditWorld.start (rows : List AuditRow) : AuditWorld :=
  .fresh (rows.map fun row => ⟨row, none⟩)

/-! ## What the writers have read -/

/-- The rows that were seen at the last `findFirst` of each worker, and at that before the create of
each row, by its id. -/
structure WriterReads where
  last : Nat → List AuditRow
  before : Nat → List AuditRow

def WriterReads.record (i : Nat) : (op : AuditOp) → Date → List AuditSlot → WriterReads → WriterReads
  | .findFirst, _, slots, reads => { reads with last := Function.update reads.last i (visible slots) }
  | .create .., _, slots, reads =>
    { reads with
      before :=
        Function.update reads.before (nextAuditId (slots.map AuditSlot.row)) (reads.last i) }
  | .newDate, _, _, reads | .commit, _, _, reads => reads

/-- The writers, with the record. -/
abbrev auditReads :
    Jobs.Service AuditCall AuditAnswer (List AuditSlot × WriterReads) Date Empty Unit :=
  (auditService h).watch WriterReads.record

abbrev AuditReadsWorld := Jobs.World AuditCall AuditAnswer (List AuditSlot × WriterReads) Unit

def AuditReadsWorld.start (rows : List AuditRow) : AuditReadsWorld :=
  .fresh (rows.map fun row => ⟨row, none⟩, ⟨fun _ => rows, fun _ => rows⟩)

/-! ## The condition -/

/-- The table is verified with the hash of its last row as the checkpoint; no hash stands for none. -/
structure AuditVerified (rows : List AuditRow) : Prop where
  valid : (verifyChain h rows).valid = true
  checkpoint : (verifyChain h rows).checkpoint.getD "" = (findLastHash rows).getD ""

instance (rows : List AuditRow) : Decidable (AuditVerified h rows) :=
  decidable_of_iff ((verifyChain h rows).valid = true ∧
      (verifyChain h rows).checkpoint.getD "" = (findLastHash rows).getD "")
    ⟨fun hboth => ⟨hboth.1, hboth.2⟩, fun hrows => ⟨hrows.valid, hrows.checkpoint⟩⟩

theorem auditVerified_iff {rows : List AuditRow} : AuditVerified h rows ↔ ChainIntact h rows := by
  have hvalid := verifyChain_valid_iff h rows
  have hcheckpoint := checkpoint_getD h rows
  constructor
  · rintro ⟨valid, checkpoint⟩
    exact ⟨hvalid.1 valid, hcheckpoint.symm.trans checkpoint⟩
  · rintro ⟨linked, anchored⟩
    exact ⟨hvalid.2 linked, hcheckpoint.trans anchored⟩

/-- When a row comes to be seen, nothing has come to be seen since its `findFirst`.  It is the only
one its transaction has written, and no row that is seen has a greater id. -/
def InTurn (i : Nat) (slots : List AuditSlot) (reads : WriterReads) : AuditOp → Prop
  | .create false _ => reads.last i = visible slots
  | .commit => ∀ slot ∈ slots, slot.writer = some i →
      reads.before slot.row.id = visible slots ∧
        ∀ other ∈ slots, other.writer = none ∨ other.writer = some i → other.row.id ≤ slot.row.id
  | _ => True

instance (i : Nat) (slots : List AuditSlot) (reads : WriterReads) :
    (op : AuditOp) → Decidable (InTurn i slots reads op)
  | .create false _ => inferInstanceAs (Decidable (_ = _))
  | .commit => inferInstanceAs (Decidable (∀ slot ∈ slots, _ → _ ∧ ∀ other ∈ slots, _ → _))
  | .create true _ | .findFirst | .newDate => isTrue trivial

/-- What the worker asks next is in turn. -/
def WritesInTurn (w : AuditReadsWorld) : AuditActivity → Prop
  | .advance i _ => ∀ c op next, w.workers[i]? = some (c, some (.ask op next)) →
      InTurn i w.shared.1 w.shared.2 op
  | _ => True

instance (w : AuditReadsWorld) : (a : AuditActivity) → Decidable (WritesInTurn w a)
  | .advance i _ =>
    match found : w.workers[i]? with
    | some (c, some (.ask op next)) =>
      decidable_of_iff (InTurn i w.shared.1 w.shared.2 op)
        ⟨fun h _ _ _ e => by cases found.symm.trans e; exact h, fun h => h c op next found⟩
    | none | some (_, none) | some (_, some (.done _)) =>
      isTrue fun _ _ _ e => by cases found.symm.trans e
  | .call _ | .crash _ | .outside _ => isTrue trivial

/-! ## What the writers keep -/

/-- A row that is seen stays. -/
def KeepsVisible (slots slots' : List AuditSlot) : Prop := ∀ row ∈ visible slots, row ∈ visible slots'

theorem keepsVisible_onward : Onward KeepsVisible where
  refl := fun _ _ h => h
  trans := fun h h' row hrow => h' row (h row hrow)

/-- The row has its own hash, and carries that of a row that is seen. -/
def LinksBack (slots : List AuditSlot) (row : AuditRow) : Prop :=
  row.hash = computeAuditEntryHash h row.prevHash row.toAuditChainEntryInput ∧
    (row.prevHash = "" ∨ ∃ before ∈ visible slots, before.hash = row.prevHash)

theorem LinksBack.mono {slots slots' : List AuditSlot} {row : AuditRow}
    (links : LinksBack h slots row) (grows : KeepsVisible slots slots') : LinksBack h slots' row := by
  obtain ⟨hown, hempty | ⟨before, hbefore, hhash⟩⟩ := links
  · exact ⟨hown, .inl hempty⟩
  · exact ⟨hown, .inr ⟨before, grows before hbefore, hhash⟩⟩

/-- What the writers ask. -/
def CreatesLinked (op : AuditOp) (slots : List AuditSlot) : Prop :=
  ∀ inTransaction row, op = .create inTransaction row → LinksBack h slots row

structure SlotsOk (slots : List AuditSlot) : Prop where
  ids : slots.Pairwise fun slot later => slot.row.id < later.row.id
  pending : ∀ slot ∈ slots, slot.writer ≠ none → LinksBack h slots slot.row

@[simp] theorem visible_append (slots slots' : List AuditSlot) :
    visible (slots ++ slots') = visible slots ++ visible slots' := by
  simp [visible]

@[simp] theorem visibleAfter_append (i : Nat) (slots slots' : List AuditSlot) :
    visibleAfter i (slots ++ slots') = visibleAfter i slots ++ visibleAfter i slots' := by
  simp [visibleAfter]

theorem visible_commitSlots (i : Nat) (slots : List AuditSlot) :
    visible (commitSlots i slots) = visibleAfter i slots := by
  have hrow : (AuditSlot.row ∘ fun slot : AuditSlot =>
      if slot.writer = some i then { slot with writer := none } else slot) = AuditSlot.row := by
    funext slot
    show (if slot.writer = some i then { slot with writer := none } else slot).row = slot.row
    split <;> rfl
  rw [visible, commitSlots, List.filter_map, List.map_map, hrow, visibleAfter]
  congr 1
  apply List.filter_congr
  intro slot _
  by_cases hi : slot.writer = some i
  · simp [hi]
  · simp [hi]

theorem visible_sublist_visibleAfter (i : Nat) (slots : List AuditSlot) :
    (visible slots).Sublist (visibleAfter i slots) := by
  apply List.Sublist.map
  apply List.monotone_filter_right
  intro slot hslot
  simp only [decide_eq_true_eq] at hslot ⊢
  exact .inl hslot

theorem visibleAfter_of_none {i : Nat} {slots : List AuditSlot}
    (none : ∀ slot ∈ slots, slot.writer ≠ some i) : visibleAfter i slots = visible slots := by
  rw [visibleAfter, visible]
  congr 1
  apply List.filter_congr
  intro slot hslot
  simp [none slot hslot]

theorem serveAudit_keepsVisible (i : Nat) (op : AuditOp) (date : Date) (slots : List AuditSlot) :
    KeepsVisible slots (serveAudit i op date slots).2 := by
  intro row hrow
  cases op with
  | findFirst | newDate => exact hrow
  | create inTransaction new =>
    show row ∈ visible (slots ++ _)
    rw [visible_append]
    exact List.mem_append_left _ hrow
  | commit =>
    show row ∈ visible (commitSlots i slots)
    rw [visible_commitSlots]
    exact (visible_sublist_visibleAfter i slots).subset hrow

/-- What the middleware writes carries the hash it has read. -/
theorem createWithHash_does (i : Nat) (inTransaction : Bool) (data : AuditData)
    (slots : List AuditSlot) :
    Does (serveAudit i) KeepsVisible (fun _ _ _ => True) (fun op _ => CreatesLinked h op)
      (fun _ _ => True) (createWithHash h inTransaction data) slots := by
  intro read _ _ _
  refine ⟨nofun, fun dated later _ _ => ⟨nofun, fun written later' _ _ => ⟨?_, trivial⟩⟩⟩
  intro _ row hrow
  cases hrow
  refine ⟨rfl, ?_⟩
  have hgrows := keepsVisible_onward.trans later later'
  show (findLastHash (visible read)).getD "" = "" ∨ _
  cases hlast : findLastHash (visible read) with
  | none => exact .inl rfl
  | some hash =>
    obtain ⟨row, hrow, rfl⟩ := Option.map_eq_some_iff.1 hlast
    refine .inr ⟨row, hgrows row (List.mem_of_getLast? hrow), ?_⟩
    show row.hash = (findLastHash (visible read)).getD ""
    rw [hlast]
    rfl

theorem program_does (i : Nat) (c : AuditCall) (slots : List AuditSlot) :
    Does (serveAudit i) KeepsVisible (fun _ _ _ => True) (fun op _ => CreatesLinked h op)
      (fun _ _ => True) (c.program h) slots := by
  cases c with
  | create data => exact createWithHash_does h i false data slots
  | transaction creates =>
    show Does _ _ _ _ _ (createAllWithHash h creates) slots
    induction creates generalizing slots with
    | nil => exact fun _ _ _ _ => ⟨nofun, trivial⟩
    | cons data creates ih =>
      apply Jobs.does_bind.2
      apply (createWithHash_does h i true data slots).mono
      exact fun _ slots _ => ih slots

theorem lt_nextAuditId {slots : List AuditSlot}
    (ids : slots.Pairwise fun slot later => slot.row.id < later.row.id) :
    ∀ slot ∈ slots, slot.row.id < nextAuditId (slots.map AuditSlot.row) := by
  intro slot hslot
  obtain rfl | ⟨before, last, rfl⟩ := List.eq_nil_or_concat slots
  · cases hslot
  rw [List.concat_eq_append] at ids hslot ⊢
  have hlast : slot.row.id ≤ last.row.id := by
    rcases List.mem_append.1 hslot with hbefore | hlast
    · exact Nat.le_of_lt ((List.pairwise_append.1 ids).2.2 slot hbefore last (by simp))
    · rw [List.mem_singleton.1 hlast]
  simp [nextAuditId]
  omega

theorem SlotsOk.serve {slots : List AuditSlot} (ok : SlotsOk h slots) (i : Nat) {op : AuditOp}
    (linked : CreatesLinked h op slots) (date : Date) :
    SlotsOk h (serveAudit i op date slots).2 := by
  have hgrows := serveAudit_keepsVisible i op date slots
  cases op with
  | findFirst | newDate => exact ok
  | create inTransaction row =>
    have hrow := linked inTransaction row rfl
    refine ⟨?_, ?_⟩
    · refine List.pairwise_append.2 ⟨ok.ids, List.pairwise_singleton .., ?_⟩
      intro slot hslot new hnew
      rw [List.mem_singleton.1 hnew]
      exact lt_nextAuditId ok.ids slot hslot
    · intro slot hslot hpending
      rcases List.mem_append.1 hslot with hold | hnew
      · exact (ok.pending slot hold hpending).mono h hgrows
      · rw [List.mem_singleton.1 hnew]
        exact LinksBack.mono h hrow hgrows
  | commit =>
    refine ⟨?_, ?_⟩
    · refine List.pairwise_map.2 (ok.ids.imp ?_)
      intro slot later hlt
      split <;> split <;> exact hlt
    · intro slot hslot hpending
      obtain ⟨old, hold, rfl⟩ := List.mem_map.1 hslot
      by_cases hi : old.writer = some i
      · simp [hi] at hpending
      · rw [if_neg hi] at hpending ⊢
        exact (ok.pending old hold hpending).mono h hgrows

/-! ## Rows that come to be seen -/

theorem mem_auditLinks {rows : List AuditRow} {row : AuditRow} (mem : row ∈ rows)
    (hash : row.hash ≠ "") : row.link ∈ auditLinks rows :=
  List.mem_map_of_mem (List.mem_filter.2 ⟨mem, by simpa using hash⟩)

section Added

variable {before after after' : List AuditRow} {row : AuditRow}

theorem auditLinks_around (hash : row.hash ≠ "") : auditLinks (before ++ row :: after) =
    auditLinks before ++ row.link :: auditLinks after := by
  rw [List.append_cons, auditLinks_append, auditLinks_append, auditLinks_of_hash hash,
    List.append_assoc, List.singleton_append]

/-- No other link has the hash of the row. -/
theorem hash_ne_of_chainIntact (injective : h.Injective) (hash : row.hash ≠ "")
    (next : ChainIntact h (before ++ row :: after)) :
    ∀ l ∈ auditLinks before ++ auditLinks after, l.hash ≠ row.hash := by
  have hnodup := HashChain.nodup_hashes injective.binding next.linked
    fun _ => hash_ne_of_mem_auditLinks
  rw [auditLinks_around hash, List.perm_middle.map _ |>.nodup_iff, List.map_cons,
    List.nodup_cons] at hnodup
  exact fun l hl hsame => hnodup.1 (List.mem_map.2 ⟨l, hl, hsame⟩)

/-- The chain that was there is the beginning of the new one, so it ends before the new row. -/
theorem ends_of_chainIntact (injective : h.Injective) (intact : ChainIntact h (before ++ after))
    (stay : after.Sublist after') (hash : row.hash ≠ "")
    (next : ChainIntact h (before ++ row :: after')) : auditLinks after = [] := by
  have hstay : auditLinks after ⊆ auditLinks after' := ((stay.filter _).map _).subset
  have hprefix : auditLinks (before ++ after) <+: auditLinks (before ++ row :: after') := by
    apply prefix_of_linked injective.binding next.linked intact.linked
      fun _ => hash_ne_of_mem_auditLinks
    rw [auditLinks_append, auditLinks_around hash]
    intro l hl
    rcases List.mem_append.1 hl with hl | hl
    · exact List.mem_append_left _ hl
    · exact List.mem_append_right _ (List.mem_cons_of_mem _ (hstay hl))
  rw [auditLinks_append, auditLinks_around hash, List.prefix_append_right_inj] at hprefix
  match hafter : auditLinks after with
  | [] => rfl
  | l :: ls =>
    rw [hafter, List.cons_prefix_cons] at hprefix
    have hl : l ∈ auditLinks after' := hstay (by rw [hafter]; exact List.mem_cons_self ..)
    have hsame : l.hash = row.hash := congrArg Link.hash hprefix.1
    exact absurd hsame (hash_ne_of_chainIntact h injective hash next l (List.mem_append_right _ hl))

/-- The last row of a chain has a hash. -/
theorem eq_nil_of_auditLinks (hash : row.hash ≠ "") (next : ChainIntact h (before ++ row :: after))
    (none : auditLinks after = []) : after = [] := by
  by_contra hne
  obtain ⟨rows, last, hlast⟩ := (List.eq_nil_or_concat after).resolve_left hne
  have hempty : last.hash = "" := by
    by_contra hhash
    have hmem : last.link ∈ auditLinks after := mem_auditLinks (by rw [hlast]; simp) hhash
    rw [none] at hmem
    cases hmem
  have hanchored := next.anchored
  have hrows : before ++ row :: after = (before ++ row :: rows) ++ [last] := by
    rw [hlast]
    simp
  rw [auditLinks_around hash, none, head_concat, hrows, findLastHash_concat] at hanchored
  exact hash (hanchored.trans hempty)

/-- Nothing comes after a row that is added to a chain: what was there does not come after it, and
what links back to what was there does not link to it. -/
theorem eq_nil_of_chainIntact (injective : h.Injective) (intact : ChainIntact h (before ++ after))
    (stay : after.Sublist after') (hash : row.hash ≠ "")
    (added : ∀ new ∈ after', new ∈ after ∨
      new.prevHash = "" ∨ ∃ old ∈ before ++ after, old.hash = new.prevHash)
    (next : ChainIntact h (before ++ row :: after')) : after' = [] := by
  have hends := ends_of_chainIntact h injective intact stay hash next
  apply eq_nil_of_auditLinks h hash next
  match hafter' : auditLinks after' with
  | [] => rfl
  | l :: ls =>
    exfalso
    have hlinked := next.linked
    rw [auditLinks_around hash, hafter', linked_append] at hlinked
    have hprev : l.prev = row.hash := hlinked.2.2.2.1
    have hl : l ∈ auditLinks after' := by rw [hafter']; simp
    obtain ⟨new, hnew, rfl⟩ := List.mem_map.1 hl
    obtain ⟨hnew, hhash⟩ := List.mem_filter.1 hnew
    rcases added new hnew with hold | hempty | ⟨old, hold, hback⟩
    · have hmem := mem_auditLinks hold (by simpa using hhash)
      rw [hends] at hmem
      cases hmem
    · exact hash (hprev.symm.trans hempty)
    · have hsame : old.hash = row.hash := hback.trans hprev
      have hmem := mem_auditLinks hold (hsame ▸ hash)
      rw [auditLinks_append, hends, List.append_nil] at hmem
      exact hash_ne_of_chainIntact h injective hash next _ (List.mem_append_left _ hmem) hsame

end Added

theorem exists_first {i : Nat} {slots : List AuditSlot}
    (found : ¬ ∀ slot ∈ slots, slot.writer ≠ some i) :
    ∃ before slot after, slots = before ++ slot :: after ∧ slot.writer = some i ∧
      ∀ other ∈ before, other.writer ≠ some i := by
  have hfind : (slots.find? fun slot => slot.writer = some i).isSome = true := by
    rw [List.find?_isSome]
    simpa using found
  obtain ⟨slot, hslot⟩ := Option.isSome_iff_exists.1 hfind
  obtain ⟨hi, before, after, hsplit, hbefore⟩ := List.find?_eq_some_iff_append.1 hslot
  exact ⟨before, slot, after, hsplit, by simpa using hi, by simpa using hbefore⟩

section Commit

/-- A row that comes to be seen carries the hash of the last row that is seen, and comes last. -/
def CarriesLast (i : Nat) (slots : List AuditSlot) : AuditOp → Prop
  | .create false row => row.prevHash = (findLastHash (visible slots)).getD ""
  | .commit => ∀ slot ∈ slots, slot.writer = some i →
      slot.row.prevHash = (findLastHash (visible slots)).getD "" ∧
        ∀ other ∈ slots, other.writer = none ∨ other.writer = some i → other.row.id ≤ slot.row.id
  | _ => True

variable {i : Nat} {slots before after : List AuditSlot} {slot : AuditSlot}

theorem visible_around (mine : slot.writer = some i) :
    visible (before ++ slot :: after) = visible before ++ visible after := by
  rw [List.append_cons, visible_append, visible_append]
  simp [visible, mine]

theorem visibleAfter_around (mine : slot.writer = some i)
    (first : ∀ other ∈ before, other.writer ≠ some i) :
    visibleAfter i (before ++ slot :: after) =
      visible before ++ slot.row :: visibleAfter i after := by
  rw [List.append_cons, visibleAfter_append, visibleAfter_append, visibleAfter_of_none first]
  simp [visibleAfter, mine]

theorem visibleAfter_eq_nil_iff :
    visibleAfter i slots = [] ↔
      ∀ slot ∈ slots, ¬ (slot.writer = none ∨ slot.writer = some i) := by
  simp only [visibleAfter, List.map_eq_nil_iff, List.filter_eq_nil_iff, decide_eq_true_eq]

/-- Where nothing that is seen comes after the row, its own hash decides. -/
theorem chainIntact_around_iff (ok : SlotsOk h (before ++ slot :: after))
    (intact : ChainIntact h (visible (before ++ slot :: after))) (mine : slot.writer = some i)
    (first : ∀ other ∈ before, other.writer ≠ some i) (none : visibleAfter i after = []) :
    ChainIntact h (visibleAfter i (before ++ slot :: after)) ↔
      slot.row.prevHash = (findLastHash (visible (before ++ slot :: after))).getD "" := by
  have hgone : visible after = [] :=
    List.sublist_nil.1 (none ▸ visible_sublist_visibleAfter i after)
  have hown := (ok.pending slot (by simp) (by simp [mine])).1
  rw [visible_around mine, hgone, List.append_nil] at intact ⊢
  rw [visibleAfter_around mine first, none]
  exact chainIntact_concat_iff h intact hown

/-- A commit that keeps the chain brings up a row after which nothing is seen. -/
theorem visibleAfter_eq_nil (injective : h.Injective) (ok : SlotsOk h (before ++ slot :: after))
    (intact : ChainIntact h (visible (before ++ slot :: after))) (mine : slot.writer = some i)
    (first : ∀ other ∈ before, other.writer ≠ some i)
    (next : ChainIntact h (visibleAfter i (before ++ slot :: after))) :
    visibleAfter i after = [] := by
  have hhash : slot.row.hash ≠ "" := by
    rw [(ok.pending slot (by simp) (by simp [mine])).1]
    exact h.sha256_ne _
  rw [visible_around mine] at intact
  rw [visibleAfter_around mine first] at next
  have hstay := visible_sublist_visibleAfter i after
  apply eq_nil_of_chainIntact h injective intact hstay hhash ?_ next
  intro new hnew
  obtain ⟨other, hother, rfl⟩ := List.mem_map.1 hnew
  obtain ⟨hmem, -⟩ := List.mem_filter.1 hother
  by_cases hcommitted : other.writer = none
  · left
    exact List.mem_map_of_mem (List.mem_filter.2 ⟨hmem, by simpa using hcommitted⟩)
  · right
    rw [← visible_around mine]
    exact (ok.pending other (by simp [hmem]) hcommitted).2

/-- A commit keeps the chain exactly when what it brings up carries the last hash. -/
theorem chainIntact_commit_iff (injective : h.Injective) (ok : SlotsOk h slots)
    (intact : ChainIntact h (visible slots)) (i : Nat) :
    ChainIntact h (visibleAfter i slots) ↔ CarriesLast i slots .commit := by
  by_cases hnone : ∀ slot ∈ slots, slot.writer ≠ some i
  · rw [visibleAfter_of_none hnone]
    exact ⟨fun _ slot hslot hi => absurd hi (hnone slot hslot), fun _ => intact⟩
  obtain ⟨before, slot, after, rfl, hi, hbefore⟩ := exists_first hnone
  have hids := List.pairwise_append.1 ok.ids
  constructor
  · intro hnext
    have hempty := visibleAfter_eq_nil h injective ok intact hi hbefore hnext
    have hunseen := visibleAfter_eq_nil_iff.1 hempty
    intro other hother hoi
    rcases List.mem_append.1 hother with hmem | hmem
    · exact absurd hoi (hbefore other hmem)
    rcases List.mem_cons.1 hmem with rfl | hmem
    · refine ⟨(chainIntact_around_iff h ok intact hi hbefore hempty).1 hnext, ?_⟩
      intro third hthird hseen
      rcases List.mem_append.1 hthird with hmem | hmem
      · exact Nat.le_of_lt (hids.2.2 third hmem other (by simp))
      rcases List.mem_cons.1 hmem with rfl | hmem
      · exact Nat.le_refl _
      · exact absurd hseen (hunseen third hmem)
    · exact absurd (.inr hoi) (hunseen other hmem)
  · intro hturn
    obtain ⟨hprev, hlast⟩ := hturn slot (by simp) hi
    have hempty : visibleAfter i after = [] := by
      refine visibleAfter_eq_nil_iff.2 fun other hother hseen => ?_
      have hlt := (List.pairwise_cons.1 hids.2.1).1 other hother
      have hle := hlast other (by simp [hother]) hseen
      omega
    exact (chainIntact_around_iff h ok intact hi hbefore hempty).2 hprev

end Commit

/-! ## Runs -/

theorem chainIntact_serve_iff (injective : h.Injective) {slots : List AuditSlot}
    (ok : SlotsOk h slots) (intact : ChainIntact h (visible slots)) (i : Nat) {op : AuditOp}
    (linked : CreatesLinked h op slots) (date : Date) :
    ChainIntact h (visible (serveAudit i op date slots).2) ↔ CarriesLast i slots op := by
  cases op with
  | findFirst | newDate => exact iff_of_true intact trivial
  | create inTransaction row =>
    have hrow := linked inTransaction row rfl
    rw [serveAudit, visible_append]
    cases inTransaction with
    | true =>
      apply iff_of_true _ trivial
      simpa [visible] using intact
    | false =>
      show ChainIntact h (visible slots ++ [{ row with id := _ }]) ↔ _
      exact chainIntact_concat_iff h intact hrow.1
  | commit =>
    show ChainIntact h (visible (commitSlots i slots)) ↔ _
    rw [visible_commitSlots]
    exact chainIntact_commit_iff h injective ok intact i

/-- What holds all along, whether or not the writes are in turn. -/
structure AuditWorldOk (w : AuditWorld) : Prop where
  slots : SlotsOk h w.shared
  does : w.Does (auditService h) (fun _ => KeepsVisible) (fun _ _ _ _ => True)
    (fun _ _ op _ slots => CreatesLinked h op slots) fun _ _ _ _ => True

theorem AuditWorldOk.asked {w : AuditWorld} (ok : AuditWorldOk h w) {i : Nat} {c : AuditCall}
    {op : AuditOp} {next : AuditAnswer op → Job AuditAnswer Unit} (date : Date)
    (found : w.workers[i]? = some (c, some (.ask op next))) : CreatesLinked h op w.shared :=
  ok.does.asked (fun _ => keepsVisible_onward) date found trivial

theorem AuditWorldOk.step {w : AuditWorld} (ok : AuditWorldOk h w) (a : AuditActivity) :
    AuditWorldOk h (Jobs.step (auditService h) w a) := by
  refine ⟨?_, ?_⟩
  · refine Jobs.shared_step (P := SlotsOk h) ok.slots ?_ ?_
    · rintro i date c op next rfl found
      exact ok.slots.serve h i (ok.asked h date found) date
    · exact fun e => e.elim
  · exact ok.does.step (fun _ => keepsVisible_onward) (fun _ _ _ _ _ _ _ => trivial)
      Jobs.permits_any (fun i _ op date slots _ _ _ => serveAudit_keepsVisible i op date slots)
      (fun e => e.elim) fun c _ => program_does h w.workers.length c w.shared

theorem AuditWorldOk.start {rows : List AuditRow}
    (ordered : rows.Pairwise fun row later => row.id < later.id) :
    AuditWorldOk h (AuditWorld.start rows) := by
  refine ⟨⟨List.pairwise_map.2 ordered, ?_⟩, ?_⟩
  · intro slot hslot hpending
    obtain ⟨row, -, rfl⟩ := List.mem_map.1 hslot
    exact absurd rfl hpending
  · intro i c job found
    cases found

theorem visible_start (rows : List AuditRow) : visible (AuditWorld.start rows).shared = rows := by
  simp [visible, AuditWorld.start, Jobs.World.fresh, List.filter_map, Function.comp_def]

/-! ## Chains that grow -/

/-- Rows with hashes have come to the end. -/
def Grown (rows rows' : List AuditRow) : Prop :=
  ∃ more, rows' = rows ++ more ∧ ∀ row ∈ more, row.hash ≠ ""

theorem Grown.refl (rows : List AuditRow) : Grown rows rows := ⟨[], by simp, by simp⟩

theorem Grown.trans {rows rows' rows'' : List AuditRow} (first : Grown rows rows')
    (second : Grown rows' rows'') : Grown rows rows'' := by
  obtain ⟨more, rfl, hmore⟩ := first
  obtain ⟨more', rfl, hmore'⟩ := second
  refine ⟨more ++ more', List.append_assoc .., fun row hrow => ?_⟩
  exact (List.mem_append.1 hrow).elim (hmore row) (hmore' row)

/-- The last hash of a chain tells how far it had grown. -/
theorem findLastHash_eq_iff (injective : h.Injective) {rows rows' : List AuditRow}
    (grown : Grown rows rows') (intact : ChainIntact h rows') :
    (findLastHash rows).getD "" = (findLastHash rows').getD "" ↔ rows = rows' := by
  refine ⟨fun hsame => ?_, fun heq => by rw [heq]⟩
  obtain ⟨more, rfl, hmore⟩ := grown
  obtain rfl | ⟨init, last, hlast⟩ := List.eq_nil_or_concat more
  · rw [List.append_nil]
  rw [List.concat_eq_append] at hlast
  subst hlast
  have hhash : last.hash ≠ "" := hmore last (by simp)
  rw [← List.append_assoc, findLastHash_concat, Option.getD_some] at hsame
  obtain rfl | ⟨before, row, hrow⟩ := List.eq_nil_or_concat rows
  · exact absurd hsame.symm hhash
  rw [List.concat_eq_append] at hrow
  subst hrow
  rw [findLastHash_concat, Option.getD_some] at hsame
  -- Two rows of one chain would have the same hash.
  have hintact : ChainIntact h (before ++ row :: (init ++ [last])) := by simpa using intact
  have hne := hash_ne_of_chainIntact h injective (hsame ▸ hhash) hintact
  refine absurd hsame.symm (hne last.link (List.mem_append_right _ (mem_auditLinks ?_ hhash)))
  simp

/-- What keeps the chain makes it grow. -/
theorem grown_serve (injective : h.Injective) {slots : List AuditSlot} (ok : SlotsOk h slots)
    (intact : ChainIntact h (visible slots)) (i : Nat) {op : AuditOp}
    (linked : CreatesLinked h op slots) (date : Date)
    (next : ChainIntact h (visible (serveAudit i op date slots).2)) :
    Grown (visible slots) (visible (serveAudit i op date slots).2) := by
  have hhash : ∀ row : AuditRow,
      row.hash = computeAuditEntryHash h row.prevHash row.toAuditChainEntryInput → row.hash ≠ "" :=
    fun row hown => hown ▸ h.sha256_ne _
  cases op with
  | findFirst | newDate => exact .refl _
  | create inTransaction row =>
    have hown := hhash row (linked inTransaction row rfl).1
    rw [serveAudit, visible_append]
    cases inTransaction with
    | true => exact ⟨[], rfl, by simp⟩
    | false => exact ⟨_, rfl, fun new hnew => by rw [List.mem_singleton.1 hnew]; exact hown⟩
  | commit =>
    have hcommit : visible (serveAudit i .commit date slots).2 = visibleAfter i slots :=
      visible_commitSlots i slots
    rw [hcommit] at next ⊢
    by_cases hnone : ∀ slot ∈ slots, slot.writer ≠ some i
    · rw [visibleAfter_of_none hnone]
      exact .refl _
    obtain ⟨before, slot, after, rfl, hi, hbefore⟩ := exists_first hnone
    have hempty := visibleAfter_eq_nil h injective ok intact hi hbefore next
    have hgone : visible after = [] :=
      List.sublist_nil.1 (hempty ▸ visible_sublist_visibleAfter i after)
    have hown := hhash slot.row (ok.pending slot (by simp) (by simp [hi])).1
    rw [visible_around hi, visibleAfter_around hi hbefore, hempty, hgone, List.append_nil]
    exact ⟨_, rfl, fun new hnew => by rw [List.mem_singleton.1 hnew]; exact hown⟩

/-! ## What is written was read -/

/-- The rows that are not seen yet carry the hash that was read before them. -/
def CarryReads (s : List AuditSlot × WriterReads) : Prop :=
  ∀ slot ∈ s.1, slot.writer ≠ none →
    slot.row.prevHash = (findLastHash (s.2.before slot.row.id)).getD ""

/-- A worker creates a row with the hash it has read. -/
def CreatesRead (i : Nat) (op : AuditOp) (s : List AuditSlot × WriterReads) : Prop :=
  ∀ inTransaction row, op = .create inTransaction row →
    row.prevHash = (findLastHash (s.2.last i)).getD ""

/-- The others leave what a worker has read. -/
def KeepsLast (i : Nat) (s s' : List AuditSlot × WriterReads) : Prop := s'.2.last i = s.2.last i

theorem keepsLast_onward (i : Nat) : Onward (KeepsLast i) where
  refl := fun _ => rfl
  trans := fun h h' => h'.trans h

theorem keepsLast_serve {i j : Nat} (other : j ≠ i) (op : AuditOp) (date : Date)
    (s : List AuditSlot × WriterReads) : KeepsLast j s ((auditReads h).serve i op date s).2 := by
  cases op with
  | findFirst => exact Function.update_of_ne other ..
  | newDate | create | commit => rfl

theorem createWithHash_reads (i : Nat) (inTransaction : Bool) (data : AuditData)
    (s : List AuditSlot × WriterReads) :
    Does ((auditReads h).serve i) (KeepsLast i) (fun _ _ _ => True)
      (fun op _ s => CreatesRead i op s) (fun _ _ => True) (createWithHash h inTransaction data)
      s := by
  intro read _ _ _
  refine ⟨nofun, fun dated later _ _ => ⟨nofun, fun written later' _ _ => ⟨?_, trivial⟩⟩⟩
  intro _ row hrow
  cases hrow
  have hread : written.2.last i = visible read.1 :=
    later'.trans (later.trans (Function.update_self ..))
  rw [hread]
  rfl

theorem program_reads (i : Nat) (c : AuditCall) (s : List AuditSlot × WriterReads) :
    Does ((auditReads h).serve i) (KeepsLast i) (fun _ _ _ => True)
      (fun op _ s => CreatesRead i op s) (fun _ _ => True) (c.program h) s := by
  cases c with
  | create data => exact createWithHash_reads h i false data s
  | transaction creates =>
    show Does _ _ _ _ _ (createAllWithHash h creates) s
    induction creates generalizing s with
    | nil => exact fun _ _ _ _ => ⟨nofun, trivial⟩
    | cons data creates ih =>
      apply Jobs.does_bind.2
      apply (createWithHash_reads h i true data s).mono
      exact fun _ s _ => ih s

/-- What holds all along, whether or not the writes are in turn. -/
structure AuditReadsOk (w : AuditReadsWorld) : Prop where
  ok : AuditWorldOk h w.unwatched
  carry : CarryReads w.shared
  does : w.Does (auditReads h) KeepsLast (fun _ _ _ _ => True)
    (fun i _ op _ s => CreatesRead i op s) fun _ _ _ _ => True

section Reads

variable {w : AuditReadsWorld} {i : Nat} {c : AuditCall} {op : AuditOp}
  {next : AuditAnswer op → Job AuditAnswer Unit}

theorem AuditReadsOk.linked (ok : AuditReadsOk h w) (date : Date)
    (found : w.workers[i]? = some (c, some (.ask op next))) : CreatesLinked h op w.shared.1 :=
  ok.ok.asked h date found

theorem AuditReadsOk.reads (ok : AuditReadsOk h w) (date : Date)
    (found : w.workers[i]? = some (c, some (.ask op next))) : CreatesRead i op w.shared :=
  ok.does.asked keepsLast_onward date found trivial

/-- What was read before the rows that are there is left as it is. -/
theorem before_create_of_lt (i : Nat) (inTransaction : Bool) (row : AuditRow) (date : Date)
    {s : List AuditSlot × WriterReads} {id : Nat} (lt : id < nextAuditId (s.1.map AuditSlot.row)) :
    ((auditReads h).serve i (.create inTransaction row) date s).2.2.before id = s.2.before id :=
  Function.update_of_ne (Nat.ne_of_lt lt) ..

/-- What was read before the new row is what its worker has read last. -/
theorem before_create (i : Nat) (inTransaction : Bool) (row : AuditRow) (date : Date)
    (s : List AuditSlot × WriterReads) :
    ((auditReads h).serve i (.create inTransaction row) date s).2.2.before
      (nextAuditId (s.1.map AuditSlot.row)) = s.2.last i :=
  Function.update_self ..

theorem CarryReads.serve {s : List AuditSlot × WriterReads} (carry : CarryReads s)
    (ids : s.1.Pairwise fun slot later => slot.row.id < later.row.id) (reads : CreatesRead i op s)
    (date : Date) : CarryReads ((auditReads h).serve i op date s).2 := by
  cases op with
  | findFirst | newDate => exact carry
  | create inTransaction row =>
    intro slot hslot hpending
    obtain hold | hnew := List.mem_append.1 hslot
    · rw [before_create_of_lt h i inTransaction row date (lt_nextAuditId ids slot hold)]
      exact carry slot hold hpending
    · obtain rfl := List.mem_singleton.1 hnew
      rw [before_create]
      exact reads inTransaction row rfl
  | commit =>
    intro slot hslot hpending
    obtain ⟨old, hold, rfl⟩ := List.mem_map.1 hslot
    by_cases hi : old.writer = some i
    · simp [hi] at hpending
    · rw [if_neg hi] at hpending ⊢
      exact carry old hold hpending

theorem AuditReadsOk.step (ok : AuditReadsOk h w) (a : AuditActivity) :
    AuditReadsOk h (Jobs.step (auditReads h) w a) where
  ok := by
    rw [Jobs.step_watch]
    exact ok.ok.step h a
  carry := by
    refine Jobs.shared_step (P := CarryReads) ok.carry ?_ fun e => e.elim
    rintro i date c op next rfl found
    exact ok.carry.serve h ok.ok.slots.ids (ok.reads h date found) date
  does := ok.does.step keepsLast_onward (fun _ _ _ _ _ _ _ => trivial) Jobs.permits_any
    (fun i _ op date s _ j other => keepsLast_serve h other op date s) (fun e => e.elim)
    fun c _ => program_reads h w.workers.length c w.shared

theorem AuditReadsOk.start {rows : List AuditRow}
    (ordered : rows.Pairwise fun row later => row.id < later.id) :
    AuditReadsOk h (AuditReadsWorld.start rows) where
  ok := .start h ordered
  carry := by
    intro slot hslot hpending
    obtain ⟨row, -, rfl⟩ := List.mem_map.1 hslot
    exact absurd rfl hpending
  does := by
    intro i c job found
    cases found

end Reads

/-- All that was read has grown into what is seen. -/
structure ReadsGrown (s : List AuditSlot × WriterReads) : Prop where
  last : ∀ i, Grown (s.2.last i) (visible s.1)
  before : ∀ slot ∈ s.1, Grown (s.2.before slot.row.id) (visible s.1)

theorem ReadsGrown.serve {s : List AuditSlot × WriterReads} (reads : ReadsGrown s)
    (ids : s.1.Pairwise fun slot later => slot.row.id < later.row.id) {i : Nat} {op : AuditOp}
    {date : Date} (grown : Grown (visible s.1) (visible (serveAudit i op date s.1).2)) :
    ReadsGrown ((auditReads h).serve i op date s).2 := by
  have hlast : ∀ j, Grown (s.2.last j) (visible (serveAudit i op date s.1).2) :=
    fun j => (reads.last j).trans grown
  have hbefore : ∀ slot ∈ s.1,
      Grown (s.2.before slot.row.id) (visible (serveAudit i op date s.1).2) :=
    fun slot hslot => (reads.before slot hslot).trans grown
  cases op with
  | findFirst =>
    refine ⟨fun j => ?_, hbefore⟩
    by_cases hj : j = i
    · subst hj
      rw [show ((auditReads h).serve j .findFirst date s).2.2.last j = visible s.1 from
        Function.update_self ..]
      exact .refl _
    · rw [show ((auditReads h).serve i .findFirst date s).2.2.last j = s.2.last j from
        Function.update_of_ne hj ..]
      exact hlast j
  | newDate => exact reads
  | create inTransaction row =>
    refine ⟨hlast, fun slot hslot => ?_⟩
    obtain hold | hnew := List.mem_append.1 hslot
    · rw [before_create_of_lt h i inTransaction row date (lt_nextAuditId ids slot hold)]
      exact hbefore slot hold
    · obtain rfl := List.mem_singleton.1 hnew
      rw [before_create]
      exact hlast i
  | commit =>
    refine ⟨hlast, fun slot hslot => ?_⟩
    obtain ⟨old, hold, rfl⟩ := List.mem_map.1 hslot
    have hrow : (if old.writer = some i then { old with writer := none } else old).row = old.row := by
      split <;> rfl
    rw [hrow]
    exact hbefore old hold

/-- Along a chain, a row carries the last hash exactly when nothing has come to be seen since it was
read. -/
theorem inTurn_iff (injective : h.Injective) {s : List AuditSlot × WriterReads}
    (carry : CarryReads s) (reads : ReadsGrown s) (intact : ChainIntact h (visible s.1)) {i : Nat}
    {op : AuditOp} (created : CreatesRead i op s) : InTurn i s.1 s.2 op ↔ CarriesLast i s.1 op := by
  cases op with
  | findFirst | newDate => rfl
  | create inTransaction row =>
    cases inTransaction with
    | true => rfl
    | false =>
      show s.2.last i = visible s.1 ↔ row.prevHash = _
      rw [created false row rfl, findLastHash_eq_iff h injective (reads.last i) intact]
  | commit =>
    refine forall_congr' fun slot => forall_congr' fun hslot => forall_congr' fun hi => ?_
    rw [carry slot hslot (by simp [hi]),
      findLastHash_eq_iff h injective (reads.before slot hslot) intact]

/-! ## Verification all along -/

/-- What is seen is verified, and has grown out of all that was read. -/
structure AuditKept (w : AuditReadsWorld) : Prop where
  verified : AuditVerified h (visible w.shared.1)
  reads : ReadsGrown w.shared

theorem verified_step_iff (injective : h.Injective) {w : AuditReadsWorld} (ok : AuditReadsOk h w)
    (kept : AuditKept h w) (a : AuditActivity) :
    (AuditVerified h (visible (Jobs.step (auditReads h) w a).shared.1) ↔ WritesInTurn w a) ∧
      (AuditVerified h (visible (Jobs.step (auditReads h) w a).shared.1) →
        ReadsGrown (Jobs.step (auditReads h) w a).shared) := by
  have hintact := (auditVerified_iff h).1 kept.verified
  cases a with
  | call c => exact ⟨iff_of_true kept.verified trivial, fun _ => kept.reads⟩
  | crash i =>
    rw [Jobs.step]
    split <;> exact ⟨iff_of_true kept.verified trivial, fun _ => kept.reads⟩
  | outside e => exact e.elim
  | advance i date =>
    by_cases hasks : ∃ c op next, w.workers[i]? = some (c, some (.ask op next))
    · obtain ⟨c, op, next, found⟩ := hasks
      have hshared : (Jobs.step (auditReads h) w (.advance i date)).shared =
          ((auditReads h).serve i op date w.shared).2 := by
        simp only [Jobs.step, found]
      have hlinked := ok.linked h date found
      have hserve := chainIntact_serve_iff h injective ok.ok.slots hintact i hlinked date
      have hturn := inTurn_iff h injective ok.carry kept.reads hintact (ok.reads h date found)
      rw [hshared, auditVerified_iff]
      refine ⟨(hserve.trans hturn.symm).trans ⟨fun hin c' op' next' found' => ?_, fun hin => ?_⟩,
        fun hnext => kept.reads.serve h ok.ok.slots.ids
          (grown_serve h injective ok.ok.slots hintact i hlinked date hnext)⟩
      · cases found.symm.trans found'
        exact hin
      · exact hin c op next found
    · have hsame : Jobs.step (auditReads h) w (.advance i date) = w := by
        rw [Jobs.step]
        split
        · exact absurd ⟨_, _, _, ‹_›⟩ hasks
        · rfl
      rw [hsame]
      exact ⟨iff_of_true kept.verified fun c op next found => absurd ⟨c, op, next, found⟩ hasks,
        fun _ => kept.reads⟩

/-- What is seen is verified all along exactly when the last row of the table is chained, or none is,
and every row comes to be seen in turn. -/
theorem chain_verified_iff (injective : h.Injective) {rows : List AuditRow}
    (ordered : rows.Pairwise fun row later => row.id < later.id)
    (valid : (verifyChain h rows).valid = true) (as : List AuditActivity) :
    (∀ bs, bs <+: as →
        AuditVerified h
          (visible (Jobs.run (auditService h) (AuditWorld.start rows) bs).shared)) ↔
      (verifyChain h rows).checkpoint.getD "" = (findLastHash rows).getD "" ∧
        ∀ p ∈ Jobs.trail (auditReads h) (AuditReadsWorld.start rows) as, WritesInTurn p.1 p.2 := by
  have hrun : ∀ bs, (Jobs.run (auditService h) (AuditWorld.start rows) bs).shared =
      (Jobs.run (auditReads h) (AuditReadsWorld.start rows) bs).shared.1 := fun bs =>
    congrArg Jobs.World.shared
      (Jobs.run_watch (auditService h) WriterReads.record (AuditReadsWorld.start rows) bs).symm
  simp only [hrun]
  by_cases hend : (verifyChain h rows).checkpoint.getD "" = (findLastHash rows).getD ""
  · have hstart : AuditKept h (AuditReadsWorld.start rows) := by
      have hvisible : visible (AuditReadsWorld.start rows).shared.1 = rows := visible_start rows
      refine ⟨by rw [hvisible]; exact ⟨valid, hend⟩, fun i => ?_, fun slot _ => ?_⟩
      · rw [hvisible]
        exact .refl rows
      · rw [hvisible]
        exact .refl rows
    rw [and_iff_right hend]
    have hok := fun bs => Machine.run_invariant_of_step (Jobs.step (auditReads h)) bs
      (AuditReadsOk.start h ordered) fun w a ok => ok.step h a
    rw [← Machine.always_iff (Jobs.step (auditReads h)) (P := AuditKept h) (W := AuditReadsOk h)
      (C := WritesInTurn) as (.start h ordered) hstart (fun w a ok => ok.step h a)
      (fun w a ok kept hturn => ⟨((verified_step_iff h injective ok kept a).1).2 hturn,
        (verified_step_iff h injective ok kept a).2
          (((verified_step_iff h injective ok kept a).1).2 hturn)⟩)
      fun w a ok kept next => ((verified_step_iff h injective ok kept a).1).1 next.verified]
    refine ⟨fun hall bs hbs => ?_, fun hall bs hbs => (hall bs hbs).verified⟩
    -- As long as it is verified, what is seen only grows.
    induction bs using List.reverseRecOn with
    | nil => exact hstart
    | append_singleton bs a ih =>
      have hkept := ih ((List.prefix_append bs [a]).trans hbs)
      have hverified := hall _ hbs
      rw [Jobs.run, Machine.run_snoc] at hverified
      rw [Machine.run_snoc]
      exact ⟨hverified, (verified_step_iff h injective (hok bs) hkept a).2 hverified⟩
  · apply iff_of_false
    · intro hall
      have hstart := hall [] List.nil_prefix
      rw [Jobs.run, Machine.run_nil] at hstart
      have hvisible : visible (AuditReadsWorld.start rows).shared.1 = rows := visible_start rows
      rw [hvisible] at hstart
      exact hend hstart.checkpoint
    · exact fun hboth => hend hboth.1

namespace Sample

def auditStart : List AuditRow :=
  [(pausing none, day 1)].foldl (createAudit auditHashing) [unchainedRow]

/-- Worker `i` goes on until it has written its row. -/
def writing (i : Nat) : List AuditActivity :=
  [.advance i (day 3), .advance i (day 3), .advance i (day 3)]

/-- A create, and a transaction with one. -/
def inTurn : List AuditActivity :=
  [.call (.create (pausing none))] ++ writing 0 ++
    [.call (.transaction [pausing (some "b")])] ++ writing 1 ++ [.advance 1 (day 3)]

/-- Two creates read the same hash. -/
def together : List AuditActivity :=
  [.call (.create (pausing none)), .call (.create (pausing (some "b"))), .advance 0 (day 3),
    .advance 1 (day 3), .advance 0 (day 3), .advance 1 (day 3), .advance 0 (day 3),
    .advance 1 (day 3)]

end Sample

/-- The second row carries the hash of a row that is not the last one any more. -/
theorem not_verified_of_together :
    Sample.auditHashing.Injective ∧ (verifyChain Sample.auditHashing Sample.auditStart).valid = true ∧
      (verifyChain Sample.auditHashing (visible (Jobs.run (auditService Sample.auditHashing)
        (AuditWorld.start Sample.auditStart) Sample.together).shared)).valid = false :=
  ⟨Sample.auditHashing_injective, by decide +kernel, by decide +kernel⟩

theorem verified_of_inTurn :
    (visible (Jobs.run (auditService Sample.auditHashing) (AuditWorld.start Sample.auditStart)
        Sample.inTurn).shared).length = 4 ∧
      ∀ bs, bs <+: Sample.inTurn → AuditVerified Sample.auditHashing
        (visible (Jobs.run (auditService Sample.auditHashing)
          (AuditWorld.start Sample.auditStart) bs).shared) :=
  ⟨by decide +kernel, (chain_verified_iff Sample.auditHashing Sample.auditHashing_injective
    (by decide +kernel : Sample.auditStart.Pairwise fun row later => row.id < later.id)
    (by decide +kernel) Sample.inTurn).2 ⟨by decide +kernel, by decide +kernel⟩⟩

end Amana.Backend
