import Mathlib.Data.List.Basic
import Mathlib.Data.List.Flatten

/-!
# Documents

A document is a leaf, a list of documents, or an object with labelled fields; each list and each
object has an identity, so that a document in which one occurs twice can be told from one with two
that look the same.  A value under a label can be spelled in another way (`spell`), and nothing that
looks at the other values only can tell.
-/

namespace Amana.Lib

variable {κ ρ σ τ α : Type}

theorem any_congr_of_mem {l : List α} {p q : α → Bool} (h : ∀ x ∈ l, p x = q x) :
    l.any p = l.any q := by
  rw [Bool.eq_iff_iff, List.any_eq_true, List.any_eq_true]
  exact exists_congr fun x => and_congr_right fun hx => by rw [h x hx]

inductive Document (κ ρ α : Type) where
  | leaf (value : α)
  | array (ref : ρ) (items : List (Document κ ρ α))
  | object (ref : ρ) (fields : List (κ × Document κ ρ α))

namespace Document

/-- What holds of a list or an object when it holds of all in it holds of every document. -/
@[induction_eliminator, elab_as_elim]
theorem induct {P : Document κ ρ α → Prop} (leaf : ∀ value, P (.leaf value))
    (array : ∀ ref items, (∀ item ∈ items, P item) → P (.array ref items))
    (object : ∀ ref fields, (∀ field ∈ fields, P field.2) → P (.object ref fields))
    (v : Document κ ρ α) : P v :=
  @Document.rec κ ρ α P (fun items => ∀ item ∈ items, P item)
    (fun fields => ∀ field ∈ fields, P field.2) (fun field => P field.2) leaf array object
    (by simp) (fun _ _ first rest => List.forall_mem_cons.2 ⟨first, rest⟩)
    (by simp) (fun _ _ first rest => List.forall_mem_cons.2 ⟨first, rest⟩)
    (fun _ _ value => value) v

mutual

/-- The identities and the values under the labels change, from the inside out. -/
def rewrite (f : ρ → σ) (g : κ → Document κ σ α → Document κ σ α) :
    Document κ ρ α → Document κ σ α
  | .leaf value => .leaf value
  | .array ref items => .array (f ref) (rewriteItems f g items)
  | .object ref fields => .object (f ref) (rewriteFields f g fields)

def rewriteItems (f : ρ → σ) (g : κ → Document κ σ α → Document κ σ α) :
    List (Document κ ρ α) → List (Document κ σ α)
  | [] => []
  | item :: rest => rewrite f g item :: rewriteItems f g rest

def rewriteFields (f : ρ → σ) (g : κ → Document κ σ α → Document κ σ α) :
    List (κ × Document κ ρ α) → List (κ × Document κ σ α)
  | [] => []
  | (key, value) :: rest => (key, g key (rewrite f g value)) :: rewriteFields f g rest

end

mutual

/-- Some field has `p`, at any depth. -/
def someField (p : κ → Document κ ρ α → Bool) : Document κ ρ α → Bool
  | .leaf _ => false
  | .array _ items => someItems p items
  | .object _ fields => someFields p fields

def someItems (p : κ → Document κ ρ α → Bool) : List (Document κ ρ α) → Bool
  | [] => false
  | item :: rest => someField p item || someItems p rest

def someFields (p : κ → Document κ ρ α → Bool) : List (κ × Document κ ρ α) → Bool
  | [] => false
  | (key, value) :: rest => p key value || someField p value || someFields p rest

end

mutual

/-- The identities of the lists and objects in a document. -/
def refs : Document κ ρ α → List ρ
  | .leaf _ => []
  | .array ref items => ref :: refsItems items
  | .object ref fields => ref :: refsFields fields

def refsItems : List (Document κ ρ α) → List ρ
  | [] => []
  | item :: rest => refs item ++ refsItems rest

def refsFields : List (κ × Document κ ρ α) → List ρ
  | [] => []
  | (_, value) :: rest => refs value ++ refsFields rest

end

@[simp] theorem rewriteItems_eq (f : ρ → σ) (g : κ → Document κ σ α → Document κ σ α)
    (items : List (Document κ ρ α)) : rewriteItems f g items = items.map (rewrite f g) := by
  induction items with
  | nil => rfl
  | cons item rest ih => rw [rewriteItems, ih, List.map_cons]

@[simp] theorem rewriteFields_eq (f : ρ → σ) (g : κ → Document κ σ α → Document κ σ α)
    (fields : List (κ × Document κ ρ α)) :
    rewriteFields f g fields =
      fields.map fun field => (field.1, g field.1 (field.2.rewrite f g)) := by
  induction fields with
  | nil => rfl
  | cons field rest ih => rw [rewriteFields, ih, List.map_cons]

@[simp] theorem someItems_eq (p : κ → Document κ ρ α → Bool) (items : List (Document κ ρ α)) :
    someItems p items = items.any (someField p) := by
  induction items with
  | nil => rfl
  | cons item rest ih => rw [someItems, ih, List.any_cons]

@[simp] theorem someFields_eq (p : κ → Document κ ρ α → Bool)
    (fields : List (κ × Document κ ρ α)) :
    someFields p fields = fields.any fun field => p field.1 field.2 || field.2.someField p := by
  induction fields with
  | nil => rfl
  | cons field rest ih => rw [someFields, ih, List.any_cons]

@[simp] theorem refsItems_eq (items : List (Document κ ρ α)) :
    refsItems items = items.flatMap refs := by
  induction items with
  | nil => rfl
  | cons item rest ih => rw [refsItems, ih, List.flatMap_cons]

@[simp] theorem refsFields_eq (fields : List (κ × Document κ ρ α)) :
    refsFields fields = fields.flatMap fun field => field.2.refs := by
  induction fields with
  | nil => rfl
  | cons field rest ih => rw [refsFields, ih, List.flatMap_cons]

/-- The document without the identities. -/
def forget (v : Document κ ρ α) : Document κ Unit α := v.rewrite (fun _ => ()) fun _ value => value

/-! ## Secret labels -/

def isBlank (blank : α → Bool) : Document κ ρ α → Bool
  | .leaf value => blank value
  | .array .. | .object .. => false

variable (secret : κ → Bool) (blank : α → Bool)

/-- A field with a secret label and a value that is not blank. -/
def exposes (key : κ) (value : Document κ ρ α) : Bool := secret key && !value.isBlank blank

def spell (word : α) (key : κ) (value : Document κ ρ α) : Document κ ρ α :=
  if exposes secret blank key value then .leaf word else value

/-- The values under secret labels are spelled `word`, but for the blank ones. -/
def spelled (f : ρ → σ) (word : α) (v : Document κ ρ α) : Document κ σ α :=
  v.rewrite f (spell secret blank word)

variable {secret blank}

@[simp] theorem isBlank_rewrite (f : ρ → σ) (g : κ → Document κ σ α → Document κ σ α)
    (v : Document κ ρ α) : (v.rewrite f g).isBlank blank = v.isBlank blank := by
  cases v <;> simp [rewrite, isBlank]

@[simp] theorem exposes_rewrite (f : ρ → σ) (g : κ → Document κ σ α → Document κ σ α) (key : κ)
    (v : Document κ ρ α) :
    exposes secret blank key (v.rewrite f g) = exposes secret blank key v := by
  rw [exposes, isBlank_rewrite, exposes]

theorem exposes_leaf {key : κ} {v : Document κ ρ α} (h : exposes secret blank key v = true)
    {blank' : α → Bool} {word : α} (hword : blank' word = false) :
    exposes secret blank' key (leaf word : Document κ σ α) = true := by
  rw [exposes, Bool.and_eq_true] at h
  simp [exposes, isBlank, h.1, hword]

theorem spell_of_exposes {key : κ} {v : Document κ ρ α} (h : exposes secret blank key v = true)
    (word : α) : spell secret blank word key v = leaf word := if_pos h

theorem spell_of_not_exposes {key : κ} {v : Document κ ρ α}
    (h : ¬ exposes secret blank key v = true) (word : α) : spell secret blank word key v = v :=
  if_neg h

/-- A value that is spelled again is spelled as if for the first time. -/
theorem spelled_spelled {word : α} (hword : blank word = false) (f : ρ → σ) (g : σ → τ)
    (word' : α) (v : Document κ ρ α) :
    (v.spelled secret blank f word).spelled secret blank g word' =
      v.spelled secret blank (g ∘ f) word' := by
  unfold spelled
  induction v with
  | leaf value => rfl
  | array ref items ih => simpa [rewrite] using ih
  | object ref fields ih =>
    simp only [rewrite, rewriteFields_eq, List.map_map, Function.comp_apply, object.injEq, true_and]
    refine List.map_congr_left fun field hfield => ?_
    have hvalue := ih field hfield
    by_cases h : exposes secret blank field.1 field.2
    · have hfirst : spell secret blank word field.1 (field.2.rewrite f (spell secret blank word)) =
          leaf word := spell_of_exposes (by simpa using h) word
      have honce : spell secret blank word' field.1
          (field.2.rewrite (g ∘ f) (spell secret blank word')) = leaf word' :=
        spell_of_exposes (by simpa using h) word'
      simp only [Function.comp_apply, hfirst, honce, rewrite]
      rw [spell_of_exposes (exposes_leaf h hword)]
    · rw [Function.comp_apply, spell_of_not_exposes (by simpa using h),
        spell_of_not_exposes (by simpa using h), spell_of_not_exposes (by simpa using h), hvalue]

/-- Where nothing is exposed nothing is spelled. -/
theorem spelled_eq {v : Document κ ρ α} (h : v.someField (exposes secret blank) = false)
    (f : ρ → σ) (word : α) :
    v.spelled secret blank f word = v.rewrite f fun _ value => value := by
  unfold spelled
  induction v with
  | leaf value => rfl
  | array ref items ih =>
    simp only [someField, someItems_eq, List.any_eq_false, Bool.not_eq_true] at h
    simp only [rewrite, rewriteItems_eq, array.injEq, true_and]
    exact List.map_congr_left fun item hitem => ih item hitem (h item hitem)
  | object ref fields ih =>
    simp only [someField, someFields_eq, List.any_eq_false, Bool.not_eq_true,
      Bool.or_eq_false_iff] at h
    simp only [rewrite, rewriteFields_eq, object.injEq, true_and]
    refine List.map_congr_left fun field hfield => ?_
    obtain ⟨hkey, hvalue⟩ := h field hfield
    rw [spell_of_not_exposes (by simpa using hkey), ih field hfield hvalue]

/-- What is exposed shows, however it is spelled. -/
theorem someField_spelled {blank' : α → Bool} {word : α} (hword : blank' word = false)
    (f : ρ → σ) {v : Document κ ρ α} (h : v.someField (exposes secret blank) = true) :
    (v.spelled secret blank f word).someField (exposes secret blank') = true := by
  unfold spelled
  induction v with
  | leaf value => cases h
  | array ref items ih =>
    simp only [someField, someItems_eq, List.any_eq_true] at h
    obtain ⟨item, hitem, hsome⟩ := h
    simp only [rewrite, rewriteItems_eq, someField, someItems_eq, List.any_map, List.any_eq_true]
    exact ⟨item, hitem, ih item hitem hsome⟩
  | object ref fields ih =>
    simp only [someField, someFields_eq, List.any_eq_true, Bool.or_eq_true] at h
    obtain ⟨field, hfield, hsome⟩ := h
    simp only [rewrite, rewriteFields_eq, someField, someFields_eq, List.any_map,
      List.any_eq_true]
    refine ⟨field, hfield, ?_⟩
    rw [Function.comp_apply, Bool.or_eq_true]
    by_cases hkey : exposes secret blank field.1 field.2
    · rw [spell_of_exposes (by simpa using hkey)]
      exact .inl (exposes_leaf hkey hword)
    · rw [spell_of_not_exposes (by simpa using hkey)]
      exact .inr (ih field hfield (hsome.resolve_left hkey))

/-- Other identities show nothing else. -/
theorem someField_rewrite (f : ρ → σ) (v : Document κ ρ α) :
    (v.rewrite f fun _ value => value).someField (exposes secret blank) =
      v.someField (exposes secret blank) := by
  induction v with
  | leaf value => rfl
  | array ref items ih =>
    simp only [rewrite, rewriteItems_eq, someField, someItems_eq, List.any_map]
    exact any_congr_of_mem fun item hitem => ih item hitem
  | object ref fields ih =>
    simp only [rewrite, rewriteFields_eq, someField, someFields_eq, List.any_map]
    refine any_congr_of_mem fun field hfield => ?_
    rw [Function.comp_apply, exposes_rewrite, ih field hfield]

theorem someField_spelled_eq {word : α} (hword : blank word = false) (f : ρ → σ)
    (v : Document κ ρ α) :
    (v.spelled secret blank f word).someField (exposes secret blank) =
      v.someField (exposes secret blank) := by
  by_cases h : v.someField (exposes secret blank)
  · rw [h, someField_spelled hword f h]
  · rw [Bool.not_eq_true] at h
    rw [spelled_eq h, someField_rewrite]

theorem someField_mono {p q : κ → Document κ ρ α → Bool}
    (h : ∀ key value, p key value = true → q key value = true) {v : Document κ ρ α}
    (hp : v.someField p = true) : v.someField q = true := by
  induction v with
  | leaf value => cases hp
  | array ref items ih =>
    simp only [someField, someItems_eq, List.any_eq_true] at hp ⊢
    obtain ⟨item, hitem, hsome⟩ := hp
    exact ⟨item, hitem, ih item hitem hsome⟩
  | object ref fields ih =>
    simp only [someField, someFields_eq, List.any_eq_true, Bool.or_eq_true] at hp ⊢
    obtain ⟨field, hfield, hsome⟩ := hp
    exact ⟨field, hfield, hsome.imp (h _ _) (ih field hfield)⟩

/-- The identities do not matter to what forgets them. -/
theorem forget_rewrite (f : ρ → σ) (v : Document κ ρ α) :
    (v.rewrite f fun _ value => value).forget = v.forget := by
  unfold forget
  induction v with
  | leaf value => rfl
  | array ref items ih => simpa [rewrite] using ih
  | object ref fields ih =>
    simp only [rewrite, rewriteFields_eq, List.map_map, object.injEq, true_and]
    refine List.map_congr_left fun field hfield => ?_
    rw [Function.comp_apply, ih field hfield]

/-- Spelling makes no new list or object. -/
theorem refs_spelled (word : α) (v : Document κ ρ α) :
    (v.spelled secret blank id word).refs.Sublist v.refs := by
  unfold spelled
  induction v with
  | leaf value => exact List.Sublist.refl _
  | array ref items ih =>
    simp only [rewrite, rewriteItems_eq, refs, refsItems_eq, id_eq, List.flatMap_map]
    exact (List.Sublist.flatMap_right items ih).cons_cons ref
  | object ref fields ih =>
    simp only [rewrite, rewriteFields_eq, refs, refsFields_eq, id_eq, List.flatMap_map]
    refine (List.Sublist.flatMap_right fields fun field hfield => ?_).cons_cons ref
    by_cases h : exposes secret blank field.1 field.2
    · rw [spell_of_exposes (by simpa using h)]
      exact List.nil_sublist _
    · rw [spell_of_not_exposes (by simpa using h)]
      exact ih field hfield

/-! ## Leaves -/

variable {β γ : Type}

mutual

/-- Every leaf changes, and nothing else. -/
def mapLeaves (f : α → β) : Document κ ρ α → Document κ ρ β
  | .leaf value => .leaf (f value)
  | .array ref items => .array ref (mapItems f items)
  | .object ref fields => .object ref (mapFields f fields)

def mapItems (f : α → β) : List (Document κ ρ α) → List (Document κ ρ β)
  | [] => []
  | item :: rest => mapLeaves f item :: mapItems f rest

def mapFields (f : α → β) : List (κ × Document κ ρ α) → List (κ × Document κ ρ β)
  | [] => []
  | (key, value) :: rest => (key, mapLeaves f value) :: mapFields f rest

end

mutual

/-- The leaves from the left to the right. -/
def leaves : Document κ ρ α → List α
  | .leaf value => [value]
  | .array _ items => leavesItems items
  | .object _ fields => leavesFields fields

def leavesItems : List (Document κ ρ α) → List α
  | [] => []
  | item :: rest => leaves item ++ leavesItems rest

def leavesFields : List (κ × Document κ ρ α) → List α
  | [] => []
  | (_, value) :: rest => leaves value ++ leavesFields rest

end

mutual

/-- What is left where only the fields with some labels are kept, at any depth. -/
def keepLabels (keep : κ → Bool) : Document κ ρ α → Document κ ρ α
  | .leaf value => .leaf value
  | .array ref items => .array ref (keepItems keep items)
  | .object ref fields => .object ref (keepFields keep fields)

def keepItems (keep : κ → Bool) : List (Document κ ρ α) → List (Document κ ρ α)
  | [] => []
  | item :: rest => keepLabels keep item :: keepItems keep rest

def keepFields (keep : κ → Bool) : List (κ × Document κ ρ α) → List (κ × Document κ ρ α)
  | [] => []
  | (key, value) :: rest =>
    if keep key then (key, keepLabels keep value) :: keepFields keep rest else keepFields keep rest

end

variable (keep : κ → Bool)

end Document

end Amana.Lib
