import RpcSchema.Proofs.Check.Clean

/-!
# Lists of fields at every depth

Lists of fields stand in types and in the blocks of procedures and streams, and inside each other.  The
lists that stand in no other one are enough to find them all: every list of fields is a level of one of
these (`Schema.fieldList_iff`).

What is collected from a list by going through its fields, and into their inline objects, is therefore what
is at one of its levels (`FieldItem.mem_iff_exists_level`), and what is collected from the outer lists is
what is in some list of fields (`Schema.mem_flatMap_outerLists`).
-/

namespace RpcSchema

/-! ## Levels -/

/-- What is inside a list is at one of its levels, if it is at the list itself or inside the inline object
of a field. -/
lemma FieldItem.mem_iff_exists_level {α : Type} {a : α} {inside : List FieldItem → List α}
    {P : List FieldItem → Prop} (h : ∀ items, a ∈ inside items ↔ P items
      ∨ ∃ f inner, .field f ∈ items ∧ f.type.base = .object inner ∧ a ∈ inside inner)
    (items : List FieldItem) : a ∈ inside items ↔ ∃ list, FieldItem.Level items list ∧ P list := by
  constructor
  · intro ha
    rcases (h items).1 ha with hP | ⟨f, inner, hf, hobject, hinner⟩
    · exact ⟨items, .self items, hP⟩
    · have hless := FieldItem.sizeOf_inner_lt hf hobject
      obtain ⟨list, hlevel, hP⟩ := (mem_iff_exists_level h inner).1 hinner
      exact ⟨list, .inline hf hobject hlevel, hP⟩
  · rintro ⟨list, hlevel, hP⟩
    induction hlevel with
    | self => exact (h _).2 (Or.inl hP)
    | inline hf hobject _ ih => exact (h _).2 (Or.inr ⟨_, _, hf, hobject, ih hP⟩)
termination_by sizeOf items

/-! ## Outer lists -/

/-- The entries of a statement's body, if it is a procedure or stream. -/
def Statement.procItems : Statement → List ProcItem
  | .proc p | .stream p => p.items
  | _ => []

/-- The entries of the bodies of procedures and streams. -/
def Schema.procItems (s : Schema) : List ProcItem := s.statements.flatMap Statement.procItems

/-- The list of fields in an entry of a procedure's body. -/
def ProcItem.fields? : ProcItem → Option (List FieldItem)
  | .input block | .output block => some block.items
  | .metadata _ | .comment _ => none

/-- The lists of fields that stand in no other list: those of types, and then those of the blocks of
procedures and streams. -/
def Schema.outerLists (s : Schema) : List (List FieldItem) :=
  s.types.map (·.items) ++ s.procItems.filterMap ProcItem.fields?

section

variable {s : Schema}

lemma Schema.mem_procItems {item : ProcItem} :
    item ∈ s.procItems ↔ ∃ p ∈ s.procs ++ s.streams, item ∈ p.items := by
  simp only [procItems, List.mem_flatMap, mem_services]
  constructor
  · rintro ⟨statement, hmem, hitem⟩
    cases statement with
    | proc p => exact ⟨p, Or.inl hmem, hitem⟩
    | stream p => exact ⟨p, Or.inr hmem, hitem⟩
    | _ => cases hitem
  · rintro ⟨p, hmem | hmem, hitem⟩
    · exact ⟨_, hmem, hitem⟩
    · exact ⟨_, hmem, hitem⟩

/-- The lists of fields of a schema are the levels of its outer lists. -/
lemma Schema.fieldList_iff {list : List FieldItem} :
    s.FieldList list ↔ ∃ items ∈ s.outerLists, FieldItem.Level items list := by
  have houter : ∀ items, items ∈ s.outerLists ↔ (∃ d ∈ s.types, d.items = items)
      ∨ ∃ item ∈ s.procItems, item.fields? = some items := by
    intro items
    rw [outerLists, List.mem_append, List.mem_map, List.mem_filterMap]
  simp only [houter, mem_procItems]
  constructor
  · intro h
    cases h with
    | type hd hlevel => exact ⟨_, Or.inl ⟨_, hd, rfl⟩, hlevel⟩
    | input hp hblock hlevel => exact ⟨_, Or.inr ⟨_, ⟨_, hp, hblock⟩, rfl⟩, hlevel⟩
    | output hp hblock hlevel => exact ⟨_, Or.inr ⟨_, ⟨_, hp, hblock⟩, rfl⟩, hlevel⟩
  · rintro ⟨items, ⟨d, hd, rfl⟩ | ⟨item, ⟨p, hp, hitem⟩, hitems⟩, hlevel⟩
    · exact .type hd hlevel
    · cases item with
      | input block => cases hitems; exact .input hp hitem hlevel
      | output block => cases hitems; exact .output hp hitem hlevel
      | _ => cases hitems

/-- What is in the outer lists, at every depth, is in the lists of fields. -/
lemma Schema.mem_flatMap_outerLists {α : Type} {a : α} {inside : List FieldItem → List α}
    {P : List FieldItem → Prop}
    (h : ∀ items, a ∈ inside items ↔ ∃ list, FieldItem.Level items list ∧ P list) :
    a ∈ s.outerLists.flatMap inside ↔ ∃ list, s.FieldList list ∧ P list := by
  simp only [List.mem_flatMap, h, fieldList_iff]
  constructor
  · rintro ⟨items, hitems, list, hlevel, hlist⟩
    exact ⟨list, ⟨items, hitems, hlevel⟩, hlist⟩
  · rintro ⟨list, ⟨items, hitems, hlevel⟩, hlist⟩
    exact ⟨items, hitems, list, hlevel, hlist⟩

end

end RpcSchema
