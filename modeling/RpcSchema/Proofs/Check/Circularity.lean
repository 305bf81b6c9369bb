import RpcSchema.Proofs.Bundle.Index
import RpcSchema.Proofs.Check.Bodies
import RpcSchema.Proofs.Check.Search

/-!
# When the check of circles finds nothing

The search runs over the graph of the types that require each other, from every type in turn, and so
finishes them all.  What `Search.Inv` says of a search that is over is then a statement about the graph:
chains are reported if and only if there is a circle.

* `FieldItem.mem_required_iff` says what the edges of the graph are.
* `Bundle.circles_eq_nil_iff` is the result for the graph, `Bundle.circularityFindings_eq_nil_iff` for a
  schema whose types have names of their own.
-/

namespace RpcSchema

/-! ## Edges -/

lemma FieldItem.mem_required_iff_fields {items : List FieldItem} {name : String} :
    name ∈ FieldItem.required items ↔
      ∃ f, .field f ∈ items ∧ f.optional = false ∧ name ∈ f.type.base.required := by
  induction items with
  | nil => simp [required]
  | cons item rest ih =>
      cases item with
      | comment c => simp [required, ih]
      | docstring d => simp [required, ih]
      | field f =>
          obtain ⟨span, docstring, fieldName, optional, ⟨typeSpan, base, isArray⟩, rules⟩ := f
          rw [required, List.mem_append, ih]
          constructor
          · rintro (h | ⟨g, hg, hmandatory, hname⟩)
            · cases optional with
              | true => exact absurd h (by simp)
              | false => exact ⟨_, List.mem_cons_self, rfl, by simpa using h⟩
            · exact ⟨g, List.mem_cons_of_mem _ hg, hmandatory, hname⟩
          · rintro ⟨g, hg, hmandatory, hname⟩
            rcases List.mem_cons.1 hg with heq | hg
            · obtain rfl := FieldItem.field.inj heq
              exact Or.inl (by simpa [show optional = false from hmandatory] using hname)
            · exact Or.inr ⟨g, hg, hmandatory, hname⟩

/-- The names that the search collects from a list of fields are those that the fields demand. -/
theorem FieldItem.mem_required_iff {items : List FieldItem} {name : String} :
    name ∈ FieldItem.required items ↔ FieldItem.Demands items name := by
  constructor
  · intro h
    obtain ⟨f, hmem, hmandatory, hname⟩ := mem_required_iff_fields.1 h
    cases hbase : f.type.base with
    | named n =>
        rw [hbase, FieldBase.required, List.mem_singleton] at hname
        exact hname ▸ .named hmem hmandatory hbase
    | object inner =>
        have hsmaller := sizeOf_inner_lt hmem hbase
        rw [hbase, FieldBase.required] at hname
        exact .inline hmem hmandatory hbase (mem_required_iff.1 hname)
  · intro h
    induction h with
    | named hmem hmandatory hbase =>
        exact mem_required_iff_fields.2 ⟨_, hmem, hmandatory, by simp [hbase, FieldBase.required]⟩
    | inline hmem hmandatory hbase _ ih =>
        exact mem_required_iff_fields.2 ⟨_, hmem, hmandatory, by simpa [hbase, FieldBase.required] using ih⟩
termination_by sizeOf items

/-- The graph that is searched: the type that a name means demands another, declared one. -/
lemma Bundle.mem_requires_iff {s : Schema} {name other : String} :
    other ∈ (Bundle.ofSchema s).requires name ↔
      (∃ d, (Bundle.ofSchema s).types[name]? = some d ∧ FieldItem.Demands d.items other) ∧
        s.DeclaresType other := by
  rw [requires]
  cases h : (Bundle.ofSchema s).types[name]? with
  | none => simp
  | some d =>
      simp only [List.mem_eraseDups, List.mem_filter, FieldItem.mem_required_iff, contains_types_iff,
        Option.some_inj, exists_eq_left']

/-- Where types have names of their own, the graph is the relation between types that it stands for. -/
lemma Bundle.mem_requires_iff_of_unique {s : Schema} (unique : (s.types.map (·.name.text)).Nodup)
    {name other : String} : other ∈ (Bundle.ofSchema s).requires name ↔ s.Requires name other := by
  rw [mem_requires_iff, Schema.Requires]
  refine and_congr_left fun _ => ?_
  constructor
  · rintro ⟨d, hget, hdemands⟩
    obtain ⟨hmem, hname⟩ := mem_of_firstByName hget
    exact ⟨d, hmem, hname, hdemands⟩
  · rintro ⟨d, hmem, rfl, hdemands⟩
    exact ⟨d, firstByName_of_mem unique hmem, hdemands⟩

/-! ## The whole search -/

/-- The names of the types of a schema, in their order. -/
def Schema.typeNames (s : Schema) : List String := s.types.map (·.name.text)

lemma Schema.mem_typeNames {s : Schema} {name : String} :
    name ∈ s.typeNames ↔ s.DeclaresType name := List.mem_map

lemma Bundle.mem_typeNames_of_mem_requires {s : Schema} {name other : String}
    (h : other ∈ (Bundle.ofSchema s).requires name) : other ∈ s.typeNames :=
  Schema.mem_typeNames.2 (mem_requires_iff.1 h).2

/-- **The search finishes every type.** -/
theorem Bundle.circles_inv (s : Schema) :
    ∃ finished : List String, (∀ name ∈ s.typeNames, name ∈ finished) ∧
      Finished (OpenStep (Bundle.ofSchema s).requires (Bundle.ofSchema s).circles) finished ∧
      ∀ chain ∈ (Bundle.ofSchema s).circles,
        Circle (fun a b => b ∈ (Bundle.ofSchema s).requires a) chain ∧
          ∀ name ∈ chain, name ∈ s.typeNames := by
  set requires := (Bundle.ofSchema s).requires with hrequires
  have hstart : (Search.mk [] []).Inv requires s.typeNames [] [] :=
    ⟨List.nodup_nil, by simp, by simp, trivial, by simp, by simp⟩
  obtain ⟨finished, hdone, hsettled⟩ := foldl_advances
    (explore requires (s.typeNames.length + 1) []) [] s.typeNames
    (fun name hname search finished hinv => explore_inv
      (fun _ _ _ h => mem_typeNames_of_mem_requires h) _ [] finished search name hinv
      (by rw [List.length_nil]; omega) hname (List.isChain_singleton _))
    ⟨[], []⟩ [] hstart
  refine ⟨finished, fun name hname => ?_, hdone.inv.finished, fun chain hchain => ?_⟩
  · rcases hsettled name hname with h | ⟨a, ha, _⟩
    · exact h
    · exact absurd ha (by simp)
  · exact ⟨hdone.inv.circles chain hchain, hdone.inv.named chain hchain⟩

/-- **The search reports no chain** if no type requires itself in the end. -/
theorem Bundle.circles_eq_nil_iff {s : Schema} :
    (Bundle.ofSchema s).circles = [] ↔
      ∀ name, ¬ Relation.TransGen (fun a b => b ∈ (Bundle.ofSchema s).requires a) name name := by
  obtain ⟨finished, hall, hfinished, hcircles⟩ := circles_inv s
  constructor
  · intro hnil name hcircle
    obtain ⟨_, _, hlast⟩ := Relation.TransGen.tail'_iff.1 hcircle
    refine hfinished.not_transGen name (hall name (mem_typeNames_of_mem_requires hlast)) ?_
    refine Relation.TransGen.mono (fun a b hab => ⟨hab, ?_⟩) _ _ hcircle
    rintro ⟨chain, hmem, _⟩
    rw [hnil] at hmem
    exact List.not_mem_nil hmem
  · intro hnone
    refine List.eq_nil_iff_forall_not_mem.2 fun chain hmem => ?_
    obtain ⟨first, hfirst⟩ := (hcircles chain hmem).1.transGen
    exact hnone first hfirst

/-- Every chain begins with a type, so that there is a place to report it. -/
lemma Bundle.circleFinding?_isSome {s : Schema} {chain : List String}
    (hmem : chain ∈ (Bundle.ofSchema s).circles) :
    ((Bundle.ofSchema s).circleFinding? chain).isSome = true := by
  obtain ⟨_, _, _, hcircles⟩ := circles_inv s
  obtain ⟨⟨first, inner, rfl, _, _⟩, hnamed⟩ := hcircles chain hmem
  have hdeclared := Schema.mem_typeNames.1 (hnamed first (by simp))
  have hget := Std.ExtTreeMap.isSome_getElem?_iff_mem.2 (mem_firstByName.2 hdeclared)
  obtain ⟨d, hd⟩ := Option.isSome_iff_exists.1 hget
  have hd' : (Bundle.ofSchema s).types[first]? = some d := hd
  simp [circleFinding?, hd']

/-- Nothing is found if no chain is reported. -/
lemma Bundle.circularityFindings_eq_nil_iff_circles {s : Schema} :
    (Bundle.ofSchema s).circularityFindings = [] ↔ (Bundle.ofSchema s).circles = [] := by
  rw [circularityFindings, List.filterMap_eq_nil_iff]
  constructor
  · intro h
    refine List.eq_nil_iff_forall_not_mem.2 fun chain hmem => ?_
    have := circleFinding?_isSome hmem
    rw [h chain hmem] at this
    exact absurd this (by simp)
  · intro h chain hmem
    rw [h] at hmem
    exact absurd hmem List.not_mem_nil

/-- **The check of circles finds nothing** if no type requires itself in the end. -/
theorem Bundle.circularityFindings_eq_nil_iff {s : Schema}
    (unique : (s.types.map (·.name.text)).Nodup) :
    (Bundle.ofSchema s).circularityFindings = [] ↔
      ∀ name, ¬ Relation.TransGen s.Requires name name := by
  have hrelation : (fun a b => b ∈ (Bundle.ofSchema s).requires a) = s.Requires := by
    funext a b
    exact propext (mem_requires_iff_of_unique unique)
  rw [← hrelation, ← circles_eq_nil_iff, circularityFindings_eq_nil_iff_circles]

end RpcSchema
