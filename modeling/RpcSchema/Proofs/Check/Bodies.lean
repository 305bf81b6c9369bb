import Mathlib.Tactic.Lemma
import Mathlib.Tactic.Tauto
import RpcSchema.Check.Body
import RpcSchema.Proofs.Check.Uses

/-!
# When the checks of bodies find nothing

Each check here is the walk over one body.  A walk finds nothing if nothing is wrong with any entry, and
no entry repeats an earlier one; for lists of fields, which nest, that is to hold at every level.

* `Bundle.fieldFindings_eq_nil_iff` reduces the check of fields to the levels of the list.
* `Bundle.ruleFindings_eq_nil_iff` and `Bundle.procFindings_eq_nil_iff` are for rules and for procedures
  and streams.
-/

namespace RpcSchema

/-! ## Mentions of types -/

lemma isPrimitiveName_iff {name : String} :
    isPrimitiveName name = true ↔ ∃ p : Primitive, p.word = name := by
  unfold isPrimitiveName
  rw [Option.isSome_iff_exists]
  constructor
  · rintro ⟨p, hp⟩
    exact ⟨p, Primitive.word_of_ofWord? hp⟩
  · rintro ⟨p, rfl⟩
    exact ⟨p, Primitive.ofWord?_word p⟩

lemma Bundle.contains_types_iff {s : Schema} {name : String} :
    (Bundle.ofSchema s).types.contains name = true ↔ s.DeclaresType name := by
  rw [Std.ExtTreeMap.contains_iff_mem]
  exact mem_firstByName

/-- The check of a mention finds nothing if the type is known. -/
lemma Bundle.typeFindings_eq_nil_iff {s : Schema} {n : Name} :
    (Bundle.ofSchema s).typeFindings n = [] ↔ s.KnowsType n.text := by
  unfold typeFindings Schema.KnowsType
  rw [← isPrimitiveName_iff, ← contains_types_iff]
  simp only [Bool.or_eq_true, ite_eq_left_iff, List.cons_ne_nil, imp_false, not_not]

/-! ## Fields -/

lemma FieldItem.mem_fields {items : List FieldItem} {f : Field} :
    f ∈ FieldItem.fields items ↔ .field f ∈ items := by
  simp only [fields, List.mem_filterMap]
  constructor
  · rintro ⟨item, hmem, heq⟩
    cases item with
    | field g => exact Option.some.inj heq ▸ hmem
    | comment c => exact absurd heq (by simp [field?])
    | docstring d => exact absurd heq (by simp [field?])
  · intro hmem
    exact ⟨_, hmem, rfl⟩

/-- The list inside a field is smaller than the list that the field stands in. -/
lemma FieldItem.sizeOf_inner_lt {items inner : List FieldItem} {f : Field} (mem : .field f ∈ items)
    (base : f.type.base = .object inner) : sizeOf inner < sizeOf items := by
  have hitem := List.sizeOf_lt_of_mem mem
  obtain ⟨span, docstring, name, optional, ⟨typeSpan, base', isArray⟩, rules⟩ := f
  obtain rfl : base' = .object inner := base
  simp only [FieldItem.field.sizeOf_spec, Field.mk.sizeOf_spec, FieldType.mk.sizeOf_spec,
    FieldBase.object.sizeOf_spec] at hitem
  omega

lemma fieldNameFindings_eq_nil_iff {earlier : List Name} {n : Name} :
    fieldNameFindings earlier n = [] ↔ n.text ∉ earlier.map (·.text) := by
  unfold fieldNameFindings
  rw [List.map_eq_nil_iff, Option.toList_eq_nil_iff, repeatedFrom?_eq_none_iff]

lemma Bundle.useFindings_eq_nil_iff {b : Bundle} {base : FieldBase} {isArray : Bool}
    {uses : List RuleUse} :
    b.useFindings base isArray uses = [] ↔ ∀ u ∈ uses, b.useFault? base isArray u = none := by
  unfold useFindings
  rw [List.map_eq_nil_iff, List.filterMap_eq_nil_iff]

/-- The check of one list of fields, with what is nested in them taken as a whole. -/
lemma Bundle.fieldFindings_eq_nil_iff_fields {b : Bundle} (items : List FieldItem) :
    ∀ earlier : List Name, b.fieldFindings earlier items = [] ↔
      Fresh (earlier.map (·.text)) ((FieldItem.fields items).map (·.name.text)) ∧
        ∀ f ∈ FieldItem.fields items, b.baseFindings f.type.base = [] ∧
          b.useFindings f.type.base f.type.isArray f.rules = [] := by
  induction items with
  | nil => intro earlier; simp [fieldFindings, FieldItem.fields]
  | cons item rest ih =>
      intro earlier
      cases item with
      | comment c => rw [fieldFindings, ih]; rfl
      | docstring d => rw [fieldFindings, ih]; rfl
      | field f =>
          obtain ⟨span, docstring, name, optional, ⟨typeSpan, base, isArray⟩, rules⟩ := f
          rw [fieldFindings, List.append_eq_nil_iff, List.append_eq_nil_iff, List.append_eq_nil_iff,
            fieldNameFindings_eq_nil_iff, ih]
          simp only [FieldItem.fields, List.filterMap_cons, FieldItem.field?, List.map_cons,
            fresh_cons_iff, List.mem_cons, forall_eq_or_imp, List.map_append, List.map_nil]
          tauto

/-- One list of fields in which the checks find nothing, what is nested in it left out. -/
structure Bundle.ClearFields (b : Bundle) (list : List FieldItem) : Prop where
  names : ((FieldItem.fields list).map (·.name.text)).Nodup
  types : ∀ f ∈ FieldItem.fields list, ∀ n, f.type.base = .named n → b.typeFindings n = []
  uses : ∀ f ∈ FieldItem.fields list, ∀ u ∈ f.rules, b.useFault? f.type.base f.type.isArray u = none

/-- **The check of fields finds nothing** if it finds nothing at any level. -/
theorem Bundle.fieldFindings_eq_nil_iff {b : Bundle} {items : List FieldItem} :
    b.fieldFindings [] items = [] ↔ ∀ list, FieldItem.Level items list → b.ClearFields list := by
  constructor
  · intro h list hlevel
    induction hlevel with
    | self items =>
        obtain ⟨hnames, hfields⟩ := (fieldFindings_eq_nil_iff_fields items []).1 h
        refine ⟨fresh_nil_left.1 hnames, fun f hf n hbase => ?_,
          fun f hf => useFindings_eq_nil_iff.1 (hfields f hf).2⟩
        have := (hfields f hf).1
        rwa [hbase, baseFindings] at this
    | @inline items inner list f hmem hbase _ ih =>
        refine ih ?_
        have := (((fieldFindings_eq_nil_iff_fields items []).1 h).2 f (FieldItem.mem_fields.2 hmem)).1
        rwa [hbase, baseFindings] at this
  · intro h
    obtain ⟨hnames, htypes, huses⟩ := h items (.self items)
    refine (fieldFindings_eq_nil_iff_fields items []).2
      ⟨fresh_nil_left.2 hnames, fun f hf => ⟨?_, ?_⟩⟩
    · cases hbase : f.type.base with
      | named n => exact htypes f hf n hbase
      | object inner =>
          have hmem := FieldItem.mem_fields.1 hf
          have hsmaller := FieldItem.sizeOf_inner_lt hmem hbase
          exact fieldFindings_eq_nil_iff.2 fun list hlevel => h list (.inline hmem hbase hlevel)
    · exact useFindings_eq_nil_iff.2 (huses f hf)
termination_by sizeOf items

/-! ## Rules -/

lemma repeatedClauses_eq_nil_iff {rule : Name} {clause : ClauseKind} {spans : List Span} :
    repeatedClauses rule clause spans = [] ↔ spans.length ≤ 1 := by
  unfold repeatedClauses
  rw [List.map_eq_nil_iff, List.drop_eq_nil_iff]

lemma mem_paramTypes {name : String} : name ∈ paramTypes ↔ ∃ kind : ValueKind, kind.name = name := by
  constructor
  · intro h
    have key : ∀ name ∈ paramTypes,
        ∃ kind ∈ [ValueKind.string, .int, .float, .bool], kind.name = name := by decide +kernel
    obtain ⟨kind, _, h⟩ := key name h
    exact ⟨kind, h⟩
  · rintro ⟨kind, rfl⟩
    cases kind <;> decide +kernel

/-- **The check of a rule's body finds nothing** if the body is valid. -/
theorem Bundle.ruleFindings_eq_nil_iff {s : Schema} {r : RuleDecl} :
    (Bundle.ofSchema s).ruleFindings r = [] ↔ s.ValidRule r := by
  unfold ruleFindings targetFindings paramFindings
  simp only [List.append_eq_nil_iff, repeatedClauses_eq_nil_iff, List.length_map]
  constructor
  · rintro ⟨⟨⟨⟨htarget, htargets⟩, hparam⟩, hparams⟩, herrors⟩
    refine ⟨?_, hparams, ?_, herrors⟩
    · rcases ht : r.targets with _ | ⟨c, _ | ⟨d, rest⟩⟩
      · simp [ht] at htarget
      · refine ⟨c, rfl, ?_⟩
        simp only [ht, List.head?_cons, Bool.not_eq_true] at htarget
        split at htarget
        · next h => exact Or.inl h
        · exact Or.inr (typeFindings_eq_nil_iff.1 htarget)
      · simp [ht] at htargets
    · rcases hp : r.params with _ | ⟨c, _ | ⟨d, rest⟩⟩
      · simp
      · simp only [hp, List.head?_cons, ite_eq_left_iff, List.cons_ne_nil, imp_false, not_not,
          List.contains_iff_mem] at hparam
        simpa using mem_paramTypes.1 hparam
      · simp [hp] at hparams
  · rintro ⟨⟨c, hone, htarget⟩, hparams, hparamType, herrors⟩
    refine ⟨⟨⟨⟨?_, by simp [hone]⟩, ?_⟩, hparams⟩, herrors⟩
    · simp only [hone, List.head?_cons, Bool.not_eq_true]
      split
      · rfl
      · next h =>
        exact typeFindings_eq_nil_iff.2 (htarget.resolve_left h)
    · rcases hp : r.params with _ | ⟨c, rest⟩
      · rfl
      · have hc := mem_paramTypes.2 (hparamType c (by simp [hp]))
        simp [hc]

/-! ## Procedures and streams -/

lemma keyFindings_eq_nil_iff (entries : List MetaEntry) :
    ∀ earlier : List Name, keyFindings earlier entries = [] ↔
      Fresh (earlier.map (·.text)) (entries.map (·.key.text)) := by
  induction entries with
  | nil => intro earlier; simp [keyFindings]
  | cons e rest ih =>
      intro earlier
      rw [keyFindings, List.append_eq_nil_iff, List.map_eq_nil_iff, Option.toList_eq_nil_iff,
        repeatedFrom?_eq_none_iff, ih, List.map_cons, fresh_cons_iff, List.map_append, List.map_cons,
        List.map_nil]

lemma ProcItem.map_fst_block? (item : ProcItem) : item.block?.map (·.1) = item.blockKind? := by
  cases item <;> rfl

/-- The check of the entries of a body finds nothing if no kind of block is repeated and nothing is
wrong inside a block. -/
lemma Bundle.procItemFindings_eq_nil_iff {b : Bundle} {kind : DeclKind} {name : Name}
    (items : List ProcItem) :
    ∀ earlier : List BlockKind, b.procItemFindings kind name earlier items = [] ↔
      Fresh earlier (items.filterMap ProcItem.blockKind?) ∧
        ∀ item ∈ items, b.blockFindings item = [] := by
  induction items with
  | nil => intro earlier; simp [procItemFindings]
  | cons item rest ih =>
      intro earlier
      rw [procItemFindings, List.append_eq_nil_iff, List.append_eq_nil_iff, ih, List.filterMap_cons,
        ← ProcItem.map_fst_block?]
      simp only [List.mem_cons, forall_eq_or_imp]
      rcases item.block? with _ | ⟨block, span⟩
      · simp only [Option.toList_none, List.filter_nil, List.map_nil, List.append_nil, Option.map_none]
        tauto
      · simp only [Option.toList_some, List.map_eq_nil_iff, List.filter_eq_nil_iff, List.mem_singleton,
          forall_eq, List.contains_iff_mem, List.map_cons, List.map_nil, Option.map_some,
          fresh_cons_iff]
        tauto

/-- What a procedure or stream must be beyond its blocks: the check of fields finds nothing in what it
takes and gives. -/
def Bundle.ClearServices (b : Bundle) (p : ProcDecl) : Prop :=
  ∀ block, .input block ∈ p.items ∨ .output block ∈ p.items → b.fieldFindings [] block.items = []

/-- **The check of a procedure or stream finds nothing** if its blocks are valid and nothing is wrong
with the fields in them. -/
theorem Bundle.procFindings_eq_nil_iff {b : Bundle} {kind : DeclKind} {p : ProcDecl} :
    b.procFindings kind p = [] ↔ ProcDecl.ValidBlocks p ∧ b.ClearServices p := by
  unfold procFindings ClearServices
  rw [procItemFindings_eq_nil_iff, fresh_nil_left]
  constructor
  · rintro ⟨honce, hblocks⟩
    refine ⟨⟨honce, fun block hmem => ?_⟩, ?_⟩
    · exact fresh_nil_left.1 ((keyFindings_eq_nil_iff _ []).1 (hblocks _ hmem))
    · rintro block (hmem | hmem)
      · exact hblocks _ hmem
      · exact hblocks _ hmem
  · rintro ⟨⟨honce, hkeys⟩, hfields⟩
    refine ⟨honce, fun item hmem => ?_⟩
    cases item with
    | input block => exact hfields block (Or.inl hmem)
    | output block => exact hfields block (Or.inr hmem)
    | metadata block => exact (keyFindings_eq_nil_iff _ []).2 (fresh_nil_left.2 (hkeys block hmem))
    | comment c => rfl

end RpcSchema
