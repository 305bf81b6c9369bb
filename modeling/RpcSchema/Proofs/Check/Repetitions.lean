import RpcSchema.Proofs.Bundle.Index
import RpcSchema.Proofs.Check.Topics

/-!
# Which repetitions are reported

The index of a bundle is built by one loop over the declarations, and the checks find repetitions by other
loops, each of which keeps what it has passed.  They agree on which declaration is the first one of its
name: a declaration is reported if the index does not hold it, and the finding cites the one that the
index holds.  The keys of metadata and the fields of a list are checked in the same way, each block and
each list by itself (`Bundle.repetitions_reported`).

* `repetitions` are the entries of a list whose key an earlier entry has, in their order.
* `Schema.fieldLists` and `Schema.metaBlocks` are the lists of fields, at every depth, and the blocks of
  metadata.
-/

namespace RpcSchema

/-! ## Repetitions in a list -/

section

variable {α κ : Type} [DecidableEq κ] {key : α → κ}

/-- The entries of a list whose key an earlier entry has, each with the first entry of its key. -/
def repetitions (key : α → κ) (xs : List α) : List (α × α) :=
  xs.zipIdx.filterMap fun (x, i) => ((xs.take i).find? (key · = key x)).map (·, x)

/-- The repetitions in a list that stands behind the given entries, found by a walk along it. -/
def repetitionsAfter (key : α → κ) (earlier : List α) : List α → List (α × α)
  | [] => []
  | x :: rest =>
    ((earlier.find? (key · = key x)).map (·, x)).toList ++ repetitionsAfter key (earlier ++ [x]) rest

lemma repetitionsAfter_eq (earlier xs : List α) : repetitionsAfter key earlier xs =
    (xs.zipIdx earlier.length).filterMap fun (x, i) =>
      (((earlier ++ xs).take i).find? (key · = key x)).map (·, x) := by
  induction xs generalizing earlier with
  | nil => rfl
  | cons x rest ih =>
      have htail := ih (earlier ++ [x])
      rw [List.append_assoc, List.singleton_append, List.length_append, List.length_singleton] at htail
      rw [repetitionsAfter, htail, List.zipIdx_cons, List.filterMap_cons]
      simp only [List.take_left]
      cases earlier.find? (key · = key x) <;> rfl

/-- The walk from the start of a list finds its repetitions. -/
lemma repetitionsAfter_nil (xs : List α) : repetitionsAfter key [] xs = repetitions key xs :=
  repetitionsAfter_eq [] xs

/-- The first entry of the key of an entry: an earlier one, or the entry itself. -/
lemma find?_key_eq {xs : List α} {x : α} {i : Nat} (h : xs[i]? = some x) :
    xs.find? (key · = key x) = some (((xs.take i).find? (key · = key x)).getD x) := by
  have hsplit : xs = xs.take i ++ x :: xs.drop (i + 1) := by
    obtain ⟨hi, rfl⟩ := List.getElem?_eq_some_iff.1 h
    simp
  conv_lhs => rw [hsplit]
  rw [List.find?_append, List.find?_cons_of_pos (by simp), Option.or_some]

end

/-! ## Declarations -/

/-- What a declared name may have only once: the name in its namespace. -/
def DeclaredName.key (d : DeclaredName) : DeclKind × String := (d.kind, d.name.text)

/-- The finding that a declaration repeats an earlier one. -/
def DeclaredName.redeclares (d first : DeclaredName) : Finding :=
  ⟨d.name.span, .redeclared d.kind d.name.text first.name.span⟩

/-- The name of the declaration that the index of a namespace holds under a text. -/
def Bundle.kept? (b : Bundle) : DeclKind → String → Option Name
  | .rule, text => b.rules[text]?.map (·.name)
  | .type, text => b.types[text]?.map (·.name)
  | .proc, text => b.procs[text]?.map (·.name)
  | .stream, text => b.streams[text]?.map (·.name)

/-- An earlier name of the same namespace and text is an earlier one of the same key. -/
lemma repeatedFrom?_sameKind (earlier : List DeclaredName) (d : DeclaredName) :
    repeatedFrom? ((earlier.filter (·.kind = d.kind)).map (·.name)) d.name
      = (earlier.find? (·.key = d.key)).map (·.name) := by
  rw [repeatedFrom?, List.find?_map, List.find?_filter]
  congr 2
  funext e
  simp [DeclaredName.key]

/-- The index holds the first declaration of each key. -/
lemma Bundle.kept?_ofSchema (s : Schema) (d : DeclaredName) :
    (ofSchema s).kept? d.kind d.name.text = (s.declared.find? (·.key = d.key)).map (·.name) := by
  have hnames : (ofSchema s).kept? d.kind d.name.text
      = (s.namesOf d.kind).find? (·.text = d.name.text) := by
    cases d.kind <;> simp only [kept?, ofSchema, getElem?_firstByName, Schema.namesOf, List.find?_map] <;>
      rfl
  rw [hnames, ← s.map_name_filter_declared]
  exact repeatedFrom?_sameKind s.declared d

lemma filter_findings_redeclaration (settings : Settings) (earlier : List DeclaredName) (d : DeclaredName) :
    (d.findings settings earlier).filter (Finding.isAbout .redeclaration)
      = (((earlier.find? (·.key = d.key)).map (·, d)).toList).map fun (first, d) => d.redeclares first := by
  rw [DeclaredName.findings, repeatedFrom?_sameKind, List.map_append, List.map_append,
    List.filter_append, List.filter_append]
  have hstandard : ((if d.kind = .rule ∧ (StandardRule.find? d.name.text).isSome then
      [Fault.standardRedeclared d.name.text] else []).map
        (Finding.mk d.name.span)).filter (Finding.isAbout .redeclaration) = [] := by
    split <;> rfl
  have hcasing : ((if settings.checkCasing ∧ ¬ d.kind.casing.holds d.name.text then
      [Fault.casing d.kind d.name.text d.kind.casing] else []).map
        (Finding.mk d.name.span)).filter (Finding.isAbout .redeclaration) = [] := by
    split <;> rfl
  rw [hstandard, hcasing, List.append_nil, List.append_nil]
  cases earlier.find? (·.key = d.key) <;> rfl

lemma filter_nameFindings (settings : Settings) (earlier declared : List DeclaredName) :
    (nameFindings settings earlier declared).filter (Finding.isAbout .redeclaration)
      = (repetitionsAfter DeclaredName.key earlier declared).map fun (first, d) => d.redeclares first := by
  induction declared generalizing earlier with
  | nil => rfl
  | cons d rest ih =>
      rw [nameFindings, List.filter_append, filter_findings_redeclaration, ih, repetitionsAfter,
        List.map_append]

/-! ## Keys of metadata -/

/-- The finding that a key of metadata repeats an earlier one. -/
def Name.repeatsKey (n first : Name) : Finding := ⟨n.span, .keyRepeated n.text first.span⟩

/-- The findings that keys of a block of metadata repeat earlier ones of the block. -/
def MetaBlock.repetitions (block : MetaBlock) : List Finding :=
  (RpcSchema.repetitions Name.text (block.entries.map (·.key))).map fun (first, n) => n.repeatsKey first

/-- The block of metadata that an entry of a procedure's body is. -/
def ProcItem.metadata? : ProcItem → Option MetaBlock
  | .metadata block => some block
  | _ => none

/-- The blocks of metadata in a schema. -/
def Schema.metaBlocks (s : Schema) : List MetaBlock := s.procItems.filterMap ProcItem.metadata?

lemma keyFindings_eq (earlier : List Name) (entries : List MetaEntry) :
    keyFindings earlier entries
      = (repetitionsAfter Name.text earlier (entries.map (·.key))).map
          fun (first, n) => n.repeatsKey first := by
  induction entries generalizing earlier with
  | nil => rfl
  | cons e rest ih =>
      rw [keyFindings, ih, List.map_cons, repetitionsAfter, List.map_append, repeatedFrom?]
      cases earlier.find? (·.text = e.key.text) <;> rfl

/-! ## Fields of a list -/

/-- The finding that a field repeats an earlier one. -/
def Name.repeatsField (n first : Name) : Finding := ⟨n.span, .fieldRepeated n.text first.span⟩

/-- The findings that fields of a list repeat earlier ones of the list. -/
def FieldItem.repetitions (list : List FieldItem) : List Finding :=
  (RpcSchema.repetitions Name.text ((FieldItem.fields list).map (·.name))).map
    fun (first, n) => n.repeatsField first

mutual

/-- The lists of fields in the type of a field. -/
def FieldBase.lists : FieldBase → List (List FieldItem)
  | .named _ => []
  | .object items => items :: FieldItem.innerLists items

/-- The lists of fields inside the fields of a list. -/
def FieldItem.innerLists : List FieldItem → List (List FieldItem)
  | [] => []
  | .field ⟨_, _, _, _, ⟨_, base, _⟩, _⟩ :: rest => base.lists ++ FieldItem.innerLists rest
  | .comment _ :: rest => FieldItem.innerLists rest
  | .docstring _ :: rest => FieldItem.innerLists rest

end

/-- A list of fields and the lists inside it. -/
def FieldItem.lists (items : List FieldItem) : List (List FieldItem) := items :: FieldItem.innerLists items

/-- The lists of fields in a schema: in types, and then in what procedures and streams take and give. -/
def Schema.fieldLists (s : Schema) : List (List FieldItem) := s.outerLists.flatMap FieldItem.lists

/-! ### Where lists are -/

section

variable {list items : List FieldItem}

lemma FieldItem.innerLists_eq (items : List FieldItem) :
    FieldItem.innerLists items = (FieldItem.fields items).flatMap (·.type.base.lists) := by
  induction items with
  | nil =>
      rw [innerLists]
      rfl
  | cons item items ih =>
      cases item with
      | field f =>
          obtain ⟨_, _, _, _, ⟨_, _, _⟩, _⟩ := f
          rw [innerLists, ih]
          rfl
      | comment c => rw [innerLists, ih]; rfl
      | docstring d => rw [innerLists, ih]; rfl

/-- The lists are the levels. -/
lemma FieldItem.mem_lists (items : List FieldItem) :
    list ∈ FieldItem.lists items ↔ FieldItem.Level items list := by
  have hlevels : list ∈ FieldItem.lists items ↔ ∃ level, FieldItem.Level items level ∧ list = level := by
    refine mem_iff_exists_level (fun items => ?_) items
    simp only [lists, innerLists_eq items, List.mem_cons, List.mem_flatMap, mem_fields]
    refine or_congr_right ⟨?_, ?_⟩
    · rintro ⟨f, hf, hlist⟩
      cases hbase : f.type.base with
      | named n =>
          rw [hbase, FieldBase.lists] at hlist
          cases hlist
      | object inner =>
          rw [hbase, FieldBase.lists, List.mem_cons] at hlist
          exact ⟨f, inner, hf, hbase, hlist⟩
    · rintro ⟨f, inner, hf, hbase, hlist⟩
      refine ⟨f, hf, ?_⟩
      rwa [hbase, FieldBase.lists, List.mem_cons]
  rw [hlevels]
  simp only [exists_eq_right']

lemma Schema.mem_fieldLists {s : Schema} : list ∈ s.fieldLists ↔ s.FieldList list := by
  rw [fieldLists, List.mem_flatMap, fieldList_iff]
  simp only [FieldItem.mem_lists]

end

/-! ### Findings in lists -/

lemma FieldItem.fields_cons_field (f : Field) (rest : List FieldItem) :
    FieldItem.fields (.field f :: rest) = f :: FieldItem.fields rest := rfl

namespace Bundle

variable (b : Bundle)

mutual

lemma perm_baseFindings : ∀ base : FieldBase,
    ((b.baseFindings base).filter (Finding.isAbout .repeatedField)).Perm
      (base.lists.flatMap FieldItem.repetitions)
  | .named n => by
      rw [baseFindings, filter_isAbout_eq_nil (b.madeOf_typeFindings n) (by decide), FieldBase.lists]
      exact .nil
  | .object items => by
      rw [baseFindings, FieldBase.lists, List.flatMap_cons, FieldItem.repetitions, ← repetitionsAfter_nil]
      exact perm_fieldFindings [] items

/-- In a list of fields the repetitions that are found are those of the list itself, and those of each
list inside it. -/
lemma perm_fieldFindings (earlier : List Name) : ∀ items : List FieldItem,
    ((b.fieldFindings earlier items).filter (Finding.isAbout .repeatedField)).Perm
      ((repetitionsAfter Name.text earlier ((FieldItem.fields items).map (·.name))).map
          (fun (first, n) => n.repeatsField first)
        ++ (FieldItem.innerLists items).flatMap FieldItem.repetitions)
  | [] => by
      rw [fieldFindings, FieldItem.innerLists]
      exact .nil
  | .field ⟨_, _, name, _, ⟨_, base, isArray⟩, rules⟩ :: rest => by
      have hname : fieldNameFindings earlier name
          = ((earlier.find? (·.text = name.text)).map (·, name)).toList.map
              fun (first, n) => n.repeatsField first := by
        rw [fieldNameFindings, repeatedFrom?]
        cases earlier.find? (·.text = name.text) <;> rfl
      rw [fieldFindings, FieldItem.innerLists, List.flatMap_append, FieldItem.fields_cons_field,
        List.map_cons, repetitionsAfter, List.map_append, ← hname]
      simp only [List.filter_append]
      rw [filter_isAbout_eq_self (madeOf_fieldNameFindings earlier name),
        filter_isAbout_eq_nil (b.madeOf_useFindings base isArray rules) (by decide), List.append_nil,
        List.append_assoc, List.append_assoc]
      refine List.Perm.append_left _ ?_
      -- the lists inside the field are walked before the rest of the list that it stands in
      exact ((perm_baseFindings base).append (perm_fieldFindings _ rest)).trans
        (List.perm_append_comm_assoc _ _ _)
  | .comment _ :: rest => by
      rw [fieldFindings, FieldItem.innerLists]
      exact perm_fieldFindings earlier rest
  | .docstring _ :: rest => by
      rw [fieldFindings, FieldItem.innerLists]
      exact perm_fieldFindings earlier rest

end

lemma perm_items (items : List FieldItem) :
    ((b.fieldFindings [] items).filter (Finding.isAbout .repeatedField)).Perm
      ((FieldItem.lists items).flatMap FieldItem.repetitions) := by
  rw [FieldItem.lists, List.flatMap_cons, FieldItem.repetitions, ← repetitionsAfter_nil]
  exact b.perm_fieldFindings [] items

lemma filter_blockFindings_key (item : ProcItem) :
    (b.blockFindings item).filter (Finding.isAbout .repeatedKey)
      = item.metadata?.toList.flatMap MetaBlock.repetitions := by
  cases item with
  | input block => exact filter_isAbout_eq_nil (b.madeOf_fieldFindings [] block.items) (by decide)
  | output block => exact filter_isAbout_eq_nil (b.madeOf_fieldFindings [] block.items) (by decide)
  | metadata block =>
      rw [blockFindings, filter_isAbout_eq_self (madeOf_keyFindings [] block.entries), keyFindings_eq,
        repetitionsAfter_nil]
      exact (List.append_nil _).symm
  | comment c => rfl

end Bundle

/-! ## The result -/

namespace Bundle

variable (b : Bundle) (settings : Settings)

lemma filter_findings_redeclaration :
    (b.findings settings).filter (Finding.isAbout .redeclaration)
      = (repetitions DeclaredName.key b.schema.declared).map fun (first, d) => d.redeclares first := by
  rw [b.filter_findings_of_fields topic_of_isAbout (by decide) settings, Schema.nameFindings,
    filter_nameFindings, repetitionsAfter_nil,
    filter_isAbout_eq_nil b.madeOf_circularityFindings (by decide),
    flatMap_filter_isAbout_eq_nil b.madeOf_ruleFindings (by decide),
    flatMap_filter_isAbout_eq_nil (b.madeOf_fieldFindings []) (by decide)]
  simp only [List.append_nil]
  rfl

lemma filter_findings_repeatedKey :
    (b.findings settings).filter (Finding.isAbout .repeatedKey)
      = b.schema.metaBlocks.flatMap MetaBlock.repetitions := by
  rw [b.filter_findings_of_topic topic_of_isAbout (by decide) settings, Schema.nameFindings,
    filter_isAbout_eq_nil (madeOf_nameFindings _ _ _) (by decide),
    filter_isAbout_eq_nil b.madeOf_circularityFindings (by decide),
    flatMap_filter_isAbout_eq_nil b.madeOf_ruleFindings (by decide),
    flatMap_filter_isAbout_eq_nil (fun d : TypeDecl => b.madeOf_fieldFindings [] d.items) (by decide),
    List.append_nil, List.nil_append, List.nil_append, List.nil_append, Schema.metaBlocks,
    List.filterMap_eq_flatMap_toList, List.flatMap_assoc]
  exact List.flatMap_congr fun item _ => b.filter_blockFindings_key item

lemma perm_findings_repeatedField :
    ((b.findings settings).filter (Finding.isAbout .repeatedField)).Perm
      (b.schema.fieldLists.flatMap FieldItem.repetitions) := by
  rw [b.filter_findings_of_fields topic_of_isAbout (by decide) settings, Schema.nameFindings,
    filter_isAbout_eq_nil (madeOf_nameFindings _ _ _) (by decide),
    filter_isAbout_eq_nil b.madeOf_circularityFindings (by decide),
    flatMap_filter_isAbout_eq_nil b.madeOf_ruleFindings (by decide),
    List.append_nil, List.nil_append, List.nil_append, Schema.fieldLists, List.flatMap_assoc]
  exact List.Perm.flatMap_left _ fun items _ => b.perm_items items

end Bundle

/-- **Repetitions.**  The index holds the first declaration of each name of a namespace, and nothing else.

The findings that a name is already declared are one for each declaration that repeats an earlier one, at
its name and in the order of the declarations, and cite the name of the first; and that is the declaration
which the index holds, as it holds each declaration that repeats no earlier one.  Keys of metadata and
fields are reported in the same way, block by block and list by list; only that the lists inside a list of
fields are reported among the fields of the list. -/
theorem Bundle.repetitions_reported (settings : Settings) (s : Schema) :
    ((∀ name, (ofSchema s).rules[name]? = s.rules.find? (·.name.text = name))
        ∧ (∀ name, (ofSchema s).types[name]? = s.types.find? (·.name.text = name))
        ∧ (∀ name, (ofSchema s).procs[name]? = s.procs.find? (·.name.text = name))
        ∧ ∀ name, (ofSchema s).streams[name]? = s.streams.find? (·.name.text = name))
      ∧ ((ofSchema s).findings settings).filter (Finding.isAbout .redeclaration)
          = (repetitions DeclaredName.key s.declared).map (fun (first, d) => d.redeclares first)
      ∧ (∀ i d, s.declared[i]? = some d → (ofSchema s).kept? d.kind d.name.text
          = some (((s.declared.take i).find? (·.key = d.key)).getD d).name)
      ∧ ((ofSchema s).findings settings).filter (Finding.isAbout .repeatedKey)
          = s.metaBlocks.flatMap MetaBlock.repetitions
      ∧ (((ofSchema s).findings settings).filter (Finding.isAbout .repeatedField)).Perm
          (s.fieldLists.flatMap FieldItem.repetitions)
      ∧ ∀ list, list ∈ s.fieldLists ↔ s.FieldList list := by
  refine ⟨⟨getElem?_firstByName s.rules, getElem?_firstByName s.types, getElem?_firstByName s.procs,
    getElem?_firstByName s.streams⟩, (ofSchema s).filter_findings_redeclaration settings, ?_,
    (ofSchema s).filter_findings_repeatedKey settings, (ofSchema s).perm_findings_repeatedField settings,
    fun _ => Schema.mem_fieldLists⟩
  intro i d hd
  rw [kept?_ofSchema, find?_key_eq hd]
  rfl

end RpcSchema
