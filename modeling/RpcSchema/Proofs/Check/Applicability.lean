import RpcSchema.Grammar.File
import RpcSchema.Proofs.Check.Topics

/-!
# Which uses of rules are rejected

A use is rejected when its rule does not apply to the type of the field.  The check says so once for each
such use, in the order in which it comes to them, and the findings that say so are about nothing else
(`Bundle.filter_findings`).  What is rejected of the uses of standard rules, and of those of declared
ones, is then a matter of single uses.

**Where names stand in for types.**  The check compares names, and two names stand for what is no type
of that name: `array` for every array, and `object` for inline objects.  A schema may declare types with
these names all the same.  A rule for arrays is then let pass on fields of the type `array`, and a rule
for the type `object` on inline objects; apart from that, what is rejected is what does not suit the
field (`Bundle.standard_rejections`, `Bundle.declared_rejections`).

* `Schema.uses` are the uses of rules in a schema, at every depth.
* `Finding.rejects` tells the findings that are meant.
-/

namespace RpcSchema

/-! ## Uses at every depth -/

/-- The use of a rule on a field, with the type of the field. -/
structure FieldUse where
  type : FieldType
  use : RuleUse

mutual

/-- The uses of rules inside the type of a field. -/
def FieldBase.uses : FieldBase → List FieldUse
  | .named _ => []
  | .object items => FieldItem.uses items

/-- The uses of rules in a list of fields.  Those inside an inline object come before those on it. -/
def FieldItem.uses : List FieldItem → List FieldUse
  | [] => []
  | .field ⟨_, _, _, _, ⟨span, base, isArray⟩, rules⟩ :: rest =>
    base.uses ++ rules.map (⟨⟨span, base, isArray⟩, ·⟩) ++ FieldItem.uses rest
  | .comment _ :: rest => FieldItem.uses rest
  | .docstring _ :: rest => FieldItem.uses rest

end

/-- The uses of rules in an entry of a procedure's body. -/
def ProcItem.uses : ProcItem → List FieldUse
  | .input block | .output block => FieldItem.uses block.items
  | .metadata _ | .comment _ => []

/-- The uses of rules in what a statement takes and gives, if it is a procedure or stream. -/
def Statement.serviceUses : Statement → List FieldUse
  | .proc p | .stream p => p.items.flatMap ProcItem.uses
  | _ => []

/-- The uses of rules in a schema: on the fields of types, and then on those of procedures and
streams. -/
def Schema.uses (s : Schema) : List FieldUse :=
  s.types.flatMap (FieldItem.uses ·.items) ++ s.statements.flatMap Statement.serviceUses

section

variable {o : FieldUse}

lemma FieldItem.uses_eq (items : List FieldItem) : FieldItem.uses items
    = (FieldItem.fields items).flatMap fun f => f.type.base.uses ++ f.rules.map (⟨f.type, ·⟩) := by
  induction items with
  | nil =>
      rw [uses]
      rfl
  | cons item items ih =>
      cases item with
      | field f =>
          obtain ⟨_, _, _, _, ⟨_, _, _⟩, _⟩ := f
          rw [uses, ih]
          rfl
      | comment c => rw [uses, ih]; rfl
      | docstring d => rw [uses, ih]; rfl

/-- The uses in a list of fields are those on the fields of its levels. -/
lemma FieldItem.mem_uses_iff (items : List FieldItem) : o ∈ FieldItem.uses items ↔
    ∃ list, FieldItem.Level items list ∧ ∃ f, .field f ∈ list ∧ f.type = o.type ∧ o.use ∈ f.rules := by
  refine mem_iff_exists_level (fun items => ?_) items
  simp only [uses_eq items, List.mem_flatMap, mem_fields, List.mem_append, List.mem_map]
  constructor
  · rintro ⟨f, hf, hbase | ⟨u, hu, rfl⟩⟩
    · cases hobject : f.type.base with
      | named n =>
          rw [hobject, FieldBase.uses] at hbase
          cases hbase
      | object inner =>
          rw [hobject, FieldBase.uses] at hbase
          exact Or.inr ⟨f, inner, hf, hobject, hbase⟩
    · exact Or.inl ⟨f, hf, rfl, hu⟩
  · rintro (⟨f, hf, htype, hu⟩ | ⟨f, inner, hf, hobject, hinner⟩)
    · exact ⟨f, hf, Or.inr ⟨o.use, hu, by rw [htype]⟩⟩
    · refine ⟨f, hf, Or.inl ?_⟩
      rwa [hobject, FieldBase.uses]

/-- The uses in a schema are those in its outer lists. -/
lemma Schema.uses_eq (s : Schema) : s.uses = s.outerLists.flatMap FieldItem.uses := by
  rw [uses, outerLists, List.flatMap_append, List.flatMap_map, procItems, List.filterMap_flatMap,
    List.flatMap_assoc]
  congr 1
  refine List.flatMap_congr fun statement _ => ?_
  have hitems : ∀ items : List ProcItem, items.flatMap ProcItem.uses
      = (items.filterMap ProcItem.fields?).flatMap FieldItem.uses := by
    intro items
    rw [List.filterMap_eq_flatMap_toList, List.flatMap_assoc]
    refine List.flatMap_congr fun item _ => ?_
    cases item with
    | input block => exact (List.append_nil _).symm
    | output block => exact (List.append_nil _).symm
    | _ => rfl
  cases statement with
  | proc p => exact hitems p.items
  | stream p => exact hitems p.items
  | _ => rfl

/-- The uses in a schema are those on the fields of its types, and of what its procedures and streams
take and give, at every depth. -/
lemma Schema.mem_uses_iff {s : Schema} : o ∈ s.uses ↔
    ∃ list, s.FieldList list ∧ ∃ f, .field f ∈ list ∧ f.type = o.type ∧ o.use ∈ f.rules := by
  rw [uses_eq, mem_flatMap_outerLists FieldItem.mem_uses_iff]

end

/-! ## Rejections among the findings -/

/-- The rule that a finding says not to apply to the type of a field. -/
def Finding.inapplicable? (f : Finding) : Option String :=
  match f.fault with
  | .notApplicable rule _ _ => some rule
  | _ => none

/-- A finding says of a rule that it does not apply, and the rule's name is such a one. -/
def Finding.rejects (p : String → Bool) (f : Finding) : Bool := f.inapplicable?.any p

/-- The finding about a use, if something is wrong with it. -/
def Bundle.useFinding? (b : Bundle) (o : FieldUse) : Option Finding :=
  (b.useFault? o.type.base o.type.isArray o.use).map fun (span, fault) => ⟨span, fault⟩

/-- The finding that the rule of a use does not apply, but only to the given types. -/
def FieldUse.rejection (o : FieldUse) (targets : List String) : Finding :=
  ⟨o.use.name.span, .notApplicable o.use.name.text o.type.toText targets⟩

section

variable {p : String → Bool}

@[simp]
lemma FieldUse.rejects_rejection (o : FieldUse) (targets : List String) :
    (o.rejection targets).rejects p = p o.use.name.text := rfl

lemma Finding.topic_of_inapplicable? {f : Finding} {name : String} (h : f.inapplicable? = some name) :
    f.fault.topic = .applicability := by
  rw [inapplicable?] at h
  split at h
  · next hfault =>
      rw [hfault]
      rfl
  · cases h

lemma topic_of_rejects (f : Finding) (h : f.rejects p = true) : f.fault.topic = .applicability := by
  obtain ⟨name, hname, _⟩ := (Option.any_eq_true _ _).1 h
  exact Finding.topic_of_inapplicable? hname

lemma filter_rejects_eq_nil {topics : List Topic} {fs : List Finding} (h : MadeOf topics fs)
    (hne : Topic.applicability ∉ topics) : fs.filter (Finding.rejects p) = [] :=
  filter_eq_nil_of_topics topic_of_rejects h hne

/-! ### Findings in fields -/

lemma Bundle.useFindings_eq (b : Bundle) (t : FieldType) (uses : List RuleUse) :
    b.useFindings t.base t.isArray uses = (uses.map (⟨t, ·⟩)).filterMap b.useFinding? := by
  rw [useFindings, List.map_filterMap, List.filterMap_map]
  rfl

mutual

lemma Bundle.baseFindings_rejects (b : Bundle) : ∀ base : FieldBase,
    (b.baseFindings base).filter (Finding.rejects p)
      = (base.uses.filterMap b.useFinding?).filter (Finding.rejects p)
  | .named n => by
      rw [baseFindings, FieldBase.uses, filter_rejects_eq_nil (b.madeOf_typeFindings n) (by decide)]
      rfl
  | .object items => by
      rw [baseFindings, FieldBase.uses]
      exact b.fieldFindings_rejects [] items

/-- What is rejected in a list of fields is rejected among its uses. -/
lemma Bundle.fieldFindings_rejects (b : Bundle) (earlier : List Name) : ∀ items : List FieldItem,
    (b.fieldFindings earlier items).filter (Finding.rejects p)
      = ((FieldItem.uses items).filterMap b.useFinding?).filter (Finding.rejects p)
  | [] => by
      rw [fieldFindings, FieldItem.uses]
      rfl
  | .field ⟨_, _, name, _, ⟨span, base, isArray⟩, rules⟩ :: rest => by
      rw [fieldFindings, FieldItem.uses, b.useFindings_eq ⟨span, base, isArray⟩]
      simp only [List.filter_append, List.filterMap_append]
      rw [filter_rejects_eq_nil (madeOf_fieldNameFindings earlier name) (by decide), List.nil_append,
        b.baseFindings_rejects base, b.fieldFindings_rejects (earlier ++ [name]) rest]
  | .comment _ :: rest => by
      rw [fieldFindings, FieldItem.uses]
      exact b.fieldFindings_rejects earlier rest
  | .docstring _ :: rest => by
      rw [fieldFindings, FieldItem.uses]
      exact b.fieldFindings_rejects earlier rest

end

/-- **What is rejected among the findings** is what is rejected among the uses of rules, use by use. -/
theorem Bundle.filter_findings (settings : Settings) (b : Bundle) :
    (b.findings settings).filter (Finding.rejects p)
      = (b.schema.uses.filterMap b.useFinding?).filter (Finding.rejects p) := by
  have hrules : b.schema.rules.flatMap (fun r => (b.ruleFindings r).filter (Finding.rejects p)) = [] :=
    List.flatMap_eq_nil_iff.2 fun r _ => filter_rejects_eq_nil (b.madeOf_ruleFindings r) (by decide)
  rw [b.filter_findings_of_fields topic_of_rejects (by decide) settings, hrules, Schema.nameFindings,
    filter_rejects_eq_nil (madeOf_nameFindings _ _ _) (by decide),
    filter_rejects_eq_nil b.madeOf_circularityFindings (by decide), Schema.uses_eq, List.nil_append,
    List.nil_append, List.append_nil, List.filterMap_flatMap, List.filter_flatMap,
    funext (b.fieldFindings_rejects [])]

end

/-! ## What is rejected of a use -/

instance (base : FieldBase) (p : Name → Prop) [DecidablePred p] :
    Decidable (∃ n, base = .named n ∧ p n) :=
  match base with
  | .named n => decidable_of_iff (p n) (by simp)
  | .object _ => isFalse (by simp)

instance (base : FieldBase) : Decidable (∃ items, base = .object items) :=
  match base with
  | .named _ => isFalse (by simp)
  | .object items => isTrue ⟨items, rfl⟩

instance (t : FieldType) (p : Primitive) : Decidable (t.IsPrimitive p) :=
  inferInstanceAs (Decidable (t.isArray = false ∧ ∃ n, t.base = .named n ∧ n.text = p.word))

instance (r : StandardRule) (t : FieldType) : Decidable (r.Suits t) :=
  decidable_of_iff ((t.isArray = true ∧ anyArray ∈ r.targets) ∨
      ∃ p ∈ Primitive.all, t.IsPrimitive p ∧ p.word ∈ r.targets) (by
    simp only [StandardRule.Suits, mem_primitives, true_and])

instance (c : TypeClause) (t : FieldType) : Decidable (c.Suits t) :=
  inferInstanceAs (Decidable ((t.isArray = true ∧ c.isArray = false ∧ c.type.text = anyArray) ∨
    (t.isArray = c.isArray ∧ ∃ n, t.base = .named n ∧ n.text = c.type.text ∧
      (t.isArray = false → n.text ≠ anyArray))))

/-- A name of a standard rule. -/
def isStandardName (name : String) : Bool := (StandardRule.find? name).isSome

/-- The rejection of the use of a standard rule. -/
def FieldUse.standardRejection? (o : FieldUse) : Option Finding := do
  let r ← StandardRule.find? o.use.name.text
  if r.Suits o.type ∨
      (o.type.isArray = false ∧ anyArray ∈ r.targets ∧
        ∃ n, o.type.base = .named n ∧ n.text = anyArray) then none
  else some (o.rejection r.targets)

/-- The rejection of the use of a rule that is declared, and no standard one. -/
def Bundle.declaredRejection? (b : Bundle) (o : FieldUse) : Option Finding :=
  if isStandardName o.use.name.text then none
  else do
    let rule ← b.rules[o.use.name.text]?
    let c ← rule.targets.head?
    if c.Suits o.type ∨
        (o.type.isArray = c.isArray ∧ c.type.text = objectName ∧
          ∃ items, o.type.base = .object items) then none
    else some (o.rejection [c.toText])

section

variable {b : Bundle} {o : FieldUse} {p : String → Bool}

/-- What is wrong with an argument is no rejection. -/
lemma not_rejects_of_use {found : Located} (h : found.2.topic = .use) :
    (Finding.mk found.1 found.2).rejects p = false := by
  refine Bool.eq_false_iff.2 fun hrejects => ?_
  have htopic : found.2.topic = .applicability := topic_of_rejects _ hrejects
  rw [h] at htopic
  cases htopic

/-- Rejections of a use are about the rule that it names. -/
lemma FieldUse.filter_rejects {x : Option Finding}
    (hx : ∀ f, x = some f → ∃ targets, f = o.rejection targets) :
    x.filter (Finding.rejects p) = if p o.use.name.text then x else none := by
  cases x with
  | none => simp
  | some f =>
      obtain ⟨targets, rfl⟩ := hx f rfl
      rw [Option.filter, FieldUse.rejects_rejection]

lemma FieldUse.eq_of_standardRejection? {f : Finding} (h : o.standardRejection? = some f) :
    ∃ targets, f = o.rejection targets := by
  simp only [standardRejection?, Option.bind_eq_bind, Option.bind_eq_some_iff,
    Option.ite_none_left_eq_some, Option.some_inj] at h
  obtain ⟨r, _, _, rfl⟩ := h
  exact ⟨_, rfl⟩

lemma Bundle.eq_of_declaredRejection? {f : Finding} (h : b.declaredRejection? o = some f) :
    ∃ targets, f = o.rejection targets := by
  simp only [declaredRejection?, Option.bind_eq_bind, Option.bind_eq_some_iff,
    Option.ite_none_left_eq_some, Option.some_inj] at h
  obtain ⟨_, _, _, c, _, _, rfl⟩ := h
  exact ⟨_, rfl⟩

lemma Bundle.filter_useFinding?_of_standard {r : StandardRule}
    (hfind : StandardRule.find? o.use.name.text = some r) :
    (b.useFinding? o).filter (Finding.rejects p)
      = o.standardRejection?.filter (Finding.rejects p) := by
  have happlies := StandardRule.appliesTo_iff_suits_or (List.mem_of_find?_eq_some hfind) (t := o.type)
  simp only [useFinding?, useFault?, hfind, FieldUse.standardRejection?, Option.bind_eq_bind,
    Option.bind_some, ← happlies]
  split
  · cases hfault : standardArgumentFault? r.parameter o.type.base.name o.use with
    | none => rfl
    | some found => simp [not_rejects_of_use (topic_standardArgumentFault? hfault)]
  · rfl

lemma Bundle.filter_useFinding?_of_declared (hfind : StandardRule.find? o.use.name.text = none) :
    (b.useFinding? o).filter (Finding.rejects p)
      = (b.declaredRejection? o).filter (Finding.rejects p) := by
  simp only [useFinding?, useFault?, hfind, declaredRejection?, isStandardName, Option.isSome_none,
    Bool.false_eq_true, if_false, Option.bind_eq_bind, ← TypeClause.covers_iff_suits_or]
  cases b.rules[o.use.name.text]? with
  | none => rfl
  | some rule =>
      simp only [Option.bind_some]
      cases rule.targets.head? with
      | none => rfl
      | some c =>
          simp only [Option.bind_some]
          split
          · cases hfault : declaredArgumentFault? rule o.use with
            | none => rfl
            | some found => simp [not_rejects_of_use (topic_declaredArgumentFault? hfault)]
          · rfl

end

/-! ## The results -/

/-- **Rejected uses of standard rules.**  For each use of a standard rule that does not suit the type of
the field, and only for these, a finding says so, in the order of the uses; but a rule for arrays is let
pass on a field of the type named `array`. -/
theorem Bundle.standard_rejections (settings : Settings) (b : Bundle) :
    (b.findings settings).filter (Finding.rejects isStandardName)
        = b.schema.uses.filterMap FieldUse.standardRejection?
      ∧ ∀ o, o ∈ b.schema.uses ↔
        ∃ list, b.schema.FieldList list ∧ ∃ f, .field f ∈ list ∧ f.type = o.type ∧ o.use ∈ f.rules := by
  refine ⟨?_, fun o => Schema.mem_uses_iff⟩
  rw [filter_findings, List.filter_filterMap]
  refine List.filterMap_congr fun o _ => ?_
  cases hfind : StandardRule.find? o.use.name.text with
  | some r =>
      rw [filter_useFinding?_of_standard hfind,
        FieldUse.filter_rejects fun _ => FieldUse.eq_of_standardRejection?]
      simp [isStandardName, hfind]
  | none =>
      rw [filter_useFinding?_of_declared hfind,
        FieldUse.filter_rejects fun _ => eq_of_declaredRejection?]
      simp [isStandardName, hfind, FieldUse.standardRejection?]

/-- A type with the name that stands for arrays, and a rule for arrays on a field of it. -/
def arrayNamed : Source :=
  ⟨"array.rpcdl", "type array \x7b x: int \x7d\ntype A \x7b f: array @minLen(1) \x7d\n"⟩

/-- A standard rule is used where it does not suit the type of the field, and nothing is found. -/
theorem arrayNamed_passes : ∃ s, Schema.ofSource arrayNamed = .ok s
    ∧ (∃ o ∈ s.uses, ∃ r ∈ standardRules, r.name = o.use.name.text ∧ ¬ r.Suits o.type)
    ∧ (Bundle.ofSchema s).findings { checkCasing := false } = [] := by
  have hpasses : (match Schema.ofSource arrayNamed with
      | .ok s => decide ((∃ o ∈ s.uses, ∃ r ∈ standardRules, r.name = o.use.name.text ∧ ¬ r.Suits o.type)
          ∧ (Bundle.ofSchema s).findings { checkCasing := false } = [])
      | .error _ => false) = true := by decide +kernel
  cases h : Schema.ofSource arrayNamed with
  | error e =>
      rw [h] at hpasses
      cases hpasses
  | ok s =>
      rw [h] at hpasses
      exact ⟨s, rfl, of_decide_eq_true hpasses⟩

/-- **Rejected uses of declared rules.**  For each use of a rule that is declared with a `for` clause and
is no standard rule, a finding says so if the clause does not suit the type of the field, and only then;
but a clause for the type `object` is let pass on inline objects, and one for its arrays on arrays of
them. -/
theorem Bundle.declared_rejections (settings : Settings) (b : Bundle) :
    (b.findings settings).filter (Finding.rejects (!isStandardName ·))
        = b.schema.uses.filterMap b.declaredRejection?
      ∧ ∀ o, o ∈ b.schema.uses ↔
        ∃ list, b.schema.FieldList list ∧ ∃ f, .field f ∈ list ∧ f.type = o.type ∧ o.use ∈ f.rules := by
  refine ⟨?_, fun o => Schema.mem_uses_iff⟩
  rw [filter_findings, List.filter_filterMap]
  refine List.filterMap_congr fun o _ => ?_
  cases hfind : StandardRule.find? o.use.name.text with
  | some r =>
      rw [filter_useFinding?_of_standard hfind,
        FieldUse.filter_rejects fun _ => FieldUse.eq_of_standardRejection?]
      simp [isStandardName, hfind, declaredRejection?]
  | none =>
      rw [filter_useFinding?_of_declared hfind,
        FieldUse.filter_rejects fun _ => eq_of_declaredRejection?]
      simp [isStandardName, hfind]

/-- A type with the name that stands for inline objects, and a rule for it on an inline object. -/
def objectNamed : Source :=
  ⟨"object.rpcdl", "rule @r \x7b for: object \x7d\ntype object \x7b y: int \x7d\n"
    ++ "type A \x7b f: \x7b x: int \x7d @r \x7d\n"⟩

/-- A declared rule is used where its `for` clause does not suit the type of the field, and nothing is
found. -/
theorem objectNamed_passes : ∃ s, Schema.ofSource objectNamed = .ok s
    ∧ (∃ o ∈ s.uses, ∃ r ∈ s.rules, r.name.text = o.use.name.text ∧ ∃ c ∈ r.targets, ¬ c.Suits o.type)
    ∧ (Bundle.ofSchema s).findings { checkCasing := false } = [] := by
  have hpasses : (match Schema.ofSource objectNamed with
      | .ok s => decide ((∃ o ∈ s.uses, ∃ r ∈ s.rules, r.name.text = o.use.name.text ∧
            ∃ c ∈ r.targets, ¬ c.Suits o.type)
          ∧ (Bundle.ofSchema s).findings { checkCasing := false } = [])
      | .error _ => false) = true := by decide +kernel
  cases h : Schema.ofSource objectNamed with
  | error e =>
      rw [h] at hpasses
      cases hpasses
  | ok s =>
      rw [h] at hpasses
      exact ⟨s, rfl, of_decide_eq_true hpasses⟩

end RpcSchema
