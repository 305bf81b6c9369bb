import RpcSchema.Proofs.Check.Topics

/-!
# Which mentions of types are reported

A type is mentioned where a rule says what it applies to, and where a field is of a named type.  For each
mention of a type that is neither primitive nor in the index there is one finding, at the mention, in
the order in which `Schema.mentions` lists them; and no other finding says that a type is not declared
(`Bundle.undeclared_types`).

What else is wrong makes no difference.  The types of a declaration that is a second one of its name are
mentioned as well, and so are those in a block that is written again.

* `Schema.mentions` are the mentions, at every depth.
-/

namespace RpcSchema

/-! ## Mentions at every depth -/

mutual

/-- The mentions of types inside the type of a field. -/
def FieldBase.mentions : FieldBase → List Name
  | .named n => [n]
  | .object items => FieldItem.mentions items

/-- The mentions of types in a list of fields, inline objects included. -/
def FieldItem.mentions : List FieldItem → List Name
  | [] => []
  | .field ⟨_, _, _, _, ⟨_, base, _⟩, _⟩ :: rest => base.mentions ++ FieldItem.mentions rest
  | .comment _ :: rest => FieldItem.mentions rest
  | .docstring _ :: rest => FieldItem.mentions rest

end

/-- The type that a `for` clause mentions: none if it is the bare word `array`. -/
def TypeClause.mentions (c : TypeClause) : List Name :=
  if c.isArray = false ∧ c.type.text = anyArray then [] else [c.type]

/-- The mention of a type in what a rule says to apply to, where it says so first. -/
def RuleDecl.mentions (r : RuleDecl) : List Name := r.targets.head?.toList.flatMap TypeClause.mentions

/-- The mentions of types in a schema: by rules, then in types, and then in what procedures and streams take
and give. -/
def Schema.mentions (s : Schema) : List Name :=
  s.rules.flatMap RuleDecl.mentions ++ s.outerLists.flatMap FieldItem.mentions

/-! ### Where mentions are -/

section

variable {n : Name}

lemma RuleDecl.mem_mentions {r : RuleDecl} : n ∈ RuleDecl.mentions r ↔
    ∃ c, r.targets.head? = some c ∧ ¬ (c.isArray = false ∧ c.type.text = anyArray) ∧ c.type = n := by
  rw [mentions, List.mem_flatMap]
  constructor
  · rintro ⟨c, hc, hn⟩
    rw [TypeClause.mentions] at hn
    split at hn
    · cases hn
    · next hbare => exact ⟨c, Option.mem_toList.1 hc, hbare, (List.mem_singleton.1 hn).symm⟩
  · rintro ⟨c, hc, hbare, rfl⟩
    refine ⟨c, Option.mem_toList.2 hc, ?_⟩
    rw [TypeClause.mentions, if_neg hbare]
    exact List.mem_cons_self

lemma FieldItem.mentions_eq (items : List FieldItem) :
    FieldItem.mentions items = (FieldItem.fields items).flatMap (·.type.base.mentions) := by
  induction items with
  | nil =>
      rw [mentions]
      rfl
  | cons item items ih =>
      cases item with
      | field f =>
          obtain ⟨_, _, _, _, ⟨_, _, _⟩, _⟩ := f
          rw [mentions, ih]
          rfl
      | comment c => rw [mentions, ih]; rfl
      | docstring d => rw [mentions, ih]; rfl

/-- The mentions in a list of fields are the named types of the fields of its levels. -/
lemma FieldItem.mem_mentions (items : List FieldItem) : n ∈ FieldItem.mentions items ↔
    ∃ list, FieldItem.Level items list ∧ ∃ f, .field f ∈ list ∧ f.type.base = .named n := by
  refine mem_iff_exists_level (fun items => ?_) items
  simp only [mentions_eq items, List.mem_flatMap, mem_fields]
  constructor
  · rintro ⟨f, hf, hn⟩
    cases hbase : f.type.base with
    | named m =>
        rw [hbase, FieldBase.mentions, List.mem_singleton] at hn
        exact Or.inl ⟨f, hf, hn ▸ hbase⟩
    | object inner =>
        rw [hbase, FieldBase.mentions] at hn
        exact Or.inr ⟨f, inner, hf, hbase, hn⟩
  · rintro (⟨f, hf, hbase⟩ | ⟨f, inner, hf, hbase, hn⟩)
    · refine ⟨f, hf, ?_⟩
      rw [hbase, FieldBase.mentions]
      exact List.mem_cons_self
    · refine ⟨f, hf, ?_⟩
      rwa [hbase, FieldBase.mentions]

end

/-! ## Findings about mentions -/

namespace Bundle

variable {b : Bundle}

lemma filter_typeFindings (n : Name) :
    (b.typeFindings n).filter (Finding.isAbout .undeclaredType) = b.typeFindings n :=
  filter_isAbout_eq_self (b.madeOf_typeFindings n)

mutual

lemma filter_baseFindings : ∀ base : FieldBase,
    (b.baseFindings base).filter (Finding.isAbout .undeclaredType)
      = base.mentions.flatMap b.typeFindings
  | .named n => by
      rw [baseFindings, filter_typeFindings, FieldBase.mentions, List.flatMap_singleton]
  | .object items => by
      rw [baseFindings, FieldBase.mentions]
      exact filter_fieldFindings [] items

/-- In a list of fields the findings about mentions are those of each mention. -/
lemma filter_fieldFindings (earlier : List Name) : ∀ items : List FieldItem,
    (b.fieldFindings earlier items).filter (Finding.isAbout .undeclaredType)
      = (FieldItem.mentions items).flatMap b.typeFindings
  | [] => by
      rw [fieldFindings, FieldItem.mentions]
      rfl
  | .field ⟨_, _, name, _, ⟨_, base, isArray⟩, rules⟩ :: rest => by
      rw [fieldFindings, FieldItem.mentions, List.flatMap_append]
      simp only [List.filter_append]
      rw [filter_isAbout_eq_nil (madeOf_fieldNameFindings earlier name) (by decide),
        filter_isAbout_eq_nil (b.madeOf_useFindings base isArray rules) (by decide),
        filter_baseFindings base, filter_fieldFindings _ rest, List.nil_append, List.append_nil]
  | .comment _ :: rest => by
      rw [fieldFindings, FieldItem.mentions]
      exact filter_fieldFindings earlier rest
  | .docstring _ :: rest => by
      rw [fieldFindings, FieldItem.mentions]
      exact filter_fieldFindings earlier rest

end

lemma filter_ruleFindings (rule : RuleDecl) :
    (b.ruleFindings rule).filter (Finding.isAbout .undeclaredType)
      = (RuleDecl.mentions rule).flatMap b.typeFindings := by
  have htarget : (b.targetFindings rule).filter (Finding.isAbout .undeclaredType)
      = (RuleDecl.mentions rule).flatMap b.typeFindings := by
    rw [targetFindings, RuleDecl.mentions]
    cases rule.targets.head? with
    | none => rfl
    | some c =>
        simp only [Option.toList_some, List.flatMap_singleton, TypeClause.mentions,
          Bool.not_eq_true]
        split
        · rfl
        · rw [filter_typeFindings, List.flatMap_singleton]
  rw [ruleFindings]
  simp only [List.filter_append]
  rw [htarget, filter_isAbout_eq_nil (madeOf_repeatedClauses _ _ _) (by decide),
    filter_isAbout_eq_nil (madeOf_paramFindings rule) (by decide),
    filter_isAbout_eq_nil (madeOf_repeatedClauses _ _ _) (by decide),
    filter_isAbout_eq_nil (madeOf_repeatedClauses _ _ _) (by decide)]
  simp only [List.append_nil]

/-- The findings about mentions are those of each mention in the schema, one after the other. -/
lemma filter_findings_mentions (settings : Settings) :
    (b.findings settings).filter (Finding.isAbout .undeclaredType)
      = b.schema.mentions.flatMap b.typeFindings := by
  rw [b.filter_findings_of_fields topic_of_isAbout (by decide) settings, Schema.mentions,
    List.flatMap_append, List.flatMap_assoc, List.flatMap_assoc, Schema.nameFindings,
    filter_isAbout_eq_nil (madeOf_nameFindings _ _ _) (by decide),
    filter_isAbout_eq_nil b.madeOf_circularityFindings (by decide), List.nil_append, List.append_nil,
    funext filter_ruleFindings, funext (filter_fieldFindings [])]

end Bundle

/-! ## The result -/

/-- The finding that the mentioned type is not declared. -/
def Name.undeclaredType (n : Name) : Finding := ⟨n.span, .typeUndeclared n.text⟩

/-- The mentioned type is neither primitive nor in the index. -/
def Bundle.Unknown (b : Bundle) (n : Name) : Prop :=
  (∀ p ∈ Primitive.all, p.word ≠ n.text) ∧ n.text ∉ b.types

instance (b : Bundle) (n : Name) : Decidable (b.Unknown n) := inferInstanceAs (Decidable (_ ∧ _))

lemma Bundle.typeFindings_eq (b : Bundle) (n : Name) :
    b.typeFindings n = if b.Unknown n then [n.undeclaredType] else [] := by
  have hknown : (isPrimitiveName n.text || b.types.contains n.text) = true ↔ ¬ b.Unknown n := by
    rw [Bool.or_eq_true, isPrimitiveName_iff, Std.ExtTreeMap.contains_iff_mem, Unknown, not_and_or,
      not_not]
    simp only [mem_primitives, true_imp_iff, ne_eq, not_forall, not_not]
  rw [typeFindings]
  by_cases h : b.Unknown n
  · rw [if_pos h, if_neg fun hno => hknown.1 hno h]
    rfl
  · rw [if_neg h, if_pos (hknown.2 h)]

lemma Bundle.flatMap_typeFindings (b : Bundle) (mentions : List Name) :
    mentions.flatMap b.typeFindings = (mentions.filter fun n => b.Unknown n).map Name.undeclaredType := by
  induction mentions with
  | nil => rfl
  | cons n rest ih =>
      rw [List.flatMap_cons, ih, b.typeFindings_eq n]
      by_cases h : b.Unknown n
      · rw [if_pos h, List.filter_cons, if_pos (decide_eq_true h)]
        rfl
      · rw [if_neg h, List.filter_cons, if_neg (by simpa using h)]
        rfl

/-- **Undeclared types.**  The findings that a type is not declared are one for each mention of a type
that is neither primitive nor in the index, at the mention, in the order of the mentions.

The mentions are the first `for` clause of each rule, unless it is the bare word `array`, and the named
types of the fields of every list of fields. -/
theorem Bundle.undeclared_types (settings : Settings) (b : Bundle) :
    (b.findings settings).filter (Finding.isAbout .undeclaredType)
        = (b.schema.mentions.filter fun n => b.Unknown n).map Name.undeclaredType
      ∧ ∀ n, n ∈ b.schema.mentions ↔
        (∃ r ∈ b.schema.rules, ∃ c, r.targets.head? = some c
            ∧ ¬ (c.isArray = false ∧ c.type.text = anyArray) ∧ c.type = n)
          ∨ ∃ list, b.schema.FieldList list ∧ ∃ f, .field f ∈ list ∧ f.type.base = .named n := by
  refine ⟨by rw [b.filter_findings_mentions, b.flatMap_typeFindings], fun n => ?_⟩
  rw [Schema.mentions, List.mem_append, List.mem_flatMap,
    Schema.mem_flatMap_outerLists FieldItem.mem_mentions]
  simp only [RuleDecl.mem_mentions]

end RpcSchema
