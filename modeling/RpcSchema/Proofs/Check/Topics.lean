import RpcSchema.Proofs.Check.Levels

/-!
# What findings are about

The findings of a check come in one list.  What a finding is about can be told from its fault alone
(`Fault.topic`), and every part of the check makes findings about a few topics only.  So the findings
about one topic can be picked out of the list part by part: where a part does not make them nothing is
picked (`filter_eq_nil_of_topics`), and what is left are the parts that do.

* `MadeOf` says which topics some findings are about; there is one lemma for each part of the check.
* `Bundle.filter_findings_of_topic` picks the findings about one topic out of those of a bundle, and
  `Bundle.filter_findings_of_fields` leads what is found in fields back to the outer lists.
-/

namespace RpcSchema

/-- What a finding can be about. -/
inductive Topic where
  /-- Reading and loading files. -/
  | loading
  /-- A name that is declared again. -/
  | redeclaration
  /-- A rule with the name of a standard rule. -/
  | standardName
  | casing
  /-- The mention of a type that is not known. -/
  | undeclaredType
  /-- A rule that does not say what it applies to. -/
  | target
  /-- A clause of a rule that is written again. -/
  | repeatedClause
  | paramType
  /-- A block of a procedure or stream that is written again. -/
  | repeatedBlock
  /-- A key of metadata that is written again. -/
  | repeatedKey
  /-- A field of a list that is written again. -/
  | repeatedField
  /-- The use of a rule that does not apply to the type of the field. -/
  | applicability
  /-- The use of a rule on a field, otherwise. -/
  | use
  | circle
deriving DecidableEq

/-- What a fault is about. -/
def Fault.topic : Fault → Topic
  | .redeclared .. => .redeclaration
  | .standardRedeclared _ => .standardName
  | .casing .. => .casing
  | .typeUndeclared _ => .undeclaredType
  | .targetMissing _ => .target
  | .clauseRepeated .. => .repeatedClause
  | .paramType .. => .paramType
  | .blockRepeated .. => .repeatedBlock
  | .keyRepeated .. => .repeatedKey
  | .fieldRepeated .. => .repeatedField
  | .notApplicable .. => .applicability
  | .ruleUndeclared _ | .argumentUnwanted _ | .argumentMissing _
  | .argumentEmpty _ | .argumentValues .. | .argumentKind .. | .argumentType .. => .use
  | .circular _ => .circle
  | _ => .loading

/-- Whether a finding is about a topic. -/
def Finding.isAbout (topic : Topic) (f : Finding) : Bool := f.fault.topic = topic

/-- All findings of a list are about one of the topics. -/
def MadeOf (topics : List Topic) (fs : List Finding) : Prop := ∀ f ∈ fs, f.fault.topic ∈ topics

section

variable {topic : Topic} {topics topics' : List Topic} {fs gs : List Finding}

lemma MadeOf.nil : MadeOf topics [] := nofun

lemma MadeOf.append (h : MadeOf topics fs) (h' : MadeOf topics gs) : MadeOf topics (fs ++ gs) :=
  fun f hf => (List.mem_append.1 hf).elim (h f) (h' f)

lemma MadeOf.mono (h : MadeOf topics fs) (hsub : topics ⊆ topics') : MadeOf topics' fs :=
  fun f hf => hsub (h f hf)

lemma topic_of_isAbout (f : Finding) (h : f.isAbout topic = true) : f.fault.topic = topic :=
  of_decide_eq_true h

/-- Nothing is picked out of findings that are about other topics. -/
lemma filter_eq_nil_of_topics {p : Finding → Bool} (hp : ∀ f, p f = true → f.fault.topic = topic)
    (h : MadeOf topics fs) (hne : topic ∉ topics) : fs.filter p = [] :=
  List.filter_eq_nil_iff.2 fun f hf hpf => hne (hp f hpf ▸ h f hf)

lemma filter_map_eq_nil {α : Type} {p : Finding → Bool} (hp : ∀ f, p f = true → f.fault.topic = topic)
    {finding : α → Finding} (h : ∀ a, (finding a).fault.topic ≠ topic) (as : List α) :
    (as.map finding).filter p = [] := by
  refine List.filter_eq_nil_iff.2 fun f hf hpf => ?_
  obtain ⟨a, _, rfl⟩ := List.mem_map.1 hf
  exact h a (hp _ hpf)

lemma filter_isAbout_eq_nil (h : MadeOf topics fs) (hne : topic ∉ topics) :
    fs.filter (Finding.isAbout topic) = [] :=
  filter_eq_nil_of_topics topic_of_isAbout h hne

lemma flatMap_filter_isAbout_eq_nil {α : Type} {findings : α → List Finding}
    (h : ∀ a, MadeOf topics (findings a)) (hne : topic ∉ topics) (as : List α) :
    as.flatMap (fun a => (findings a).filter (Finding.isAbout topic)) = [] :=
  List.flatMap_eq_nil_iff.2 fun a _ => filter_isAbout_eq_nil (h a) hne

/-- Findings about one topic only are all picked. -/
lemma filter_isAbout_eq_self (h : MadeOf [topic] fs) : fs.filter (Finding.isAbout topic) = fs :=
  List.filter_eq_self.2 fun f hf => decide_eq_true (List.mem_singleton.1 (h f hf))

end

/-! ## Names -/

lemma madeOf_findings (settings : Settings) (earlier : List DeclaredName) (d : DeclaredName) :
    MadeOf [.redeclaration, .standardName, .casing] (d.findings settings earlier) := by
  intro f hf
  simp only [DeclaredName.findings, List.mem_map, List.mem_append, Option.mem_toList,
    Option.map_eq_some_iff] at hf
  obtain ⟨fault, (⟨_, _, rfl⟩ | hstandard) | hcasing, rfl⟩ := hf
  · exact List.mem_cons_self
  · split at hstandard
    · rw [List.mem_singleton.1 hstandard]
      exact List.mem_cons_of_mem _ List.mem_cons_self
    · cases hstandard
  · split at hcasing
    · rw [List.mem_singleton.1 hcasing]
      exact List.mem_cons_of_mem _ (List.mem_cons_of_mem _ List.mem_cons_self)
    · cases hcasing

lemma madeOf_nameFindings (settings : Settings) (earlier declared : List DeclaredName) :
    MadeOf [.redeclaration, .standardName, .casing] (nameFindings settings earlier declared) := by
  induction declared generalizing earlier with
  | nil => exact .nil
  | cons d rest ih => exact (madeOf_findings settings earlier d).append (ih _)

/-! ## Bodies -/

lemma Bundle.madeOf_typeFindings (b : Bundle) (n : Name) : MadeOf [.undeclaredType] (b.typeFindings n) := by
  intro f hf
  rw [typeFindings] at hf
  split at hf
  · cases hf
  · rw [List.mem_singleton.1 hf]
    exact List.mem_cons_self

lemma madeOf_fieldNameFindings (earlier : List Name) (n : Name) :
    MadeOf [.repeatedField] (fieldNameFindings earlier n) := by
  intro f hf
  obtain ⟨first, _, rfl⟩ := List.mem_map.1 hf
  exact List.mem_cons_self

lemma topic_singleArgumentFault? {name : String} {u : RuleUse} {found : Located}
    (h : singleArgumentFault? name u = some found) : found.2.topic = .use := by
  rw [singleArgumentFault?] at h
  split at h
  · cases h; rfl
  · split at h <;> cases h
    rfl
  · cases h; rfl

lemma topic_standardArgumentFault? {parameter : Parameter} {name : String} {u : RuleUse}
    {found : Located} (h : standardArgumentFault? parameter name u = some found) :
    found.2.topic = .use := by
  cases parameter with
  | none =>
      obtain ⟨_, _, rfl⟩ := Option.map_eq_some_iff.1 h
      rfl
  | values =>
      rw [standardArgumentFault?, valuesArgumentFault?] at h
      split at h
      · cases h; rfl
      · split at h
        · cases h; rfl
        · split at h <;> cases h
          rfl
      · cases h; rfl
  | _ => exact topic_singleArgumentFault? h

lemma topic_declaredArgumentFault? {rule : RuleDecl} {u : RuleUse} {found : Located}
    (h : declaredArgumentFault? rule u = some found) : found.2.topic = .use := by
  rw [declaredArgumentFault?] at h
  split at h
  · cases h
  · cases h; rfl
  · cases h; rfl
  · split at h <;> cases h
    rfl

lemma Bundle.topic_useFault? {b : Bundle} {base : FieldBase} {isArray : Bool} {u : RuleUse} {found : Located}
    (h : b.useFault? base isArray u = some found) :
    found.2.topic = .applicability ∨ found.2.topic = .use := by
  rw [useFault?] at h
  split at h
  · split at h
    · exact Or.inr (topic_standardArgumentFault? h)
    · cases h; exact Or.inl rfl
  · split at h
    · cases h; exact Or.inr rfl
    · split at h
      · cases h
      · split at h
        · exact Or.inr (topic_declaredArgumentFault? h)
        · cases h; exact Or.inl rfl

lemma Bundle.madeOf_useFindings (b : Bundle) (base : FieldBase) (isArray : Bool) (uses : List RuleUse) :
    MadeOf [.applicability, .use] (b.useFindings base isArray uses) := by
  intro f hf
  obtain ⟨found, hfound, rfl⟩ := List.mem_map.1 hf
  obtain ⟨u, _, hfault⟩ := List.mem_filterMap.1 hfound
  exact List.mem_pair.2 (topic_useFault? hfault)

mutual

lemma Bundle.madeOf_baseFindings (b : Bundle) : ∀ base : FieldBase,
    MadeOf [.repeatedField, .undeclaredType, .applicability, .use] (b.baseFindings base)
  | .named n => (b.madeOf_typeFindings n).mono (by simp)
  | .object items => by
      rw [baseFindings]
      exact b.madeOf_fieldFindings [] items

lemma Bundle.madeOf_fieldFindings (b : Bundle) (earlier : List Name) : ∀ items : List FieldItem,
    MadeOf [.repeatedField, .undeclaredType, .applicability, .use] (b.fieldFindings earlier items)
  | [] => .nil
  | .field ⟨_, _, name, _, ⟨_, base, isArray⟩, rules⟩ :: rest => by
      rw [fieldFindings]
      refine MadeOf.append (MadeOf.append (MadeOf.append ?_ (b.madeOf_baseFindings base)) ?_)
        (b.madeOf_fieldFindings _ rest)
      · exact (madeOf_fieldNameFindings earlier name).mono (by simp)
      · exact (b.madeOf_useFindings base isArray rules).mono (by simp)
  | .comment _ :: rest => b.madeOf_fieldFindings earlier rest
  | .docstring _ :: rest => b.madeOf_fieldFindings earlier rest

end

lemma madeOf_repeatedClauses (rule : Name) (clause : ClauseKind) (spans : List Span) :
    MadeOf [.repeatedClause] (repeatedClauses rule clause spans) := by
  intro f hf
  obtain ⟨span, _, rfl⟩ := List.mem_map.1 hf
  exact List.mem_cons_self

lemma Bundle.madeOf_targetFindings (b : Bundle) (rule : RuleDecl) :
    MadeOf [.target, .undeclaredType] (b.targetFindings rule) := by
  rw [targetFindings]
  split
  · intro f hf
    rw [List.mem_singleton.1 hf]
    exact List.mem_cons_self
  · split
    · exact .nil
    · exact (b.madeOf_typeFindings _).mono (by simp)

lemma madeOf_paramFindings (rule : RuleDecl) : MadeOf [.paramType] (paramFindings rule) := by
  rw [paramFindings]
  split
  · exact .nil
  · split
    · exact .nil
    · intro f hf
      rw [List.mem_singleton.1 hf]
      exact List.mem_cons_self

lemma Bundle.madeOf_ruleFindings (b : Bundle) (rule : RuleDecl) :
    MadeOf [.target, .undeclaredType, .repeatedClause, .paramType] (b.ruleFindings rule) := by
  rw [ruleFindings]
  refine MadeOf.append (MadeOf.append (MadeOf.append (MadeOf.append ?_ ?_) ?_) ?_) ?_
  · exact (b.madeOf_targetFindings rule).mono (by simp)
  · exact (madeOf_repeatedClauses _ _ _).mono (by simp)
  · exact (madeOf_paramFindings rule).mono (by simp)
  · exact (madeOf_repeatedClauses _ _ _).mono (by simp)
  · exact (madeOf_repeatedClauses _ _ _).mono (by simp)

lemma madeOf_keyFindings (earlier : List Name) (entries : List MetaEntry) :
    MadeOf [.repeatedKey] (keyFindings earlier entries) := by
  induction entries generalizing earlier with
  | nil => exact .nil
  | cons e rest ih =>
      refine MadeOf.append (fun f hf => ?_) (ih _)
      obtain ⟨first, _, rfl⟩ := List.mem_map.1 hf
      exact List.mem_cons_self

/-- What is wrong with procedures and streams is what is wrong inside their blocks, and blocks that are
written again. -/
lemma Bundle.filter_procItemFindings (b : Bundle) {p : Finding → Bool} {topic : Topic}
    (hp : ∀ f, p f = true → f.fault.topic = topic) (hne : topic ≠ .repeatedBlock)
    (kind : DeclKind) (name : Name) (earlier : List BlockKind) (items : List ProcItem) :
    (b.procItemFindings kind name earlier items).filter p
      = items.flatMap fun item => (b.blockFindings item).filter p := by
  induction items generalizing earlier with
  | nil => rfl
  | cons item rest ih =>
      rw [procItemFindings, List.filter_append, List.filter_append, ih, List.flatMap_cons,
        filter_map_eq_nil hp fun _ => ?_, List.nil_append]
      exact hne.symm

/-- What is found about one topic in procedures and streams is found inside their blocks, unless it is
that a block is written again. -/
lemma Bundle.filter_flatMap_serviceFindings (b : Bundle) {p : Finding → Bool} {topic : Topic}
    (hp : ∀ f, p f = true → f.fault.topic = topic) (hne : topic ≠ .repeatedBlock) (s : Schema) :
    (s.statements.flatMap b.serviceFindings).filter p
      = s.procItems.flatMap fun item => (b.blockFindings item).filter p := by
  rw [List.filter_flatMap, Schema.procItems, List.flatMap_assoc]
  refine List.flatMap_congr fun statement _ => ?_
  cases statement with
  | proc d => exact b.filter_procItemFindings hp hne .proc d.name [] d.items
  | stream d => exact b.filter_procItemFindings hp hne .stream d.name [] d.items
  | _ => rfl

lemma Bundle.madeOf_circularityFindings (b : Bundle) : MadeOf [.circle] b.circularityFindings := by
  intro f hf
  obtain ⟨chain, _, hfinding⟩ := List.mem_filterMap.1 hf
  simp only [circleFinding?, Option.bind_eq_bind, Option.pure_def, Option.bind_eq_some_iff,
    Option.some_inj] at hfinding
  obtain ⟨_, _, _, _, rfl⟩ := hfinding
  exact List.mem_cons_self

/-- What is found about one topic is found in the parts of the check, one after the other. -/
lemma Bundle.filter_findings_of_topic (b : Bundle) {p : Finding → Bool} {topic : Topic}
    (hp : ∀ f, p f = true → f.fault.topic = topic) (hne : topic ≠ .repeatedBlock) (settings : Settings) :
    (b.findings settings).filter p
      = (b.schema.nameFindings settings).filter p
        ++ b.schema.rules.flatMap (fun r => (b.ruleFindings r).filter p)
        ++ b.schema.types.flatMap (fun d => (b.fieldFindings [] d.items).filter p)
        ++ b.schema.procItems.flatMap (fun item => (b.blockFindings item).filter p)
        ++ b.circularityFindings.filter p := by
  rw [findings]
  simp only [List.filter_append]
  rw [b.filter_flatMap_serviceFindings hp hne, List.filter_flatMap, List.filter_flatMap]

/-- What is found about one topic is found in names, in rules, in the lists of fields and in circles, unless
it is that a block or a key is written again. -/
lemma Bundle.filter_findings_of_fields (b : Bundle) {p : Finding → Bool} {topic : Topic}
    (hp : ∀ f, p f = true → f.fault.topic = topic)
    (hne : topic ≠ .repeatedBlock ∧ topic ≠ .repeatedKey) (settings : Settings) :
    (b.findings settings).filter p
      = (b.schema.nameFindings settings).filter p
        ++ b.schema.rules.flatMap (fun r => (b.ruleFindings r).filter p)
        ++ b.schema.outerLists.flatMap (fun items => (b.fieldFindings [] items).filter p)
        ++ b.circularityFindings.filter p := by
  have hblocks : b.schema.procItems.flatMap (fun item => (b.blockFindings item).filter p)
      = (b.schema.procItems.filterMap ProcItem.fields?).flatMap
          fun items => (b.fieldFindings [] items).filter p := by
    rw [List.filterMap_eq_flatMap_toList, List.flatMap_assoc]
    refine List.flatMap_congr fun item _ => ?_
    cases item with
    | input block => exact (List.append_nil _).symm
    | output block => exact (List.append_nil _).symm
    | metadata block =>
        exact filter_eq_nil_of_topics hp (madeOf_keyFindings [] block.entries) (by simpa using hne.2)
    | comment c => rfl
  rw [b.filter_findings_of_topic hp hne.1 settings, hblocks, Schema.outerLists, List.flatMap_append,
    List.flatMap_map, List.append_assoc _ (b.schema.types.flatMap _)]

end RpcSchema
