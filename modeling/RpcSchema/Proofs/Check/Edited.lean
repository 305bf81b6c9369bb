import RpcSchema.Bundle.Version
import RpcSchema.Check.Bundle
import RpcSchema.Proofs.Bundle.Index
import RpcSchema.Proofs.Schema.Editing

/-!
# What edits do to findings

No check looks at a place, at the text of a docstring or at the path of an import.  Places are only
put into findings; so an edit of a schema is made in its findings too, and what else is found stays
the same (`Edit.findings_schema`).  The same goes for the version rule
(`Edit.versionFinding?_schema`).

The proof goes along the checks, from the mention of a name up: each check of an edited node finds the
edited findings.  Where a check looks a name up, the edited bundle holds the edited declaration.
-/

namespace RpcSchema

namespace Edit

variable (e : Edit)

/-- The edit of a fault: some faults cite a place. -/
def fault : Fault → Fault
  | .versionRepeated first => .versionRepeated (e.span first)
  | .redeclared kind name first => .redeclared kind name (e.span first)
  | .keyRepeated key first => .keyRepeated key (e.span first)
  | .fieldRepeated name first => .fieldRepeated name (e.span first)
  | f => f

/-- The edit of a finding. -/
def finding (f : Finding) : Finding := ⟨e.span f.span, e.fault f.fault⟩

/-- The edit of a declared name. -/
def declaredName (d : DeclaredName) : DeclaredName := { d with name := e.name d.name }

/-- The edit of a fault with its place. -/
def located (l : Located) : Located := (e.span l.1, e.fault l.2)

variable {e} {s : Schema}

/-! ## Looking names up -/

lemma getElem?_firstByName_map {ι κ : Type} {f : Declaration ι → Declaration κ}
    (hname : ∀ d, (f d).name.text = d.name.text) (decls : List (Declaration ι)) (name : String) :
    (firstByName (decls.map f))[name]? = (firstByName decls)[name]?.map f := by
  rw [getElem?_firstByName, getElem?_firstByName, List.find?_map]
  simp only [Function.comp_def, hname]

lemma getElem?_rules (name : String) : (Bundle.ofSchema (e.schema s)).rules[name]?
    = (Bundle.ofSchema s).rules[name]?.map e.ruleDecl := by
  rw [Bundle.ofSchema, rules_schema]
  exact getElem?_firstByName_map (f := e.ruleDecl) (fun _ => rfl) s.rules name

lemma getElem?_types (name : String) : (Bundle.ofSchema (e.schema s)).types[name]?
    = (Bundle.ofSchema s).types[name]?.map e.typeDecl := by
  rw [Bundle.ofSchema, types_schema]
  exact getElem?_firstByName_map (f := e.typeDecl) (fun _ => rfl) s.types name

lemma contains_types (name : String) : (Bundle.ofSchema (e.schema s)).types.contains name
    = (Bundle.ofSchema s).types.contains name := by
  rw [← Std.ExtTreeMap.isSome_getElem?_eq_contains, ← Std.ExtTreeMap.isSome_getElem?_eq_contains,
    getElem?_types, Option.isSome_map]

/-! ## Names -/

lemma repeatedFrom?_map (earlier : List Name) (n : Name) :
    repeatedFrom? (earlier.map e.name) (e.name n) = (repeatedFrom? earlier n).map e.name := by
  rw [repeatedFrom?, List.find?_map]
  rfl

/-- A fault that cites no place stays as it is. -/
lemma map_finding_ite {p : Prop} [Decidable p] {f : Fault} (h : e.fault f = f) (span : Span) :
    (if p then [f] else []).map (Finding.mk (e.span span))
      = ((if p then [f] else []).map (Finding.mk span)).map e.finding := by
  split
  · rw [List.map_singleton, List.map_singleton, List.map_singleton, finding, h]
  · rfl

lemma findings_declaredName (settings : Settings) (earlier : List DeclaredName) (d : DeclaredName) :
    (e.declaredName d).findings settings (earlier.map e.declaredName)
      = (d.findings settings earlier).map e.finding := by
  have hearlier : ((earlier.map e.declaredName).filter (·.kind = d.kind)).map (·.name)
      = ((earlier.filter (·.kind = d.kind)).map (·.name)).map e.name := by
    rw [List.filter_map, List.map_map, List.map_map]
    rfl
  rw [DeclaredName.findings, DeclaredName.findings]
  simp only [show (e.declaredName d).kind = d.kind from rfl,
    show (e.declaredName d).name = e.name d.name from rfl, hearlier, repeatedFrom?_map]
  simp only [List.map_append]
  congr 1
  · congr 1
    · cases repeatedFrom? ((earlier.filter (·.kind = d.kind)).map (·.name)) d.name <;> rfl
    · exact map_finding_ite rfl d.name.span
  · exact map_finding_ite rfl d.name.span

lemma nameFindings_map (settings : Settings) (names : List DeclaredName) :
    ∀ earlier : List DeclaredName,
      nameFindings settings (earlier.map e.declaredName) (names.map e.declaredName)
        = (nameFindings settings earlier names).map e.finding := by
  induction names with
  | nil => intro earlier; rfl
  | cons d rest ih =>
      intro earlier
      have hrest := ih (earlier ++ [d])
      rw [List.map_append, List.map_singleton] at hrest
      rw [List.map_cons, nameFindings, nameFindings, findings_declaredName, hrest, List.map_append]

lemma nameFindings_schema (settings : Settings) (s : Schema) :
    (e.schema s).nameFindings settings = (s.nameFindings settings).map e.finding := by
  have hdeclared : (s.statements.map e.statement).filterMap Statement.declares?
      = (s.statements.filterMap Statement.declares?).map e.declaredName :=
    filterMap_map_comm (fun t => by cases t <;> rfl) s.statements
  rw [Schema.nameFindings, Schema.nameFindings, schema, hdeclared]
  exact nameFindings_map settings _ []

lemma typeFindings_name (n : Name) : (Bundle.ofSchema (e.schema s)).typeFindings (e.name n)
    = ((Bundle.ofSchema s).typeFindings n).map e.finding := by
  rw [Bundle.typeFindings, Bundle.typeFindings, contains_types, name]
  split <;> rfl

/-! ## Uses of rules -/

lemma name_fieldBase (base : FieldBase) : (e.fieldBase base).name = base.name := by cases base <;> rfl

lemma singleArgumentFault?_ruleUse (typeName : String) (u : RuleUse) :
    singleArgumentFault? typeName (e.ruleUse u) = (singleArgumentFault? typeName u).map e.located := by
  obtain ⟨span, name, argument, error⟩ := u
  rcases argument with _ | (l | ⟨span, items⟩)
  · rfl
  · simp only [singleArgumentFault?, ruleUse, Option.map_some, argument, literal]
    split <;> rfl
  · rfl

lemma all_fits (items : List Literal) (typeName : String) :
    (items.map e.literal).all (·.value.fits typeName) = items.all (·.value.fits typeName) := by
  rw [List.all_map]
  rfl

lemma valuesArgumentFault?_ruleUse (typeName : String) (u : RuleUse) :
    valuesArgumentFault? typeName (e.ruleUse u) = (valuesArgumentFault? typeName u).map e.located := by
  obtain ⟨span, name, argument, error⟩ := u
  rcases argument with _ | (l | ⟨span, items⟩)
  · rfl
  · rfl
  · simp only [valuesArgumentFault?, ruleUse, Option.map_some, argument, List.isEmpty_map, all_fits]
    split
    · rfl
    · split <;> rfl

lemma standardArgumentFault?_ruleUse (parameter : Parameter) (typeName : String) (u : RuleUse) :
    standardArgumentFault? parameter typeName (e.ruleUse u)
      = (standardArgumentFault? parameter typeName u).map e.located := by
  cases parameter with
  | none =>
      obtain ⟨span, name, argument, error⟩ := u
      rcases argument with _ | (l | ⟨span, items⟩) <;> rfl
  | values => exact valuesArgumentFault?_ruleUse typeName u
  | _ => exact singleArgumentFault?_ruleUse _ u

lemma targets_ruleDecl (r : RuleDecl) :
    Declaration.targets (e.ruleDecl r) = (Declaration.targets r).map e.typeClause :=
  filterMap_map_comm (fun item => by cases item <;> rfl) r.items

lemma params_ruleDecl (r : RuleDecl) :
    Declaration.params (e.ruleDecl r) = (Declaration.params r).map e.typeClause :=
  filterMap_map_comm (fun item => by cases item <;> rfl) r.items

lemma errors_ruleDecl (r : RuleDecl) :
    Declaration.errors (e.ruleDecl r) = (Declaration.errors r).map e.errorClause :=
  filterMap_map_comm (fun item => by cases item <;> rfl) r.items

lemma declaredArgumentFault?_ruleUse (r : RuleDecl) (u : RuleUse) :
    declaredArgumentFault? (e.ruleDecl r) (e.ruleUse u)
      = (declaredArgumentFault? r u).map e.located := by
  have htakes : ∀ (c : TypeClause) (a : Argument),
      (e.typeClause c).takes (e.argument a) = c.takes a := by
    intro c a
    cases a with
    | single l => rfl
    | array span items => exact congrArg (c.isArray && ·) (all_fits items c.type.text)
  obtain ⟨span, name, argument, error⟩ := u
  rw [declaredArgumentFault?, declaredArgumentFault?, params_ruleDecl, List.head?_map]
  simp only [ruleUse]
  rcases (Declaration.params r).head? with _ | c <;> rcases argument with _ | a
  · rfl
  · cases a <;> rfl
  · rfl
  · simp only [Option.map_some, htakes]
    split
    · rfl
    · cases a <;> rfl

lemma useFault?_ruleUse (base : FieldBase) (isArray : Bool) (u : RuleUse) :
    (Bundle.ofSchema (e.schema s)).useFault? (e.fieldBase base) isArray (e.ruleUse u)
      = ((Bundle.ofSchema s).useFault? base isArray u).map e.located := by
  have hname : (e.ruleUse u).name.text = u.name.text := rfl
  rw [Bundle.useFault?, Bundle.useFault?]
  simp only [hname, name_fieldBase, getElem?_rules]
  cases StandardRule.find? u.name.text with
  | some rule =>
      simp only
      split
      · exact standardArgumentFault?_ruleUse rule.parameter base.name u
      · rfl
  | none =>
      cases (Bundle.ofSchema s).rules[u.name.text]? with
      | none => rfl
      | some rule =>
          simp only [Option.map_some, targets_ruleDecl, List.head?_map]
          cases (Declaration.targets rule).head? with
          | none => rfl
          | some target =>
              have hcovers : (e.typeClause target).covers base.name isArray
                = target.covers base.name isArray := rfl
              simp only [Option.map_some, hcovers]
              split
              · exact declaredArgumentFault?_ruleUse rule u
              · rfl

lemma useFindings_map (base : FieldBase) (isArray : Bool) (uses : List RuleUse) :
    (Bundle.ofSchema (e.schema s)).useFindings (e.fieldBase base) isArray (uses.map e.ruleUse)
      = ((Bundle.ofSchema s).useFindings base isArray uses).map e.finding := by
  rw [Bundle.useFindings, Bundle.useFindings, List.filterMap_map, List.map_map]
  have hfaults : (Bundle.ofSchema (e.schema s)).useFault? (e.fieldBase base) isArray ∘ e.ruleUse
      = fun u => ((Bundle.ofSchema s).useFault? base isArray u).map e.located :=
    funext fun u => useFault?_ruleUse base isArray u
  rw [hfaults, ← List.map_filterMap, List.map_map]
  rfl

/-! ## Bodies -/

lemma fieldNameFindings_map (earlier : List Name) (n : Name) :
    fieldNameFindings (earlier.map e.name) (e.name n)
      = (fieldNameFindings earlier n).map e.finding := by
  rw [fieldNameFindings, fieldNameFindings, repeatedFrom?_map]
  cases repeatedFrom? earlier n <;> rfl

mutual

lemma baseFindings_fieldBase : ∀ base : FieldBase,
    (Bundle.ofSchema (e.schema s)).baseFindings (e.fieldBase base)
      = ((Bundle.ofSchema s).baseFindings base).map e.finding
  | .named n => by rw [fieldBase, Bundle.baseFindings, Bundle.baseFindings, typeFindings_name]
  | .object items => by
      rw [fieldBase, Bundle.baseFindings, Bundle.baseFindings, ← fieldFindings_fieldItems items []]
      rfl

lemma fieldFindings_fieldItems : ∀ (items : List FieldItem) (earlier : List Name),
    (Bundle.ofSchema (e.schema s)).fieldFindings (earlier.map e.name) (e.fieldItems items)
      = ((Bundle.ofSchema s).fieldFindings earlier items).map e.finding
  | [], _ => rfl
  | .field ⟨_, _, name, _, ⟨_, base, isArray⟩, rules⟩ :: rest, earlier => by
      have hrest := fieldFindings_fieldItems rest (earlier ++ [name])
      rw [List.map_append, List.map_singleton] at hrest
      rw [fieldItems, Bundle.fieldFindings, Bundle.fieldFindings, fieldNameFindings_map,
        baseFindings_fieldBase base, useFindings_map, hrest, List.map_append, List.map_append,
        List.map_append]
  | .comment _ :: rest, earlier => by
      rw [fieldItems, Bundle.fieldFindings, Bundle.fieldFindings, fieldFindings_fieldItems rest]
  | .docstring _ :: rest, earlier => by
      rw [fieldItems, Bundle.fieldFindings, Bundle.fieldFindings, fieldFindings_fieldItems rest]

end

lemma repeatedClauses_map (rule : Name) (clause : ClauseKind) (spans : List Span) :
    repeatedClauses (e.name rule) clause (spans.map e.span)
      = (repeatedClauses rule clause spans).map e.finding := by
  rw [repeatedClauses, repeatedClauses, ← List.map_drop, List.map_map, List.map_map]
  rfl

lemma targetFindings_ruleDecl (r : RuleDecl) :
    (Bundle.ofSchema (e.schema s)).targetFindings (e.ruleDecl r)
      = ((Bundle.ofSchema s).targetFindings r).map e.finding := by
  rw [Bundle.targetFindings, Bundle.targetFindings, targets_ruleDecl, List.head?_map]
  cases (Declaration.targets r).head? with
  | none => rfl
  | some c =>
      have htype : (Bundle.ofSchema (e.schema s)).typeFindings (e.typeClause c).type
          = ((Bundle.ofSchema s).typeFindings c.type).map e.finding := typeFindings_name c.type
      simp only [Option.map_some, htype, apply_ite (List.map e.finding)]
      rfl

lemma paramFindings_ruleDecl (r : RuleDecl) :
    paramFindings (e.ruleDecl r) = (paramFindings r).map e.finding := by
  rw [paramFindings, paramFindings, params_ruleDecl, List.head?_map]
  cases (Declaration.params r).head? with
  | none => rfl
  | some c =>
      simp only [Option.map_some, typeClause, name]
      split <;> rfl

lemma ruleFindings_ruleDecl (r : RuleDecl) :
    (Bundle.ofSchema (e.schema s)).ruleFindings (e.ruleDecl r)
      = ((Bundle.ofSchema s).ruleFindings r).map e.finding := by
  have hclause : ∀ cs : List TypeClause,
      (cs.map e.typeClause).map (·.span) = (cs.map (·.span)).map e.span := by simp [typeClause]
  have herror : ∀ cs : List ErrorClause,
      (cs.map e.errorClause).map (·.span) = (cs.map (·.span)).map e.span := by simp [errorClause]
  have hname : (e.ruleDecl r).name = e.name r.name := rfl
  rw [Bundle.ruleFindings, Bundle.ruleFindings, targetFindings_ruleDecl, paramFindings_ruleDecl,
    targets_ruleDecl, params_ruleDecl, errors_ruleDecl, hname, hclause, hclause, herror,
    repeatedClauses_map, repeatedClauses_map, repeatedClauses_map]
  simp only [List.map_append]

lemma keyFindings_map (entries : List MetaEntry) : ∀ earlier : List Name,
    keyFindings (earlier.map e.name) (entries.map e.metaEntry)
      = (keyFindings earlier entries).map e.finding := by
  induction entries with
  | nil => intro earlier; rfl
  | cons entry rest ih =>
      intro earlier
      have hrest := ih (earlier ++ [entry.key])
      rw [List.map_append, List.map_singleton] at hrest
      rw [List.map_cons, keyFindings, keyFindings, List.map_append]
      simp only [metaEntry, repeatedFrom?_map, hrest]
      cases repeatedFrom? earlier entry.key <;> rfl

lemma blockFindings_procItem (item : ProcItem) :
    (Bundle.ofSchema (e.schema s)).blockFindings (e.procItem item)
      = ((Bundle.ofSchema s).blockFindings item).map e.finding := by
  cases item with
  | input b => exact fieldFindings_fieldItems b.items []
  | output b => exact fieldFindings_fieldItems b.items []
  | metadata b =>
      have hentries : (e.metaBlock b).entries = b.entries.map e.metaEntry :=
        filterMap_map_comm (fun item => by cases item <;> rfl) b.items
      rw [procItem, Bundle.blockFindings, Bundle.blockFindings, hentries]
      exact keyFindings_map b.entries []
  | comment c => rfl

lemma procItemFindings_map (kind : DeclKind) (n : Name) (items : List ProcItem) :
    ∀ earlier : List BlockKind,
      (Bundle.ofSchema (e.schema s)).procItemFindings kind (e.name n) earlier (items.map e.procItem)
        = ((Bundle.ofSchema s).procItemFindings kind n earlier items).map e.finding := by
  induction items with
  | nil => intro earlier; rfl
  | cons item rest ih =>
      intro earlier
      have hblock : (e.procItem item).block? = item.block?.map (Prod.map id e.span) := by
        cases item <;> rfl
      rw [List.map_cons, Bundle.procItemFindings, Bundle.procItemFindings, hblock,
        blockFindings_procItem, List.map_append, List.map_append, ← ih]
      rcases item.block? with _ | ⟨block, span⟩
      · rfl
      · simp only [Option.map_some, Option.toList_some, Prod.map, List.filter_singleton, name, id]
        cases earlier.contains block <;> rfl

lemma serviceFindings_statement (t : Statement) :
    (Bundle.ofSchema (e.schema s)).serviceFindings (e.statement t)
      = ((Bundle.ofSchema s).serviceFindings t).map e.finding := by
  cases t with
  | proc p => exact procItemFindings_map .proc p.name p.items []
  | stream p => exact procItemFindings_map .stream p.name p.items []
  | _ => rfl

/-! ## Circles -/

mutual

lemma required_fieldBase : ∀ base : FieldBase, (e.fieldBase base).required = base.required
  | .named _ => rfl
  | .object items => by
      rw [fieldBase, FieldBase.required, FieldBase.required, required_fieldItems items]

lemma required_fieldItems : ∀ items : List FieldItem,
    FieldItem.required (e.fieldItems items) = FieldItem.required items
  | [] => rfl
  | .field ⟨_, _, _, _, ⟨_, base, _⟩, _⟩ :: rest => by
      rw [fieldItems, FieldItem.required, FieldItem.required, required_fieldBase base,
        required_fieldItems rest]
  | .comment _ :: rest => by
      rw [fieldItems, FieldItem.required, FieldItem.required, required_fieldItems rest]
  | .docstring _ :: rest => by
      rw [fieldItems, FieldItem.required, FieldItem.required, required_fieldItems rest]

end

lemma requires_schema : (Bundle.ofSchema (e.schema s)).requires = (Bundle.ofSchema s).requires := by
  funext name
  rw [Bundle.requires, Bundle.requires, getElem?_types]
  cases (Bundle.ofSchema s).types[name]? with
  | none => rfl
  | some d =>
      have hitems : (e.typeDecl d).items = e.fieldItems d.items := rfl
      simp only [Option.map_some, hitems, required_fieldItems, contains_types]

lemma circularityFindings_schema : (Bundle.ofSchema (e.schema s)).circularityFindings
    = (Bundle.ofSchema s).circularityFindings.map e.finding := by
  have hnames : (e.schema s).types.map (·.name.text) = s.types.map (·.name.text) := by
    rw [types_schema, List.map_map]
    rfl
  have hcircles : (Bundle.ofSchema (e.schema s)).circles = (Bundle.ofSchema s).circles := by
    rw [Bundle.circles, Bundle.circles, requires_schema]
    simp only [show ∀ t : Schema, (Bundle.ofSchema t).schema = t from fun _ => rfl, hnames]
  rw [Bundle.circularityFindings, Bundle.circularityFindings, hcircles, List.map_filterMap]
  congr 1
  funext chain
  rw [Bundle.circleFinding?, Bundle.circleFinding?]
  cases chain.head? with
  | none => rfl
  | some first =>
      simp only [Option.bind_eq_bind, Option.bind_some, getElem?_types]
      cases (Bundle.ofSchema s).types[first]? <;> rfl

/-! ## The version rule -/

lemma versionFinding?_map (supported : Int) (ts : List Statement) :
    ∀ (stated : Option Span) (declared : Bool),
      versionFinding? supported (stated.map e.span) declared (ts.map e.statement)
        = (versionFinding? supported stated declared ts).map e.finding := by
  induction ts with
  | nil => intro stated declared; rfl
  | cons t rest ih =>
      intro stated declared
      cases t with
      | version v =>
          have hrest := ih (some v.span) declared
          cases stated with
          | some first => rfl
          | none =>
              simp only [List.map_cons, statement, versionFinding?, Option.map_none,
                apply_ite (Option.map e.finding), ← hrest]
              rfl
      | _ => exact ih stated _

/-- An edited schema breaks the version rule where the schema does. -/
lemma versionFinding?_schema (s : Schema) (supported : Int) :
    (e.schema s).versionFinding? supported = (s.versionFinding? supported).map e.finding :=
  versionFinding?_map supported s.statements none false

/-! ## All together -/

/-- **What an edit does to findings.**  What is found in an edited schema is what is found in the
schema, with its places edited. -/
theorem findings_schema (settings : Settings) (s : Schema) :
    (Bundle.ofSchema (e.schema s)).findings settings
      = ((Bundle.ofSchema s).findings settings).map e.finding := by
  have hschema : ∀ t : Schema, (Bundle.ofSchema t).schema = t := fun _ => rfl
  have htypes : ∀ d : TypeDecl, (Bundle.ofSchema (e.schema s)).fieldFindings [] (e.typeDecl d).items
      = ((Bundle.ofSchema s).fieldFindings [] d.items).map e.finding :=
    fun d => fieldFindings_fieldItems d.items []
  have hstatements : (e.schema s).statements = s.statements.map e.statement := rfl
  rw [Bundle.findings, Bundle.findings, hschema, hschema, nameFindings_schema,
    circularityFindings_schema, rules_schema, types_schema, hstatements]
  simp only [List.flatMap_map, List.map_append, List.map_flatMap, ruleFindings_ruleDecl, htypes,
    serviceFindings_statement]

/-- Something is found in an edited schema if something is found in the schema. -/
lemma findings_schema_eq_nil_iff {settings : Settings} :
    (Bundle.ofSchema (e.schema s)).findings settings = []
      ↔ (Bundle.ofSchema s).findings settings = [] := by
  rw [findings_schema, List.map_eq_nil_iff]

end Edit

end RpcSchema
