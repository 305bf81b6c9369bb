import RpcSchema.Proofs.Check.Reports
import RpcSchema.Proofs.Check.Topics

/-!
# The order of statements

What is wrong with a schema does not depend on the order of its statements, as long as no name is declared
twice (`Bundle.findings_of_perm`).  Of two declarations of one name it would be the second that is wrong.
Circles are another matter: they are found from the type where the search first meets them, and how many
are found depends on where the search begins.  That there is one does not.

Where no name is declared twice, each means one declaration, which is the same in both orders.  Then the
checks of bodies find the same in each body, and the types that require each other are the same.
-/

namespace RpcSchema

/-! ## What names mean -/

/-- Where names are unique, a name means a declaration if the declaration has that name. -/
lemma getElem?_firstByName_eq_some_iff {ι : Type} {decls : List (Declaration ι)}
    (unique : (decls.map (·.name.text)).Nodup) {name : String} {d : Declaration ι} :
    (firstByName decls)[name]? = some d ↔ d ∈ decls ∧ d.name.text = name := by
  constructor
  · exact mem_of_firstByName
  · rintro ⟨hmem, rfl⟩
    exact firstByName_of_mem unique hmem

/-- Where names are unique, the order of declarations makes no difference to what they mean. -/
lemma firstByName_of_perm {ι : Type} {decls decls' : List (Declaration ι)} (h : decls.Perm decls')
    (unique : (decls.map (·.name.text)).Nodup) : firstByName decls' = firstByName decls := by
  have unique' : (decls'.map (·.name.text)).Nodup := (h.map _).nodup_iff.1 unique
  refine Std.ExtTreeMap.ext_getElem? fun name => Option.ext fun d => ?_
  rw [getElem?_firstByName_eq_some_iff unique, getElem?_firstByName_eq_some_iff unique', h.mem_iff]

/-! ## Bundles in which names mean the same -/

namespace Bundle

variable {b b' : Bundle}

lemma typeFindings_congr (htypes : b'.types = b.types) (n : Name) :
    b'.typeFindings n = b.typeFindings n := by rw [typeFindings, typeFindings, htypes]

lemma useFindings_congr (hrules : b'.rules = b.rules) (base : FieldBase) (isArray : Bool)
    (uses : List RuleUse) : b'.useFindings base isArray uses = b.useFindings base isArray uses := by
  have hfault : b'.useFault? base isArray = b.useFault? base isArray := by
    funext u
    rw [useFault?, useFault?, hrules]
  rw [useFindings, useFindings, hfault]

mutual

lemma baseFindings_congr (hrules : b'.rules = b.rules) (htypes : b'.types = b.types) :
    ∀ base : FieldBase, b'.baseFindings base = b.baseFindings base
  | .named n => by rw [baseFindings, baseFindings, typeFindings_congr htypes]
  | .object items => by
      rw [baseFindings, baseFindings, fieldFindings_congr hrules htypes items]

lemma fieldFindings_congr (hrules : b'.rules = b.rules) (htypes : b'.types = b.types) :
    ∀ (items : List FieldItem) (earlier : List Name),
      b'.fieldFindings earlier items = b.fieldFindings earlier items
  | [], _ => rfl
  | .field ⟨_, _, _, _, ⟨_, base, _⟩, _⟩ :: rest, earlier => by
      rw [fieldFindings, fieldFindings, baseFindings_congr hrules htypes base,
        useFindings_congr hrules, fieldFindings_congr hrules htypes rest]
  | .comment _ :: rest, earlier => by
      rw [fieldFindings, fieldFindings, fieldFindings_congr hrules htypes rest]
  | .docstring _ :: rest, earlier => by
      rw [fieldFindings, fieldFindings, fieldFindings_congr hrules htypes rest]

end

lemma ruleFindings_congr (htypes : b'.types = b.types) (r : RuleDecl) :
    b'.ruleFindings r = b.ruleFindings r := by
  have htarget : b'.targetFindings r = b.targetFindings r := by
    rw [targetFindings, targetFindings, funext (typeFindings_congr htypes)]
  rw [ruleFindings, ruleFindings, htarget]

lemma procItemFindings_congr (hrules : b'.rules = b.rules) (htypes : b'.types = b.types)
    (kind : DeclKind) (name : Name) (items : List ProcItem) : ∀ earlier : List BlockKind,
      b'.procItemFindings kind name earlier items = b.procItemFindings kind name earlier items := by
  induction items with
  | nil => intro earlier; rfl
  | cons item rest ih =>
      intro earlier
      have hblock : b'.blockFindings item = b.blockFindings item := by
        cases item with
        | input block => exact fieldFindings_congr hrules htypes block.items []
        | output block => exact fieldFindings_congr hrules htypes block.items []
        | _ => rfl
      rw [procItemFindings, procItemFindings, hblock, ih]

lemma serviceFindings_congr (hrules : b'.rules = b.rules) (htypes : b'.types = b.types)
    (t : Statement) : b'.serviceFindings t = b.serviceFindings t := by
  cases t with
  | proc p => exact procItemFindings_congr hrules htypes .proc p.name p.items []
  | stream p => exact procItemFindings_congr hrules htypes .stream p.name p.items []
  | _ => rfl

/-- What is found in a bundle comes from its schema and from what the names of rules and types mean. -/
lemma findings_congr (hschema : b'.schema = b.schema) (hrules : b'.rules = b.rules)
    (htypes : b'.types = b.types) (settings : Settings) :
    b'.findings settings = b.findings settings := by
  have hrequires : b'.requires = b.requires := by
    funext name
    rw [requires, requires, htypes]
  have hcircle : b'.circleFinding? = b.circleFinding? := by
    funext chain
    rw [circleFinding?, circleFinding?, htypes]
  have hfields : b'.fieldFindings = b.fieldFindings :=
    funext fun earlier => funext fun items => fieldFindings_congr hrules htypes items earlier
  rw [findings, findings, circularityFindings, circularityFindings, circles, circles, hschema,
    hrequires, hcircle, hfields, funext (ruleFindings_congr htypes),
    funext (serviceFindings_congr hrules htypes)]

end Bundle

/-! ## Names one after another -/

/-- What is wrong with a name that is apart from those before it is wrong with the name alone. -/
lemma DeclaredName.findings_of_apart {settings : Settings} {earlier : List DeclaredName}
    {d : DeclaredName} (h : ∀ e ∈ earlier, e.Apart d) :
    d.findings settings earlier = d.findings settings [] := by
  rw [findings, findings, repeatedFrom?_eq_none_iff.2 h]
  rfl

/-- Where names are apart from each other, each is checked alone. -/
lemma nameFindings_of_apart {settings : Settings} {names : List DeclaredName} :
    ∀ earlier : List DeclaredName, names.Pairwise DeclaredName.Apart →
      (∀ e ∈ earlier, ∀ d ∈ names, e.Apart d) →
      nameFindings settings earlier names = names.flatMap (·.findings settings []) := by
  induction names with
  | nil => intro earlier _ _; rfl
  | cons d rest ih =>
      intro earlier hpairwise hearlier
      obtain ⟨hd, hrest⟩ := List.pairwise_cons.1 hpairwise
      have hpassed : ∀ e ∈ earlier ++ [d], ∀ d' ∈ rest, e.Apart d' := by
        intro e he d' hd'
        rcases List.mem_append.1 he with he | he
        · exact hearlier e he d' (List.mem_cons_of_mem d hd')
        · rw [List.mem_singleton.1 he]
          exact hd d' hd'
      rw [nameFindings, ih (earlier ++ [d]) hrest hpassed, List.flatMap_cons,
        DeclaredName.findings_of_apart fun e he => hearlier e he d List.mem_cons_self]

/-! ## Circles and the rest -/

/-- What is found before circles are looked for. -/
def Bundle.partFindings (settings : Settings) (b : Bundle) : List Finding :=
  b.schema.nameFindings settings
    ++ b.schema.rules.flatMap b.ruleFindings
    ++ b.schema.types.flatMap (b.fieldFindings [] ·.items)
    ++ b.schema.statements.flatMap b.serviceFindings

lemma Bundle.findings_eq_append (settings : Settings) (b : Bundle) :
    b.findings settings = b.partFindings settings ++ b.circularityFindings := rfl

lemma Bundle.filter_not_circle_findings (settings : Settings) (b : Bundle) :
    (b.findings settings).filter (!Finding.isAbout .circle ·)
      = (b.partFindings settings).filter (!Finding.isAbout .circle ·) := by
  have hcircles : b.circularityFindings.filter (!Finding.isAbout .circle ·) = [] := by
    refine List.filter_eq_nil_iff.2 fun f hf => ?_
    have htopic := List.mem_singleton.1 (b.madeOf_circularityFindings f hf)
    simp [Finding.isAbout, htopic]
  rw [findings_eq_append, List.filter_append, hcircles, List.append_nil]

/-- Circles are found where they are looked for, and nowhere else. -/
lemma Bundle.filter_circle_findings (settings : Settings) (b : Bundle) :
    (b.findings settings).filter (Finding.isAbout .circle) = b.circularityFindings := by
  rw [b.filter_findings_of_fields topic_of_isAbout (by decide), Schema.nameFindings,
    filter_isAbout_eq_nil (madeOf_nameFindings settings [] _) (by decide),
    flatMap_filter_isAbout_eq_nil b.madeOf_ruleFindings (by decide),
    flatMap_filter_isAbout_eq_nil (b.madeOf_fieldFindings []) (by decide),
    filter_isAbout_eq_self b.madeOf_circularityFindings]
  rfl

lemma Bundle.exists_circle_iff (settings : Settings) (b : Bundle) :
    (∃ f ∈ b.findings settings, f.isAbout .circle = true) ↔ b.circularityFindings ≠ [] := by
  rw [← b.filter_circle_findings settings, Ne, List.filter_eq_nil_iff]
  push Not
  rfl

/-! ## Two orders -/

section

variable {settings : Settings} {us vs : List Statement}

lemma Schema.rules_perm (h : us.Perm vs) : (Schema.mk us).rules.Perm (Schema.mk vs).rules :=
  h.filterMap _

lemma Schema.types_perm (h : us.Perm vs) : (Schema.mk us).types.Perm (Schema.mk vs).types :=
  h.filterMap _

lemma Schema.namesOf_perm (h : us.Perm vs) (kind : DeclKind) :
    ((Schema.mk us).namesOf kind).Perm ((Schema.mk vs).namesOf kind) := by
  cases kind with
  | rule => exact (rules_perm h).map _
  | type => exact (types_perm h).map _
  | proc => exact List.Perm.map _ (h.filterMap _)
  | stream => exact List.Perm.map _ (h.filterMap _)

/-- No name is declared twice in its namespace. -/
def Schema.NamesOnce (s : Schema) : Prop := ∀ kind, ((s.namesOf kind).map (·.text)).Nodup

lemma Schema.NamesOnce.of_perm (unique : (Schema.mk us).NamesOnce) (h : us.Perm vs) :
    (Schema.mk vs).NamesOnce :=
  fun kind => ((namesOf_perm h kind).map _).nodup_iff.1 (unique kind)

lemma Schema.NamesOnce.rules {s : Schema} (unique : s.NamesOnce) :
    (s.rules.map (·.name.text)).Nodup := by
  have hrules := unique .rule
  rwa [namesOf, List.map_map] at hrules

lemma Schema.NamesOnce.types {s : Schema} (unique : s.NamesOnce) :
    (s.types.map (·.name.text)).Nodup := by
  have htypes := unique .type
  rwa [namesOf, List.map_map] at htypes

lemma Schema.nameFindings_eq_flatMap {s : Schema} (unique : s.NamesOnce) :
    s.nameFindings settings = s.declared.flatMap (·.findings settings []) :=
  nameFindings_of_apart [] (s.pairwise_apart_iff.2 unique) nofun

lemma Schema.requires_of_perm (h : us.Perm vs) :
    (Schema.mk vs).Requires = (Schema.mk us).Requires := by
  funext name other
  simp only [Requires, DeclaresType, (types_perm h).mem_iff]

/-- What is found in names and bodies is found in every order. -/
lemma Bundle.partFindings_perm (h : us.Perm vs) (unique : (Schema.mk us).NamesOnce) :
    ((ofSchema ⟨us⟩).partFindings settings).Perm ((ofSchema ⟨vs⟩).partFindings settings) := by
  have hrules : (ofSchema ⟨vs⟩).rules = (ofSchema ⟨us⟩).rules :=
    firstByName_of_perm (Schema.rules_perm h) unique.rules
  have htypes : (ofSchema ⟨vs⟩).types = (ofSchema ⟨us⟩).types :=
    firstByName_of_perm (Schema.types_perm h) unique.types
  have hfields : (ofSchema ⟨vs⟩).fieldFindings = (ofSchema ⟨us⟩).fieldFindings :=
    funext fun earlier => funext fun items => fieldFindings_congr hrules htypes items earlier
  have hnames : ((Schema.mk us).nameFindings settings).Perm ((Schema.mk vs).nameFindings settings) := by
    rw [Schema.nameFindings_eq_flatMap unique, Schema.nameFindings_eq_flatMap (unique.of_perm h)]
    exact (h.filterMap _).flatMap_right _
  rw [partFindings, partFindings, funext (ruleFindings_congr htypes), hfields,
    funext (serviceFindings_congr hrules htypes)]
  exact ((hnames.append ((Schema.rules_perm h).flatMap_right _)).append
    ((Schema.types_perm h).flatMap_right _)).append (h.flatMap_right _)

/-- Whether types require each other in a circle does not depend on their order. -/
lemma Bundle.circularityFindings_eq_nil_iff_of_perm (h : us.Perm vs)
    (unique : (Schema.mk us).NamesOnce) :
    (ofSchema ⟨us⟩).circularityFindings = [] ↔ (ofSchema ⟨vs⟩).circularityFindings = [] := by
  rw [circularityFindings_eq_nil_iff unique.types,
    circularityFindings_eq_nil_iff (unique.of_perm h).types, Schema.requires_of_perm h]

/-- Whether anything is found does not depend on the order of statements, even where names are declared
twice: that is found in every order. -/
lemma Bundle.findings_eq_nil_of_perm (h : us.Perm vs)
    (hclean : (ofSchema ⟨us⟩).findings settings = []) : (ofSchema ⟨vs⟩).findings settings = [] := by
  rw [findings_eq_append, List.append_eq_nil_iff] at hclean ⊢
  obtain ⟨hparts, hcircles⟩ := hclean
  have hnames : (Schema.mk us).nameFindings settings = [] := by
    simp only [partFindings, List.append_eq_nil_iff] at hparts
    exact hparts.1.1.1
  have unique : (Schema.mk us).NamesOnce :=
    fun kind => (Schema.nameFindings_eq_nil_iff.1 hnames kind).1
  have hperm : ((ofSchema ⟨us⟩).partFindings settings).Perm ((ofSchema ⟨vs⟩).partFindings settings) :=
    partFindings_perm h unique
  rw [hparts] at hperm
  exact ⟨hperm.nil_eq.symm, (circularityFindings_eq_nil_iff_of_perm h unique).1 hcircles⟩

lemma Bundle.findings_eq_nil_iff_of_perm (h : us.Perm vs) :
    (ofSchema ⟨us⟩).findings settings = [] ↔ (ofSchema ⟨vs⟩).findings settings = [] :=
  ⟨findings_eq_nil_of_perm h, findings_eq_nil_of_perm h.symm⟩

/-- **The order of statements does not change what is wrong.**  Where no name is declared twice, the same
is found in both orders, each finding as often, but for circles; and a circle is found in both orders
or in none. -/
theorem Bundle.findings_of_perm (h : us.Perm vs) (unique : (Schema.mk us).NamesOnce)
    (settings : Settings) :
    (((ofSchema ⟨us⟩).findings settings).filter (!Finding.isAbout .circle ·)).Perm
        (((ofSchema ⟨vs⟩).findings settings).filter (!Finding.isAbout .circle ·))
      ∧ ((∃ f ∈ (ofSchema ⟨us⟩).findings settings, f.isAbout .circle = true)
        ↔ ∃ f ∈ (ofSchema ⟨vs⟩).findings settings, f.isAbout .circle = true) := by
  refine ⟨?_, ?_⟩
  · rw [filter_not_circle_findings, filter_not_circle_findings]
    exact (partFindings_perm h unique).filter _
  · rw [exists_circle_iff, exists_circle_iff, Ne, Ne,
      circularityFindings_eq_nil_iff_of_perm h unique]

end

/-- Two circles that share the step from `D` to `A`, and a type that is not declared. -/
def twoCircles : List Statement :=
  (typesRequiring [("A", ["B", "C"]), ("B", ["D"]), ("C", ["D"]), ("D", ["A", "E"])]).statements

/-- From `A` one of the circles is found, and from `D` both; the type that is not declared is found in both
orders. -/
theorem twoCircles_findings_of_perm :
    let forth := (Bundle.ofSchema ⟨twoCircles⟩).findings {}
    let back := (Bundle.ofSchema ⟨twoCircles.reverse⟩).findings {}
    twoCircles.Perm twoCircles.reverse ∧ (Schema.mk twoCircles).NamesOnce
      ∧ (forth.filter (!Finding.isAbout .circle ·)).Perm (back.filter (!Finding.isAbout .circle ·))
      ∧ ((∃ f ∈ forth, f.isAbout .circle = true) ↔ ∃ f ∈ back, f.isAbout .circle = true)
      ∧ forth.map (·.fault) = [.typeUndeclared "E", .circular ["A", "B", "D", "A"]]
      ∧ back.map (·.fault)
        = [.typeUndeclared "E", .circular ["D", "A", "B", "D"], .circular ["D", "A", "C", "D"]] := by
  have hperm : twoCircles.Perm twoCircles.reverse := (List.reverse_perm twoCircles).symm
  have honce : (Schema.mk twoCircles).NamesOnce := by
    intro kind
    cases kind <;> decide
  have hboth := Bundle.findings_of_perm hperm honce {}
  exact ⟨hperm, honce, hboth.1, hboth.2, by decide +kernel, by decide +kernel⟩

end RpcSchema
