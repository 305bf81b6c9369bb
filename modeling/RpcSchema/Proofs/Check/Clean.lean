import RpcSchema.Check.Bundle
import RpcSchema.Proofs.Check.Circularity

/-!
# Nothing is found in valid schemas, and in no others

The checks are made one beside the other, and each finds nothing under a condition of its own.  Some of
these conditions are in terms of the bundle, and say what they should about the schema only where the
other checks found nothing either: the names of rules and types must be unique for an index to show
every declaration, and in their casing for a name to mean one thing.  So the checks are taken in the
order in which they rely on each other.

* **`Bundle.findings_eq_nil_iff_valid`** is the result.
-/

namespace RpcSchema

/-! ## Names -/

/-- The conditions on names, for the four namespaces together and with the casing checked. -/
lemma Schema.nameFindings_eq_nil_iff_valid {settings : Settings} (hcasing : settings.checkCasing = true)
    {s : Schema} : s.nameFindings settings = [] ↔
      ((s.rules.map (·.name.text)).Nodup ∧ (s.types.map (·.name.text)).Nodup ∧
        (s.procs.map (·.name.text)).Nodup ∧ (s.streams.map (·.name.text)).Nodup) ∧
      ((∀ r ∈ s.rules, CamelCase r.name.text) ∧ (∀ d ∈ s.types, PascalCase d.name.text) ∧
        ∀ p ∈ s.procs ++ s.streams, PascalCase p.name.text) ∧
      ∀ r ∈ s.rules, ∀ standard ∈ standardRules, r.name.text ≠ standard.name := by
  have hproper : ∀ kind n, (DeclaredName.mk kind n).Proper settings ↔
      (kind = .rule → ∀ standard ∈ standardRules, n.text ≠ standard.name) ∧
        kind.casing.holds n.text = true := by
    intro kind n
    constructor
    · rintro ⟨hown, hcased⟩
      exact ⟨hown, hcased hcasing⟩
    · rintro ⟨hown, hcased⟩
      exact ⟨hown, fun _ => hcased⟩
  rw [nameFindings_eq_nil_iff]
  simp only [hproper]
  constructor
  · intro h
    have hrule := h .rule
    have htype := h .type
    have hproc := h .proc
    have hstream := h .stream
    simp only [namesOf, List.map_map, List.forall_mem_map, DeclKind.casing, holds_camel_iff,
      holds_pascal_iff] at hrule htype hproc hstream
    refine ⟨⟨hrule.1, htype.1, hproc.1, hstream.1⟩, ⟨fun r hr => (hrule.2 r hr).2,
      fun d hd => (htype.2 d hd).2, fun p hp => ?_⟩, fun r hr => (hrule.2 r hr).1 trivial⟩
    rcases List.mem_append.1 hp with hp | hp
    · exact (hproc.2 p hp).2
    · exact (hstream.2 p hp).2
  · rintro ⟨⟨hrules, htypes, hprocs, hstreams⟩, ⟨hcamel, hpascal, hservices⟩, hown⟩ kind
    cases kind <;> simp only [namesOf, List.map_map, List.forall_mem_map, DeclKind.casing,
      holds_camel_iff, holds_pascal_iff]
    · exact ⟨hrules, fun r hr => ⟨fun _ => hown r hr, hcamel r hr⟩⟩
    · exact ⟨htypes, fun d hd => ⟨by simp, hpascal d hd⟩⟩
    · exact ⟨hprocs, fun p hp => ⟨by simp, hservices p (List.mem_append_left _ hp)⟩⟩
    · exact ⟨hstreams, fun p hp => ⟨by simp, hservices p (List.mem_append_right _ hp)⟩⟩

/-! ## Fields -/

/-- Where rules are in order, nothing is found at a level of fields if it is valid. -/
lemma Bundle.clearFields_iff {s : Schema} (hs : s.Orderly) {list : List FieldItem} :
    (Bundle.ofSchema s).ClearFields list ↔ s.ValidFields list := by
  constructor
  · rintro ⟨hnames, htypes, huses⟩
    have hknown : ∀ f ∈ FieldItem.fields list, ∀ n, f.type.base = .named n → s.KnowsType n.text :=
      fun f hf n hbase => typeFindings_eq_nil_iff.1 (htypes f hf n hbase)
    exact ⟨hnames, hknown, fun f hf u hu =>
      (useFault?_eq_none_iff hs (hknown f hf)).1 (huses f hf u hu)⟩
  · rintro ⟨hnames, hknown, huses⟩
    exact ⟨hnames, fun f hf n hbase => typeFindings_eq_nil_iff.2 (hknown f hf n hbase),
      fun f hf u hu => (useFault?_eq_none_iff hs (hknown f hf)).2 (huses f hf u hu)⟩

/-- Nothing is found in the fields of types, procedures and streams if every list of fields is valid. -/
lemma Bundle.fieldFindings_eq_nil_iff_valid {s : Schema} (hs : s.Orderly) :
    ((∀ d ∈ s.types, (Bundle.ofSchema s).fieldFindings [] d.items = []) ∧
      ∀ p ∈ s.procs ++ s.streams, (Bundle.ofSchema s).ClearServices p) ↔
        ∀ list, s.FieldList list → s.ValidFields list := by
  simp only [ClearServices, fieldFindings_eq_nil_iff, clearFields_iff hs]
  constructor
  · rintro ⟨htypes, hservices⟩ list (⟨hmem, hlevel⟩ | ⟨hmem, hblock, hlevel⟩ | ⟨hmem, hblock, hlevel⟩)
    · exact htypes _ hmem list hlevel
    · exact hservices _ hmem _ (Or.inl hblock) list hlevel
    · exact hservices _ hmem _ (Or.inr hblock) list hlevel
  · intro h
    refine ⟨fun d hd list hlevel => h list (.type hd hlevel), ?_⟩
    rintro p hp block (hblock | hblock) list hlevel
    · exact h list (.input hp hblock hlevel)
    · exact h list (.output hp hblock hlevel)

/-! ## Procedures and streams -/

lemma Schema.mem_services {s : Schema} {p : ProcDecl} :
    p ∈ s.procs ++ s.streams ↔ .proc p ∈ s.statements ∨ .stream p ∈ s.statements := by
  rw [List.mem_append, procs, streams, List.mem_filterMap, List.mem_filterMap]
  constructor
  · rintro (⟨statement, hmem, h⟩ | ⟨statement, hmem, h⟩)
    · cases statement <;> simp only [Statement.proc?, Option.some_inj, reduceCtorEq] at h
      exact Or.inl (h ▸ hmem)
    · cases statement <;> simp only [Statement.stream?, Option.some_inj, reduceCtorEq] at h
      exact Or.inr (h ▸ hmem)
  · rintro (hmem | hmem)
    · exact Or.inl ⟨_, hmem, rfl⟩
    · exact Or.inr ⟨_, hmem, rfl⟩

/-- Nothing is found in procedures and streams if each has valid blocks and nothing is wrong with the
fields in them. -/
lemma Bundle.serviceFindings_eq_nil_iff {s : Schema} {b : Bundle} :
    s.statements.flatMap b.serviceFindings = [] ↔
      ∀ p ∈ s.procs ++ s.streams, ProcDecl.ValidBlocks p ∧ b.ClearServices p := by
  rw [List.flatMap_eq_nil_iff]
  constructor
  · intro h p hp
    rcases Schema.mem_services.1 hp with hp | hp
    · exact procFindings_eq_nil_iff.1 (h _ hp)
    · exact procFindings_eq_nil_iff.1 (h _ hp)
  · intro h statement hmem
    cases statement with
    | proc p => exact procFindings_eq_nil_iff.2 (h p (Schema.mem_services.2 (Or.inl hmem)))
    | stream p => exact procFindings_eq_nil_iff.2 (h p (Schema.mem_services.2 (Or.inr hmem)))
    | _ => rfl

/-! ## The result -/

/-- **Nothing is found in a schema, with the casing checked, if and only if it is valid.** -/
theorem Bundle.findings_eq_nil_iff_valid {settings : Settings} (hcasing : settings.checkCasing = true)
    (s : Schema) : (Bundle.ofSchema s).findings settings = [] ↔ s.Valid := by
  rw [findings]
  simp only [List.append_eq_nil_iff]
  rw [Schema.nameFindings_eq_nil_iff_valid hcasing, serviceFindings_eq_nil_iff,
    List.flatMap_eq_nil_iff, List.flatMap_eq_nil_iff]
  constructor
  · rintro ⟨⟨⟨⟨⟨⟨huniqueRules, huniqueTypes, huniqueProcs, huniqueStreams⟩,
      ⟨hcasedRules, hcasedTypes, hcasedServices⟩, hown⟩, hrules⟩, htypes⟩, hservices⟩, hcircles⟩
    have hvalid : ∀ r ∈ s.rules, s.ValidRule r := fun r hr => ruleFindings_eq_nil_iff.1 (hrules r hr)
    have hs : s.Orderly := ⟨huniqueRules, hown, hcasedTypes, hvalid⟩
    exact
      { uniqueRules := huniqueRules
        uniqueTypes := huniqueTypes
        uniqueProcs := huniqueProcs
        uniqueStreams := huniqueStreams
        casedRules := hcasedRules
        casedTypes := hcasedTypes
        casedServices := hcasedServices
        notStandard := hown
        rules := hvalid
        services := fun p hp => (hservices p hp).1
        fields := (fieldFindings_eq_nil_iff_valid hs).1 ⟨htypes, fun p hp => (hservices p hp).2⟩
        noCircle := (circularityFindings_eq_nil_iff huniqueTypes).1 hcircles }
  · intro h
    have hs : s.Orderly := ⟨h.uniqueRules, h.notStandard, h.casedTypes, h.rules⟩
    obtain ⟨htypes, hfields⟩ := (fieldFindings_eq_nil_iff_valid hs).2 h.fields
    refine ⟨⟨⟨⟨⟨⟨h.uniqueRules, h.uniqueTypes, h.uniqueProcs, h.uniqueStreams⟩,
      ⟨h.casedRules, h.casedTypes, h.casedServices⟩, h.notStandard⟩, ?_⟩, htypes⟩, ?_⟩, ?_⟩
    · exact fun r hr => ruleFindings_eq_nil_iff.2 (h.rules r hr)
    · exact fun p hp => ⟨h.services p hp, hfields p hp⟩
    · exact (circularityFindings_eq_nil_iff h.uniqueTypes).2 h.noCircle

/-- Two types with a field of the other each; the second holds it in an array of inline objects. -/
def mutualTypes (optional : Bool) : Schema :=
  let field (name : String) (base : FieldBase) (isArray : Bool) : FieldItem :=
    .field ⟨default, none, ⟨default, name⟩, optional, ⟨default, base, isArray⟩, []⟩
  let type (name : String) (items : List FieldItem) : Statement :=
    .type ⟨default, ⟨default, name⟩, none, none, items⟩
  ⟨[type "Left" [field "right" (.named ⟨default, "Right"⟩) false],
    type "Right" [field "items" (.object [field "left" (.named ⟨default, "Left"⟩) false]) true]]⟩

/-- The two types are valid if their fields are optional, and in a circle if they are not. -/
theorem mutualTypes_valid_of_optional : ({} : Settings).checkCasing = true ∧
    (mutualTypes true).Valid ∧ ¬ (mutualTypes false).Valid := by
  refine ⟨rfl, ?_, ?_⟩
  · refine (Bundle.findings_eq_nil_iff_valid (show ({} : Settings).checkCasing = true from rfl) _).1 ?_
    decide +kernel
  · intro h
    have hclean := (Bundle.findings_eq_nil_iff_valid
      (show ({} : Settings).checkCasing = true from rfl) (mutualTypes false)).2 h
    exact absurd hclean (by decide +kernel)

end RpcSchema
