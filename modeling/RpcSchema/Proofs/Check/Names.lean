import Mathlib.Data.List.Nodup
import Mathlib.Tactic.Lemma
import RpcSchema.Check.Names
import RpcSchema.Proofs.Check.Validity

/-!
# When the check of names finds nothing

The check walks along the declared names and keeps those that it has passed.  What it finds wrong with a
name is a repetition of one that it has passed, or a fault of the name alone; so it finds nothing if no
name is repeated and every name is proper by itself.

* `DeclaredName.Proper` are the conditions on a name alone.
* `Schema.nameFindings_eq_nil_iff` says it for the four namespaces of a schema.
-/

namespace RpcSchema

/-! ## Repetitions -/

/-- A name has no earlier one that equals it if its text is not among the earlier texts. -/
theorem repeatedFrom?_eq_none_iff {earlier : List Name} {n : Name} :
    repeatedFrom? earlier n = none ↔ n.text ∉ earlier.map (·.text) := by
  simp [repeatedFrom?, List.find?_eq_none]

/-- Items that repeat neither each other nor an earlier one. -/
def Fresh {α : Type} (earlier items : List α) : Prop := items.Nodup ∧ ∀ a ∈ items, a ∉ earlier

@[simp] lemma fresh_nil {α : Type} (earlier : List α) : Fresh earlier [] := ⟨List.nodup_nil, by simp⟩

@[simp] lemma fresh_nil_left {α : Type} {items : List α} : Fresh [] items ↔ items.Nodup :=
  ⟨fun h => h.1, fun h => ⟨h, by simp⟩⟩

/-- One step of a walk that keeps what it has passed. -/
lemma fresh_cons_iff {α : Type} {earlier items : List α} {a : α} :
    Fresh earlier (a :: items) ↔ a ∉ earlier ∧ Fresh (earlier ++ [a]) items := by
  simp only [Fresh, List.nodup_cons, List.mem_cons, forall_eq_or_imp, List.mem_append,
    List.not_mem_nil, or_false, not_or]
  constructor
  · rintro ⟨⟨ha, hnodup⟩, hearlier, hrest⟩
    exact ⟨hearlier, hnodup, fun b hb => ⟨hrest b hb, fun heq => ha (heq ▸ hb)⟩⟩
  · rintro ⟨hearlier, hnodup, hrest⟩
    exact ⟨⟨fun ha => (hrest a ha).2 rfl, hnodup⟩, hearlier, fun b hb => (hrest b hb).1⟩

/-! ## Casing -/

lemma isCased_iff {first : Char → Bool} {name : String} :
    isCased first name = true ↔
      ∃ c rest, name.toList = c :: rest ∧ first c = true ∧ ∀ d ∈ rest, d.isAlphanum = true := by
  unfold isCased
  cases h : name.toList with
  | nil => simp
  | cons c rest =>
      simp only [Bool.and_eq_true, List.all_eq_true]
      constructor
      · rintro ⟨hc, hrest⟩
        exact ⟨c, rest, rfl, hc, hrest⟩
      · rintro ⟨c', rest', heq, hc, hrest⟩
        obtain ⟨rfl, rfl⟩ := List.cons.inj heq
        exact ⟨hc, hrest⟩

lemma holds_camel_iff {name : String} : Casing.camel.holds name = true ↔ CamelCase name := isCased_iff

lemma holds_pascal_iff {name : String} : Casing.pascal.holds name = true ↔ PascalCase name := isCased_iff

/-- A name in Pascal casing does not begin with a small letter. -/
lemma PascalCase.ne_of_head {name other : String} {c : Char} {rest : List Char} (h : PascalCase name)
    (hother : other.toList = c :: rest) (hc : c.isUpper = false) : name ≠ other := by
  rintro rfl
  obtain ⟨d, tail, heq, hd, _⟩ := h
  obtain ⟨rfl, _⟩ := List.cons.inj (hother.symm.trans heq)
  exact absurd (hc.symm.trans hd) Bool.false_ne_true

/-! ## Names one after another -/

/-- What a declared name must be by itself: a rule does not have the name of a standard rule, and the
name is in its casing if that is checked. -/
structure DeclaredName.Proper (settings : Settings) (d : DeclaredName) : Prop where
  own : d.kind = .rule → ∀ standard ∈ standardRules, d.name.text ≠ standard.name
  cased : settings.checkCasing = true → d.kind.casing.holds d.name.text = true

/-- Two names that may stand beside each other: those of different namespaces, and different ones. -/
def DeclaredName.Apart (d e : DeclaredName) : Prop := d.kind = e.kind → d.name.text ≠ e.name.text

lemma find?_isSome_iff {name : String} :
    (StandardRule.find? name).isSome = true ↔ ∃ standard ∈ standardRules, name = standard.name := by
  simp only [StandardRule.find?, List.find?_isSome, decide_eq_true_eq]
  constructor <;> rintro ⟨standard, hmem, heq⟩ <;> exact ⟨standard, hmem, heq.symm⟩

/-- A name repeats none of its namespace if it is apart from the names before it. -/
lemma DeclaredName.repeatedFrom?_eq_none_iff {earlier : List DeclaredName} {d : DeclaredName} :
    repeatedFrom? ((earlier.filter (·.kind = d.kind)).map (·.name)) d.name = none ↔
      ∀ e ∈ earlier, e.Apart d := by
  rw [RpcSchema.repeatedFrom?_eq_none_iff]
  constructor
  · intro h e he hkind htext
    refine h (List.mem_map.2 ⟨e.name, List.mem_map.2 ⟨e, ?_, rfl⟩, htext⟩)
    simpa using ⟨he, hkind⟩
  · intro h hmem
    obtain ⟨n, hn, htext⟩ := List.mem_map.1 hmem
    obtain ⟨e, he, rfl⟩ := List.mem_map.1 hn
    simp only [List.mem_filter, decide_eq_true_eq] at he
    exact h e he.1 he.2 htext

/-- Nothing is wrong with a name if it is proper and apart from the names before it. -/
lemma DeclaredName.findings_eq_nil_iff {settings : Settings} {earlier : List DeclaredName}
    {d : DeclaredName} :
    d.findings settings earlier = [] ↔ d.Proper settings ∧ ∀ e ∈ earlier, e.Apart d := by
  have hstandard : (¬ (d.kind = .rule ∧ (StandardRule.find? d.name.text).isSome = true)) ↔
      (d.kind = .rule → ∀ standard ∈ standardRules, d.name.text ≠ standard.name) := by
    rw [find?_isSome_iff]
    push Not
    rfl
  have hcasing : (¬ (settings.checkCasing = true ∧ ¬ d.kind.casing.holds d.name.text = true)) ↔
      (settings.checkCasing = true → d.kind.casing.holds d.name.text = true) := by
    push Not
    rfl
  unfold DeclaredName.findings
  simp only [List.map_eq_nil_iff, List.append_eq_nil_iff, Option.toList_eq_nil_iff,
    Option.map_eq_none_iff, ite_eq_right_iff, List.cons_ne_nil, imp_false]
  rw [repeatedFrom?_eq_none_iff, hstandard, hcasing]
  constructor
  · rintro ⟨⟨h, hown⟩, hcased⟩
    exact ⟨⟨hown, hcased⟩, h⟩
  · rintro ⟨⟨hown, hcased⟩, h⟩
    exact ⟨⟨h, hown⟩, hcased⟩

/-- Nothing is wrong with names one after another if each is proper and apart from those before it. -/
lemma nameFindings_eq_nil_iff {settings : Settings} (names : List DeclaredName) :
    ∀ earlier : List DeclaredName, nameFindings settings earlier names = [] ↔
      (∀ d ∈ names, d.Proper settings) ∧ names.Pairwise DeclaredName.Apart ∧
        ∀ e ∈ earlier, ∀ d ∈ names, e.Apart d := by
  induction names with
  | nil => intro earlier; simp [nameFindings]
  | cons d rest ih =>
      intro earlier
      rw [nameFindings, List.append_eq_nil_iff, DeclaredName.findings_eq_nil_iff, ih]
      simp only [List.mem_cons, List.mem_append, List.pairwise_cons, List.not_mem_nil, or_false,
        or_imp, forall_and, forall_eq]
      tauto

/-! ## The namespaces of a schema -/

/-- The names of one namespace. -/
def Schema.namesOf (s : Schema) : DeclKind → List Name
  | .rule => s.rules.map (·.name)
  | .type => s.types.map (·.name)
  | .proc => s.procs.map (·.name)
  | .stream => s.streams.map (·.name)

/-- The names that a schema declares, each with its namespace. -/
def Schema.declared (s : Schema) : List DeclaredName := s.statements.filterMap Statement.declares?

lemma Schema.map_name_filter_declared (s : Schema) (kind : DeclKind) :
    (s.declared.filter (·.kind = kind)).map (·.name) = s.namesOf kind := by
  obtain ⟨statements⟩ := s
  cases kind <;>
    simp only [declared, namesOf, rules, types, procs, streams, List.filter_filterMap,
      List.map_filterMap]
  all_goals
    congr 1
    funext statement
    cases statement <;> rfl

lemma Schema.mem_declared_iff {s : Schema} {kind : DeclKind} {name : Name} :
    ⟨kind, name⟩ ∈ s.declared ↔ name ∈ s.namesOf kind := by
  rw [← map_name_filter_declared, List.mem_map]
  constructor
  · intro h
    exact ⟨_, List.mem_filter.2 ⟨h, by simp⟩, rfl⟩
  · rintro ⟨⟨kind', name'⟩, h, rfl⟩
    obtain ⟨hmem, hkind⟩ := List.mem_filter.1 h
    obtain rfl : kind' = kind := by simpa using hkind
    exact hmem

/-- The declared names are apart from each other if the texts of each namespace are distinct. -/
lemma Schema.pairwise_apart_iff (s : Schema) :
    s.declared.Pairwise DeclaredName.Apart ↔ ∀ kind, ((s.namesOf kind).map (·.text)).Nodup := by
  have hkind : ∀ kind, ((s.namesOf kind).map (·.text)).Nodup ↔
      s.declared.Pairwise fun d e => d.kind = kind → e.kind = kind → d.name.text ≠ e.name.text := by
    intro kind
    rw [← map_name_filter_declared, List.map_map, List.Nodup, List.pairwise_map, List.pairwise_filter]
    simp
  simp only [hkind, List.pairwise_iff_forall_sublist]
  constructor
  · intro h kind d e hsub hd he
    exact h hsub (hd.trans he.symm)
  · intro h d e hsub heq
    exact h d.kind hsub rfl heq.symm

/-- **The check of names finds nothing** if in each namespace the names are distinct and proper. -/
theorem Schema.nameFindings_eq_nil_iff {settings : Settings} {s : Schema} :
    s.nameFindings settings = [] ↔ ∀ kind, ((s.namesOf kind).map (·.text)).Nodup ∧
      ∀ n ∈ s.namesOf kind, (DeclaredName.mk kind n).Proper settings := by
  have h := @RpcSchema.nameFindings_eq_nil_iff settings s.declared []
  rw [pairwise_apart_iff] at h
  rw [nameFindings]
  refine h.trans ?_
  constructor
  · rintro ⟨hproper, hunique, _⟩ kind
    exact ⟨hunique kind, fun n hn => hproper _ (mem_declared_iff.2 hn)⟩
  · intro hall
    refine ⟨?_, fun kind => (hall kind).1, by simp⟩
    rintro ⟨kind, n⟩ hmem
    exact (hall kind).2 n (mem_declared_iff.1 hmem)

end RpcSchema
