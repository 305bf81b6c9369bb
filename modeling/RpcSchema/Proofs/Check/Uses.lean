import Mathlib.Tactic.Lemma
import RpcSchema.Check.Use
import RpcSchema.Proofs.Bundle.Index
import RpcSchema.Proofs.Check.Names

/-!
# When the check of a rule's use finds nothing

The check compares names: the name of an inline object is `object`, and the name that stands for every
array is `array`.  A declared type with one of these names would be taken for something that it is not.
Where names are in their casing there is none, and so the check comes to what `Schema.ValidUse` says
about types.

* `Schema.Orderly` is what the uses of rules rely on.
* `Bundle.useFault?_eq_none_iff` is the result.
-/

namespace RpcSchema

/-- What must hold of the declarations of a schema before the uses of its rules can be judged. -/
structure Schema.Orderly (s : Schema) : Prop where
  uniqueRules : (s.rules.map (·.name.text)).Nodup
  notStandard : ∀ r ∈ s.rules, ∀ standard ∈ standardRules, r.name.text ≠ standard.name
  casedTypes : ∀ d ∈ s.types, PascalCase d.name.text
  rules : ∀ r ∈ s.rules, s.ValidRule r

/-- The name by which messages call inline objects. -/
def objectName : String := FieldBase.name (.object [])

/-- The name of inline objects is neither that of arrays nor that of a primitive type. -/
lemma objectName_ne : objectName ≠ anyArray ∧ ∀ p : Primitive, p.word ≠ objectName := by
  refine ⟨by decide +kernel, fun p => ?_⟩
  cases p <;> decide +kernel

/-- Where types are in their casing, `object` and `array` are no types. -/
lemma Schema.Orderly.not_knowsType {s : Schema} (h : s.Orderly) :
    ¬ s.KnowsType objectName ∧ ¬ s.KnowsType anyArray := by
  have hword : ∀ p : Primitive, p.word ≠ anyArray := by
    intro p; cases p <;> decide +kernel
  constructor <;> rintro (⟨p, hp⟩ | ⟨d, hd, hname⟩)
  · exact objectName_ne.2 p hp
  · exact (h.casedTypes d hd).ne_of_head (show objectName.toList = 'o' :: _ from rfl) rfl hname
  · exact hword p hp
  · exact (h.casedTypes d hd).ne_of_head (show anyArray.toList = 'a' :: _ from rfl) rfl hname

/-! ## Values -/

lemma ValueKind.name_injective : Function.Injective ValueKind.name := by
  intro k k' h
  cases k <;> cases k' <;> first | rfl | exact absurd h (by decide +kernel)

lemma Primitive.word_injective : Function.Injective Primitive.word := by
  intro p p' h
  have hp := congrArg Primitive.ofWord? h
  rw [ofWord?_word, ofWord?_word] at hp
  exact Option.some.inj hp

lemma Value.fits_iff {typeName : String} {v : Value} : v.fits typeName = true ↔ v.Fits typeName := by
  unfold Value.fits Fits StandsFor
  constructor
  · intro h
    cases hk : v.kind <;> simp only [hk, Bool.or_eq_true, decide_eq_true_eq] at h
    · exact ⟨.string, h.symm, Or.inl rfl⟩
    · rcases h with h | h
      · exact ⟨.int, h.symm, Or.inl rfl⟩
      · exact ⟨.float, h.symm, Or.inr ⟨rfl, rfl⟩⟩
    · exact ⟨.float, h.symm, Or.inl rfl⟩
    · exact ⟨.bool, h.symm, Or.inl rfl⟩
  · rintro ⟨kind, rfl, h | ⟨h, rfl⟩⟩
    · rw [h]; cases kind <;> rfl
    · rw [h]; rfl

lemma Value.fits_name_iff {v : Value} {kind : ValueKind} : v.Fits kind.name ↔ v.StandsFor kind := by
  constructor
  · rintro ⟨kind', hname, h⟩
    rwa [ValueKind.name_injective hname] at h
  · intro h
    exact ⟨kind, rfl, h⟩

/-! ## Standard rules -/

lemma singleArgumentFault?_eq_none_iff {typeName : String} {u : RuleUse} :
    singleArgumentFault? typeName u = none ↔
      ∃ l, u.argument = some (.single l) ∧ l.value.Fits typeName := by
  unfold singleArgumentFault?
  rcases u.argument with _ | (l | ⟨span, items⟩)
  · simp
  · simp [← Value.fits_iff]
  · simp

lemma valuesArgumentFault?_eq_none_iff {typeName : String} {u : RuleUse} :
    valuesArgumentFault? typeName u = none ↔ ∃ span items, u.argument = some (.array span items) ∧
      items ≠ [] ∧ ∀ l ∈ items, l.value.Fits typeName := by
  unfold valuesArgumentFault?
  rcases u.argument with _ | (l | ⟨span, items⟩)
  · simp
  · simp
  · by_cases hempty : items = []
    · simp [hempty]
    · simp [hempty, ← Value.fits_iff]

lemma FieldType.IsPrimitive.name_eq {t : FieldType} {p : Primitive} (h : t.IsPrimitive p) :
    t.base.name = p.word := by
  obtain ⟨_, n, hbase, htext⟩ := h
  rw [hbase, FieldBase.name, htext]

/-- A type is one primitive type at most. -/
lemma FieldType.IsPrimitive.unique {t : FieldType} {p p' : Primitive} (h : t.IsPrimitive p)
    (h' : t.IsPrimitive p') : p = p' :=
  Primitive.word_injective (h.name_eq.symm.trans h'.name_eq)

lemma mem_primitives (p : Primitive) : p ∈ Primitive.all := by cases p <;> decide

/-- The targets of a standard rule are primitive types and arrays. -/
lemma standardRules_targets {r : StandardRule} (hr : r ∈ standardRules) {target : String}
    (h : target ∈ r.targets) : target = anyArray ∨ ∃ p : Primitive, p.word = target := by
  have key : ∀ r ∈ standardRules, ∀ target ∈ r.targets,
      target = anyArray ∨ ∃ p ∈ Primitive.all, p.word = target := by decide +kernel
  rcases key r hr target h with h | ⟨p, _, h⟩
  · exact Or.inl h
  · exact Or.inr ⟨p, h⟩

/-- The rules that bound values or list them apply to no array, and ask for the literals of the type
that they are used on. -/
lemma standardRules_values {r : StandardRule} (hr : r ∈ standardRules)
    (h : r.parameter = .bound ∨ r.parameter = .values) : anyArray ∉ r.targets ∧
      ∀ p : Primitive, p.word ∈ r.targets →
        (r.parameter = .bound → (if p.word = "datetime" then "string" else p.word) = p.literalKind.name)
        ∧ (r.parameter = .values → p.word = p.literalKind.name) := by
  have key : ∀ r ∈ standardRules, r.parameter = .bound ∨ r.parameter = .values →
      anyArray ∉ r.targets ∧ ∀ p ∈ Primitive.all, p.word ∈ r.targets →
        (r.parameter = .bound → (if p.word = "datetime" then "string" else p.word) = p.literalKind.name)
        ∧ (r.parameter = .values → p.word = p.literalKind.name) := by decide +kernel
  exact ⟨(key r hr h).1, fun p hp => (key r hr h).2 p (mem_primitives p) hp⟩

/-- A standard rule applies to what it suits, and one for arrays also to the type named `array`. -/
lemma StandardRule.appliesTo_iff_suits_or {r : StandardRule} (hr : r ∈ standardRules) {t : FieldType} :
    r.appliesTo t.base.name t.isArray = true ↔ r.Suits t ∨
      (t.isArray = false ∧ anyArray ∈ r.targets ∧ ∃ n, t.base = .named n ∧ n.text = anyArray) := by
  unfold appliesTo Suits FieldType.IsPrimitive
  rw [List.contains_iff_mem]
  cases harray : t.isArray with
  | true => simp
  | false =>
      simp only [Bool.false_eq_true, if_false, false_and, false_or, true_and]
      cases hbase : t.base with
      | named n =>
          rw [FieldBase.name]
          constructor
          · intro h
            rcases standardRules_targets hr h with heq | ⟨p, hp⟩
            · exact Or.inr ⟨heq ▸ h, n, rfl, heq⟩
            · exact Or.inl ⟨p, ⟨n, rfl, hp.symm⟩, hp ▸ h⟩
          · rintro (⟨p, ⟨n', hn, htext⟩, hp⟩ | ⟨h, n', hn, htext⟩)
            · cases hn
              exact htext ▸ hp
            · cases hn
              exact htext ▸ h
      | object items =>
          simp only [reduceCtorEq, false_and, exists_false, and_false, or_false, iff_false]
          intro h
          rcases standardRules_targets hr h with heq | ⟨p, hp⟩
          · exact objectName_ne.1 heq
          · exact objectName_ne.2 p hp

lemma StandardRule.appliesTo_iff {s : Schema} (hs : s.Orderly) {r : StandardRule}
    (hr : r ∈ standardRules) {t : FieldType} (ht : ∀ n, t.base = .named n → s.KnowsType n.text) :
    r.appliesTo t.base.name t.isArray = true ↔ r.Suits t := by
  rw [appliesTo_iff_suits_or hr, or_iff_left_iff_imp]
  rintro ⟨_, _, n, hbase, htext⟩
  exact absurd (htext ▸ ht n hbase) hs.not_knowsType.2

lemma standardArgumentFault?_eq_none_iff {r : StandardRule} (hr : r ∈ standardRules) {t : FieldType}
    (hsuits : r.Suits t) {u : RuleUse} :
    standardArgumentFault? r.parameter t.base.name u = none ↔ r.parameter.Takes t u.argument := by
  have hprimitive : r.parameter = .bound ∨ r.parameter = .values →
      ∃ p : Primitive, t.IsPrimitive p ∧ p.word ∈ r.targets := by
    intro h
    rcases hsuits with ⟨_, hmem⟩ | hp
    · exact absurd hmem (standardRules_values hr h).1
    · exact hp
  cases hparam : r.parameter with
  | none => simp [standardArgumentFault?, Parameter.Takes]
  | int =>
      rw [standardArgumentFault?, singleArgumentFault?_eq_none_iff]
      exact exists_congr fun l => and_congr_right fun _ => @Value.fits_name_iff l.value .int
  | string =>
      rw [standardArgumentFault?, singleArgumentFault?_eq_none_iff]
      exact exists_congr fun l => and_congr_right fun _ => @Value.fits_name_iff l.value .string
  | bound =>
      obtain ⟨p, hp, hmem⟩ := hprimitive (Or.inl hparam)
      have hname := ((standardRules_values hr (Or.inl hparam)).2 p hmem).1 hparam
      rw [standardArgumentFault?, singleArgumentFault?_eq_none_iff, hp.name_eq, hname]
      simp only [Value.fits_name_iff, Parameter.Takes]
      constructor
      · rintro ⟨l, harg, hl⟩
        exact ⟨p, l, hp, harg, hl⟩
      · rintro ⟨p', l, hp', harg, hl⟩
        rw [hp'.unique hp] at hl
        exact ⟨l, harg, hl⟩
  | values =>
      obtain ⟨p, hp, hmem⟩ := hprimitive (Or.inr hparam)
      have hname := ((standardRules_values hr (Or.inr hparam)).2 p hmem).2 hparam
      rw [standardArgumentFault?, valuesArgumentFault?_eq_none_iff, hp.name_eq, hname]
      simp only [Value.fits_name_iff, Parameter.Takes]
      constructor
      · rintro ⟨span, items, harg, hne, hitems⟩
        exact ⟨p, span, items, hp, harg, hne, hitems⟩
      · rintro ⟨p', span, items, hp', harg, hne, hitems⟩
        rw [hp'.unique hp] at hitems
        exact ⟨span, items, harg, hne, hitems⟩

/-! ## Declared rules -/

/-- What a rule is declared for is never called as inline objects are. -/
lemma Schema.Orderly.target_ne_object {s : Schema} (hs : s.Orderly) {r : RuleDecl} (hr : r ∈ s.rules)
    {c : TypeClause} (hc : c ∈ r.targets) : c.type.text ≠ objectName := by
  obtain ⟨c', hone, htype⟩ := (hs.rules r hr).target
  obtain rfl : c = c' := by simpa [hone] using hc
  intro heq
  rcases htype with ⟨_, harray⟩ | hknown
  · rw [heq] at harray
    exact absurd harray (by decide +kernel)
  · exact hs.not_knowsType.1 (heq ▸ hknown)

/-- A clause covers what it suits, and one for the name of inline objects covers these as well. -/
lemma TypeClause.covers_iff_suits_or {c : TypeClause} {t : FieldType} :
    c.covers t.base.name t.isArray = true ↔ c.Suits t ∨
      (t.isArray = c.isArray ∧ c.type.text = objectName ∧ ∃ items, t.base = .object items) := by
  unfold covers Suits
  cases hbase : t.base with
  | named n =>
      rw [FieldBase.name]
      cases t.isArray <;> cases c.isArray <;> simp [eq_comm (a := n.text)]
  | object items =>
      have hname : FieldBase.name (.object items) = objectName := rfl
      have hne := objectName_ne.1
      rw [hname]
      cases t.isArray <;> cases c.isArray <;> simp [hne]

lemma TypeClause.covers_iff {c : TypeClause} {t : FieldType} (hc : c.type.text ≠ objectName) :
    c.covers t.base.name t.isArray = true ↔ c.Suits t := by
  rw [covers_iff_suits_or, or_iff_left_iff_imp]
  rintro ⟨_, h, _⟩
  exact absurd h hc

lemma TypeClause.takes_single_iff {c : TypeClause} {l : Literal} :
    c.takes (.single l) = true ↔ c.isArray = false ∧ l.value.Fits c.type.text := by
  simp [takes, Value.fits_iff]

lemma TypeClause.takes_array_iff {c : TypeClause} {span : Span} {items : List Literal} :
    c.takes (.array span items) = true ↔
      c.isArray = true ∧ ∀ l ∈ items, l.value.Fits c.type.text := by
  simp [takes, Value.fits_iff]

/-- A rule with one `param` clause takes what the clause says. -/
lemma RuleDecl.takes_iff_of_params {r : RuleDecl} {c : TypeClause} (hone : r.params = [c])
    {a : Argument} : RuleDecl.Takes r (some a) ↔ c.takes a = true := by
  constructor
  · intro h
    cases h with
    | single hmem hscalar hfits =>
        obtain rfl : _ = c := by simpa [hone] using hmem
        exact TypeClause.takes_single_iff.2 ⟨hscalar, hfits⟩
    | array hmem harray hfits =>
        obtain rfl : _ = c := by simpa [hone] using hmem
        exact TypeClause.takes_array_iff.2 ⟨harray, hfits⟩
  · intro h
    cases a with
    | single l =>
        obtain ⟨hscalar, hfits⟩ := TypeClause.takes_single_iff.1 h
        exact .single (by simp [hone]) hscalar hfits
    | array span items =>
        obtain ⟨harray, hfits⟩ := TypeClause.takes_array_iff.1 h
        exact .array (by simp [hone]) harray hfits

lemma declaredArgumentFault?_eq_none_iff {r : RuleDecl} (hparam : r.params.length ≤ 1) {u : RuleUse} :
    declaredArgumentFault? r u = none ↔ RuleDecl.Takes r u.argument := by
  unfold declaredArgumentFault?
  rcases hp : r.params with _ | ⟨c, _ | ⟨d, rest⟩⟩
  · rcases u.argument with _ | a
    · simpa using RuleDecl.Takes.nothing hp
    · simp only [List.head?_nil, reduceCtorEq, false_iff]
      intro h
      cases h <;> simp_all
  · rcases u.argument with _ | a
    · simp only [List.head?_cons, reduceCtorEq, false_iff]
      rintro ⟨h⟩
      simp_all
    · simp [RuleDecl.takes_iff_of_params hp]
  · simp [hp] at hparam

/-! ## Uses -/

/-- No two standard rules have one name. -/
lemma standardRules_name_injective {r r' : StandardRule} (hr : r ∈ standardRules)
    (hr' : r' ∈ standardRules) (h : r.name = r'.name) : r = r' := by
  have key : ∀ r ∈ standardRules, ∀ r' ∈ standardRules, r.name = r'.name → r = r' := by
    decide +kernel
  exact key r hr r' hr' h

section

variable {s : Schema} {t : FieldType} {u : RuleUse}

/-- The check of the use of a standard rule. -/
lemma Bundle.useFault?_iff_of_standard (hs : s.Orderly)
    (ht : ∀ n, t.base = .named n → s.KnowsType n.text) {r : StandardRule}
    (hfind : StandardRule.find? u.name.text = some r) :
    (Bundle.ofSchema s).useFault? t.base t.isArray u = none ↔ s.ValidUse t u := by
  have hr : r ∈ standardRules := List.mem_of_find?_eq_some hfind
  have hname : r.name = u.name.text := by simpa using List.find?_some hfind
  simp only [useFault?, hfind]
  constructor
  · intro h
    split at h
    · next happlies =>
        have hsuits := (StandardRule.appliesTo_iff hs hr ht).1 happlies
        exact .standard hr hname hsuits ((standardArgumentFault?_eq_none_iff hr hsuits).1 h)
    · exact absurd h (by simp)
  · rintro (⟨hr', hname', hsuits, htakes⟩ | ⟨hr', hname', _, _, _⟩)
    · obtain rfl := standardRules_name_injective hr' hr (hname'.trans hname.symm)
      rw [if_pos ((StandardRule.appliesTo_iff hs hr ht).2 hsuits)]
      exact (standardArgumentFault?_eq_none_iff hr hsuits).2 htakes
    · exact absurd (hname'.trans hname.symm) (hs.notStandard _ hr' r hr)

/-- The check of the use of a rule that is no standard one. -/
lemma Bundle.useFault?_iff_of_declared (hs : s.Orderly)
    (hfind : StandardRule.find? u.name.text = none) :
    (Bundle.ofSchema s).useFault? t.base t.isArray u = none ↔ s.ValidUse t u := by
  have hnone : ∀ r ∈ standardRules, r.name ≠ u.name.text := by
    simpa [StandardRule.find?] using hfind
  simp only [useFault?, hfind]
  constructor
  · intro h
    cases hrule : (Bundle.ofSchema s).rules[u.name.text]? with
    | none => simp [hrule] at h
    | some r =>
        obtain ⟨hr, hname⟩ := mem_of_firstByName hrule
        obtain ⟨c, hone, _⟩ := (hs.rules r hr).target
        have hc : c ∈ r.targets := by simp [hone]
        simp only [hrule, hone, List.head?_cons] at h
        split at h
        · next hcovers =>
            have hsuits := (TypeClause.covers_iff (hs.target_ne_object hr hc)).1 hcovers
            exact .declared hr hname hc hsuits
              ((declaredArgumentFault?_eq_none_iff (hs.rules r hr).param).1 h)
        · exact absurd h (by simp)
  · rintro (⟨hr, hname, _, _⟩ | ⟨hr, hname, hc, hsuits, htakes⟩)
    · exact absurd hname (hnone _ hr)
    · have hrule : (Bundle.ofSchema s).rules[u.name.text]? = some _ :=
        hname ▸ firstByName_of_mem hs.uniqueRules hr
      obtain ⟨c', hone, _⟩ := (hs.rules _ hr).target
      obtain rfl : _ = c' := by simpa [hone] using hc
      simp only [hrule, hone, List.head?_cons]
      rw [if_pos ((TypeClause.covers_iff (hs.target_ne_object hr hc)).2 hsuits)]
      exact (declaredArgumentFault?_eq_none_iff (hs.rules _ hr).param).2 htakes

/-- **The check of a use finds nothing** if the use is valid. -/
theorem Bundle.useFault?_eq_none_iff (hs : s.Orderly)
    (ht : ∀ n, t.base = .named n → s.KnowsType n.text) :
    (Bundle.ofSchema s).useFault? t.base t.isArray u = none ↔ s.ValidUse t u := by
  cases hfind : StandardRule.find? u.name.text with
  | some r => exact useFault?_iff_of_standard hs ht hfind
  | none => exact useFault?_iff_of_declared hs hfind

end

end RpcSchema
