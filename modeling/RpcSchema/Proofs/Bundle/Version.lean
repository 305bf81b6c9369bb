import RpcSchema.Proofs.Bundle.Following

/-!
# Where the version rule is broken

A file may state its version once, in front of all but comments and docstrings, and the version must be the
one that is supported (`Schema.KeepsVersionRule`).  The check finds nothing in a file that keeps the rule.
In any other it finds one thing, at the first statement that breaks the rule, and nothing of the file is
loaded (`Schema.version_rule`).

A version statement breaks the rule if something was declared before it, another version included, or if
it names a version that is not supported (`VersionStatement.Breaks`).  What is reported of it says which of
these it is, the first that applies (`VersionStatement.Breach`).

The check goes through the statements with two marks in place of the statements before: the first version
that was stated, and whether anything else was declared.
-/

namespace RpcSchema

/-! ## Breaches -/

/-- The version statement that a statement is. -/
def Statement.version? : Statement → Option VersionStatement
  | .version v => some v
  | _ => none

lemma Statement.eq_version_of_version? {s : Statement} {v : VersionStatement}
    (h : s.version? = some v) : s = .version v := by
  cases s <;> cases h
  rfl

/-- The version statement breaks the rule behind the given statements. -/
def VersionStatement.Breaks (supported : Int) (before : List Statement) (v : VersionStatement) : Prop :=
  (∃ s ∈ before, s.isDeclaration = true) ∨ (v.number : Int) ≠ supported

/-- How a version statement breaks the rule behind the given statements: a version was stated before; or
none was, but something else was declared; or nothing was, but the version is not supported. -/
inductive VersionStatement.Breach (supported : Int) (before : List Statement) (v : VersionStatement) :
    Fault → Prop where
  | repeated {first : VersionStatement} (stated : before.findSome? Statement.version? = some first) :
      Breach supported before v (.versionRepeated first.span)
  | late (unstated : before.findSome? Statement.version? = none)
      (declared : ∃ s ∈ before, s.isDeclaration = true) : Breach supported before v .versionLate
  | unsupported (undeclared : ∀ s ∈ before, s.isDeclaration = false)
      (other : (v.number : Int) ≠ supported) :
      Breach supported before v (.versionUnsupported v.number supported)

/-- Behind `before` there is the first version statement of a list that breaks the rule. -/
structure FirstBreach (supported : Int) (statements before : List Statement) (v : VersionStatement) :
    Prop where
  split : ∃ behind, statements = before ++ .version v :: behind
  breaks : v.Breaks supported before
  first : ∀ earlier w behind, before = earlier ++ .version w :: behind → ¬ w.Breaks supported earlier

/-- A schema states no version, or it states one, behind nothing but comments and docstrings, and that is
the supported one. -/
inductive Schema.KeepsVersionRule (supported : Int) (s : Schema) : Prop where
  | unstated (none : ∀ v, .version v ∉ s.statements) : KeepsVersionRule supported s
  | stated {before behind : List Statement} {v : VersionStatement}
      (split : s.statements = before ++ .version v :: behind)
      (leading : ∀ t ∈ before, (∃ c, t = .comment c) ∨ ∃ d, t = .docstring d)
      (once : ∀ w, .version w ∉ behind) (number : (v.number : Int) = supported) :
      KeepsVersionRule supported s

variable {supported : Int} {before done rest : List Statement} {v : VersionStatement}

/-- A version statement that breaks the rule breaks it in some way. -/
lemma VersionStatement.Breach.breaks {fault : Fault} (h : v.Breach supported before fault) :
    v.Breaks supported before := by
  cases h with
  | repeated stated =>
      obtain ⟨s, hs, hversion⟩ := List.exists_of_findSome?_eq_some stated
      exact Or.inl ⟨s, hs, by rw [Statement.eq_version_of_version? hversion]; rfl⟩
  | late _ declared => exact Or.inl declared
  | unsupported _ other => exact Or.inr other

/-- Of two places in a list, the second is before the first, the same, or behind it. -/
private lemma mem_or_eq_of_split {α : Type} {before behind front back : List α} {x y : α}
    (h : before ++ x :: behind = front ++ y :: back) :
    y ∈ before ∨ (front = before ∧ y = x) ∨ y ∈ behind := by
  obtain ⟨rest, rfl, hrest⟩ | ⟨rest, rfl, hrest⟩ := List.append_eq_append_iff.1 h
  · cases rest with
    | nil => exact Or.inr (Or.inl ⟨List.append_nil before, (List.cons.inj hrest).1.symm⟩)
    | cons z rest =>
        rw [(List.cons.inj hrest).2]
        exact Or.inr (Or.inr (List.mem_append_right rest List.mem_cons_self))
  · cases rest with
    | nil => exact Or.inr (Or.inl ⟨(List.append_nil front).symm, (List.cons.inj hrest).1⟩)
    | cons z rest =>
        rw [(List.cons.inj hrest).1]
        exact Or.inl (List.mem_append_right front List.mem_cons_self)

/-- The rule is kept if no version statement breaks it. -/
lemma Schema.keepsVersionRule_iff {s : Schema} :
    s.KeepsVersionRule supported ↔ ∀ before v behind,
      s.statements = before ++ .version v :: behind → ¬ v.Breaks supported before := by
  constructor
  · rintro (hnone | ⟨hsplit, hleading, honce, hnumber⟩) front v back hv
    · exact absurd (by rw [hv]; simp) (hnone v)
    · rcases mem_or_eq_of_split (hsplit.symm.trans hv) with hmem | ⟨rfl, hversion⟩ | hmem
      · obtain ⟨c, hc⟩ | ⟨d, hd⟩ := hleading (.version v) hmem
        · cases hc
        · cases hd
      · cases hversion
        rintro (⟨s, hs, hdeclared⟩ | hother)
        · obtain ⟨c, rfl⟩ | ⟨d, rfl⟩ := hleading s hs <;> cases hdeclared
        · exact hother hnumber
      · exact absurd hmem (honce v)
  · intro h
    by_cases hstated : ∃ v, .version v ∈ s.statements
    · obtain ⟨v, hv⟩ := hstated
      obtain ⟨before, behind, hsplit⟩ := List.append_of_mem hv
      obtain ⟨hundeclared, hnumber⟩ := not_or.1 (h before v behind hsplit)
      refine .stated hsplit ?_ ?_ (not_not.1 hnumber)
      · intro t ht
        cases t with
        | comment c => exact Or.inl ⟨c, rfl⟩
        | docstring d => exact Or.inr ⟨d, rfl⟩
        | _ => exact absurd ⟨_, ht, rfl⟩ hundeclared
      · -- a second version would come behind this one
        intro w hw
        obtain ⟨between, after, hbehind⟩ := List.append_of_mem hw
        refine h (before ++ .version v :: between) w after (by simp [hsplit, hbehind])
          (Or.inl ⟨.version v, by simp, rfl⟩)
    · exact .unstated fun v hv => hstated ⟨v, hv⟩

/-! ## The check -/

/-- The first mark: where a version was stated first. -/
private def statedIn (done : List Statement) : Option Span :=
  (done.findSome? Statement.version?).map (·.span)

/-- The second mark: whether anything but a version was declared. -/
private def declaredIn (done : List Statement) : Bool :=
  done.any fun s => s.isDeclaration && s.version?.isNone

private lemma statedIn_concat (done : List Statement) (s : Statement) :
    statedIn (done ++ [s]) = (statedIn done).or (s.version?.map (·.span)) := by
  rw [statedIn, statedIn, List.findSome?_append]
  cases done.findSome? Statement.version? <;> simp

private lemma declaredIn_concat (done : List Statement) (s : Statement) :
    declaredIn (done ++ [s]) = (declaredIn done || s.isDeclaration && s.version?.isNone) := by
  simp [declaredIn, List.any_append]

/-- The marks together tell whether anything was declared. -/
private lemma exists_isDeclaration_iff : (∃ s ∈ done, s.isDeclaration = true) ↔
    (statedIn done).isSome = true ∨ declaredIn done = true := by
  simp only [statedIn, declaredIn, Option.isSome_map, List.findSome?_isSome_iff, List.any_eq_true,
    Bool.and_eq_true, Option.isNone_iff_eq_none]
  constructor
  · rintro ⟨s, hs, hdeclared⟩
    cases hversion : s.version? with
    | some v => exact Or.inl ⟨s, hs, by rw [hversion]; rfl⟩
    | none => exact Or.inr ⟨s, hs, hdeclared, hversion⟩
  · rintro (⟨s, hs, hversion⟩ | ⟨s, hs, hdeclared, _⟩)
    · obtain ⟨v, hv⟩ := Option.isSome_iff_exists.1 hversion
      exact ⟨s, hs, by rw [Statement.eq_version_of_version? hv]; rfl⟩
    · exact ⟨s, hs, hdeclared⟩

/-- One step of the check: a version statement is refused, or the marks are brought up to date. -/
private lemma versionFinding?_cons (supported : Int) (done : List Statement) (s : Statement)
    (rest : List Statement) :
    (∃ v fault, s = .version v ∧ v.Breach supported done fault
        ∧ versionFinding? supported (statedIn done) (declaredIn done) (s :: rest)
          = some ⟨v.span, fault⟩)
      ∨ ((∀ v, s = .version v → ¬ v.Breaks supported done)
        ∧ versionFinding? supported (statedIn done) (declaredIn done) (s :: rest)
          = versionFinding? supported (statedIn (done ++ [s])) (declaredIn (done ++ [s])) rest) := by
  cases s with
  | version v =>
      cases hstated : done.findSome? Statement.version? with
      | some first =>
          exact Or.inl ⟨v, _, rfl, .repeated hstated, by simp [statedIn, hstated, versionFinding?]⟩
      | none =>
          have hmark : statedIn done = none := by simp [statedIn, hstated]
          cases hdeclared : declaredIn done with
          | true =>
              refine Or.inl ⟨v, _, rfl, .late hstated ?_, by simp [hmark, versionFinding?]⟩
              exact exists_isDeclaration_iff.2 (Or.inr hdeclared)
          | false =>
              have hnone : ¬ ∃ s ∈ done, s.isDeclaration = true := by
                rw [exists_isDeclaration_iff, hmark, hdeclared]
                simp
              by_cases hnumber : (v.number : Int) = supported
              · refine Or.inr ⟨?_, ?_⟩
                · rintro w ⟨⟩ (hbefore | hother)
                  · exact hnone hbefore
                  · exact hother hnumber
                · simp [statedIn_concat, declaredIn_concat, hmark, hdeclared, versionFinding?,
                    hnumber, Statement.version?]
              · refine Or.inl ⟨v, _, rfl, .unsupported ?_ hnumber, by simp [hmark, versionFinding?, hnumber]⟩
                simpa using hnone
  | _ =>
      refine Or.inr ⟨nofun, ?_⟩
      simp [statedIn_concat, declaredIn_concat, versionFinding?, Statement.version?]

/-- The check of what comes behind some statements. -/
private lemma versionFinding?_spec (supported : Int) (rest : List Statement) :
    ∀ done : List Statement,
    (∀ f, versionFinding? supported (statedIn done) (declaredIn done) rest = some f →
        ∃ before v behind, rest = before ++ .version v :: behind ∧ f.span = v.span
          ∧ v.Breach supported (done ++ before) f.fault
          ∧ ∀ earlier w between, before = earlier ++ .version w :: between →
            ¬ w.Breaks supported (done ++ earlier))
      ∧ (versionFinding? supported (statedIn done) (declaredIn done) rest = none →
        ∀ before v behind, rest = before ++ .version v :: behind →
          ¬ v.Breaks supported (done ++ before)) := by
  induction rest with
  | nil => exact fun done => ⟨nofun, fun _ before v behind h => by cases before <;> cases h⟩
  | cons s rest ih =>
      intro done
      rcases versionFinding?_cons supported done s rest with
        ⟨v, fault, rfl, hbreach, hfinding⟩ | ⟨hkeeps, hfinding⟩
      · rw [hfinding]
        refine ⟨?_, nofun⟩
        rintro f ⟨⟩
        refine ⟨[], v, rest, rfl, rfl, by rwa [List.append_nil], ?_⟩
        intro earlier w between h
        cases earlier <;> cases h
      · obtain ⟨hsome, hnone⟩ := ih (done ++ [s])
        simp only [List.append_assoc, List.singleton_append] at hsome hnone
        rw [hfinding]
        refine ⟨?_, ?_⟩
        · intro f hf
          obtain ⟨before, v, behind, rfl, hspan, hbreach, hfirst⟩ := hsome f hf
          refine ⟨s :: before, v, behind, rfl, hspan, hbreach, ?_⟩
          intro earlier w between h
          cases earlier with
          | nil =>
              cases h
              rw [List.append_nil]
              exact hkeeps w rfl
          | cons _ earlier =>
              cases h
              exact hfirst earlier w between rfl
        · intro hf before v behind h
          cases before with
          | nil =>
              cases h
              rw [List.append_nil]
              exact hkeeps v rfl
          | cons _ before =>
              cases h
              exact hnone hf before v behind rfl

/-- What the check finds is at the first statement that breaks the rule, and says how it does. -/
lemma Schema.firstBreach_of_versionFinding? {schema : Schema} {f : Finding}
    (h : schema.versionFinding? supported = some f) :
    ∃ before v, FirstBreach supported schema.statements before v
      ∧ v.Breach supported before f.fault ∧ f.span = v.span := by
  obtain ⟨before, v, behind, hsplit, hspan, hbreach, hfirst⟩ :=
    (versionFinding?_spec supported schema.statements []).1 f h
  exact ⟨before, v, ⟨⟨behind, hsplit⟩, hbreach.breaks, hfirst⟩, hbreach, hspan⟩

/-- If the check finds nothing, then no version statement breaks the rule. -/
lemma Schema.not_breaks_of_versionFinding? {schema : Schema}
    (h : schema.versionFinding? supported = none) {before behind : List Statement}
    {v : VersionStatement} (hsplit : schema.statements = before ++ .version v :: behind) :
    ¬ v.Breaks supported before :=
  (versionFinding?_spec supported schema.statements []).2 h before v behind hsplit

/-- The check finds nothing if the rule is kept. -/
lemma Schema.versionFinding?_eq_none_iff_keeps {schema : Schema} :
    schema.versionFinding? supported = none ↔ schema.KeepsVersionRule supported := by
  rw [keepsVersionRule_iff]
  constructor
  · exact fun h before v behind hsplit => not_breaks_of_versionFinding? h hsplit
  · intro h
    cases hfinding : schema.versionFinding? supported with
    | none => rfl
    | some f =>
        obtain ⟨before, v, hbreach, -, -⟩ := firstBreach_of_versionFinding? hfinding
        obtain ⟨behind, hsplit⟩ := hbreach.split
        exact absurd hbreach.breaks (h before v behind hsplit)

/-! ## The rule -/

/-- **The version rule.**  The check finds nothing in a schema that keeps the rule.  In any other it finds
one thing: it is at the first version statement that breaks the rule, and says how the statement does.
Loading a file with such a schema adds that finding and no statements. -/
theorem Schema.version_rule (schema : Schema) (settings : Settings) :
    (schema.versionFinding? settings.supportedVersion = none
        ↔ schema.KeepsVersionRule settings.supportedVersion)
      ∧ (¬ schema.KeepsVersionRule settings.supportedVersion →
        ∃ before v fault, FirstBreach settings.supportedVersion schema.statements before v
          ∧ v.Breach settings.supportedVersion before fault
          ∧ schema.versionFinding? settings.supportedVersion = some ⟨v.span, fault⟩
          ∧ ∀ (store : FileStore) (depth : Nat) (path contents : String)
              (importer : Option ImportStatement) (l : Loading), path ∉ l.entered →
              store.fetch ((importer.map (·.span.file)).getD "") path = .ok contents →
              Schema.ofSource ⟨path, contents⟩ = .ok schema →
              (enter store settings (depth + 1) path importer).run l
                = ([], ((l.enter path).record path contents).report ⟨v.span, fault⟩)) := by
  refine ⟨versionFinding?_eq_none_iff_keeps, ?_⟩
  intro hbroken
  obtain ⟨⟨span, fault⟩, hfinding⟩ := Option.ne_none_iff_exists'.1
    (mt versionFinding?_eq_none_iff_keeps.1 hbroken)
  obtain ⟨before, v, hfirst, hbreach, rfl⟩ := firstBreach_of_versionFinding? hfinding
  refine ⟨before, v, fault, hfirst, hbreach, hfinding, ?_⟩
  intro store depth path contents importer l hnew hfetch hschema
  have hrefused : Source.accepted ⟨path, contents⟩ settings = .error ⟨v.span, fault⟩ := by
    simp only [Source.accepted, hschema, hfinding]
  rw [FileStore.enter_of_not_mem depth importer hnew, hfetch]
  simp only [hrefused]

/-- A file that states its version, declares a type, and states another version. -/
def restated : FileStore :=
  FileStore.empty.insert "/a" "// main\nversion 1\ntype A \x7b\x7d\nversion 2\n"

/-- The second statement is refused as a second one, although it is also late and of another version. -/
theorem restated_version_rule : ∃ schema v, Schema.ofSource ⟨"/a", (restated.get? "/a").getD ""⟩ = .ok schema
    ∧ ¬ schema.KeepsVersionRule 1
    ∧ (enter restated {} 1 "/a" none).run .start
      = ([], ((Loading.start.enter "/a").record "/a" ((restated.get? "/a").getD "")).report v)
    ∧ v.message = "/a:4:1: version statement is already declared at /a:2:1" := by
  have hmessage : (Schema.ofSource ⟨"/a", (restated.get? "/a").getD ""⟩).toOption.map
        (fun schema => (schema.versionFinding? 1).map (·.message))
      = some (some "/a:4:1: version statement is already declared at /a:2:1") := by
    decide +kernel
  cases hschema : Schema.ofSource ⟨"/a", (restated.get? "/a").getD ""⟩ with
  | error e =>
      rw [hschema] at hmessage
      cases hmessage
  | ok schema =>
      simp only [hschema, Except.toOption, Option.map_some, Option.some_inj] at hmessage
      obtain ⟨f, hf, hmessage⟩ := Option.map_eq_some_iff.1 hmessage
      obtain ⟨hkeeps, hbroken⟩ := schema.version_rule {}
      have hnot : ¬ schema.KeepsVersionRule 1 := fun h => by
        rw [hkeeps.2 h] at hf
        cases hf
      obtain ⟨_, v, fault, _, _, hfinding, henter⟩ := hbroken hnot
      refine ⟨schema, ⟨v.span, fault⟩, rfl, hnot, ?_, ?_⟩
      · exact henter restated 0 "/a" _ none .start List.not_mem_nil (by decide +kernel) hschema
      · rw [hfinding] at hf
        cases hf
        exact hmessage

end RpcSchema
