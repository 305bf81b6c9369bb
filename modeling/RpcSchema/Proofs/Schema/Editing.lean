import Mathlib.Data.List.Basic
import RpcSchema.Proofs.Schema.Docstrings
import RpcSchema.Proofs.Schema.Edits

/-!
# What edits do to a schema

An edit is made at every node, so it goes along with whatever takes a tree apart: the declarations
of an edited schema are the edited declarations (`Edit.rules_schema` and the like), and its
docstrings the edited docstrings (`Edit.docstrings_schema`).

* `Edit.after` is one edit after another, `Edit.statement_after` says so.
* Giving new texts to docstrings is an edit (`Statement.withTexts_eq`).
* `Edit.inFile` forgets the place of everything but its file.
-/

namespace RpcSchema

/-- Mapping in two steps is mapping once. -/
lemma map_eq_map_map {α β γ : Type} {f : α → γ} {g : β → γ} {h : α → β} (hf : ∀ a, f a = g (h a))
    (as : List α) : as.map f = (as.map h).map g := by
  rw [List.map_map]
  exact List.map_congr_left fun a _ => hf a

/-- If what is picked out of an edited entry is what is picked out of the entry, edited, then so it
is for lists. -/
lemma filterMap_map_comm {α β : Type} {pick : α → Option β} {f : α → α} {g : β → β}
    (h : ∀ a, pick (f a) = (pick a).map g) (as : List α) :
    (as.map f).filterMap pick = (as.filterMap pick).map g := by
  rw [List.filterMap_map, List.map_filterMap]
  exact congrArg (List.filterMap · as) (funext h)

namespace Edit

/-- Forgets the place of everything within its file. -/
def inFile : Edit := { span := fun s => .startOf ⟨s.file, ""⟩ }

/-- Gives new texts to docstrings. -/
def texts (text : Docstring → String) : Edit := { text := text }

/-- The same edit, but for imports, whose paths it forgets. -/
def pathless (e : Edit) : Edit := { e with path := fun _ => "" }

/-! ## One edit after another -/

/-- An edit after another one. -/
def after (e f : Edit) : Edit where
  span s := e.span (f.span s)
  text d := e.text (f.docstring d)
  path i := e.path (f.importStatement i)

variable (e f : Edit)

lemma argument_after (a : Argument) : (e.after f).argument a = e.argument (f.argument a) := by
  cases a with
  | single l => rfl
  | array span items =>
      rw [argument, argument, argument, List.map_map]
      rfl

lemma ruleUse_after (u : RuleUse) : (e.after f).ruleUse u = e.ruleUse (f.ruleUse u) := by
  have hargument : (e.after f).argument = e.argument ∘ f.argument := funext (argument_after e f)
  simp only [ruleUse, Option.map_map, hargument]
  rfl

lemma docstrings_after (d : Option Docstring) :
    d.map (e.after f).docstring = (d.map f.docstring).map e.docstring := by
  rw [Option.map_map]
  rfl

mutual

lemma fieldBase_after : ∀ base : FieldBase,
    (e.after f).fieldBase base = e.fieldBase (f.fieldBase base)
  | .named _ => rfl
  | .object items => by rw [fieldBase, fieldBase, fieldBase, fieldItems_after items]

lemma fieldItems_after : ∀ items : List FieldItem,
    (e.after f).fieldItems items = e.fieldItems (f.fieldItems items)
  | [] => rfl
  | .field ⟨_, _, _, _, ⟨_, base, _⟩, rules⟩ :: rest => by
      rw [fieldItems, fieldItems, fieldItems, fieldBase_after base, fieldItems_after rest,
        docstrings_after, map_eq_map_map (ruleUse_after e f)]
      rfl
  | .comment _ :: rest => by
      rw [fieldItems, fieldItems, fieldItems, fieldItems_after rest]
      rfl
  | .docstring _ :: rest => by
      rw [fieldItems, fieldItems, fieldItems, fieldItems_after rest]
      rfl

end

lemma ruleItem_after (item : RuleItem) :
    (e.after f).ruleItem item = e.ruleItem (f.ruleItem item) := by cases item <;> rfl

lemma metaItem_after (item : MetaItem) :
    (e.after f).metaItem item = e.metaItem (f.metaItem item) := by cases item <;> rfl

lemma procItem_after (item : ProcItem) :
    (e.after f).procItem item = e.procItem (f.procItem item) := by
  cases item with
  | metadata b =>
      rw [procItem, metaBlock, map_eq_map_map (metaItem_after e f)]
      rfl
  | comment c => rfl
  | _ b =>
      rw [procItem, fieldBlock, fieldItems_after]
      rfl

lemma declaration_after {ι : Type} {items items₁ items₂ : List ι → List ι}
    (h : ∀ is, items is = items₁ (items₂ is)) (d : Declaration ι) :
    (e.after f).declaration items d = e.declaration items₁ (f.declaration items₂ d) := by
  have hdeprecation : d.deprecation.map (e.after f).deprecation
      = (d.deprecation.map f.deprecation).map e.deprecation := by
    rw [Option.map_map]
    rfl
  rw [declaration, h, docstrings_after, hdeprecation]
  rfl

lemma procDecl_after (d : ProcDecl) : (e.after f).procDecl d = e.procDecl (f.procDecl d) :=
  declaration_after e f (map_eq_map_map (procItem_after e f)) d

/-- What is edited after an edit is edited by both. -/
lemma statement_after (s : Statement) :
    (e.after f).statement s = e.statement (f.statement s) := by
  cases s with
  | rule d =>
      exact congrArg Statement.rule (declaration_after e f (map_eq_map_map (ruleItem_after e f)) d)
  | type d => exact congrArg Statement.type (declaration_after e f (fieldItems_after e f) d)
  | proc d => exact congrArg Statement.proc (procDecl_after e f d)
  | stream d => exact congrArg Statement.stream (procDecl_after e f d)
  | _ => rfl

/-! ## What statements are made of -/

variable {e f}

lemma span_statement (s : Statement) : (e.statement s).span = e.span s.span := by cases s <;> rfl

lemma import?_statement (s : Statement) :
    (e.statement s).import? = s.import?.map e.importStatement := by cases s <;> rfl

lemma rules_schema (s : Schema) : (e.schema s).rules = s.rules.map e.ruleDecl :=
  filterMap_map_comm (fun t => by cases t <;> rfl) s.statements

lemma types_schema (s : Schema) : (e.schema s).types = s.types.map e.typeDecl :=
  filterMap_map_comm (fun t => by cases t <;> rfl) s.statements

/-! ## Docstrings -/

mutual

lemma docstrings_fieldBase : ∀ base : FieldBase,
    (e.fieldBase base).docstrings = base.docstrings.map e.docstring
  | .named _ => rfl
  | .object items => by
      rw [fieldBase, FieldBase.docstrings, FieldBase.docstrings, docstrings_fieldItems items]

lemma docstrings_fieldItems : ∀ items : List FieldItem,
    FieldItem.docstrings (e.fieldItems items) = (FieldItem.docstrings items).map e.docstring
  | [] => rfl
  | .field ⟨_, docstring, _, _, ⟨_, base, _⟩, _⟩ :: rest => by
      rw [fieldItems, FieldItem.docstrings, FieldItem.docstrings, docstrings_fieldBase base,
        docstrings_fieldItems rest, Option.toList_map, List.map_append, List.map_append]
  | .comment _ :: rest => by
      rw [fieldItems, FieldItem.docstrings, FieldItem.docstrings, docstrings_fieldItems rest]
  | .docstring _ :: rest => by
      rw [fieldItems, FieldItem.docstrings, FieldItem.docstrings, docstrings_fieldItems rest,
        List.map_cons]

end

lemma docstrings_procItem (item : ProcItem) :
    (e.procItem item).docstrings = item.docstrings.map e.docstring := by
  cases item with
  | input b => exact docstrings_fieldItems b.items
  | output b => exact docstrings_fieldItems b.items
  | _ => rfl

lemma docstrings_statement (s : Statement) :
    (e.statement s).docstrings = s.docstrings.map e.docstring := by
  have hprocs : ∀ items : List ProcItem, (items.map e.procItem).flatMap ProcItem.docstrings
      = (items.flatMap ProcItem.docstrings).map e.docstring := by
    intro items
    rw [List.flatMap_map, List.map_flatMap]
    exact List.flatMap_congr fun item _ => docstrings_procItem item
  cases s with
  | rule d => exact Option.toList_map
  | type d =>
      rw [Statement.docstrings, List.map_append, ← Option.toList_map, ← docstrings_fieldItems]
      rfl
  | proc d =>
      rw [Statement.docstrings, List.map_append, ← Option.toList_map, ← hprocs]
      rfl
  | stream d =>
      rw [Statement.docstrings, List.map_append, ← Option.toList_map, ← hprocs]
      rfl
  | _ => rfl

/-- The docstrings of an edited schema are the edited docstrings. -/
lemma docstrings_schema (s : Schema) :
    (e.schema s).docstrings = s.docstrings.map e.docstring := by
  rw [Schema.docstrings, Schema.docstrings, schema, List.flatMap_map, List.map_flatMap]
  exact List.flatMap_congr fun t _ => docstrings_statement t

/-! ## New texts -/

variable {text : Docstring → String}

lemma ruleUse_texts (u : RuleUse) : (texts text).ruleUse u = u := by
  have hargument : (texts text).argument = id := by
    funext a
    cases a with
    | single l => rfl
    | array span items => exact congrArg (Argument.array span) (List.map_id' items)
  rw [ruleUse, hargument, Option.map_id]
  exact congrArg (RuleUse.mk _ _ _) Option.map_id'

lemma ruleItem_texts : (texts text).ruleItem = id := by
  funext item
  cases item <;> rfl

lemma metaItem_texts : (texts text).metaItem = id := by
  funext item
  cases item <;> rfl

lemma mapOptionM_texts (d : Option Docstring) :
    Id.run (Docstring.mapOptionM (fun d => pure (text d)) d) = d.map (texts text).docstring := by
  cases d <;> rfl

mutual

lemma fieldBase_texts : ∀ base : FieldBase,
    Id.run (base.mapDocstringsM fun d => pure (text d)) = (texts text).fieldBase base
  | .named _ => rfl
  | .object items => congrArg FieldBase.object (fieldItems_texts items)

lemma fieldItems_texts : ∀ items : List FieldItem,
    Id.run (FieldItem.mapDocstringsM (fun d => pure (text d)) items) = (texts text).fieldItems items
  | [] => rfl
  | .field ⟨span, docstring, name, optional, ⟨typeSpan, base, isArray⟩, rules⟩ :: rest => by
      have hrules : rules.map (texts text).ruleUse = rules := by
        rw [funext ruleUse_texts]
        exact List.map_id' rules
      rw [fieldItems, ← mapOptionM_texts, ← fieldBase_texts base, ← fieldItems_texts rest, hrules]
      rfl
  | .comment _ :: rest => by
      rw [fieldItems, ← fieldItems_texts rest]
      rfl
  | .docstring _ :: rest => by
      rw [fieldItems, ← fieldItems_texts rest]
      rfl

end

lemma procItem_texts (item : ProcItem) :
    Id.run (item.mapDocstringsM fun d => pure (text d)) = (texts text).procItem item := by
  cases item with
  | input b => exact congrArg (fun is => ProcItem.input ⟨b.span, is⟩) (fieldItems_texts b.items)
  | output b => exact congrArg (fun is => ProcItem.output ⟨b.span, is⟩) (fieldItems_texts b.items)
  | metadata b =>
      rw [procItem, metaBlock, metaItem_texts, List.map_id]
      rfl
  | comment c => rfl

lemma declaration_texts {ι : Type} {body : List ι → Id (List ι)} {items : List ι → List ι}
    (h : ∀ is, Id.run (body is) = items is) (d : Declaration ι) :
    Id.run (d.mapDocstringsM (fun d => pure (text d)) body) = (texts text).declaration items d := by
  have hdeprecation : d.deprecation.map (texts text).deprecation = d.deprecation := Option.map_id'
  rw [declaration, ← mapOptionM_texts, ← h, hdeprecation]
  rfl

/-- **Giving new texts to docstrings is an edit.** -/
lemma withTexts_eq (s : Statement) : s.withTexts text = (texts text).statement s := by
  have hprocs : ∀ items : List ProcItem,
      Id.run (items.mapM (ProcItem.mapDocstringsM fun d => pure (text d)))
        = items.map (texts text).procItem := by
    intro items
    rw [← funext procItem_texts]
    exact List.idRun_mapM
  cases s with
  | rule d =>
      refine congrArg Statement.rule (declaration_texts (fun is => ?_) d)
      rw [ruleItem_texts, List.map_id]
      rfl
  | type d => exact congrArg Statement.type (declaration_texts fieldItems_texts d)
  | proc d => exact congrArg Statement.proc (declaration_texts hprocs d)
  | stream d => exact congrArg Statement.stream (declaration_texts hprocs d)
  | _ => rfl

lemma schema_texts (statements : List Statement) :
    (⟨statements.map (Statement.withTexts text)⟩ : Schema) = (texts text).schema ⟨statements⟩ := by
  rw [schema, funext withTexts_eq]

/-! ## The edit that changes nothing -/

lemma docstring_unchanged : ({} : Edit).docstring = id := rfl

mutual

lemma fieldBase_unchanged : ∀ base : FieldBase, ({} : Edit).fieldBase base = base
  | .named _ => rfl
  | .object items => by rw [fieldBase, fieldItems_unchanged items]

lemma fieldItems_unchanged : ∀ items : List FieldItem, ({} : Edit).fieldItems items = items
  | [] => rfl
  | .field ⟨_, _, _, _, ⟨_, base, _⟩, _⟩ :: rest => by
      have huses : ({} : Edit).ruleUse = id := funext fun u => @ruleUse_texts Docstring.text u
      rw [fieldItems, fieldBase_unchanged base, fieldItems_unchanged rest, docstring_unchanged, huses,
        Option.map_id, List.map_id]
      rfl
  | .comment _ :: rest => by
      rw [fieldItems, fieldItems_unchanged rest]
      rfl
  | .docstring _ :: rest => by
      rw [fieldItems, fieldItems_unchanged rest]
      rfl

end

lemma procItem_unchanged : ({} : Edit).procItem = id := by
  have hitems : ({} : Edit).metaItem = id := @metaItem_texts Docstring.text
  funext item
  cases item with
  | input b => exact congrArg (fun is => ProcItem.input ⟨b.span, is⟩) (fieldItems_unchanged b.items)
  | output b => exact congrArg (fun is => ProcItem.output ⟨b.span, is⟩) (fieldItems_unchanged b.items)
  | metadata b =>
      rw [procItem, metaBlock, hitems, List.map_id]
      rfl
  | comment c => rfl

lemma declaration_unchanged {ι : Type} {items : List ι → List ι} (h : items = id) (d : Declaration ι) :
    ({} : Edit).declaration items d = d := by
  have hdeprecation : d.deprecation.map ({} : Edit).deprecation = d.deprecation := Option.map_id'
  rw [declaration, h, docstring_unchanged, Option.map_id, hdeprecation]
  rfl

lemma statement_unchanged (s : Statement) : ({} : Edit).statement s = s := by
  have hrules : ({} : Edit).ruleItem = id := @ruleItem_texts Docstring.text
  cases s with
  | rule d =>
      exact congrArg Statement.rule (declaration_unchanged (by rw [hrules, List.map_id_fun]) d)
  | type d =>
      exact congrArg Statement.type (declaration_unchanged (funext fieldItems_unchanged) d)
  | proc d =>
      exact congrArg Statement.proc
        (declaration_unchanged (by rw [procItem_unchanged, List.map_id_fun]) d)
  | stream d =>
      exact congrArg Statement.stream
        (declaration_unchanged (by rw [procItem_unchanged, List.map_id_fun]) d)
  | _ => rfl

lemma schema_unchanged (s : Schema) : ({} : Edit).schema s = s :=
  congrArg Schema.mk (List.map_id'' statement_unchanged s.statements)

/-! ## Without the paths of imports -/

mutual

lemma fieldBase_pathless : ∀ base : FieldBase, e.pathless.fieldBase base = e.fieldBase base
  | .named _ => rfl
  | .object items => congrArg FieldBase.object (fieldItems_pathless items)

lemma fieldItems_pathless : ∀ items : List FieldItem,
    e.pathless.fieldItems items = e.fieldItems items
  | [] => rfl
  | .field ⟨_, _, _, _, ⟨_, base, _⟩, _⟩ :: rest => by
      rw [fieldItems, fieldItems, fieldBase_pathless base, fieldItems_pathless rest]
      rfl
  | .comment _ :: rest => by
      rw [fieldItems, fieldItems, fieldItems_pathless rest]
      rfl
  | .docstring _ :: rest => by
      rw [fieldItems, fieldItems, fieldItems_pathless rest]
      rfl

end

/-- The paths of imports are in imports only. -/
lemma statement_pathless {s : Statement} (h : s.import? = none) :
    e.pathless.statement s = e.statement s := by
  have hprocs : e.pathless.procItem = e.procItem := by
    funext item
    cases item with
    | input b => exact congrArg (fun is => ProcItem.input ⟨e.span b.span, is⟩) (fieldItems_pathless _)
    | output b => exact congrArg (fun is => ProcItem.output ⟨e.span b.span, is⟩) (fieldItems_pathless _)
    | _ => rfl
  cases s with
  | type d =>
      rw [statement, typeDecl, funext fieldItems_pathless]
      rfl
  | proc d =>
      rw [statement, procDecl, hprocs]
      rfl
  | stream d =>
      rw [statement, procDecl, hprocs]
      rfl
  | imports i => cases h
  | _ => rfl

end Edit

end RpcSchema
