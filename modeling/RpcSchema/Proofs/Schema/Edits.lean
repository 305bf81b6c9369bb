import Mathlib.Tactic.Lemma
import RpcSchema.Schema.Docstrings

/-!
# Edits

What is said about two schemas that are alike in all but some respect is said with an edit: a change of
the places that the nodes were read from, of the texts of docstrings and of the paths of imports, made
everywhere in a tree at once.  Names, types, values, comments and the order of everything stay.

* `Edit.withoutText` forgets the texts of docstrings, `Edit.withoutPlace` where everything was read.
-/

namespace RpcSchema

/-- New places, docstring texts and import paths; what is not mentioned stays. -/
structure Edit where
  span : Span → Span := id
  text : Docstring → String := Docstring.text
  path : ImportStatement → String := ImportStatement.path

namespace Edit

/-! ## The edit at every node -/

variable (e : Edit)

/-- The edit of a name. -/
def name (n : Name) : Name := { n with span := e.span n.span }

/-- The edit of a literal. -/
def literal (l : Literal) : Literal := { l with span := e.span l.span }

/-- The edit of a comment. -/
def comment (c : Comment) : Comment := { c with span := e.span c.span }

/-- The edit of a docstring. -/
def docstring (d : Docstring) : Docstring := ⟨e.span d.span, e.text d⟩

/-- The edit of a deprecation. -/
def deprecation (d : Deprecation) : Deprecation := { d with span := e.span d.span }

/-- The edit of a message. -/
def errorClause (c : ErrorClause) : ErrorClause := { c with span := e.span c.span }

/-- The edit of what a rule is given. -/
def argument : Argument → Argument
  | .single l => .single (e.literal l)
  | .array span items => .array (e.span span) (items.map e.literal)

/-- The edit of the use of a rule. -/
def ruleUse (u : RuleUse) : RuleUse :=
  ⟨e.span u.span, e.name u.name, u.argument.map e.argument, u.error.map e.errorClause⟩

mutual

/-- The edit of what the values of a field are. -/
def fieldBase : FieldBase → FieldBase
  | .named n => .named (e.name n)
  | .object items => .object (fieldItems items)

/-- The edit of a list of fields. -/
def fieldItems : List FieldItem → List FieldItem
  | [] => []
  | .field ⟨span, docstring, name, optional, ⟨typeSpan, base, isArray⟩, rules⟩ :: rest =>
    .field ⟨e.span span, docstring.map e.docstring, e.name name, optional,
      ⟨e.span typeSpan, fieldBase base, isArray⟩, rules.map e.ruleUse⟩ :: fieldItems rest
  | .comment c :: rest => .comment (e.comment c) :: fieldItems rest
  | .docstring d :: rest => .docstring (e.docstring d) :: fieldItems rest

end

/-- The edit of a field's type. -/
def fieldType (t : FieldType) : FieldType := { t with span := e.span t.span, base := e.fieldBase t.base }

/-- The edit of a field. -/
def field (f : Field) : Field :=
  ⟨e.span f.span, f.docstring.map e.docstring, e.name f.name, f.optional, e.fieldType f.type,
    f.rules.map e.ruleUse⟩

/-- The edit of an entry of a list of fields. -/
def fieldItem : FieldItem → FieldItem
  | .field f => .field (e.field f)
  | .comment c => .comment (e.comment c)
  | .docstring d => .docstring (e.docstring d)

/-- The edit of a clause that names a type. -/
def typeClause (c : TypeClause) : TypeClause :=
  { c with span := e.span c.span, type := e.name c.type }

/-- The edit of an entry of a rule's body. -/
def ruleItem : RuleItem → RuleItem
  | .target c => .target (e.typeClause c)
  | .param c => .param (e.typeClause c)
  | .error c => .error (e.errorClause c)
  | .comment c => .comment (e.comment c)

/-- The edit of a block of fields. -/
def fieldBlock (b : FieldBlock) : FieldBlock := ⟨e.span b.span, e.fieldItems b.items⟩

/-- The edit of a fact. -/
def metaEntry (m : MetaEntry) : MetaEntry := ⟨e.span m.span, e.name m.key, e.literal m.value⟩

/-- The edit of an entry of a block of metadata. -/
def metaItem : MetaItem → MetaItem
  | .entry m => .entry (e.metaEntry m)
  | .comment c => .comment (e.comment c)

/-- The edit of a block of metadata. -/
def metaBlock (b : MetaBlock) : MetaBlock := ⟨e.span b.span, b.items.map e.metaItem⟩

/-- The edit of an entry of a procedure's body. -/
def procItem : ProcItem → ProcItem
  | .input b => .input (e.fieldBlock b)
  | .output b => .output (e.fieldBlock b)
  | .metadata b => .metadata (e.metaBlock b)
  | .comment c => .comment (e.comment c)

/-- The edit of a declaration whose body is edited by `items`. -/
def declaration {ι : Type} (items : List ι → List ι) (d : Declaration ι) : Declaration ι :=
  ⟨e.span d.span, e.name d.name, d.docstring.map e.docstring, d.deprecation.map e.deprecation,
    items d.items⟩

/-- The edit of a rule. -/
def ruleDecl : RuleDecl → RuleDecl := e.declaration (List.map e.ruleItem)

/-- The edit of a type. -/
def typeDecl : TypeDecl → TypeDecl := e.declaration e.fieldItems

/-- The edit of a procedure or stream. -/
def procDecl : ProcDecl → ProcDecl := e.declaration (List.map e.procItem)

/-- The edit of the statement of the version. -/
def versionStatement (s : VersionStatement) : VersionStatement := { s with span := e.span s.span }

/-- The edit of an import. -/
def importStatement (s : ImportStatement) : ImportStatement := ⟨e.span s.span, e.path s⟩

/-- The edit of a statement. -/
def statement : Statement → Statement
  | .version s => .version (e.versionStatement s)
  | .comment c => .comment (e.comment c)
  | .docstring d => .docstring (e.docstring d)
  | .rule d => .rule (e.ruleDecl d)
  | .type d => .type (e.typeDecl d)
  | .proc d => .proc (e.procDecl d)
  | .stream d => .stream (e.procDecl d)
  | .imports s => .imports (e.importStatement s)

/-- The edit of a schema. -/
def schema (s : Schema) : Schema := ⟨s.statements.map e.statement⟩

/-! ## Edits of one kind -/

/-- Forgets the texts of docstrings. -/
def withoutText : Edit := { text := fun _ => "" }

/-- Forgets where everything was read from. -/
def withoutPlace : Edit := { span := fun _ => default }

/-! ## Lists of fields -/

lemma fieldItems_eq_map (items : List FieldItem) : e.fieldItems items = items.map e.fieldItem := by
  induction items with
  | nil => rw [fieldItems, List.map_nil]
  | cons item items ih =>
      cases item with
      | field f =>
          obtain ⟨_, _, _, _, ⟨_, _, _⟩, _⟩ := f
          rw [fieldItems, ih]
          rfl
      | comment c => rw [fieldItems, ih]; rfl
      | docstring d => rw [fieldItems, ih]; rfl

end Edit

end RpcSchema
