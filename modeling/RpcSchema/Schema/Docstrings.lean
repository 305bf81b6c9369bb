import RpcSchema.Schema.Basic

/-!
# The docstrings of a schema

Docstrings stand by themselves, at declarations, and at fields at any depth.  They are visited in the
order of the text: the docstring of a declaration or field comes before what is inside it.

* `Schema.docstrings` lists them.
* `Schema.mapDocstringsM` gives each a new text.  The texts are computed one after another, with an
  effect, and nothing but the texts can change: the function that is given answers a text and not a
  docstring.
-/

namespace RpcSchema

variable {m : Type → Type} [Monad m]

/-! ## Visiting -/

/-- The docstring with the text that `f` gives it. -/
def Docstring.mapM (f : Docstring → m String) (d : Docstring) : m Docstring := do
  let text ← f d
  pure { d with text }

/-- An optional docstring with the text that `f` gives it. -/
def Docstring.mapOptionM (f : Docstring → m String) : Option Docstring → m (Option Docstring)
  | none => pure none
  | some d => do
    let d ← d.mapM f
    pure (some d)

mutual

/-- The type of a field, with new texts for the docstrings inside it. -/
def FieldBase.mapDocstringsM (f : Docstring → m String) : FieldBase → m FieldBase
  | .named name => pure (.named name)
  | .object items => do
    let items ← FieldItem.mapDocstringsM f items
    pure (.object items)

/-- A list of fields, with new texts for its docstrings. -/
def FieldItem.mapDocstringsM (f : Docstring → m String) : List FieldItem → m (List FieldItem)
  | [] => pure []
  | .field ⟨span, docstring, name, optional, ⟨typeSpan, base, isArray⟩, rules⟩ :: rest => do
    let docstring ← Docstring.mapOptionM f docstring
    let base ← base.mapDocstringsM f
    let rest ← FieldItem.mapDocstringsM f rest
    pure (.field ⟨span, docstring, name, optional, ⟨typeSpan, base, isArray⟩, rules⟩ :: rest)
  | .comment comment :: rest => do
    let rest ← FieldItem.mapDocstringsM f rest
    pure (.comment comment :: rest)
  | .docstring docstring :: rest => do
    let docstring ← docstring.mapM f
    let rest ← FieldItem.mapDocstringsM f rest
    pure (.docstring docstring :: rest)

end

/-- A block of fields, with new texts for its docstrings. -/
def FieldBlock.mapDocstringsM (f : Docstring → m String) (b : FieldBlock) : m FieldBlock := do
  let items ← FieldItem.mapDocstringsM f b.items
  pure { b with items }

/-- An entry of a procedure's body, with new texts for its docstrings. -/
def ProcItem.mapDocstringsM (f : Docstring → m String) : ProcItem → m ProcItem
  | .input b => .input <$> b.mapDocstringsM f
  | .output b => .output <$> b.mapDocstringsM f
  | item => pure item

/-- A declaration with new texts: for its own docstring first, then inside its body as `body` says. -/
def Declaration.mapDocstringsM {ι : Type} (f : Docstring → m String)
    (body : List ι → m (List ι)) (d : Declaration ι) : m (Declaration ι) := do
  let docstring ← Docstring.mapOptionM f d.docstring
  let items ← body d.items
  pure { d with docstring, items }

/-- A statement with new texts for its docstrings. -/
def Statement.mapDocstringsM (f : Docstring → m String) : Statement → m Statement
  | .docstring d => .docstring <$> d.mapM f
  | .rule d => .rule <$> d.mapDocstringsM f pure
  | .type d => .type <$> d.mapDocstringsM f (FieldItem.mapDocstringsM f)
  | .proc d => .proc <$> d.mapDocstringsM f (List.mapM (ProcItem.mapDocstringsM f))
  | .stream d => .stream <$> d.mapDocstringsM f (List.mapM (ProcItem.mapDocstringsM f))
  | other => pure other

/-- A schema with new texts for its docstrings. -/
def Schema.mapDocstringsM (f : Docstring → m String) (s : Schema) : m Schema := do
  let statements ← s.statements.mapM (Statement.mapDocstringsM f)
  pure { statements }

/-! ## Listing -/

mutual

/-- The docstrings inside the type of a field. -/
def FieldBase.docstrings : FieldBase → List Docstring
  | .named _ => []
  | .object items => FieldItem.docstrings items

/-- The docstrings of a list of fields. -/
def FieldItem.docstrings : List FieldItem → List Docstring
  | [] => []
  | .field ⟨_, docstring, _, _, ⟨_, base, _⟩, _⟩ :: rest =>
    docstring.toList ++ base.docstrings ++ FieldItem.docstrings rest
  | .comment _ :: rest => FieldItem.docstrings rest
  | .docstring d :: rest => d :: FieldItem.docstrings rest

end

/-- The docstrings in an entry of a procedure's body. -/
def ProcItem.docstrings : ProcItem → List Docstring
  | .input b | .output b => FieldItem.docstrings b.items
  | _ => []

/-- The docstrings of a statement. -/
def Statement.docstrings : Statement → List Docstring
  | .docstring d => [d]
  | .rule d => d.docstring.toList
  | .type d => d.docstring.toList ++ FieldItem.docstrings d.items
  | .proc d | .stream d => d.docstring.toList ++ d.items.flatMap ProcItem.docstrings
  | _ => []

/-- The docstrings of a schema, in the order of its text. -/
def Schema.docstrings (s : Schema) : List Docstring := s.statements.flatMap Statement.docstrings

end RpcSchema
