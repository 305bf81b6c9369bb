import RpcSchema.Schema.Declaration

/-!
# Schemas

A schema is the list of statements of one file, or of several files that were merged.  The order of the
statements is kept, and so are comments.

* `Statement.name?` is the name that a statement declares, `Statement.isDeclaration` tells statements
  that say something from comments and docstrings.
* `Schema.rules`, `types`, `procs`, `streams` and `imports` are the statements of one kind.
-/

namespace RpcSchema

/-- The version of the schema language that a file is written in. -/
structure VersionStatement where
  span : Span
  number : Nat
deriving DecidableEq, Repr, Inhabited

/-- The path of a file whose statements are to stand in place of this one. -/
structure ImportStatement where
  span : Span
  path : String
deriving DecidableEq, Repr, Inhabited

/-- An entry of a schema. -/
inductive Statement where
  | version (statement : VersionStatement)
  | comment (comment : Comment)
  | docstring (docstring : Docstring)
  | rule (decl : RuleDecl)
  | type (decl : TypeDecl)
  | proc (decl : ProcDecl)
  | stream (decl : ProcDecl)
  | imports (statement : ImportStatement)

namespace Statement

/-- Where a statement is written. -/
def span : Statement → Span
  | .version s => s.span
  | .comment c => c.span
  | .docstring d => d.span
  | .rule d => d.span
  | .type d => d.span
  | .proc d => d.span
  | .stream d => d.span
  | .imports s => s.span

/-- The name that a statement declares. -/
def name? : Statement → Option Name
  | .rule d => some d.name
  | .type d => some d.name
  | .proc d => some d.name
  | .stream d => some d.name
  | _ => none

/-- Whether a statement says something to the machine: all but comments and docstrings do. -/
def isDeclaration : Statement → Bool
  | .comment _ | .docstring _ => false
  | _ => true

/-- The rule that a statement declares. -/
def rule? : Statement → Option RuleDecl
  | .rule d => some d
  | _ => none

/-- The type that a statement declares. -/
def type? : Statement → Option TypeDecl
  | .type d => some d
  | _ => none

/-- The procedure that a statement declares. -/
def proc? : Statement → Option ProcDecl
  | .proc d => some d
  | _ => none

/-- The stream that a statement declares. -/
def stream? : Statement → Option ProcDecl
  | .stream d => some d
  | _ => none

/-- The import that a statement is. -/
def import? : Statement → Option ImportStatement
  | .imports s => some s
  | _ => none

end Statement

/-- A list of statements. -/
structure Schema where
  statements : List Statement

namespace Schema

/-- The rules of a schema. -/
def rules (s : Schema) : List RuleDecl := s.statements.filterMap Statement.rule?

/-- The types of a schema. -/
def types (s : Schema) : List TypeDecl := s.statements.filterMap Statement.type?

/-- The procedures of a schema. -/
def procs (s : Schema) : List ProcDecl := s.statements.filterMap Statement.proc?

/-- The streams of a schema. -/
def streams (s : Schema) : List ProcDecl := s.statements.filterMap Statement.stream?

/-- The imports of a schema. -/
def imports (s : Schema) : List ImportStatement := s.statements.filterMap Statement.import?

end Schema

end RpcSchema
