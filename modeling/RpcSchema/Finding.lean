import RpcSchema.Files.Store
import RpcSchema.Grammar.Error
import RpcSchema.Schema.Basic
import RpcSchema.Source.Excerpt

/-!
# Findings

A finding is something wrong with a schema, and where.  Loading and checking go on after one, so that
a reader sees all that is wrong at once; the findings come out in the order in which they were made.

What is wrong is kept as a `Fault`, with the names and places that it is about.  All wording is in
`Fault.message`.

* `Finding.message` is one line, `Finding.render` shows the source line as well.
-/

namespace RpcSchema

/-! ## What faults are about -/

/-- The four namespaces in which names are declared. -/
inductive DeclKind where
  | rule | type | proc | stream
deriving DecidableEq, Repr

/-- The word for a kind of declaration. -/
def DeclKind.word : DeclKind → String
  | .rule => "rule"
  | .type => "type"
  | .proc => "proc"
  | .stream => "stream"

/-- The two ways in which names are capitalised. -/
inductive Casing where
  | camel | pascal
deriving DecidableEq, Repr

/-- The name of a casing, in that casing. -/
def Casing.word : Casing → String
  | .camel => "camelCase"
  | .pascal => "PascalCase"

/-- The clauses that a rule has once. -/
inductive ClauseKind where
  | target | param | error
deriving DecidableEq, Repr

/-- The word for a clause. -/
def ClauseKind.word : ClauseKind → String
  | .target => "for"
  | .param => "param"
  | .error => "error"

/-- The blocks that a procedure has once. -/
inductive BlockKind where
  | input | output | metadata
deriving DecidableEq, Repr

/-- The word for a block. -/
def BlockKind.word : BlockKind → String
  | .input => "input"
  | .output => "output"
  | .metadata => "meta"

/-! ## Faults -/

/-- What is wrong. -/
inductive Fault where
  /-- The text breaks the grammar. -/
  | grammar (problem : SyntaxProblem)
  /-- A schema file could not be had. -/
  | file (error : FileError)
  | versionRepeated (first : Span)
  | versionLate
  | versionUnsupported (number : Nat) (supported : Int)
  /-- The file of a docstring is missing. -/
  | docstringMissing (path : String)
  /-- The file of a docstring is unreadable. -/
  | docstringUnreadable (error : FileError)
  | redeclared (kind : DeclKind) (name : String) (first : Span)
  /-- A rule has the name of a standard rule. -/
  | standardRedeclared (name : String)
  | casing (kind : DeclKind) (name : String) (casing : Casing)
  | typeUndeclared (name : String)
  | targetMissing (rule : String)
  | clauseRepeated (rule : String) (clause : ClauseKind)
  /-- The type of a rule's parameter is none that a parameter can have. -/
  | paramType (allowed : List String) (found : String)
  | blockRepeated (kind : DeclKind) (name : String) (block : BlockKind)
  | keyRepeated (key : String) (first : Span)
  | fieldRepeated (name : String) (first : Span)
  | ruleUndeclared (name : String)
  /-- A rule does not apply to fields of the type. -/
  | notApplicable (rule : String) (type : String) (targets : List String)
  | argumentUnwanted (rule : String)
  | argumentMissing (rule : String)
  /-- A rule that takes an array is given an empty one. -/
  | argumentEmpty (rule : String)
  /-- A rule takes an array of values of the type. -/
  | argumentValues (rule : String) (type : String)
  /-- A standard rule takes one value of the type. -/
  | argumentKind (rule : String) (type : String)
  /-- A declared rule takes the type that it says. -/
  | argumentType (rule : String) (type : String)
  /-- Types require each other in a circle; the chain ends where it begins. -/
  | circular (chain : List String)
deriving DecidableEq, Repr

/-- A name between double quotes. -/
def inQuotes (s : String) : String := "\"" ++ s ++ "\""

/-- The indefinite article before a word. -/
def article (word : String) : String :=
  match word.toList.head? with
  | some c => if c ∈ ['a', 'e', 'i', 'o', 'u'] then "an" else "a"
  | none => "a"

/-- The wording of a fault. -/
def Fault.message : Fault → String
  | .grammar problem => problem.message
  | .file error => error.message
  | .versionRepeated first => "version statement is already declared at " ++ first.place
  | .versionLate => "version statement must be the first declaration"
  | .versionUnsupported number supported =>
    "unsupported version " ++ toString number ++ ", only version " ++ toString supported
      ++ " is supported"
  | .docstringMissing path => "external docstring file " ++ inQuotes path ++ " not found"
  | .docstringUnreadable error => "failed to load external docstring: " ++ error.message
  | .redeclared kind name first =>
    kind.word ++ " " ++ inQuotes name ++ " is already declared at " ++ first.place
  | .standardRedeclared name =>
    "rule " ++ inQuotes name ++ " is a built-in rule and cannot be redeclared"
  | .casing kind name wanted =>
    kind.word ++ " name " ++ inQuotes name ++ " must be in " ++ wanted.word
  | .typeUndeclared name => "type " ++ inQuotes name ++ " is not declared"
  | .targetMissing rule => "rule " ++ inQuotes rule ++ " must have exactly one for clause"
  | .clauseRepeated rule clause =>
    "rule " ++ inQuotes rule ++ " has more than one " ++ clause.word ++ " clause"
  | .paramType allowed found =>
    "rule parameter type must be one of: " ++ ", ".intercalate allowed ++ ", found "
      ++ inQuotes found
  | .blockRepeated kind name block =>
    kind.word ++ " " ++ inQuotes name ++ " has more than one " ++ block.word ++ " block"
  | .keyRepeated key first =>
    "meta key " ++ inQuotes key ++ " is already declared at " ++ first.place
  | .fieldRepeated name first =>
    "field " ++ inQuotes name ++ " is already declared at " ++ first.place
  | .ruleUndeclared name => "rule " ++ inQuotes name ++ " is not declared"
  | .notApplicable rule type targets =>
    "rule " ++ inQuotes rule ++ " cannot be applied to type " ++ inQuotes type
      ++ ", it can only be applied to: " ++ ", ".intercalate targets
  | .argumentUnwanted rule => "rule " ++ inQuotes rule ++ " does not take a parameter"
  | .argumentMissing rule => "rule " ++ inQuotes rule ++ " requires a parameter"
  | .argumentEmpty rule => "rule " ++ inQuotes rule ++ " requires at least one value"
  | .argumentValues rule type =>
    "rule " ++ inQuotes rule ++ " expects an array of " ++ type ++ " values"
  | .argumentKind rule type =>
    "rule " ++ inQuotes rule ++ " expects " ++ article type ++ " " ++ type ++ " parameter"
  | .argumentType rule type =>
    "rule " ++ inQuotes rule ++ " expects a parameter of type " ++ type
  | .circular chain => "circular type dependency detected: " ++ " -> ".intercalate chain

/-! ## Findings -/

/-- What is wrong, and where. -/
structure Finding where
  span : Span
  fault : Fault
deriving DecidableEq, Repr

namespace Finding

/-- A syntax error as a finding. -/
def ofSyntaxError (e : SyntaxError) : Finding := ⟨e.span, .grammar e.problem⟩

/-- The finding in one line, with its place. -/
def message (f : Finding) : String := f.span.place ++ ": " ++ f.fault.message

/-- The finding with the line that it is about and a caret. -/
def render (f : Finding) : String := f.span.excerpt "error" f.fault.message

end Finding

end RpcSchema
