import RpcSchema.Decimal.Shortest
import RpcSchema.Source.Span
import RpcSchema.Text.Blank
import RpcSchema.Text.Quoted

/-!
# The leaves of a schema

A schema is a tree whose every node knows the span it was read from.  Its leaves are single tokens:
names, literals, comments and docstrings.

* `Value` is what a literal means, `Value.toText` how it is listed.
* `Docstring.reference?` is the path of the file that a docstring stands for, if it stands for one.
-/

namespace RpcSchema

/-- A name and where it is written. -/
structure Name where
  span : Span
  text : String
deriving DecidableEq, Repr, Inhabited

/-! ## Literals -/

/-- The kinds of literals. -/
inductive ValueKind where
  | string | int | float | bool
deriving DecidableEq, Repr, Inhabited

/-- The name of a kind of literal. -/
def ValueKind.name : ValueKind → String
  | .string => "string"
  | .int => "int"
  | .float => "float"
  | .bool => "bool"

/-- What a literal means. -/
inductive Value where
  | string (s : String)
  | int (n : Nat)
  | float (f : Float)
  | bool (b : Bool)
deriving Repr, Inhabited

namespace Value

/-- The kind of a value. -/
def kind : Value → ValueKind
  | .string _ => .string
  | .int _ => .int
  | .float _ => .float
  | .bool _ => .bool

/-- The value as a listing shows it. -/
def toText : Value → String
  | .string s => Text.quoted s
  | .int n => String.ofList (Decimal.digitsOf n)
  | .float f => Decimal.floatText f
  | .bool b => toString b

end Value

/-- A literal and where it is written. -/
structure Literal where
  span : Span
  value : Value
deriving Repr, Inhabited

/-! ## Comments and docstrings -/

/-- A comment; `block` tells the form that may run over several lines from the other. -/
structure Comment where
  span : Span
  text : String
  block : Bool
deriving DecidableEq, Repr, Inhabited

/-- The documentation of a declaration or field, or of nothing in particular. -/
structure Docstring where
  span : Span
  text : String
deriving DecidableEq, Repr, Inhabited

/-- The path that a docstring refers to: its text without the blanks around it, if that is one line,
is not empty, and ends in the suffix.  The documentation is then the contents of that file. -/
def Docstring.reference? (d : Docstring) (suffix : String) : Option String :=
  let path := Text.trim d.text.toList
  if path ≠ [] ∧ '\n' ∉ path ∧ suffix.toList.isSuffixOf path then some (String.ofList path)
  else none

/-- The mark that a declaration is not to be used any more, and why. -/
structure Deprecation where
  span : Span
  message : Option String
deriving DecidableEq, Repr, Inhabited

end RpcSchema
