import RpcSchema.Schema.Leaf

/-!
# Fields

A field has a name, a type, and the rules that its values must meet.  Its type is named or is an inline
object, which is a list of fields again; so the types here are mutually inductive.  A list of fields
may also hold comments, and docstrings that belong to no field.

* `FieldItem.fields` are the fields of a list, without the rest.
* `FieldType.toText` is the type as messages show it.
-/

namespace RpcSchema

/-- The message to show when a rule is not met. -/
structure ErrorClause where
  span : Span
  message : String
deriving DecidableEq, Repr, Inhabited

/-- What a rule is given at its use. -/
inductive Argument where
  | single (literal : Literal)
  | array (span : Span) (items : List Literal)
deriving Repr, Inhabited

/-- Where an argument is written. -/
def Argument.span : Argument → Span
  | .single literal => literal.span
  | .array span _ => span

/-- The use of a rule on a field. -/
structure RuleUse where
  span : Span
  name : Name
  argument : Option Argument
  error : Option ErrorClause
deriving Repr, Inhabited

mutual

/-- What the values of a field, or the items of its arrays, are. -/
inductive FieldBase where
  | named (name : Name)
  | object (items : List FieldItem)

/-- The type of a field. -/
structure FieldType where
  span : Span
  base : FieldBase
  isArray : Bool

/-- A field.  Its span begins at its name; its docstring stands before. -/
structure Field where
  span : Span
  docstring : Option Docstring
  name : Name
  optional : Bool
  type : FieldType
  rules : List RuleUse

/-- An entry of a list of fields. -/
inductive FieldItem where
  | field (field : Field)
  | comment (comment : Comment)
  | docstring (docstring : Docstring)

end

deriving instance Inhabited for FieldBase, FieldItem

/-- The field that an entry is, if it is one. -/
def FieldItem.field? : FieldItem → Option Field
  | .field f => some f
  | _ => none

/-- The fields of a list. -/
def FieldItem.fields (items : List FieldItem) : List Field := items.filterMap field?

/-- The name by which messages call a type: an inline object has none of its own. -/
def FieldBase.name : FieldBase → String
  | .named n => n.text
  | .object _ => "object"

/-- A type's name, with brackets after it for an array of it. -/
def arrayName (name : String) (isArray : Bool) : String := if isArray then name ++ "[]" else name

/-- The type as messages show it. -/
def FieldType.toText (t : FieldType) : String := arrayName t.base.name t.isArray

end RpcSchema
