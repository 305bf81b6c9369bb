import RpcSchema.Schema.Leaf

/-!
# The standard rules

Some rules need no declaration.  The table gives the types that each applies to and what it is given.
Types are given by name: a rule applies to a field if the name of the field's type is among its
targets, and to arrays of anything if the name `array` is.

* `standardRules` is the table, `StandardRule.find?` looks a name up.
* `StandardRule.appliesTo` is applicability.
-/

namespace RpcSchema

/-- What a standard rule is given at its use. -/
inductive Parameter where
  /-- Nothing. -/
  | none
  /-- An integer. -/
  | int
  /-- A string. -/
  | string
  /-- A value that bounds those of the field: a number like them, or a date as a string. -/
  | bound
  /-- An array of values that the field may have. -/
  | values
deriving DecidableEq, Repr

/-- A rule that needs no declaration. -/
structure StandardRule where
  name : String
  /-- Names of primitive types, and `array` for all arrays. -/
  targets : List String
  parameter : Parameter
deriving DecidableEq, Repr

/-- The name that stands for every array among the targets of a rule. -/
def anyArray : String := "array"

/-- The rules that need no declaration. -/
def standardRules : List StandardRule :=
  [⟨"minLen", ["string", anyArray], .int⟩,
   ⟨"maxLen", ["string", anyArray], .int⟩,
   ⟨"enum", ["string", "int"], .values⟩,
   ⟨"email", ["string"], .none⟩,
   ⟨"iso8601", ["string"], .none⟩,
   ⟨"uuid", ["string"], .none⟩,
   ⟨"json", ["string"], .none⟩,
   ⟨"lowercase", ["string"], .none⟩,
   ⟨"uppercase", ["string"], .none⟩,
   ⟨"regex", ["string"], .string⟩,
   ⟨"contains", ["string"], .string⟩,
   ⟨"min", ["int", "float", "datetime"], .bound⟩,
   ⟨"max", ["int", "float", "datetime"], .bound⟩]

namespace StandardRule

/-- The standard rule of a name. -/
def find? (name : String) : Option StandardRule := standardRules.find? (·.name = name)

/-- Whether a rule applies to fields whose type has the given name, or to arrays of that type. -/
def appliesTo (r : StandardRule) (typeName : String) (isArray : Bool) : Bool :=
  r.targets.contains (if isArray then anyArray else typeName)

/-- The targets of a rule as messages show them. -/
def targetsText (r : StandardRule) : String := ", ".intercalate r.targets

end StandardRule

end RpcSchema
