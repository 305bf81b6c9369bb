import Mathlib.Logic.Relation
import RpcSchema.Check.Standard
import RpcSchema.Finding
import RpcSchema.Schema.Basic

/-!
# Valid schemas

What it means for a schema to be right, said without the checks.  Nothing here looks a name up in an
index, goes through statements in an order or stops at a first mistake: a schema is valid if a list of
plain conditions holds of its declarations.

* `FieldItem.Level` are the lists of fields inside a list, at every depth.
* `Schema.ValidUse`, `Schema.ValidFields`, `Schema.ValidRule` and `ProcDecl.ValidBlocks` are the
  conditions on the parts.
* `Schema.Requires` is the relation that must have no circle.
* **`Schema.Valid`** puts them together.
-/

namespace RpcSchema

/-! ## Fields at every depth -/

/-- The levels of a list of fields: the list itself, and the levels of the inline objects among its
fields. -/
inductive FieldItem.Level : List FieldItem → List FieldItem → Prop
  | self (items : List FieldItem) : Level items items
  | inline {items inner list : List FieldItem} {f : Field} (mem : .field f ∈ items)
      (base : f.type.base = .object inner) (level : Level inner list) : Level items list

/-- The lists of fields of a schema: those of its types, and of what its procedures and streams take
and give, at every level. -/
inductive Schema.FieldList (s : Schema) (list : List FieldItem) : Prop
  | type {d : TypeDecl} (mem : d ∈ s.types) (level : FieldItem.Level d.items list)
  | input {p : ProcDecl} {b : FieldBlock} (mem : p ∈ s.procs ++ s.streams)
      (block : .input b ∈ p.items) (level : FieldItem.Level b.items list)
  | output {p : ProcDecl} {b : FieldBlock} (mem : p ∈ s.procs ++ s.streams)
      (block : .output b ∈ p.items) (level : FieldItem.Level b.items list)

/-! ## Names -/

/-- A small letter of the Latin alphabet, and letters and digits after it. -/
def CamelCase (name : String) : Prop :=
  ∃ c rest, name.toList = c :: rest ∧ c.isLower = true ∧ ∀ d ∈ rest, d.isAlphanum = true

/-- A capital letter of the Latin alphabet, and letters and digits after it. -/
def PascalCase (name : String) : Prop :=
  ∃ c rest, name.toList = c :: rest ∧ c.isUpper = true ∧ ∀ d ∈ rest, d.isAlphanum = true

/-- One of the types of the schema has the name. -/
def Schema.DeclaresType (s : Schema) (name : String) : Prop := ∃ d ∈ s.types, d.name.text = name

/-- The name of a primitive type or of a type of the schema. -/
def Schema.KnowsType (s : Schema) (name : String) : Prop :=
  (∃ p : Primitive, p.word = name) ∨ s.DeclaresType name

/-! ## Uses of rules -/

/-- A value may stand for one of its own kind, and an integer for a float as well. -/
def Value.StandsFor (v : Value) (kind : ValueKind) : Prop :=
  v.kind = kind ∨ (v.kind = .int ∧ kind = .float)

/-- A value may stand where one of the named type is wanted. -/
def Value.Fits (v : Value) (typeName : String) : Prop :=
  ∃ kind : ValueKind, kind.name = typeName ∧ v.StandsFor kind

/-- The kind of the literals that are written for values of a primitive type: a date is written as a
string. -/
def Primitive.literalKind : Primitive → ValueKind
  | .string | .datetime => .string
  | .int => .int
  | .float => .float
  | .bool => .bool

/-- The type is primitive, and no array. -/
def FieldType.IsPrimitive (t : FieldType) (p : Primitive) : Prop :=
  t.isArray = false ∧ ∃ n, t.base = .named n ∧ n.text = p.word

/-- A standard rule suits an array if arrays are among its targets, and a primitive type that is. -/
def StandardRule.Suits (r : StandardRule) (t : FieldType) : Prop :=
  (t.isArray = true ∧ anyArray ∈ r.targets) ∨ ∃ p : Primitive, t.IsPrimitive p ∧ p.word ∈ r.targets

/-- What a standard rule takes on a field of the type. -/
def Parameter.Takes (t : FieldType) : Parameter → Option Argument → Prop
  | .none, a => a = Option.none
  | .int, a => ∃ l, a = some (.single l) ∧ l.value.StandsFor .int
  | .string, a => ∃ l, a = some (.single l) ∧ l.value.StandsFor .string
  | .bound, a => ∃ p l, t.IsPrimitive p ∧ a = some (.single l) ∧ l.value.StandsFor p.literalKind
  | .values, a => ∃ p span items, t.IsPrimitive p ∧ a = some (.array span items) ∧ items ≠ [] ∧
      ∀ l ∈ items, l.value.StandsFor p.literalKind

/-- The `for` clause of a declared rule suits every array if it is the bare word `array`, and otherwise
the named type that it is, array or not. -/
def TypeClause.Suits (c : TypeClause) (t : FieldType) : Prop :=
  (t.isArray = true ∧ c.isArray = false ∧ c.type.text = anyArray) ∨
    (t.isArray = c.isArray ∧ ∃ n, t.base = .named n ∧ n.text = c.type.text ∧
      (t.isArray = false → n.text ≠ anyArray))

/-- What a declared rule takes: nothing without a `param` clause, and with one a value of its type, or
an array of such values. -/
inductive RuleDecl.Takes (r : RuleDecl) : Option Argument → Prop
  | nothing (params : r.params = []) : Takes r none
  | single {c : TypeClause} {l : Literal} (params : c ∈ r.params) (scalar : c.isArray = false)
      (fits : l.value.Fits c.type.text) : Takes r (some (.single l))
  | array {c : TypeClause} {span : Span} {items : List Literal} (params : c ∈ r.params)
      (array : c.isArray = true) (fits : ∀ l ∈ items, l.value.Fits c.type.text) :
      Takes r (some (.array span items))

/-- The use of a rule on a field of the type: there is such a rule, it suits the type, and it is given
what it takes. -/
inductive Schema.ValidUse (s : Schema) (t : FieldType) (u : RuleUse) : Prop
  | standard {r : StandardRule} (mem : r ∈ standardRules) (name : r.name = u.name.text)
      (suits : r.Suits t) (takes : r.parameter.Takes t u.argument)
  | declared {r : RuleDecl} {c : TypeClause} (mem : r ∈ s.rules) (name : r.name.text = u.name.text)
      (target : c ∈ r.targets) (suits : c.Suits t) (takes : RuleDecl.Takes r u.argument)

/-! ## Bodies -/

/-- One list of fields, without what is nested in it: each name stands once, and the types and the uses
of rules are right. -/
structure Schema.ValidFields (s : Schema) (list : List FieldItem) : Prop where
  names : ((FieldItem.fields list).map (·.name.text)).Nodup
  types : ∀ f ∈ FieldItem.fields list, ∀ n, f.type.base = .named n → s.KnowsType n.text
  uses : ∀ f ∈ FieldItem.fields list, ∀ u ∈ f.rules, s.ValidUse f.type u

/-- The body of a rule: one `for` clause, with the bare word `array` or a type; at most one `param`
clause, with a type that literals can have; and at most one `error` clause. -/
structure Schema.ValidRule (s : Schema) (r : RuleDecl) : Prop where
  target : ∃ c, r.targets = [c] ∧
    (c.isArray = false ∧ c.type.text = anyArray ∨ s.KnowsType c.type.text)
  param : r.params.length ≤ 1
  paramType : ∀ c ∈ r.params, ∃ kind : ValueKind, kind.name = c.type.text
  error : r.errors.length ≤ 1

/-- The kind of block that an entry of the body of a procedure or stream is. -/
def ProcItem.blockKind? : ProcItem → Option BlockKind
  | .input _ => some .input
  | .output _ => some .output
  | .metadata _ => some .metadata
  | .comment _ => none

/-- The body of a procedure or stream: at most one block of each kind, and in metadata each key once. -/
structure ProcDecl.ValidBlocks (p : ProcDecl) : Prop where
  once : (p.items.filterMap ProcItem.blockKind?).Nodup
  keys : ∀ b, .metadata b ∈ p.items → (b.entries.map (·.key.text)).Nodup

/-! ## Types that require each other -/

/-- The named types that values with these fields must hold: those of the fields that are not optional,
and those that the inline objects among them demand. -/
inductive FieldItem.Demands : List FieldItem → String → Prop
  | named {items : List FieldItem} {f : Field} {n : Name} (mem : .field f ∈ items)
      (mandatory : f.optional = false) (base : f.type.base = .named n) : Demands items n.text
  | inline {items inner : List FieldItem} {f : Field} {name : String} (mem : .field f ∈ items)
      (mandatory : f.optional = false) (base : f.type.base = .object inner)
      (demands : Demands inner name) : Demands items name

/-- A type of the schema demands another. -/
def Schema.Requires (s : Schema) (name other : String) : Prop :=
  (∃ d ∈ s.types, d.name.text = name ∧ FieldItem.Demands d.items other) ∧ s.DeclaresType other

/-! ## All together -/

/-- **A schema without mistakes.**  Names are unique in their namespace and in their casing, no rule
takes the name of a standard one, every body is right, and no type requires itself in the end. -/
structure Schema.Valid (s : Schema) : Prop where
  uniqueRules : (s.rules.map (·.name.text)).Nodup
  uniqueTypes : (s.types.map (·.name.text)).Nodup
  uniqueProcs : (s.procs.map (·.name.text)).Nodup
  uniqueStreams : (s.streams.map (·.name.text)).Nodup
  casedRules : ∀ r ∈ s.rules, CamelCase r.name.text
  casedTypes : ∀ d ∈ s.types, PascalCase d.name.text
  casedServices : ∀ p ∈ s.procs ++ s.streams, PascalCase p.name.text
  notStandard : ∀ r ∈ s.rules, ∀ standard ∈ standardRules, r.name.text ≠ standard.name
  rules : ∀ r ∈ s.rules, s.ValidRule r
  services : ∀ p ∈ s.procs ++ s.streams, ProcDecl.ValidBlocks p
  fields : ∀ list, s.FieldList list → s.ValidFields list
  noCircle : ∀ name, ¬ Relation.TransGen s.Requires name name

end RpcSchema
