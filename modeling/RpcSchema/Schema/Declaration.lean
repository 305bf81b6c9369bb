import RpcSchema.Schema.Field

/-!
# Declarations

Rules, types, procedures and streams are declared alike: each has a name, may have a docstring and a
deprecation, and has a body between braces.  What the body may hold is the difference, so `Declaration`
has the items of its body as a parameter.

A body keeps every item that is written in it, comments and repetitions too; which repetitions are
wrong is a matter of checking.  The accessors here pick out what a body says about one thing, and where
it should say it once, the first time that it does.
-/

namespace RpcSchema

/-- A declaration whose body holds items of type `ι`.  Its span begins at its deprecation, or else at
its keyword; its docstring stands before. -/
structure Declaration (ι : Type) where
  span : Span
  name : Name
  docstring : Option Docstring
  deprecation : Option Deprecation
  items : List ι

/-! ## Types -/

/-- A type is a list of fields. -/
abbrev TypeDecl := Declaration FieldItem

/-! ## Rules -/

/-- The type that a rule applies to, or the type of its parameter. -/
structure TypeClause where
  span : Span
  type : Name
  isArray : Bool
deriving DecidableEq, Repr, Inhabited

/-- The type as messages show it. -/
def TypeClause.toText (c : TypeClause) : String := arrayName c.type.text c.isArray

/-- An entry of a rule's body. -/
inductive RuleItem where
  | target (clause : TypeClause)
  | param (clause : TypeClause)
  | error (clause : ErrorClause)
  | comment (comment : Comment)
deriving DecidableEq, Repr, Inhabited

/-- A rule says what it applies to, what it is given, and what to show when it is not met. -/
abbrev RuleDecl := Declaration RuleItem

namespace Declaration

/-- The clauses that say what a rule applies to. -/
def targets (r : RuleDecl) : List TypeClause :=
  r.items.filterMap fun
    | .target c => some c
    | _ => none

/-- The clauses that say what a rule is given. -/
def params (r : RuleDecl) : List TypeClause :=
  r.items.filterMap fun
    | .param c => some c
    | _ => none

/-- The clauses that say what to show when a rule is not met. -/
def errors (r : RuleDecl) : List ErrorClause :=
  r.items.filterMap fun
    | .error c => some c
    | _ => none

end Declaration

/-! ## Procedures and streams -/

/-- The fields that a procedure takes or gives. -/
structure FieldBlock where
  span : Span
  items : List FieldItem

/-- One fact about a procedure, under a key. -/
structure MetaEntry where
  span : Span
  key : Name
  value : Literal
deriving Repr, Inhabited

/-- An entry of a block of metadata. -/
inductive MetaItem where
  | entry (entry : MetaEntry)
  | comment (comment : Comment)
deriving Repr, Inhabited

/-- Facts about a procedure that are not part of its fields. -/
structure MetaBlock where
  span : Span
  items : List MetaItem
deriving Repr, Inhabited

namespace MetaBlock

/-- The facts of a block. -/
def entries (b : MetaBlock) : List MetaEntry :=
  b.items.filterMap fun
    | .entry e => some e
    | _ => none

/-- The first value under a key. -/
def get? (b : MetaBlock) (key : String) : Option Literal :=
  (b.entries.find? (·.key.text = key)).map (·.value)

end MetaBlock

/-- An entry of the body of a procedure or stream. -/
inductive ProcItem where
  | input (block : FieldBlock)
  | output (block : FieldBlock)
  | metadata (block : MetaBlock)
  | comment (comment : Comment)

/-- A procedure or a stream; the two have the same form. -/
abbrev ProcDecl := Declaration ProcItem

namespace Declaration

/-- What a procedure takes. -/
def input? (p : ProcDecl) : Option FieldBlock :=
  p.items.findSome? fun
    | .input b => some b
    | _ => none

/-- What a procedure gives. -/
def output? (p : ProcDecl) : Option FieldBlock :=
  p.items.findSome? fun
    | .output b => some b
    | _ => none

/-- The facts about a procedure. -/
def metadata? (p : ProcDecl) : Option MetaBlock :=
  p.items.findSome? fun
    | .metadata b => some b
    | _ => none

end Declaration

end RpcSchema
