import RpcSchema.Check.Standard
import RpcSchema.Finding
import RpcSchema.Settings.Basic

/-!
# Checking declared names

Each namespace takes a name once.  A rule must not take the name of a standard rule, and names are in
the casing of their namespace if the settings ask for it.

* `repeatedFrom?` finds the first earlier name that equals a name.
* `Schema.nameFindings` checks the names that a schema declares.
-/

namespace RpcSchema

/-- The first of the earlier names that equals a name. -/
def repeatedFrom? (earlier : List Name) (n : Name) : Option Name :=
  earlier.find? (·.text = n.text)

/-! ## Casing -/

/-- Whether a name is a letter with the property `first`, and letters and digits after it. -/
def isCased (first : Char → Bool) (name : String) : Bool :=
  match name.toList with
  | [] => false
  | c :: rest => first c && rest.all Char.isAlphanum

/-- The casing of the names of a namespace. -/
def DeclKind.casing : DeclKind → Casing
  | .rule => .camel
  | _ => .pascal

/-- Whether a name is in a casing; only letters of the Latin alphabet and digits are. -/
def Casing.holds : Casing → String → Bool
  | .camel, name => isCased Char.isLower name
  | .pascal, name => isCased Char.isUpper name

/-! ## Names that are declared -/

/-- A name in its namespace. -/
structure DeclaredName where
  kind : DeclKind
  name : Name
deriving DecidableEq, Repr

/-- The name that a statement declares, with its namespace. -/
def Statement.declares? : Statement → Option DeclaredName
  | .rule d => some ⟨.rule, d.name⟩
  | .type d => some ⟨.type, d.name⟩
  | .proc d => some ⟨.proc, d.name⟩
  | .stream d => some ⟨.stream, d.name⟩
  | _ => none

/-- What is wrong with a name that is declared after the given ones. -/
def DeclaredName.findings (settings : Settings) (earlier : List DeclaredName) (d : DeclaredName) :
    List Finding :=
  let sameKind := (earlier.filter (·.kind = d.kind)).map (·.name)
  let repeated := (repeatedFrom? sameKind d.name).map fun first =>
    Fault.redeclared d.kind d.name.text first.span
  let standard :=
    if d.kind = .rule ∧ (StandardRule.find? d.name.text).isSome then
      [Fault.standardRedeclared d.name.text]
    else []
  let casing :=
    if settings.checkCasing ∧ ¬ d.kind.casing.holds d.name.text then
      [Fault.casing d.kind d.name.text d.kind.casing]
    else []
  (repeated.toList ++ standard ++ casing).map (⟨d.name.span, ·⟩)

/-- What is wrong with names that are declared in this order after the given ones. -/
def nameFindings (settings : Settings) (earlier : List DeclaredName) :
    List DeclaredName → List Finding
  | [] => []
  | d :: rest => d.findings settings earlier ++ nameFindings settings (earlier ++ [d]) rest

/-- What is wrong with the names that a schema declares. -/
def Schema.nameFindings (settings : Settings) (s : Schema) : List Finding :=
  RpcSchema.nameFindings settings [] (s.statements.filterMap Statement.declares?)

end RpcSchema
