import RpcSchema.Finding

/-!
# The version rule

A file may state the version of the language that it is written in.  If it does, it does so once,
before it says anything else to the machine, and names the version that is supported.  Comments and
docstrings may stand before.
-/

namespace RpcSchema

/-- The first place in a list of statements that breaks the version rule.  `stated` is the version
statement that was met before, and `declared` whether anything else was. -/
def versionFinding? (supported : Int) (stated : Option Span) (declared : Bool) :
    List Statement → Option Finding
  | [] => none
  | .version v :: rest =>
    match stated with
    | some first => some ⟨v.span, .versionRepeated first⟩
    | none =>
      if declared then some ⟨v.span, .versionLate⟩
      else if (v.number : Int) ≠ supported then
        some ⟨v.span, .versionUnsupported v.number supported⟩
      else versionFinding? supported (some v.span) declared rest
  | s :: rest => versionFinding? supported stated (declared || s.isDeclaration) rest

/-- The first place in a schema that breaks the version rule. -/
def Schema.versionFinding? (s : Schema) (supported : Int) : Option Finding :=
  RpcSchema.versionFinding? supported none false s.statements

end RpcSchema
