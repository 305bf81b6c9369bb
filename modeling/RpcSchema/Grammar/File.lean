import RpcSchema.Grammar.Declaration
import RpcSchema.Schema.Basic

/-!
# Reading files

```
schema = (version | import | comment | docstring | [docstring] declaration)*
```

A docstring belongs to the declaration after it unless a blank line separates them; otherwise it
stands by itself.

* `Reader.schema` reads statements up to the end of the file.
* `Schema.ofSource` is the schema of a source.
-/

namespace RpcSchema

namespace Reader

variable {σ : Type} [TokenSupply σ]

/-- The statement of the version. -/
def versionStatement : Reader σ VersionStatement := do
  let keyword ← take
  let token ← expect .integer "after `version`"
  let number ← natural token
  pure ⟨← spanFrom keyword.span, number⟩

/-- An import. -/
def importStatement : Reader σ ImportStatement := do
  let keyword ← take
  let path ← stringLiteral "after `import`"
  pure ⟨← spanFrom keyword.span, path⟩

/-- Whether the docstring that is next belongs to a declaration. -/
def declarationFollows : Reader σ Bool := do
  pure ((← kindAhead 1).startsDeclaration && (← breaksAhead 1) < 2)

/-- A declaration, whose docstring was read before. -/
def declaration (docstring : Option Docstring) : Reader σ Statement := do
  let start ← here
  let deprecation ←
    if (← kind) = .keyword .deprecated then some <$> deprecation else pure none
  let preamble : Preamble := { start, docstring, deprecation }
  match ← kind with
  | .keyword .rule => .rule <$> ruleDecl preamble
  | .keyword .type => .type <$> typeDecl preamble
  | .keyword .proc => .proc <$> procDecl preamble "as proc name"
  | .keyword .stream => .stream <$> procDecl preamble "as stream name"
  | _ => unexpected "`rule`, `type`, `proc` or `stream`"

/-- The next statement, unless the file ends. -/
def statement : Reader σ (Option Statement) := do
  let first ← kind
  if first = .endOfFile then pure none
  else if first = .keyword .version then some <$> .version <$> versionStatement
  else if first = .keyword .imports then some <$> .imports <$> importStatement
  else if first.isComment then some <$> .comment <$> comment
  else if first = .docstring then do
    if ← declarationFollows then
      let docstring ← docstring
      some <$> declaration (some docstring)
    else some <$> .docstring <$> docstring
  else if first.startsDeclaration then some <$> declaration none
  else unexpected "a declaration"

/-- The statements up to the end of the file. -/
def schema : Reader σ Schema := do
  let statements ← many statement
  pure ⟨statements⟩

end Reader

/-- The schema that a source holds, or the first place where it breaks the grammar. -/
def Schema.ofSource (source : Source) : Except SyntaxError Schema :=
  match Reader.schema (Lookahead.ofSource source) with
  | .ok schema _ => .ok schema
  | .error e _ => .error e

end RpcSchema
