import RpcSchema.Grammar.Field
import RpcSchema.Schema.Declaration

/-!
# Reading declarations

```
declaration = ["deprecated" [ "(" string ")" ]] (rule | type | proc)
rule        = "rule" "@" identifier "{" (comment | clause)* "}"
clause      = ("for" | "param") ":" type name [ "[" "]" ] | error
type        = "type" identifier "{" fields "}"
proc        = ("proc" | "stream") identifier "{" (comment | block | metadata)* "}"
block       = ("input" | "output") "{" fields "}"
metadata    = "meta" "{" (comment | name ":" literal)* "}"
```

What a body may hold is read item by item, as often as it is written.
-/

namespace RpcSchema.Reader

variable {σ : Type} [TokenSupply σ]

/-- What is written in front of a declaration's keyword: where the declaration starts, its docstring
and its deprecation. -/
structure Preamble where
  start : Span
  docstring : Option Docstring
  deprecation : Option Deprecation

/-- A deprecation, with its reason if there is one. -/
def deprecation : Reader σ Deprecation := do
  let keyword ← take
  if ← takeMark? .leftParen then
    let message ← stringLiteral "as deprecation message"
    let _ ← expectMark .rightParen "after deprecation message"
    pure ⟨← spanFrom keyword.span, some message⟩
  else pure ⟨← spanFrom keyword.span, none⟩

/-- A body between braces. -/
def body {ι : Type} (items : Reader σ (List ι)) (opening closing : String) : Reader σ (List ι) := do
  let _ ← expectMark .leftBrace opening
  let items ← items
  let _ ← expectMark .rightBrace closing
  pure items

/-- A declaration from its name on. -/
def declared {ι : Type} (preamble : Preamble) (role : String) (body : Reader σ (List ι)) :
    Reader σ (Declaration ι) := do
  let name ← identifier role
  let items ← body
  pure ⟨← spanFrom preamble.start, name, preamble.docstring, preamble.deprecation, items⟩

/-! ## Rules -/

/-- A clause that names a type. -/
def typeClause (role : String) : Reader σ TypeClause := do
  let keyword ← take
  let _ ← expectMark .colon role
  let type ← typeName
  let isArray ← arraySuffix
  pure ⟨← spanFrom keyword.span, type, isArray⟩

/-- The next entry of a rule's body, unless its closing brace is next. -/
def ruleItem : Reader σ (Option RuleItem) := do
  match ← kind with
  | .delimiter .rightBrace => pure none
  | .lineComment | .blockComment => do
    let comment ← comment
    pure (some (.comment comment))
  | .keyword .target => do
    let clause ← typeClause "after `for`"
    pure (some (.target clause))
  | .keyword .param => do
    let clause ← typeClause "after `param`"
    pure (some (.param clause))
  | .keyword .error => do
    let clause ← errorClause
    pure (some (.error clause))
  | _ => unexpected "`for`, `param`, `error` or `\x7d` in rule body"

/-- A rule from its keyword on. -/
def ruleDecl (preamble : Preamble) : Reader σ RuleDecl := do
  let _ ← take
  let _ ← expectMark .atSign "before rule name"
  declared preamble "as rule name" (body (many ruleItem) "to open rule body" "to close rule body")

/-! ## Types -/

/-- A type from its keyword on. -/
def typeDecl (preamble : Preamble) : Reader σ TypeDecl := do
  let _ ← take
  declared preamble "as type name" (body fieldItems "to open type body" "to close type body")

/-! ## Procedures and streams -/

/-- The fields that a procedure takes or gives. -/
def fieldBlock : Reader σ FieldBlock := do
  let keyword ← take
  let word := Kind.ticked keyword.literal
  let items ← body fieldItems ("after " ++ word) ("to close " ++ word ++ " block")
  pure ⟨← spanFrom keyword.span, items⟩

/-- One fact, under its key. -/
def metaEntry : Reader σ MetaEntry := do
  let key ← name
  let _ ← expectMark .colon "after meta key"
  let value ← literal
  pure ⟨key.span.through value.span, key, value⟩

/-- The next entry of a block of metadata, unless its closing brace is next. -/
def metaItem : Reader σ (Option MetaItem) := do
  let first ← kind
  if first = .delimiter .rightBrace then pure none
  else if first.isComment then do
    let comment ← comment
    pure (some (.comment comment))
  else if first.isName then do
    let entry ← metaEntry
    pure (some (.entry entry))
  else unexpected "a meta entry or `\x7d`"

/-- Facts about a procedure. -/
def metaBlock : Reader σ MetaBlock := do
  let keyword ← take
  let items ← body (many metaItem) "after `meta`" "to close `meta` block"
  pure ⟨← spanFrom keyword.span, items⟩

/-- The next entry of the body of a procedure or stream, unless its closing brace is next. -/
def procItem : Reader σ (Option ProcItem) := do
  match ← kind with
  | .delimiter .rightBrace => pure none
  | .lineComment | .blockComment => do
    let comment ← comment
    pure (some (.comment comment))
  | .keyword .input => do
    let block ← fieldBlock
    pure (some (.input block))
  | .keyword .output => do
    let block ← fieldBlock
    pure (some (.output block))
  | .keyword .metadata => do
    let block ← metaBlock
    pure (some (.metadata block))
  | _ => unexpected "`input`, `output`, `meta` or `\x7d`"

/-- A procedure or stream from its keyword on. -/
def procDecl (preamble : Preamble) (role : String) : Reader σ ProcDecl := do
  let _ ← take
  declared preamble role
    (body (many procItem) "to open declaration body" "to close declaration body")

end RpcSchema.Reader
