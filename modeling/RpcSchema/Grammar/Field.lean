import RpcSchema.Grammar.Literal
import RpcSchema.Schema.Field

/-!
# Reading fields

```
fields   = (comment | docstring | [docstring] field)*
field    = name [ "?" ] ":" type [ "?" ] use*
type     = (type name | "{" fields "}") [ "[" "]" ]
use      = "@" identifier [ "(" [argument] ")" ]
argument = error | values [ "," error ]
values   = literal | "[" [literal ("," literal)* [","]] "]"
error    = "error" ":" string
```

A field may be marked optional after its name or after its type; the two mean the same.  A docstring
belongs to the field after it unless a blank line separates them.
-/

namespace RpcSchema.Reader

variable {σ : Type} [TokenSupply σ]

/-! ## Uses of rules -/

/-- The message of a rule, in its declaration or at its use. -/
def errorClause : Reader σ ErrorClause := do
  let keyword ← expect (.keyword .error) ""
  let _ ← expectMark .colon "after `error`"
  let message ← stringLiteral "as error message"
  pure ⟨← spanFrom keyword.span, message⟩

/-- The next item of an array whose first item is of the given kind: after a comma, if there is one,
and unless the array ends there. -/
def arrayItem (first : ValueKind) : Reader σ (Option Literal) := do
  if ← takeMark? .comma then
    if (← kind) = .delimiter .rightBracket then pure none
    else
      let item ← literal
      if item.value.kind = first then pure (some item)
      else throw ⟨item.span, .mixedArray first item.value.kind⟩
  else pure none

/-- The items of an array, all of one kind. -/
def arrayItems : Reader σ (List Literal) := do
  if (← kind) = .delimiter .rightBracket then pure []
  else
    let first ← literal
    let rest ← many (arrayItem first.value.kind)
    pure (first :: rest)

/-- What a rule is given. -/
def argument : Reader σ Argument := do
  if (← kind) = .delimiter .leftBracket then
    let opening ← take
    let items ← arrayItems
    let _ ← expectMark .rightBracket "to close array literal"
    pure (.array (← spanFrom opening.span) items)
  else
    let item ← literal
    pure (.single item)

/-- What stands between the parentheses of a use.  The word `error` opens a message only before a
colon. -/
def useArguments : Reader σ (Option Argument × Option ErrorClause) := do
  if (← kind) = .keyword .error ∧ (← kindAhead 1) = .delimiter .colon then
    let error ← errorClause
    pure (none, some error)
  else if (← kind) = .delimiter .rightParen then pure (none, none)
  else
    let argument ← argument
    if ← takeMark? .comma then
      let error ← errorClause
      pure (some argument, some error)
    else pure (some argument, none)

/-- The use of a rule. -/
def ruleUse : Reader σ RuleUse := do
  let mark ← expectMark .atSign ""
  let name ← identifier "as rule name"
  if ← takeMark? .leftParen then
    let (argument, error) ← useArguments
    let _ ← expectMark .rightParen "to close rule arguments"
    pure ⟨← spanFrom mark.span, name, argument, error⟩
  else pure ⟨← spanFrom mark.span, name, none, none⟩

/-- The next use of a rule, if there is one. -/
def ruleUse? : Reader σ (Option RuleUse) := do
  if (← kind) = .delimiter .atSign then some <$> ruleUse else pure none

/-! ## Fields and their types -/

/-- The type of a field; `inline` reads the fields of an inline object. -/
def fieldType (inline : Reader σ (List FieldItem)) : Reader σ FieldType := do
  let start ← here
  let first ← kind
  let base ←
    if first = .delimiter .leftBrace then do
      let _ ← take
      let items ← inline
      let _ ← expectMark .rightBrace "to close inline object"
      pure (FieldBase.object items)
    else if first.isTypeName then FieldBase.named <$> name
    else unexpected "a type or `\x7b`"
  let isArray ← arraySuffix
  pure ⟨← spanFrom start, base, isArray⟩

/-- A field, whose docstring was read before. -/
def field (inline : Reader σ (List FieldItem)) (docstring : Option Docstring) : Reader σ Field := do
  let name ← name
  let optionalName ← takeMark? .questionMark
  let _ ← expectMark .colon "after field name"
  let type ← fieldType inline
  let optionalType ← takeMark? .questionMark
  let rules ← many ruleUse?
  pure ⟨← spanFrom name.span, docstring, name, optionalName || optionalType, type, rules⟩

/-- Whether a docstring that was just taken belongs to a field. -/
def fieldFollows : Reader σ Bool := do
  pure ((← kind).isName && (← breaksAhead 0) < 2)

/-- The next entry of a list of fields, unless its closing brace is next. -/
def fieldItem (inline : Reader σ (List FieldItem)) : Reader σ (Option FieldItem) := do
  let first ← kind
  if first = .delimiter .rightBrace then pure none
  else if first.isComment then do
    let comment ← comment
    pure (some (.comment comment))
  else if first = .docstring then do
    let docstring ← docstring
    if ← fieldFollows then
      let field ← field inline (some docstring)
      pure (some (.field field))
    else pure (some (.docstring docstring))
  else if first.isName then do
    let field ← field inline none
    pure (some (.field field))
  else unexpected "a field or `\x7d`"

/-- The fields up to a closing brace. -/
def fieldItems : Reader σ (List FieldItem) := nest fun inline => many (fieldItem inline)

end RpcSchema.Reader
