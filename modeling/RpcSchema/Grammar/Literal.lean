import RpcSchema.Grammar.Reader
import RpcSchema.Text.StringBody

/-!
# Reading leaves

Names, literals, comments and docstrings are single words.
-/

namespace RpcSchema.Reader

variable {σ : Type} [TokenSupply σ]

/-- The next word as a name. -/
def name : Reader σ Name := do
  let token ← take
  pure ⟨token.span, token.literal⟩

/-- The name that a declaration or rule is given; a keyword cannot be one. -/
def identifier (role : String) : Reader σ Name := do
  let token ← expect .identifier role
  pure ⟨token.span, token.literal⟩

/-- The name of a type. -/
def typeName : Reader σ Name := do
  if (← kind).isTypeName then name else unexpected "a type name"

/-- The brackets after a type, which make an array of it. -/
def arraySuffix : Reader σ Bool := do
  if ← takeMark? .leftBracket then
    let _ ← expectMark .rightBracket "to close array type"
    pure true
  else pure false

/-- The value of a string literal. -/
def stringValue (token : Token) : String := String.ofList (Text.unescape token.literal.toList)

/-- A string, as its value. -/
def stringLiteral (role : String) : Reader σ String := do
  let token ← expect .string role
  pure (stringValue token)

/-- The value of an integer literal, if it is below the bound. -/
def natural (token : Token) : Reader σ Nat :=
  let n := Decimal.naturalOfDigits token.literal.toList
  if n < Decimal.integerBound then pure n else throw ⟨token.span, .integerOutOfRange⟩

/-- The next word as a comment. -/
def comment : Reader σ Comment := do
  let token ← take
  pure ⟨token.span, token.literal, token.kind = .blockComment⟩

/-- The next word as a docstring. -/
def docstring : Reader σ Docstring := do
  let token ← take
  pure ⟨token.span, token.literal⟩

/-- A literal.  An integer that is out of range is refused before it is taken. -/
def literal : Reader σ Literal := do
  let token := (TokenSupply.peek (← get) 0).token
  let value ← match token.kind with
    | .string => pure (Value.string (stringValue token))
    | .integer => Value.int <$> natural token
    | .float => pure (Value.float (Decimal.ofLiteral token.literal.toList).toFloat)
    | .boolean b => pure (Value.bool b)
    | _ => unexpected "a literal"
  let _ ← take
  pure ⟨token.span, value⟩

end RpcSchema.Reader
