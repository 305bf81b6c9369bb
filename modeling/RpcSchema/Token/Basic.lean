import RpcSchema.Source.Span
import RpcSchema.Token.Kind

/-!
# Tokens

A token is a lexeme with the place it was read from.  The lexeme, its kind and its literal, is all
that the meaning of a text depends on; the span is for messages.  The literal of a string, docstring
or comment is what stands between its marks, of any other token its whole text.

* `Lexeme.describe` names a lexeme in a message, with more detail than its kind alone has.
-/

namespace RpcSchema

/-- What a token says, without where it stands. -/
structure Lexeme where
  kind : Kind
  literal : String
deriving DecidableEq, Repr, Inhabited

namespace Lexeme

/-- The lexeme as a message names it.  Illegal text that begins as a docstring, string or block
comment is one that was never closed; other illegal text is a single character. -/
def describe (l : Lexeme) : String :=
  match l.kind with
  | .illegal =>
    if ['"', '"', '"'].isPrefixOf l.literal.toList then "unterminated docstring"
    else if ['"'].isPrefixOf l.literal.toList then "unterminated string literal"
    else if ['/', '*'].isPrefixOf l.literal.toList then "unterminated block comment"
    else "illegal character " ++ Kind.ticked (String.ofList (Text.shown l.literal.toList))
  | .string => "string \"" ++ l.literal ++ "\""
  | .endOfFile | .docstring | .lineComment | .blockComment => l.kind.describe
  | _ => Kind.ticked l.literal

end Lexeme

/-- A lexeme and where it stands. -/
structure Token extends Lexeme where
  span : Span
deriving DecidableEq, Repr, Inhabited

end RpcSchema
