import RpcSchema.Schema.Leaf
import RpcSchema.Token.Basic

/-!
# Syntax errors

Reading stops at the first place where a text breaks the grammar.  The error says what is wrong and
where; what was found there is kept as a lexeme, and what would have been right as a phrase.
-/

namespace RpcSchema

/-- What is wrong with a text. -/
inductive SyntaxProblem where
  /-- Text that belongs to no token. -/
  | illegal (found : Lexeme)
  /-- A token that cannot stand where it does. -/
  | unexpected (found : Lexeme) (expected : String)
  /-- An integer that does not fit into 64 bits with a sign. -/
  | integerOutOfRange
  /-- An item of an array that is of another kind than the first. -/
  | mixedArray (first found : ValueKind)
deriving DecidableEq, Repr

/-- The wording of a syntax error. -/
def SyntaxProblem.message : SyntaxProblem → String
  | .illegal found => found.describe
  | .unexpected found expected => "unexpected " ++ found.describe ++ ", expecting " ++ expected
  | .integerOutOfRange => "integer literal out of range"
  | .mixedArray first found =>
    "array items must all have the same type, expected " ++ first.name ++ " but found "
      ++ found.name

/-- What is wrong with a text, and where. -/
structure SyntaxError where
  span : Span
  problem : SyntaxProblem
deriving DecidableEq, Repr

end RpcSchema
