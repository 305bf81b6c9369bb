import RpcSchema.Grammar.Error
import RpcSchema.Grammar.Supply

/-!
# Readers

A reader takes words from a supply and answers a part of a schema, or a syntax error.  After an error
the supply is where it was when the error was found, and another reader may go on from there.

Readers are written in do-notation over three steps: `kind` looks at a word, `take` takes it, and
`unexpected` refuses it.  They repeat and nest in two ways only:

* `many` repeats a reader until it answers nothing.
* `nest` lets a reader contain itself.

Both come to an end for every reader, since both go on only when words were taken in between.
-/

namespace RpcSchema

open TokenSupply

/-- A computation that takes words and may fail. -/
abbrev Reader (σ α : Type) := EStateM SyntaxError σ α

namespace Reader

variable {σ : Type} [TokenSupply σ] {α : Type}

/-! ## Steps -/

/-- The kind of the word that stands the given number of words ahead. -/
def kindAhead (ahead : Nat) : Reader σ Kind := do
  let s ← get
  pure (peek s ahead).token.kind

/-- The kind of the next word. -/
def kind : Reader σ Kind := kindAhead 0

/-- The number of line feeds before the word that stands the given number of words ahead. -/
def breaksAhead (ahead : Nat) : Reader σ Nat := do
  let s ← get
  pure (peek s ahead).breaks

/-- Where the next word stands. -/
def here : Reader σ Span := do
  let s ← get
  pure (peek s 0).token.span

/-- Takes the next word. -/
def take : Reader σ Token := do
  let s ← get
  set (advance s)
  pure (peek s 0).token

/-- The stretch from the start of a span to the end of the word that was taken last. -/
def spanFrom (start : Span) : Reader σ Span := do
  let s ← get
  pure { start with stop := last s }

/-- The error that the next word is, where something else was expected. -/
def errorAtNext (s : σ) (expected : String) : SyntaxError :=
  let token := (peek s 0).token
  { span := token.span
    problem :=
      if token.kind = .illegal then .illegal token.toLexeme
      else .unexpected token.toLexeme expected }

/-- Refuses the next word. -/
def unexpected (expected : String) : Reader σ α := do
  let s ← get
  throw (errorAtNext s expected)

/-- Takes a word of the given kind and no other; `role` says what it is there for. -/
def expect (wanted : Kind) (role : String) : Reader σ Token := do
  if (← kind) = wanted then take
  else unexpected (if role = "" then wanted.describe else wanted.describe ++ " " ++ role)

/-- Takes a punctuation mark and no other word. -/
def expectMark (wanted : Delimiter) (role : String) : Reader σ Token :=
  expect (.delimiter wanted) role

/-- Takes a punctuation mark if it is next, and says whether it was. -/
def takeMark? (wanted : Delimiter) : Reader σ Bool := do
  if (← kind) = .delimiter wanted then
    let _ ← take
    pure true
  else pure false

/-! ## Repeating and nesting -/

/-- Repeats a reader until it answers nothing, and collects what it answers.  An answer for which no
word was taken is the last. -/
def many (item : Reader σ (Option α)) (s : σ) : EStateM.Result SyntaxError σ (List α) :=
  match item s with
  | .error e s' => .error e s'
  | .ok none s' => .ok [] s'
  | .ok (some a) s' =>
    if remaining s' < remaining s then
      match many item s' with
      | .error e s'' => .error e s''
      | .ok as s'' => .ok (a :: as) s''
    else .ok [a] s'
termination_by remaining s

/-- A reader that contains itself: `body` is given a reader for the inner occurrences.  An inner
occurrence where no word was taken since the outer one began is refused. -/
def nest (body : Reader σ α → Reader σ α) (s : σ) : EStateM.Result SyntaxError σ α :=
  body (fun s' =>
    if remaining s' < remaining s then nest body s'
    else .error (errorAtNext s' "an inner part") s') s
termination_by remaining s

end Reader

end RpcSchema
