import RpcSchema.Yaml.Scalar
import RpcSchema.Yaml.Tag

/-!
# Tokens of a YAML text

The tokens of a text tell its structure without its layout: where a mapping begins and ends, and what is
a key.  A key is known only by the colon behind it, so whatever could be one is remembered, and if
the colon comes, the token of a key is put in front of it.  A mapping without braces begins with its
first key and ends where a line begins further to the left.

Only texts that hold one flat mapping are of interest: what can occur in no such text, as lists and
mappings within mappings, is refused at once.

* `Layout` is what is known at a place of the text.
* `Layout.token` reads the next token.
* `tokens?` are the tokens of a text.
-/

namespace RpcSchema.Yaml

/-- A token.  Tokens of a mapping that is written without braces are marked as its start and end. -/
inductive Token where
  | directive (d : Directive)
  | documentStart
  | documentEnd
  | mappingStart
  | mappingEnd
  | braceOpen
  | braceClose
  | comma
  | key
  | value
  | anchor (name : String)
  | reference (name : String)
  | tag (t : Tag)
  | scalar (style : Style) (text : String)
deriving DecidableEq, Repr

/-- The directive that a token is. -/
def Token.directive? : Token → Option Directive
  | .directive d => some d
  | _ => none

/-- What may turn out to be a key: its place in the text, and the number of tokens before it.  It is
required to be one if it stands where the mapping around it has its keys. -/
structure PossibleKey where
  line : Nat
  column : Nat
  place : Nat
  required : Bool
deriving DecidableEq, Repr

/-- What is known at a place of the text. -/
structure Layout where
  cursor : Cursor
  /-- Whether a brace is open. -/
  inBraces : Bool := false
  /-- The column of the mapping that is open without a brace. -/
  outer : Option Nat := none
  /-- Whether a key may stand here. -/
  keyAllowed : Bool := true
  possibleKey : Option PossibleKey := none
  /-- The tokens up to here, the latest first. -/
  tokens : List Token := []
deriving Repr

/-- A computation that moves on in a text, and may refuse it. -/
abbrev Scanner := StateT Layout Option

namespace Layout

/-- Moves the cursor. -/
def move {α : Type} (m : Move α) : Scanner α := fun l =>
  (m l.cursor).map fun (a, cursor) => (a, { l with cursor })

/-- Adds a token. -/
def add (t : Token) : Scanner Unit := modify fun l => { l with tokens := t :: l.tokens }

/-- Adds a token behind the first `place` tokens. -/
def insert (place : Nat) (t : Token) : Scanner Unit :=
  modify fun l =>
    let later := l.tokens.length - place
    { l with tokens := l.tokens.take later ++ t :: l.tokens.drop later }

/-- Says whether a key may come next. -/
def allowKey (b : Bool) : Scanner Unit := modify fun l => { l with keyAllowed := b }

/-! ## Keys and mappings -/

/-- What could have been a key is none. -/
def forgetKey : Scanner Unit := do
  guard (!(← get).possibleKey.any (·.required))
  modify fun l => { l with possibleKey := none }

/-- What is next may be a key, if one may stand here. -/
def rememberKey : Scanner Unit := do
  if (← get).keyAllowed then
    forgetKey
    modify fun l =>
      let required := !l.inBraces && l.outer = some l.cursor.column
      { l with possibleKey := some ⟨l.cursor.line, l.cursor.column, l.tokens.length, required⟩ }

/-- A key and its colon stand on one line, and the colon follows within this number of columns. -/
def keyReach : Nat := 1024

/-- What could have been a key is none if a colon would come too late. -/
def forgetLateKey : Scanner Unit := do
  let l ← get
  let isLate (k : PossibleKey) : Bool :=
    k.line < l.cursor.line || k.column + keyReach < l.cursor.column
  if l.possibleKey.any isLate then forgetKey

/-- Opens a mapping without braces at a column, in front of the tokens from `place` on, unless one is
open there. -/
def openMapping (column place : Nat) : Scanner Unit := do
  let l ← get
  if l.inBraces || l.outer = some column then pure ()
  else
    guard (l.outer = none)
    insert place .mappingStart
    modify fun l => { l with outer := some column }

/-- Closes the mapping without braces if it is to the right of the place. -/
def closeMapping (isRight : Nat → Bool) : Scanner Unit := do
  let l ← get
  if !l.inBraces && l.outer.any isRight then
    add .mappingEnd
    modify fun l => { l with outer := none }

/-! ## Between tokens -/

/-- The place in front of the next token, and whether a key may stand there.  Blanks, line ends and
remarks are passed over, and so is the mark of the byte order at the start of a line.  A tab may not stand
in front of a key, except between braces.  After a line end a key may stand. -/
def gap (inBraces keyAllowed inRemark : Bool) (line column : Nat) : List Char → Bool × Cursor
  | [] => (keyAllowed, ⟨[], line, column⟩)
  | c :: rest =>
    if isBreak c then gap inBraces (keyAllowed || !inBraces) false (line + 1) 0 rest
    else if inRemark || c = ' ' || (c = '\t' && (inBraces || !keyAllowed))
        || (c = byteOrderMark && column = 0) then
      gap inBraces keyAllowed inRemark line (column + 1) rest
    else if c = '#' then gap inBraces keyAllowed true line (column + 1) rest
    else (keyAllowed, ⟨c :: rest, line, column⟩)

/-- Moves to the next token. -/
def passGap : Scanner Unit := do
  modify fun l =>
    let (keyAllowed, cursor) :=
      gap l.inBraces l.keyAllowed false l.cursor.line l.cursor.column l.cursor.rest
    { l with keyAllowed, cursor }
  forgetLateKey
  let column := (← get).cursor.column
  closeMapping (column < ·)

/-- Ends what is open, since the document ends or the text does. -/
def finish : Scanner Unit := do
  closeMapping fun _ => true
  forgetKey

/-! ## Tokens -/

/-- A directive, or a mark that separates documents. -/
def betweenDocuments (read : Move Token) : Scanner Unit := do
  finish
  allowKey false
  add (← move read)

/-- The token of a mark. -/
def documentMark (t : Token) (mark : List Char) : Move Token := do
  Move.pass mark.length
  pure t

/-- The brace that opens a mapping. -/
def openBrace : Scanner Unit := do
  let l ← get
  guard (!l.inBraces && l.outer = none)
  modify fun l => { l with inBraces := true, possibleKey := none, keyAllowed := true }
  move (Move.pass 1)
  add .braceOpen

/-- The brace that closes a mapping. -/
def closeBrace : Scanner Unit := do
  forgetKey
  modify fun l => { l with inBraces := false, keyAllowed := false }
  move (Move.pass 1)
  add .braceClose

/-- A comma. -/
def comma : Scanner Unit := do
  forgetKey
  allowKey true
  move (Move.pass 1)
  add .comma

/-- Opens a mapping here, if braces do not say where it is. -/
def openHere : Scanner Unit := do
  let l ← get
  guard (l.inBraces || l.keyAllowed)
  openMapping l.cursor.column l.tokens.length

/-- The mark in front of a key. -/
def questionMark : Scanner Unit := do
  openHere
  forgetKey
  allowKey (!(← get).inBraces)
  move (Move.pass 1)
  add .key

/-- The colon in front of a value.  What was remembered as a possible key is one. -/
def colon : Scanner Unit := do
  match (← get).possibleKey with
  | some k =>
    insert k.place .key
    openMapping k.column k.place
    modify fun l => { l with possibleKey := none, keyAllowed := false }
  | none =>
    openHere
    allowKey (!(← get).inBraces)
  move (Move.pass 1)
  add .value

/-- The characters that may follow the name of a node without a blank between. -/
def nameEnds : List Char := ['?', ':', ',', ']', '}', '%', '@', '`']

/-- A name after the mark in front of it. -/
def name : Move String := do
  Move.pass 1
  let text ← Move.takeWhile isNameChar
  let behind := (← get).rest
  guard (text ≠ [] && (blankNext behind || behind.head?.any nameEnds.contains))
  pure (String.ofList text)

/-- A part of a node that may be a key. -/
def nodePart (read : Move Token) : Scanner Unit := do
  rememberKey
  allowKey false
  add (← move read)

/-- A block of lines.  It may end at the start of a line, where a key may stand. -/
def blockScalar (style : Style) : Scanner Unit := do
  forgetKey
  allowKey true
  let text ← move (block (style = .folded) (← get).outer)
  add (.scalar style text)

/-- A plain scalar.  If a line ends behind it, a key may come next. -/
def plainScalar : Scanner Unit := do
  rememberKey
  let l ← get
  let (text, endsLine) ← move (plain l.inBraces l.outer)
  allowKey endsLine
  add (.scalar .plain text)

/-- The token that is next.  A question mark or a colon is a token by itself only in front of a blank,
except between braces. -/
def token : Scanner Unit := do
  let l ← get
  let c := l.cursor
  let standsAlone : Bool := l.inBraces || blankNext (c.rest.drop 1)
  if c.column = 0 && c.isAt '%' then betweenDocuments (.directive <$> Directive.read)
  else if c.isAtMark startMark then betweenDocuments (documentMark .documentStart startMark)
  else if c.isAtMark endMark then betweenDocuments (documentMark .documentEnd endMark)
  else if c.isAt '{' then openBrace
  else if c.isAt '}' then closeBrace
  else if c.isAt ',' then comma
  else if c.isAt '?' && standsAlone then questionMark
  else if c.isAt ':' && standsAlone then colon
  else if c.isAt '*' then nodePart (.reference <$> name)
  else if c.isAt '&' then nodePart (.anchor <$> name)
  else if c.isAt '!' then nodePart (.tag <$> Tag.read l.inBraces)
  else if c.isAt '\'' then nodePart (.scalar .quoted <$> singleQuoted)
  else if c.isAt '"' then nodePart (.scalar .quoted <$> doubleQuoted)
  else if c.isAt '|' && !l.inBraces then blockScalar .literal
  else if c.isAt '>' && !l.inBraces then blockScalar .folded
  else plainScalar

/-- The tokens up to the end of the text.  Each takes a character at least. -/
def run (l : Layout) : Option (List Token) :=
  match passGap.run l with
  | none => none
  | some (_, front) =>
    if front.cursor.rest = [] then (finish.run front).map (·.2.tokens.reverse)
    else
      match token.run front with
      | none => none
      | some (_, behind) =>
        if behind.cursor.rest.length < l.cursor.rest.length then run behind else none
termination_by l.cursor.rest.length

end Layout

/-- The tokens of a text. -/
def tokens? (text : String) : Option (List Token) := do
  let cs ← normalise text.toList
  Layout.run { cursor := .start cs }

end RpcSchema.Yaml
