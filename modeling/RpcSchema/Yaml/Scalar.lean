import RpcSchema.Decimal.Basic
import RpcSchema.Yaml.Folding

/-!
# Scalars

A scalar is a text with a style and a tag.  What a text means may depend on both: a text in quotes is
never a number.  There are five ways to write one: plain, in single quotes, in double quotes with
escapes, and as a block of lines that keeps its line ends or folds them.

How far a scalar must be indented depends on the mapping around it.  Where there is none, any column
will do.

* `plain`, `singleQuoted`, `doubleQuoted` and `block` read the text of a scalar of each form.
-/

namespace RpcSchema.Yaml

/-- How a scalar is written, as far as its meaning depends on it. -/
inductive Style where
  | plain | quoted | literal | folded
deriving DecidableEq, Repr

/-- A text, how it is written, and its tag if there is one. -/
structure Scalar where
  style : Style
  text : String
  tag : Option String
deriving DecidableEq, Repr

/-- The scalar that stands where nothing is written. -/
def Scalar.absent (tag : Option String) : Scalar := ⟨.plain, "", tag⟩

/-- The first column that is inside of a mapping at the given column. -/
def inside : Option Nat → Nat
  | none => 0
  | some column => column + 1

/-! ## Plain scalars -/

/-- The characters that a plain scalar cannot begin with. -/
def indicators : List Char :=
  ['-', '?', ':', ',', '[', ']', '{', '}', '#', '&', '*', '!', '|', '>', '\'', '"', '%', '@', '`']

/-- The characters that end a plain scalar between braces. -/
def brackets : List Char := [',', '[', ']', '{', '}']

/-- Whether a plain scalar can begin with the text. -/
def beginsPlain (inBraces : Bool) : List Char → Bool
  | [] => false
  | c :: rest =>
    if indicators.contains c then
      !blankNext rest && (c = '-' || (!inBraces && (c = '?' || c = ':')))
    else !isBlank c && !isBreak c

/-- Whether a plain scalar ends before a character that is neither blank nor a line end. -/
def endsPlain (inBraces : Bool) (afterBlank : Bool) (c : Char) (rest : List Char) : Bool :=
  (c = '#' && afterBlank) || (c = ':' && blankNext rest) || (inBraces && brackets.contains c)

/-- The text of a plain scalar with the blanks and line ends after it, and what it leaves.  Outside of
braces every line but the first reaches to the given column at least, and no tab stands to the left
of that column.  A place is `fresh` if nothing but blanks was read since the last line end. -/
def plainText (inBraces : Bool) (indent : Nat) (column : Nat) (afterBlank fresh : Bool) :
    List Char → Option (List Char × List Char)
  | [] => some ([], [])
  | c :: rest =>
    if isBreak c then
      (plainText inBraces indent 0 true true rest).map fun (cs, after) => (c :: cs, after)
    else if isBlank c then
      if c = '\t' && fresh && column < indent then none
      else
        (plainText inBraces indent (column + 1) true fresh rest).map
          fun (cs, after) => (c :: cs, after)
    else
      let outdented := fresh && !inBraces && column < indent
      let marked := column = 0 && isMarkerLine (c :: rest)
      if outdented || marked || endsPlain inBraces afterBlank c rest then some ([], c :: rest)
      else if inBraces && c = ':' && ('?' :: brackets).any (rest.head? = some ·) then none
      else
        (plainText inBraces indent (column + 1) false false rest).map
          fun (cs, after) => (c :: cs, after)

/-- A plain scalar in a mapping at the column `outer`, and whether a line ends between its last character
and the place behind it. -/
def plain (inBraces : Bool) (outer : Option Nat) : Move (String × Bool) := do
  let c ← get
  guard (beginsPlain inBraces c.rest)
  let cs ← Move.ofReader (plainText inBraces (inside outer) c.column false false)
  let trailing := cs.reverse.takeWhile fun d => isBlank d || isBreak d
  let pieces := (cs.take (cs.length - trailing.length)).map .raw
  pure (String.ofList (fold pieces), trailing.any isBreak)

/-! ## Quoted scalars -/

/-- The body of a scalar in single quotes, and the text behind its closing quote.  A quote in the body
is written twice. -/
def singleBody : List Char → Option (List Piece × List Char)
  | [] => none
  | '\'' :: '\'' :: rest => (singleBody rest).map fun (ps, after) => (.kept '\'' :: ps, after)
  | '\'' :: rest => some ([], rest)
  | c :: rest => (singleBody rest).map fun (ps, after) => (.raw c :: ps, after)

/-- The character with the number that hexadecimal digits stand for. -/
def charOfHex? (cs : List Char) : Option Char := do
  let n ← hexNumber? cs
  if n.isValidChar then some (Char.ofNat n) else none

/-- The character that a letter after a backslash stands for. -/
def escaped? (c : Char) : Option Char :=
  (List.lookup c
    [('0', '\x00'), ('a', '\x07'), ('b', '\x08'), ('t', '\t'), ('\t', '\t'), ('n', '\n'),
     ('v', '\x0b'), ('f', '\x0c'), ('r', '\r'), ('e', '\x1b'), (' ', ' '), ('"', '"'), ('/', '/'),
     ('\\', '\\'), ('N', '\u0085'), ('_', '\u00a0'), ('L', '\u2028'), ('P', '\u2029')])

/-- Reads one more kept character before what is read next. -/
def keep (char : Option Char) (next : Option (List Piece × List Char)) :
    Option (List Piece × List Char) := do
  let c ← char
  let (ps, after) ← next
  pure (.kept c :: ps, after)

/-- The body of a scalar in double quotes, and the text behind its closing quote. -/
def doubleBody : List Char → Option (List Piece × List Char)
  | [] => none
  | '"' :: rest => some ([], rest)
  | '\\' :: 'x' :: a :: b :: rest => keep (charOfHex? [a, b]) (doubleBody rest)
  | '\\' :: 'u' :: a :: b :: c :: d :: rest => keep (charOfHex? [a, b, c, d]) (doubleBody rest)
  | '\\' :: 'U' :: a :: b :: c :: d :: e :: f :: g :: h :: rest =>
    keep (charOfHex? [a, b, c, d, e, f, g, h]) (doubleBody rest)
  | '\\' :: c :: rest =>
    if isBreak c then (doubleBody rest).map fun (ps, after) => (.joint :: ps, after)
    else keep (escaped? c) (doubleBody rest)
  | c :: rest => (doubleBody rest).map fun (ps, after) => (.raw c :: ps, after)

/-- A scalar between quotes.  No line of it may look like the end of the document. -/
def quoted (body : List Char → Option (List Piece × List Char)) : Move String := do
  Move.pass 1
  let before := (← get).rest
  let pieces ← Move.ofReader body
  let passed := before.take (before.length - (← get).rest.length)
  guard (!((lines passed).drop 1).any (isMarkerLine ·.1))
  pure (String.ofList (fold pieces))

/-- A scalar between single quotes. -/
def singleQuoted : Move String := quoted singleBody

/-- A scalar between double quotes. -/
def doubleQuoted : Move String := quoted doubleBody

/-! ## Blocks -/

/-- What becomes of the line ends at the end of a block. -/
inductive Chomping where
  /-- One is kept. -/
  | clip
  /-- None is kept. -/
  | strip
  /-- All are kept. -/
  | keep
deriving DecidableEq, Repr

/-- The chomping that a sign asks for. -/
def chomping? (c : Char) : Option Chomping :=
  if c = '+' then some .keep else if c = '-' then some .strip else none

/-- The number of columns that a digit asks for. -/
def width? (c : Char) : Option Nat := if c.isDigit then some (Decimal.digitValue c) else none

/-- Takes the next character if it asks for something. -/
def asked? {α : Type} (read : Char → Option α) : Move (Option α) := do
  match (← get).rest.head?.bind read with
  | some a => Move.pass 1; pure (some a)
  | none => pure none

/-- What the first line of a block says: the chomping, and the number of columns by which the block is
indented if it is said.  The two may stand in either order. -/
def blockHeader : Move (Chomping × Option Nat) := do
  Move.pass 1
  let first ← asked? chomping?
  let width ← asked? width?
  let second ← if first = none ∧ width ≠ none then asked? chomping? else pure none
  guard (width ≠ some 0)
  Move.restOfLine
  pure ((first.or second).getD .clip, width)

/-- The number of spaces at the start of a line. -/
def leadingSpaces (line : List Char) : Nat := (line.takeWhile (· = ' ')).length

/-- The column to which a block is indented: that of its first line that is not empty, or of an emptier
line before it that reaches further, but `least` at any rate.  A tab may not indent. -/
def detectIndent (least : Nat) : List (List Char × List Char) → Option Nat
  | [] => some least
  | (line, _) :: rest =>
    let n := leadingSpaces line
    let after := line.drop n
    if after.head? = some '\t' then none
    else if after = [] ∧ rest ≠ [] then detectIndent (max least n) rest
    else some (max least n)

/-- A block that is read in part: its text up to the end of its last line, that line end, those of the
empty lines after it, and whether that line began with a blank. -/
structure BlockText where
  text : List Char := []
  ending : List Char := []
  empties : List Char := []
  blank : Bool := false

/-- The block with one more line. -/
def BlockText.add (b : BlockText) (folded : Bool) (line ending : List Char) : BlockText :=
  let blank := line.head?.any isBlank
  let joint :=
    if folded && b.ending = ['\n'] && !b.blank && !blank then
      if b.empties = [] then [' '] else b.empties
    else b.ending ++ b.empties
  { text := b.text ++ joint ++ line, ending, blank }

/-- The whole text of the block. -/
def BlockText.chomped (b : BlockText) : Chomping → List Char
  | .strip => b.text
  | .clip => b.text ++ b.ending
  | .keep => b.text ++ b.ending ++ b.empties

/-- The lines of a block that is indented to the given column, and what it leaves. -/
def blockLines (folded : Bool) (indent : Nat) (b : BlockText) :
    List (List Char × List Char) → Option (BlockText × List Char)
  | [] => some (b, [])
  | (line, ending) :: rest =>
    let n := min indent (leadingSpaces line)
    let after := line.drop n
    if after = [] then
      if rest = [] then some (b, [])
      else blockLines folded indent { b with empties := b.empties ++ ending } rest
    else if n = indent then blockLines folded indent (b.add folded after ending) rest
    else if after.head? = some '\t' then none
    else some (b, after ++ ending ++ rest.flatMap fun (l, e) => l ++ e)

/-- A block of lines in a mapping at the column `outer`. -/
def block (folded : Bool) (outer : Option Nat) : Move String := do
  let (chomping, width) ← blockHeader
  let b ← Move.ofReader fun cs => do
    let indent ← match width with
      | some n => some (outer.getD 0 + n)
      | none => detectIndent (max 1 (inside outer)) (lines cs)
    blockLines folded indent {} (lines cs)
  pure (String.ofList (b.chomped chomping))

end RpcSchema.Yaml
