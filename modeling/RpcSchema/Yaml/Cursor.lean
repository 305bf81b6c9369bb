/-!
# Places in a YAML text

The layout of a YAML text is part of its meaning: how far a line is indented, and whether two tokens
stand on one line.  A cursor is the text that is left, with the line and the column that it begins at.

* `normalise` gives line ends their short form and refuses characters that no YAML text may hold.
* `lines` cuts a text at its line ends.
* `Cursor.pass` and `Cursor.moveTo` move to a later place.
* `Move` is a computation that moves a cursor.
-/

namespace RpcSchema.Yaml

/-! ## Characters -/

/-- Whether a character separates tokens on a line. -/
def isBlank (c : Char) : Bool := c = ' ' || c = '\t'

/-- Whether a character ends a line: a line feed, which stands for the other usual forms too, and the
two separators of lines and of paragraphs, which stand for themselves. -/
def isBreak (c : Char) : Bool := c = '\n' || c = '\u2028' || c = '\u2029'

/-- The mark of the order of bytes, which may stand at the start of a line. -/
def byteOrderMark : Char := '\ufeff'

/-- Whether a YAML text may hold the character. -/
def isAllowed (c : Char) : Bool :=
  c = '\t' || c = '\n' || c = '\r' || c = '\u0085'
    || (' ' ≤ c && c ≤ '~') || ('\u00a0' ≤ c && c.toNat ≤ 0xFFFD) || 0x10000 ≤ c.toNat

/-- The text with the usual line ends written as a line feed. -/
def unifyBreaks : List Char → List Char
  | [] => []
  | '\r' :: '\n' :: rest => '\n' :: unifyBreaks rest
  | c :: rest => (if c = '\r' ∨ c = '\u0085' then '\n' else c) :: unifyBreaks rest

/-- The text with short line ends, if it holds allowed characters only. -/
def normalise (cs : List Char) : Option (List Char) :=
  if cs.all isAllowed then some (unifyBreaks cs) else none

/-- The value of a hexadecimal digit. -/
def hexValue? (c : Char) : Option Nat :=
  if c.isDigit then some (c.toNat - '0'.toNat)
  else if 'a' ≤ c ∧ c ≤ 'f' then some (c.toNat - 'a'.toNat + 10)
  else if 'A' ≤ c ∧ c ≤ 'F' then some (c.toNat - 'A'.toNat + 10)
  else none

/-- The number that hexadecimal digits stand for. -/
def hexNumber? (cs : List Char) : Option Nat :=
  cs.foldlM (fun n c => (hexValue? c).map (16 * n + ·)) 0

/-! ## Lines -/

/-- Whether the line or the text ends here. -/
def breakNext (cs : List Char) : Bool := cs.head?.all isBreak

/-- Whether the line or the text ends here, or a blank follows. -/
def blankNext (cs : List Char) : Bool := cs.head?.all fun c => isBlank c || isBreak c

/-- The lines of a text, each with its line end, which the last one lacks. -/
def lines : List Char → List (List Char × List Char)
  | [] => [([], [])]
  | c :: rest =>
    if isBreak c then ([], [c]) :: lines rest
    else match lines rest with
      | [] => [([c], [])]
      | (line, ending) :: more => (c :: line, ending) :: more

/-- The mark before a document. -/
def startMark : List Char := ['-', '-', '-']

/-- The mark after a document. -/
def endMark : List Char := ['.', '.', '.']

/-- Whether a line begins with the mark, and the mark stands by itself. -/
def beginsWithMark (mark line : List Char) : Bool :=
  mark.isPrefixOf line && blankNext (line.drop mark.length)

/-- Whether a line begins with one of the marks that separate documents. -/
def isMarkerLine (line : List Char) : Bool :=
  beginsWithMark startMark line || beginsWithMark endMark line

/-! ## Cursors -/

/-- The text from a place on.  Lines and columns count from 0. -/
structure Cursor where
  rest : List Char
  line : Nat
  column : Nat
deriving DecidableEq, Repr

namespace Cursor

/-- The cursor in front of a text. -/
def start (cs : List Char) : Cursor := ⟨cs, 0, 0⟩

/-- The cursor behind the next character. -/
def next (c : Cursor) : Cursor :=
  match c.rest with
  | [] => c
  | d :: rest => if isBreak d then ⟨rest, c.line + 1, 0⟩ else ⟨rest, c.line, c.column + 1⟩

/-- The cursor behind the next `n` characters. -/
def pass (c : Cursor) : Nat → Cursor
  | 0 => c
  | n + 1 => c.next.pass n

/-- The cursor in front of a later part of the text. -/
def moveTo (c : Cursor) (rest : List Char) : Cursor := c.pass (c.rest.length - rest.length)

/-- Whether the next character is the given one. -/
def isAt (c : Cursor) (char : Char) : Bool := c.rest.head? = some char

/-- Whether the mark stands here, alone and at the start of its line. -/
def isAtMark (c : Cursor) (mark : List Char) : Bool := c.column = 0 && beginsWithMark mark c.rest

end Cursor

example : (Cursor.start ['a', '\n', 'b', 'c']).pass 3 = ⟨['c'], 1, 1⟩ := by decide

/-! ## Moves -/

/-- A computation that moves a cursor, and may refuse the text.  Why it does is not told. -/
abbrev Move := StateT Cursor Option

namespace Move

/-- Passes over the next `n` characters. -/
def pass (n : Nat) : Move Unit := modify (·.pass n)

/-- Takes the characters up to the first that is not in the class. -/
def takeWhile (p : Char → Bool) : Move (List Char) := fun c =>
  let text := c.rest.takeWhile p
  some (text, c.pass text.length)

/-- Takes the given character. -/
def take (char : Char) : Move Unit := do
  guard ((← get).isAt char)
  pass 1

/-- Reads from the text that is left; the reader tells what it leaves. -/
def ofReader {α : Type} (read : List Char → Option (α × List Char)) : Move α := fun c =>
  (read c.rest).map fun (a, rest) => (a, c.moveTo rest)

/-- Passes over the rest of the line, on which only blanks and a remark may stand, and over its end. -/
def restOfLine : Move Unit := do
  let _ ← takeWhile isBlank
  if (← get).isAt '#' then
    let _ ← takeWhile (!isBreak ·)
  guard (breakNext (← get).rest)
  pass 1

end Move

end RpcSchema.Yaml
