import RpcSchema.Yaml.Cursor

/-!
# Folding lines

A scalar may run over several lines.  The blanks around a line end are no part of it.  The first line
end stands for a space if it is a line feed and no other follows, otherwise a line feed stands for
nothing there; any other line end stands for itself.  Characters that were escaped are kept
whatever they are, and an escaped line end stands for nothing.

* `fold` is the text of a scalar that was read in pieces.
-/

namespace RpcSchema.Yaml

/-- A piece of a scalar. -/
inductive Piece where
  /-- A character as it is written; blanks and line ends are folded. -/
  | raw (c : Char)
  /-- A character that stands for itself. -/
  | kept (c : Char)
  /-- A line end that joins two lines. -/
  | joint
deriving DecidableEq, Repr

/-- What was read since the last character that is sure to be part of the text. -/
inductive Gap where
  /-- Blanks on one line. -/
  | blanks (cs : List Char)
  /-- A line end, nothing if it was escaped, and further ones. -/
  | broken (first : Option Char) (more : List Char)
deriving DecidableEq, Repr

/-- The text that a gap stands for. -/
def Gap.text : Gap → List Char
  | .blanks cs => cs
  | .broken (some '\n') [] => [' ']
  | .broken (some '\n') more => more
  | .broken first more => first.toList ++ more

/-- The gap after one more blank. -/
def Gap.addBlank : Gap → Char → Gap
  | .blanks cs, c => .blanks (cs ++ [c])
  | .broken first more, _ => .broken first more

/-- The gap after one more line end. -/
def Gap.addBreak : Gap → Char → Gap
  | .blanks _, c => .broken (some c) []
  | .broken first more, c => .broken first (more ++ [c])

/-- The text of pieces that follow a gap. -/
def foldFrom (gap : Gap) : List Piece → List Char
  | [] => gap.text
  | .raw c :: rest =>
    if isBreak c then foldFrom (gap.addBreak c) rest
    else if isBlank c then foldFrom (gap.addBlank c) rest
    else gap.text ++ c :: foldFrom (.blanks []) rest
  | .kept c :: rest => gap.text ++ c :: foldFrom (.blanks []) rest
  | .joint :: rest => gap.text ++ foldFrom (.broken none []) rest

/-- The text of pieces. -/
def fold (pieces : List Piece) : List Char := foldFrom (.blanks []) pieces

example : fold ([' ', 'a', ' ', '\n', ' ', 'b'].map .raw) = [' ', 'a', ' ', 'b'] := by decide
example : fold (['a', '\n', '\n', 'b'].map .raw) = ['a', '\n', 'b'] := by decide
example : fold (['a', '\u2028', 'b'].map .raw) = ['a', '\u2028', 'b'] := by decide
example : fold [.raw 'a', .joint, .raw ' ', .raw 'b'] = ['a', 'b'] := by decide

end RpcSchema.Yaml
