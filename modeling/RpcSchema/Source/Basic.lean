import RpcSchema.Source.Position

/-!
# Sources

A source is a named text.  Every token, node and finding that stems from a text refers to its source,
so that it can say where it stands and can show the line.

* `Source.lines` is the text cut at its line feeds.
* `Source.line` is one line, by its number from zero.
* `Source.slice` is the text between two offsets.
-/

namespace RpcSchema

/-- A named text.  The name is a path where the text was read from a file. -/
structure Source where
  file : String
  contents : String
deriving DecidableEq, Repr, Inhabited

namespace Source

/-- The characters of the text. -/
def chars (s : Source) : List Char := s.contents.toList

/-- The length of the text in bytes. -/
def length (s : Source) : Nat := s.contents.utf8ByteSize

/-- The length is that of the characters. -/
theorem length_eq (s : Source) : s.length = Text.utf8Length s.chars :=
  (Text.utf8Length_toList s.contents).symm

/-- A line without the carriage return that stood right before its line feed. -/
def dropReturn (line : List Char) : List Char :=
  if line.getLast? = some '\r' then line.dropLast else line

/-- The pieces between line feeds; each but the last loses one carriage return at its end.  There is
one line more than there are line feeds, so that a text that ends in one has an empty last line. -/
def lines (s : Source) : List (List Char) :=
  let pieces := s.chars.splitOn '\n'
  pieces.dropLast.map dropReturn ++ pieces.getLast?.toList

/-- The line with the given number, from zero; empty past the last line. -/
def line (s : Source) (index : Nat) : String := String.ofList (s.lines.getD index [])

/-- The text from one offset up to another. -/
def slice (s : Source) (start stop : Nat) : List Char :=
  Text.takeBytes (Text.dropBytes s.chars start) (stop - start)

/-- There is one piece more than there are line feeds. -/
theorem length_splitOn_lineFeed (cs : List Char) : (cs.splitOn '\n').length = cs.count '\n' + 1 := by
  induction cs with
  | nil => rfl
  | cons c cs ih =>
    simp only [List.splitOn] at ih ⊢
    rw [List.splitOnP_cons_eq_if_modifyHead]
    by_cases h : c = '\n' <;> simp [h, ih]

/-- There is one line more than there are line feeds. -/
theorem length_lines (s : Source) : s.lines.length = s.chars.count '\n' + 1 := by
  have hne : s.chars.splitOn '\n' ≠ [] := fun h => by
    have := length_splitOn_lineFeed s.chars
    simp [h] at this
  simp only [lines, List.length_append, List.length_map, List.length_dropLast,
    List.getLast?_eq_some_getLast hne, Option.toList_some, List.length_singleton,
    length_splitOn_lineFeed]
  omega

end Source

end RpcSchema
