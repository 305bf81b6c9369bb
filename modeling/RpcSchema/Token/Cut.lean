import RpcSchema.Text.Blank
import RpcSchema.Text.Enclosed
import RpcSchema.Text.StringBody
import RpcSchema.Token.Basic

/-!
# Cutting one token from a text

Which token stands at the front of a text depends on the text alone, not on what came before it.  So
each form of token is a function from the text to a `Cut`: the lexeme, the text that it takes, and the
text that is left.  A cut carries the proof that the two texts make up the whole and that something
was taken, so no form can lose, repeat or fail to take a character.

The first character selects the form, with one more to tell the two comments from a stray slash, and
two more to tell a docstring from a string.  A docstring, string or block comment that is not closed is
illegal and takes everything to the end of the text; any other character that begins no form is
illegal by itself.
-/

namespace RpcSchema

/-- A token taken from the front of a text. -/
structure Cut (cs : List Char) where
  lexeme : Lexeme
  text : List Char
  rest : List Char
  text_append_rest : text ++ rest = cs
  text_ne_nil : text ≠ []

namespace Cut

theorem length_rest_lt {cs : List Char} (t : Cut cs) : t.rest.length < cs.length := by
  have h := congrArg List.length t.text_append_rest
  have := List.length_pos_iff.2 t.text_ne_nil
  simp at h
  omega

/-! ## The forms -/

/-- A character that is a token by itself. -/
def single (kind : Kind) (c : Char) (rest : List Char) : Cut (c :: rest) where
  lexeme := ⟨kind, String.singleton c⟩
  text := [c]
  rest := rest
  text_append_rest := rfl
  text_ne_nil := by simp

/-- All that is left, where a token was opened and never closed. -/
def unclosed (c : Char) (rest : List Char) : Cut (c :: rest) where
  lexeme := ⟨.illegal, String.ofList (c :: rest)⟩
  text := c :: rest
  rest := []
  text_append_rest := by simp
  text_ne_nil := by simp

/-- A word: letters and digits as far as they go. -/
def word (c : Char) (rest : List Char) : Cut (c :: rest) :=
  let tail := rest.takeWhile Char.isAlphanum
  let text := String.ofList (c :: tail)
  { lexeme := ⟨Kind.ofWord text, text⟩
    text := c :: tail
    rest := rest.dropWhile Char.isAlphanum
    text_append_rest := by simp [tail]
    text_ne_nil := by simp }

/-- A number: digits as far as they go, and a fraction if a point with a digit after it follows.  There
is one fraction at most. -/
def number (c : Char) (rest : List Char) : Cut (c :: rest) :=
  let whole := rest.takeWhile Char.isDigit
  match h : rest.dropWhile Char.isDigit with
  | '.' :: d :: more =>
    if d.isDigit then
      let fraction := more.takeWhile Char.isDigit
      { lexeme := ⟨.float, String.ofList (c :: whole ++ '.' :: d :: fraction)⟩
        text := c :: whole ++ '.' :: d :: fraction
        rest := more.dropWhile Char.isDigit
        text_append_rest := by
          have := List.takeWhile_append_dropWhile (p := Char.isDigit) (l := rest)
          simp [fraction, whole, ← h]
        text_ne_nil := by simp }
    else
      { lexeme := ⟨.integer, String.ofList (c :: whole)⟩
        text := c :: whole
        rest := '.' :: d :: more
        text_append_rest := by simp [whole, ← h]
        text_ne_nil := by simp }
  | other =>
    { lexeme := ⟨.integer, String.ofList (c :: whole)⟩
      text := c :: whole
      rest := other
      text_append_rest := by simp [whole, ← h]
      text_ne_nil := by simp }

/-- A string: its body up to the quote that closes it. -/
def string (c : Char) (rest : List Char) : Cut (c :: rest) :=
  match h : Text.closeString rest with
  | none => unclosed c rest
  | some (body, after) =>
    { lexeme := ⟨.string, String.ofList body⟩
      text := c :: body ++ ['"']
      rest := after
      text_append_rest := by simp [← Text.closeString_append h]
      text_ne_nil := by simp }

/-- Text between two marks; its literal is without the blanks around it.  The opening mark is the
first `width` characters. -/
def enclosed (kind : Kind) (width : Nat) (closing : List Char) (c : Char) (rest : List Char) :
    Cut (c :: rest) :=
  match h : Text.splitAtMark closing (rest.drop width) with
  | none => unclosed c rest
  | some (body, after) =>
    { lexeme := ⟨kind, String.ofList (Text.trim body)⟩
      text := c :: rest.take width ++ body ++ closing
      rest := after
      text_append_rest := by
        have := Text.splitAtMark_append h
        simp only [List.append_assoc] at this
        simp [this]
      text_ne_nil := by simp }

/-- A comment up to the end of its line; its literal is without the slashes and the blanks around
it. -/
def lineComment (c : Char) (rest : List Char) : Cut (c :: rest) :=
  let tail := rest.takeWhile (· ≠ '\n')
  { lexeme := ⟨.lineComment, String.ofList (Text.trim (tail.drop 1))⟩
    text := c :: tail
    rest := rest.dropWhile (· ≠ '\n')
    text_append_rest := by simp [tail]
    text_ne_nil := by simp }

/-! ## Selecting the form -/

/-- The token at the front of a text that is not empty. -/
def first (c : Char) (rest : List Char) : Cut (c :: rest) :=
  match Kind.ofDelimiter? c with
  | some kind => single kind c rest
  | none =>
    if c = '"' then
      if ['"', '"'].isPrefixOf rest then enclosed .docstring 2 ['"', '"', '"'] c rest
      else string c rest
    else if c = '/' ∧ rest.head? = some '/' then lineComment c rest
    else if c = '/' ∧ rest.head? = some '*' then enclosed .blockComment 1 ['*', '/'] c rest
    else if c.isDigit then number c rest
    else if c.isAlpha then word c rest
    else single .illegal c rest

end Cut

end RpcSchema
