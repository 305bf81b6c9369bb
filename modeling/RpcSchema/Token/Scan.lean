import RpcSchema.Token.Cut

/-!
# Scanning a source into tokens

A scanner stands at a place in a source, with the text that is left.  Between tokens it passes over
spaces, tabs and carriage returns; a line feed is a token.  Scanning never fails: text that belongs to
no token comes out as an illegal token, and the end of the text as a token of its own, as often as it
is asked for.

* `Scanner.next` is one token and the scanner behind it.
* `Scanner.drain` is every token up to the end; `Source.tokens` is that from the start of a source.
* `Scanner.length_rest_next` says that every token but the last takes text, which is why draining ends.
-/

namespace RpcSchema

/-- Whether a character only separates tokens. -/
def isGap (c : Char) : Bool := c = ' ' || c = '\t' || c = '\r'

/-- A place in a source, with the text from there on. -/
structure Scanner where
  source : Source
  position : Position
  rest : List Char

namespace Scanner

/-- The scanner in front of a source. -/
def ofSource (source : Source) : Scanner := ⟨source, .origin, source.chars⟩

/-- The scanner behind the gap in front of it. -/
def skipGap (s : Scanner) : Scanner :=
  { s with
    position := s.position.after (s.rest.takeWhile isGap)
    rest := s.rest.dropWhile isGap }

/-- The next token and the scanner behind it. -/
def next (s : Scanner) : Token × Scanner :=
  let here := s.skipGap
  match here.rest with
  | [] => (⟨⟨.endOfFile, ""⟩, ⟨here.source, here.position, here.position⟩⟩, here)
  | c :: rest =>
    let cut := Cut.first c rest
    let span := ⟨here.source, here.position, here.position.after cut.text.dropLast⟩
    (⟨cut.lexeme, span⟩, ⟨here.source, here.position.after cut.text, cut.rest⟩)

/-- Every token but the one at the end takes text. -/
theorem length_rest_next {s : Scanner} (h : s.next.1.kind ≠ .endOfFile) :
    s.next.2.rest.length < s.rest.length := by
  have hgap : s.skipGap.rest.length ≤ s.rest.length := (List.dropWhile_suffix _).length_le
  unfold next at h ⊢
  dsimp only at h ⊢
  split at h
  · simp at h
  · next c rest hr =>
    rw [hr] at hgap
    exact Nat.lt_of_lt_of_le (Cut.first c rest).length_rest_lt hgap

/-- The tokens up to and with the one at the end, and the scanner there. -/
def drain (s : Scanner) : List Token × Scanner :=
  match _hs : s.next with
  | (token, behind) =>
    if _ht : token.kind = .endOfFile then ([token], behind)
    else
      let (tokens, done) := behind.drain
      (token :: tokens, done)
termination_by s.rest.length
decreasing_by
  have := length_rest_next (s := s) (by rwa [_hs])
  rwa [_hs] at this

end Scanner

/-- The tokens of a source; the last is the end of the file. -/
def Source.tokens (source : Source) : List Token := (Scanner.ofSource source).drain.1

end RpcSchema
