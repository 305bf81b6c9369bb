import RpcSchema.Source.Basic
import RpcSchema.Text.Quoted

/-!
# Spans

A span is a stretch of a source.  It is kept as the positions of its first and of its *last*
character, because both are places that a reader can look up; a span of one character starts and stops
at the same place.  A span at the end of the text has no character, and is empty.

* `Span.range` is the stretch in bytes, its end exclusive.
* `Span.text` is the text in it.
* `Span.place` names where it starts, `Span.summary` shows its ends and its text.
-/

namespace RpcSchema

/-- A stretch of a source, from its first character to its last. -/
structure Span where
  source : Source
  start : Position
  stop : Position
deriving DecidableEq, Repr, Inhabited

namespace Span

/-- The empty span in front of a source's text. -/
def startOf (source : Source) : Span := ⟨source, .origin, .origin⟩

/-- The name of the source. -/
def file (s : Span) : String := s.source.file

/-- The span from where `s` starts to where `t` stops. -/
def through (s t : Span) : Span := { s with stop := t.stop }

/-- The stretch in bytes, its end exclusive: the last character is part of the span.  At the end of
the text there is no character, and the stretch is empty. -/
def range (s : Span) : Nat × Nat :=
  if s.source.length ≤ s.start.offset then (s.source.length, s.source.length)
  else
    let width := match Text.dropBytes s.source.chars s.stop.offset with
      | [] => 0
      | c :: _ => c.utf8Size
    (s.start.offset, s.stop.offset + width)

/-- The characters of the stretch. -/
def chars (s : Span) : List Char := s.source.slice s.range.1 s.range.2

/-- The text of the stretch. -/
def text (s : Span) : String := String.ofList s.chars

/-- File, line and column of the start. -/
def place (s : Span) : String := s.file ++ ":" ++ s.start.toText

/-- The most bytes of escaped text that a summary shows whole, and the number of characters that it
shows of a longer one. -/
def summaryLimit : Nat := 32

/-- The two ends and the escaped text.  A text whose escaped form is longer than the limit is cut to
that many characters, and an ellipsis stands for the rest. -/
def summary (s : Span) : String :=
  let escaped := Text.shown s.chars
  let excerpt :=
    if Text.utf8Length escaped ≤ summaryLimit then escaped
    else escaped.take summaryLimit ++ ['.', '.', '.']
  s.start.toText ++ "-" ++ s.stop.toText ++ ", \"" ++ String.ofList excerpt ++ "\""

end Span

end RpcSchema
