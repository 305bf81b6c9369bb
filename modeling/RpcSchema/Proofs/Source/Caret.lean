import RpcSchema.Proofs.Source.Lines
import RpcSchema.Source.Excerpt

/-!
# Carets

An excerpt shows the line that a span starts on, and a caret in the row below.  `Span.IsMarked` is that
the reader finds the place there: the line is one of the source, and the caret stands below the character
at the offset of the start, or right behind the last line if the text ends there.

Not every place can be marked so, since the shown line has lost a carriage return at its end and the line
feed behind it.  It is enough that the span starts in front of a character that is neither of these, or
at the end of the text (`Span.IsVisible.isMarked`).
-/

namespace RpcSchema

namespace Span

/-- The row of an excerpt that shows the line. -/
def lineRow (s : Span) : String :=
  toString s.start.line ++ " | " ++ s.source.line (s.start.line - 1)

/-- What stands before the caret in the row below. -/
def caretIndent (s : Span) : String :=
  String.ofList (List.replicate ((toString s.start.line).length + 1) ' ') ++ "| "
    ++ String.ofList (List.replicate (s.start.column - 1) ' ')

/-- The caret of an excerpt marks the start of the span. -/
structure IsMarked (s : Span) : Prop where
  /-- The excerpt shows a line and a caret. -/
  shown (kind message : String) : s.excerpt kind message = "\n--> " ++ s.place ++ "\n"
    ++ String.ofList (List.replicate ((toString s.start.line).length + 1) ' ') ++ "|\n"
    ++ s.lineRow ++ "\n" ++ s.caretIndent ++ "^\n" ++ kind ++ ": " ++ message
  /-- The line is one of the source. -/
  line_pos : 0 < s.start.line
  line_le : s.start.line ≤ s.source.lines.length
  /-- Above the caret is the character at the offset. -/
  above : s.lineRow.toList[s.caretIndent.length]?
    = (Text.dropBytes s.source.chars s.start.offset).head?
  /-- At the end of the text the caret is behind the last line. -/
  at_end : s.start.offset = s.source.length →
    s.start.line = s.source.lines.length ∧ s.lineRow.length = s.caretIndent.length

/-- Whether a span starts at a character that a reader sees, or where the text ends. -/
def IsVisible (s : Span) : Prop := ∃ front back, s.source.chars = front ++ back
  ∧ s.start = .after .origin front ∧ ∀ c ∈ back.head?, c ≠ '\n' ∧ c ≠ '\r'

lemma isVisible_startOf (file : String) : (startOf ⟨file, ""⟩).IsVisible :=
  ⟨[], [], rfl, rfl, by simp⟩

variable {s : Span} {front back : List Char}

lemma length_caretIndent (s : Span) :
    s.caretIndent.length = (toString s.start.line).length + 3 + (s.start.column - 1) := by
  have hmark : "| ".length = 2 := rfl
  simp only [caretIndent, String.length_append, hmark, String.length_ofList, List.length_replicate]

lemma length_lineRow (s : Span) : s.lineRow.length
    = (toString s.start.line).length + 3 + (s.source.line (s.start.line - 1)).length := by
  rw [lineRow, String.length_append, String.length_append, show " | ".length = 3 from rfl]

/-- The caret stands as far behind the start of the line as the start of the span. -/
lemma getElem?_lineRow (s : Span) : s.lineRow.toList[s.caretIndent.length]?
    = (s.source.line (s.start.line - 1)).toList[s.start.column - 1]? := by
  have hlength : (toString s.start.line ++ " | ").toList.length = (toString s.start.line).length + 3 := by
    rw [String.length_toList, String.length_append, show " | ".length = 3 from rfl]
  rw [length_caretIndent, lineRow, String.toList_append, ← hlength,
    List.getElem?_append_right (Nat.le_add_right _ _), Nat.add_sub_cancel_left]

/-- A character that a reader sees is shown in its place. -/
lemma getElem?_piece (hvisible : ∀ c ∈ back.head?, c ≠ '\n' ∧ c ≠ '\r') (tail : List Char) :
    (if back.dropWhile (· ≠ '\n') = [] then tail ++ back.takeWhile (· ≠ '\n')
      else Source.dropReturn (tail ++ back.takeWhile (· ≠ '\n')))[tail.length]? = back.head? := by
  cases back with
  | nil => simp
  | cons c cs =>
      obtain ⟨hfeed, hreturn⟩ := hvisible c rfl
      rw [List.takeWhile_cons_of_pos (by simpa using hfeed), Source.dropReturn]
      split
      · simp
      · split
        · next hlast =>
            -- what is dropped is another character
            cases hmid : cs.takeWhile (· ≠ '\n') with
            | nil =>
                rw [hmid] at hlast
                exact absurd (by simpa using hlast) hreturn
            | cons d ds => simp [List.dropLast_append_of_ne_nil]
        · simp

/-- **A visible start is marked.** -/
lemma IsVisible.isMarked (h : s.IsVisible) : s.IsMarked := by
  obtain ⟨front, back, hchars, hstart, hvisible⟩ := h
  obtain ⟨haround, hcount⟩ := Source.around_place hchars
  have hlines := s.source.length_lines
  rw [hchars, List.count_append] at hlines
  have hnumber : s.start.line = 1 + front.count '\n' := by rw [hstart, Position.line_after]
  have hcolumn : s.start.column - 1 = (front.rtakeWhile (· ≠ '\n')).length := by
    rw [hstart, Position.column_after, Nat.add_sub_cancel_left]
  have hoffset : s.start.offset = Text.utf8Length front := by
    rw [hstart, Position.offset_origin_after]
  have hline := Source.line_of_around haround
  rw [hcount, ← Nat.add_sub_cancel_left (n := 1) (m := front.count '\n'), ← hnumber] at hline
  refine ⟨fun kind message => ?_, by omega, by omega, ?_, fun hend => ?_⟩
  · rw [excerpt, Source.excerpt, if_neg (by omega)]
    simp only [place, file, Position.toText, lineRow, caretIndent, String.append_assoc]
  · rw [getElem?_lineRow, hline, hcolumn, String.toList_ofList, getElem?_piece hvisible, hoffset, hchars,
      Text.dropBytes_append]
  · have hback : back = [] := by
      rw [hoffset, Source.length_eq, hchars, Text.utf8Length_append] at hend
      by_contra hne
      have hpos := Text.utf8Length_pos hne
      omega
    subst hback
    rw [List.count_nil] at hlines
    rw [List.dropWhile_nil, if_pos rfl, List.takeWhile_nil, List.append_nil] at hline
    rw [length_lineRow, length_caretIndent, hline, String.length_ofList, hcolumn]
    exact ⟨by omega, rfl⟩

end Span

end RpcSchema
