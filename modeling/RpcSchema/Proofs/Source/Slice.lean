import Mathlib.Tactic.Lemma
import RpcSchema.Source.Span

/-!
# Cutting a source where characters begin

`Source.slice` and `Span.range` work on byte offsets.  All that is ever cut are texts that stand between
two places, and for those the bytes come out as expected: if the characters of a source are a front, a
text and what is behind it, then the slice between the lengths of the first and of the first two is
the text (`Source.slice_of_chars`).

**The end of a span.**  A span keeps the place of its last character, and `Span.range` adds the width
of the character that stands there.  `Span.range_of_chars` says that this gives back the end of the
text, whatever the widths of its characters.
-/

namespace RpcSchema

namespace Text

lemma dropBytes_append (front back : List Char) :
    dropBytes (front ++ back) (utf8Length front) = back := by
  induction front with
  | nil => simp
  | cons c cs ih =>
      have hc := c.utf8Size_pos
      have hne : utf8Length (c :: cs) ≠ 0 := by rw [utf8Length_cons]; omega
      have hsub : utf8Length (c :: cs) - c.utf8Size = utf8Length cs := by
        rw [utf8Length_cons]; omega
      rw [List.cons_append, dropBytes, if_neg hne, hsub, ih]

lemma takeBytes_append (front back : List Char) :
    takeBytes (front ++ back) (utf8Length front) = front := by
  have h := takeBytes_append_dropBytes (front ++ back) (utf8Length front)
  rw [dropBytes_append] at h
  exact List.append_cancel_right h

lemma utf8Length_pos {cs : List Char} (h : cs ≠ []) : 0 < utf8Length cs := by
  cases cs with
  | nil => exact absurd rfl h
  | cons c cs =>
      have := c.utf8Size_pos
      rw [utf8Length_cons]
      omega

end Text

namespace Source

/-- Whether a character begins at an offset, or the text ends there. -/
def IsBoundary (s : Source) (offset : Nat) : Prop :=
  ∃ front back, s.chars = front ++ back ∧ Text.utf8Length front = offset

variable {s : Source} {front text back : List Char}

lemma slice_of_chars (h : s.chars = front ++ (text ++ back)) :
    s.slice (Text.utf8Length front) (Text.utf8Length (front ++ text)) = text := by
  have hsub : Text.utf8Length (front ++ text) - Text.utf8Length front = Text.utf8Length text := by
    rw [Text.utf8Length_append]; omega
  rw [slice, h, Text.dropBytes_append, hsub, Text.takeBytes_append]

end Source

namespace Span

variable {s : Source} {front text back : List Char}

/-- The range of a text that is not empty, from the places of its first and last characters. -/
lemma range_of_chars (h : s.chars = front ++ (text ++ back)) (ht : text ≠ []) :
    (Span.mk s (Position.origin.after front)
        (Position.origin.after (front ++ text.dropLast))).range
      = (Text.utf8Length front, Text.utf8Length (front ++ text)) := by
  have hpos := Text.utf8Length_pos ht
  have hlen : s.length = Text.utf8Length front + (Text.utf8Length text + Text.utf8Length back) := by
    rw [Source.length_eq, h, Text.utf8Length_append, Text.utf8Length_append]
  have hstart : (Position.origin.after front).offset = Text.utf8Length front := by
    rw [Position.offset_after]; exact Nat.zero_add _
  have hstop : (Position.origin.after (front ++ text.dropLast)).offset
      = Text.utf8Length (front ++ text.dropLast) := by
    rw [Position.offset_after]; exact Nat.zero_add _
  have htext : text.dropLast ++ [text.getLast ht] = text := List.dropLast_concat_getLast ht
  -- what stands at the stop is the last character of the text, with everything behind it
  have hlast : Text.dropBytes s.chars (Text.utf8Length (front ++ text.dropLast))
      = text.getLast ht :: back := by
    have hsplit : s.chars = (front ++ text.dropLast) ++ ([text.getLast ht] ++ back) := by
      rw [h, ← List.append_assoc (front ++ text.dropLast), List.append_assoc front, htext,
        List.append_assoc]
    rw [hsplit, Text.dropBytes_append, List.singleton_append]
  have hwidth : Text.utf8Length (front ++ text.dropLast) + (text.getLast ht).utf8Size
      = Text.utf8Length (front ++ text) := by
    rw [← congrArg Text.utf8Length (congrArg (front ++ ·) htext)]
    simp only [Text.utf8Length_append, Text.utf8Length_cons, Text.utf8Length_nil]
    omega
  rw [range, if_neg (by simp only [hstart]; omega)]
  simp only [hstart, hstop, hlast, hwidth]

/-- At the end of the text the range is empty. -/
lemma range_at_end (h : s.chars = front) (stop : Position) :
    (Span.mk s (Position.origin.after front) stop).range = (s.length, s.length) := by
  have hstart : (Position.origin.after front).offset = s.length := by
    rw [Position.offset_after, Source.length_eq, h]; exact Nat.zero_add _
  rw [range, if_pos (Nat.le_of_eq hstart.symm)]

end Span

end RpcSchema
