import RpcSchema.Proofs.Source.Caret
import RpcSchema.Proofs.Token.Layout

/-!
# Where tokens stand

The two positions of a token are exact (`Source.Exact`): they say how many line feeds stand before them
and how many characters behind the last of these, in the text up to their offsets.  That holds of every
position that was counted along the text (`Source.exact_after`), and so along every tiling.

Between tokens the scanner passes over all that separates, so a token that is not a line feed starts at a
character that a reader sees, unless it is the end of the file (`Source.isVisible_tokens`).
-/

namespace RpcSchema

variable {source : Source} {front back : List Char}

namespace Source

/-- Whether the line and the column of a position are those of its offset. -/
structure Exact (s : Source) (p : Position) : Prop where
  boundary : s.IsBoundary p.offset
  /-- One more than the line feeds before. -/
  line : p.line = 1 + (Text.takeBytes s.chars p.offset).count '\n'
  /-- One more than the characters behind the last of them. -/
  column : p.column = 1 + ((Text.takeBytes s.chars p.offset).rtakeWhile (· ≠ '\n')).length

lemma exact_after (h : source.chars = front ++ back) : source.Exact (.after .origin front) := by
  have htake : Text.takeBytes source.chars (Position.origin.after front).offset = front := by
    rw [Position.offset_origin_after, h, Text.takeBytes_append]
  refine ⟨⟨front, back, h, (Position.offset_origin_after front).symm⟩, ?_, ?_⟩
  · rw [htake, Position.line_after]
  · rw [htake, Position.column_after]

end Source

/-- The positions of the tokens of a tiling are exact. -/
lemma Tiles.exact {tokens : List Token} (h : Tiles source front tokens) :
    ∀ t ∈ tokens, source.Exact t.span.start ∧ source.Exact t.span.stop := by
  induction h with
  | @stop front gap hchars =>
      rw [List.forall_mem_singleton]
      rw [← List.append_nil (front ++ gap)] at hchars
      exact ⟨Source.exact_after hchars, Source.exact_after hchars⟩
  | @token front gap text back lexeme tokens hchars _ htext _ _ ih =>
      rw [List.forall_mem_cons]
      have hlast : source.chars
          = front ++ gap ++ text.dropLast ++ ([text.getLast htext] ++ back) := by
        rw [hchars, List.append_assoc (front ++ gap), ← List.append_assoc text.dropLast,
          List.dropLast_concat_getLast]
      exact ⟨⟨Source.exact_after hchars, Source.exact_after hlast⟩, ih⟩

/-- A token that begins with a line feed is that line feed. -/
lemma Spelled.kind_of_lineFeed {x behind : List Char} {l : Lexeme} (h : Spelled ('\n' :: x) behind l) :
    l.kind = .newline := by
  cases h with
  | single hkind => exact (Option.some.inj hkind).symm
  | integer hc => exact absurd hc (by decide)
  | float hc => exact absurd hc (by decide)
  | word hc => exact absurd hc (by decide)
  | illegal hdelimiter => exact absurd hdelimiter (by decide)

namespace Scanner

variable {s : Scanner}

/-- A token starts where the gap in front of it ends. -/
lemma span_next (s : Scanner) :
    s.next.1.span.source = s.source ∧ s.next.1.span.start = s.skipGap.position := by
  rw [next]
  split <;> exact ⟨rfl, rfl⟩

lemma Stands.isVisible_next (h : s.Stands front) (hkind : s.next.1.kind ≠ .newline) :
    s.next.1.span.IsVisible := by
  obtain ⟨hsource, hstart⟩ := s.span_next
  refine ⟨front ++ s.rest.takeWhile isGap, s.rest.dropWhile isGap, ?_, ?_, fun c hc => ?_⟩
  · rw [hsource]
    exact h.skipGap.1
  · rw [hstart]
    exact h.skipGap.2
  · obtain ⟨rest, hrest⟩ := List.head?_eq_some_iff.1 hc
    obtain ⟨hlexeme, -⟩ := next_of_cut hrest
    constructor
    · rintro rfl
      have hspelled := Cut.spelled_first '\n' rest
      obtain ⟨d, x, htext⟩ := List.exists_cons_of_ne_nil (Cut.first '\n' rest).text_ne_nil
      have hcut := (Cut.first '\n' rest).text_append_rest
      rw [htext] at hspelled hcut
      obtain ⟨rfl, -⟩ := List.cons.inj hcut
      exact hkind ((congrArg Lexeme.kind hlexeme).trans hspelled.kind_of_lineFeed)
    · rintro rfl
      exact Cut.not_head_dropWhile '\r' hc (by decide)

/-- From where a scanner stands on, a token that is not a line feed starts at a visible place. -/
lemma Stands.isVisible_drain {s : Scanner} {front : List Char} (h : s.Stands front) :
    ∀ t ∈ s.drain.1, t.kind ≠ .newline → t.span.IsVisible := by
  by_cases hend : s.next.1.kind = .endOfFile
  · rw [drain_of_end hend, List.forall_mem_singleton]
    exact h.isVisible_next
  · obtain ⟨_, _, _, _, _, _, _, _, hstands⟩ := h.next_token hend
    have hless := length_rest_next hend
    rw [drain_of_token hend, List.forall_mem_cons]
    exact ⟨h.isVisible_next, hstands.isVisible_drain⟩
termination_by s.rest.length

end Scanner

namespace Source

/-- A significant token starts at a visible place. -/
lemma isVisible_tokens (source : Source) :
    ∀ t ∈ source.tokens, t.kind ≠ .newline → t.span.IsVisible :=
  (Scanner.stands_ofSource source).isVisible_drain

end Source

end RpcSchema
