import Mathlib.Logic.Function.Iterate
import RpcSchema.Proofs.Token.Tiling

/-!
# Tokens lose nothing of their source

The ranges of the tokens of a source follow each other without overlap, and between them stand only
characters that separate tokens.  So the source can be put together again from its tokens and the gaps
between them, and nothing that it says is outside its tokens.

`Source.Lossless` says all of that of one list of tokens; `Source.tokens_lossless` is that it holds of
the tokens of any source, and that asking for more tokens behind the last gives that token again, as
often as one asks.
-/

namespace RpcSchema

/-- The texts in front of the tokens, each from where the token before it ends; the first from the
given offset. -/
def Source.gaps (s : Source) : Nat → List Token → List (List Char)
  | _, [] => []
  | offset, t :: ts => s.slice offset t.span.range.1 :: s.gaps t.span.range.2 ts

/-- What a list of tokens must satisfy so that nothing of the source is lost. -/
structure Source.Lossless (s : Source) (tokens : List Token) : Prop where
  /-- The end of the file is the last token and no other, and it takes up nothing. -/
  ends : ∃ front last, tokens = front ++ [last] ∧ (∀ t ∈ front, t.kind ≠ .endOfFile)
    ∧ last.kind = .endOfFile ∧ last.span.range = (s.length, s.length)
  /-- Every token is of this source. -/
  ofSource : ∀ t ∈ tokens, t.span.source = s
  /-- Every other token takes up some whole characters of the text. -/
  taken : ∀ t ∈ tokens, t.kind ≠ .endOfFile →
    t.span.range.1 < t.span.range.2 ∧ t.span.range.2 ≤ s.length
      ∧ s.IsBoundary t.span.range.1 ∧ s.IsBoundary t.span.range.2
  /-- Each token ends before any later one starts. -/
  ordered : tokens.Pairwise (fun t u => t.span.range.2 ≤ u.span.range.1)
  /-- Between tokens, and before the first, there are only separating characters. -/
  blank : ∀ gap ∈ s.gaps 0 tokens, ∀ c ∈ gap, c = ' ' ∨ c = '\t' ∨ c = '\r'
  /-- Gaps and texts of tokens in turn are the source. -/
  whole : (List.zipWith (· ++ ·) (s.gaps 0 tokens) (tokens.map (·.span.chars))).flatten = s.chars

namespace Tiles

variable {source : Source} {front gap text back : List Char} {tokens : List Token}

/-! ## The tokens of a tiling -/

lemma range_token (h : source.chars = front ++ gap ++ (text ++ back)) (ht : text ≠ []) :
    (Span.mk source (.after .origin (front ++ gap))
        (.after .origin (front ++ gap ++ text.dropLast))).range
      = (Text.utf8Length (front ++ gap), Text.utf8Length (front ++ gap ++ text)) :=
  Span.range_of_chars h ht

lemma chars_token (h : source.chars = front ++ gap ++ (text ++ back)) (ht : text ≠ []) :
    (Span.mk source (.after .origin (front ++ gap))
        (.after .origin (front ++ gap ++ text.dropLast))).chars = text := by
  rw [Span.chars, range_token h ht]
  exact Source.slice_of_chars h

lemma slice_gap (h : source.chars = front ++ gap ++ (text ++ back)) :
    source.slice (Text.utf8Length front) (Text.utf8Length (front ++ gap)) = gap := by
  have h' : source.chars = front ++ (gap ++ (text ++ back)) := by rw [h, List.append_assoc]
  exact Source.slice_of_chars h'

lemma range_stop (h : source.chars = front ++ gap) (stop : Position) :
    (Span.mk source (.after .origin (front ++ gap)) stop).range
      = (Text.utf8Length (front ++ gap), Text.utf8Length (front ++ gap)) := by
  rw [Span.range_at_end h, Source.length_eq, h]

lemma chars_stop (h : source.chars = front ++ gap) (stop : Position) :
    (Span.mk source (.after .origin (front ++ gap)) stop).chars = [] := by
  rw [Span.chars, range_stop h, Source.slice, Nat.sub_self, Text.takeBytes_zero]

/-! ## What a tiling says of its tokens -/

lemma ends (h : Tiles source front tokens) :
    ∃ before last, tokens = before ++ [last] ∧ (∀ t ∈ before, t.kind ≠ .endOfFile)
      ∧ last.kind = .endOfFile ∧ last.span.range = (source.length, source.length) := by
  induction h with
  | stop hchars _ =>
      refine ⟨[], _, rfl, by simp, rfl, Span.range_at_end hchars _⟩
  | token hchars _ _ hkind _ ih =>
      obtain ⟨before, last, rfl, hbefore, hlast⟩ := ih
      refine ⟨_ :: before, last, rfl, ?_, hlast⟩
      intro t ht
      rcases List.mem_cons.1 ht with rfl | ht
      · exact hkind
      · exact hbefore t ht

lemma ofSource (h : Tiles source front tokens) : ∀ t ∈ tokens, t.span.source = source := by
  induction h with
  | stop => simp
  | token _ _ _ _ _ ih =>
      intro t ht
      rcases List.mem_cons.1 ht with rfl | ht
      · rfl
      · exact ih t ht

lemma taken (h : Tiles source front tokens) : ∀ t ∈ tokens, t.kind ≠ .endOfFile →
    t.span.range.1 < t.span.range.2 ∧ t.span.range.2 ≤ source.length
      ∧ source.IsBoundary t.span.range.1 ∧ source.IsBoundary t.span.range.2 := by
  induction h with
  | stop => simp
  | @token front gap text back lexeme tokens hchars _ htext _ _ ih =>
      intro t ht hkind
      rcases List.mem_cons.1 ht with rfl | ht
      · have hpos := Text.utf8Length_pos htext
        have hlen := Source.length_eq source
        rw [hchars] at hlen
        simp only [range_token hchars htext, Text.utf8Length_append] at hlen ⊢
        refine ⟨by omega, by omega, ⟨front ++ gap, text ++ back, hchars, ?_⟩,
          ⟨front ++ gap ++ text, back, ?_, ?_⟩⟩
        · rw [Text.utf8Length_append]
        · rw [hchars, List.append_assoc (front ++ gap)]
        · rw [Text.utf8Length_append, Text.utf8Length_append]
      · exact ih t ht hkind

/-- Every token of a tiling starts where the tiling does, or behind. -/
lemma front_le (h : Tiles source front tokens) :
    ∀ t ∈ tokens, Text.utf8Length front ≤ t.span.range.1 := by
  induction h with
  | stop hchars _ =>
      intro t ht
      rcases List.mem_singleton.1 ht with rfl
      simp only [range_stop hchars, Text.utf8Length_append]
      omega
  | token hchars _ htext _ _ ih =>
      intro t ht
      rcases List.mem_cons.1 ht with rfl | ht
      · simp only [range_token hchars htext, Text.utf8Length_append]
        omega
      · have hle := ih t ht
        simp only [Text.utf8Length_append] at hle
        omega

lemma ordered (h : Tiles source front tokens) :
    tokens.Pairwise (fun t u => t.span.range.2 ≤ u.span.range.1) := by
  induction h with
  | stop => exact List.pairwise_singleton ..
  | token hchars _ htext _ htiles ih =>
      refine List.pairwise_cons.2 ⟨?_, ih⟩
      intro u hu
      simp only [range_token hchars htext]
      exact front_le htiles u hu

lemma blank (h : Tiles source front tokens) :
    ∀ gap ∈ source.gaps (Text.utf8Length front) tokens, ∀ c ∈ gap, isGap c := by
  induction h with
  | stop hchars hgap =>
      simp only [Source.gaps, range_stop hchars, List.mem_singleton, forall_eq]
      rw [Source.slice_of_chars (by rw [hchars, List.append_nil])]
      exact hgap
  | token hchars hgap htext _ _ ih =>
      simp only [Source.gaps, range_token hchars htext, List.mem_cons, forall_eq_or_imp]
      rw [slice_gap hchars]
      exact ⟨hgap, ih⟩

lemma whole (h : Tiles source front tokens) :
    front ++ (List.zipWith (· ++ ·) (source.gaps (Text.utf8Length front) tokens)
      (tokens.map (·.span.chars))).flatten = source.chars := by
  induction h with
  | stop hchars _ =>
      simp only [Source.gaps, List.map_cons, List.map_nil, List.zipWith_cons_cons,
        List.zipWith_nil_right, List.flatten_cons, List.flatten_nil, range_stop hchars,
        chars_stop hchars, List.append_nil]
      rw [Source.slice_of_chars (by rw [hchars, List.append_nil]), hchars]
  | token hchars _ htext _ _ ih =>
      simp only [Source.gaps, List.map_cons, List.zipWith_cons_cons, List.flatten_cons,
        range_token hchars htext, chars_token hchars htext]
      rw [slice_gap hchars, ← ih]
      simp only [List.append_assoc]

/-- A tiling of the whole text loses nothing. -/
lemma lossless (h : Tiles source [] tokens) : source.Lossless tokens where
  ends := h.ends
  ofSource := h.ofSource
  taken := h.taken
  ordered := h.ordered
  blank gap hgap c hc := by
    have hc := h.blank gap hgap c hc
    simpa [isGap, or_assoc] using hc
  whole := h.whole

end Tiles

lemma Source.tokens_tile (source : Source) : Tiles source [] source.tokens :=
  Scanner.drain_tiles (Scanner.stands_ofSource source)

/-- **Tokenization is lossless.**  The tokens of a source end in the only token for the end of the
file; all others take up whole characters, in order and without overlap; only separating characters
stand between them; and with these they make up the source.  From the last token on, the scanner gives
that token however often it is asked. -/
theorem Source.tokens_lossless (source : Source) :
    source.Lossless source.tokens
      ∧ ∀ n : Nat, source.tokens.getLast?
          = some (((fun s : Scanner => s.next.2)^[n] (Scanner.ofSource source).drain.2).next.1) := by
  refine ⟨source.tokens_tile.lossless, ?_⟩
  obtain ⟨hrest, hlast⟩ := Scanner.drain_end (Scanner.stands_ofSource source)
  have hstays : ∀ n : Nat, (fun s : Scanner => s.next.2)^[n] (Scanner.ofSource source).drain.2
      = (Scanner.ofSource source).drain.2 := by
    refine Function.iterate_fixed ?_
    rw [Scanner.next_of_rest_nil hrest]
  intro n
  rw [hstays n]
  exact hlast

end RpcSchema
