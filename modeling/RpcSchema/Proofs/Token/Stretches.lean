import Mathlib.Order.Basic
import RpcSchema.Proofs.Token.Lossless

/-!
# Spans from one token to another

The span from where one token of a source starts to where a later one stops covers the text from the first
character of the one to the last of the other, and nothing else (`Source.through_tokens`).  One of the two
may be the end of the file, which has no character: its place is behind the last one.

* `Span.Covers` says which text a span covers.
* `Position.isLE_after` is that no text leads back.
-/

namespace RpcSchema

/-! ## The order of places -/

lemma Position.after_cases (p : Position) (cs : List Char) : p.line < (p.after cs).line
    ∨ p.line = (p.after cs).line ∧ p.column ≤ (p.after cs).column ∧ p.offset ≤ (p.after cs).offset := by
  induction cs generalizing p with
  | nil => exact Or.inr ⟨rfl, Nat.le_refl _, Nat.le_refl _⟩
  | cons c cs ih =>
      rw [after_cons]
      have hrest := ih (p.advance c)
      by_cases hc : c = '\n'
      · rw [advance, if_pos hc] at hrest ⊢
        simp only at hrest ⊢
        omega
      · rw [advance, if_neg hc] at hrest ⊢
        simp only at hrest ⊢
        omega

/-- Places are compared by line, then by column, then by offset. -/
lemma Position.isLE_compare_iff {p q : Position} : (compare p q).isLE = true ↔
    p.line < q.line ∨ p.line = q.line ∧
      (p.column < q.column ∨ p.column = q.column ∧ p.offset ≤ q.offset) := by
  have hcompare : compare p q = (compare p.line q.line).then
      ((compare p.column q.column).then ((compare p.offset q.offset).then .eq)) := rfl
  simp only [hcompare, Ordering.isLE_then_iff_or, Nat.compare_eq_lt, Nat.compare_eq_eq,
    Ordering.then_eq, Nat.isLE_compare]

/-- A place is not behind the place after a text that begins there. -/
lemma Position.isLE_after (p : Position) (cs : List Char) : (compare p (p.after cs)).isLE = true := by
  rw [isLE_compare_iff]
  rcases p.after_cases cs with hline | ⟨hline, hcolumn, hoffset⟩
  · exact Or.inl hline
  · exact Or.inr ⟨hline, hcolumn.lt_or_eq.imp_right fun heq => ⟨heq, hoffset⟩⟩

/-! ## Texts that spans cover -/

/-- A span covers the text between a front and a back. -/
structure Span.Covers (s : Span) (source : Source) (front text back : List Char) : Prop where
  chars : source.chars = front ++ (text ++ back)
  ofSource : s.source = source
  range : s.range = (Text.utf8Length front, Text.utf8Length (front ++ text))
  ordered : (compare s.start s.stop).isLE = true

lemma Span.Covers.text {s : Span} {source : Source} {front text back : List Char}
    (h : s.Covers source front text back) : s.chars = text := by
  rw [Span.chars, h.range, h.ofSource]
  exact Source.slice_of_chars h.chars

/-- The span to behind the last character of a source covers all that is left of it. -/
lemma Span.range_to_end {source : Source} {front text : List Char} (h : source.chars = front ++ text) :
    (Span.mk source (.after .origin front) (.after .origin (front ++ text))).range
      = (Text.utf8Length front, Text.utf8Length (front ++ text)) := by
  have hlength : source.length = Text.utf8Length (front ++ text) := by rw [Source.length_eq, h]
  by_cases htext : text = []
  · rw [htext, List.append_nil] at h hlength ⊢
    rw [range_at_end h, hlength]
  · have hpos := Text.utf8Length_pos htext
    have hstart : (Position.origin.after front).offset = Text.utf8Length front := by
      rw [Position.offset_after]
      exact Nat.zero_add _
    have hstop : (Position.origin.after (front ++ text)).offset = Text.utf8Length (front ++ text) := by
      rw [Position.offset_after]
      exact Nat.zero_add _
    have hnone : Text.dropBytes source.chars (Text.utf8Length (front ++ text)) = [] := by
      have hdrop := Text.dropBytes_append (front ++ text) []
      rw [List.append_nil] at hdrop
      rw [h, hdrop]
    rw [Text.utf8Length_append] at hlength
    rw [range, if_neg (by simp only [hstart]; omega)]
    simp only [hstart, hstop, hnone, Nat.add_zero]

/-! ## Tokens -/

/-- A token stands at a text: its span goes from the first character of the text to the last.  The text is
empty at the end of the source only. -/
structure Token.StandsAt (t : Token) (source : Source) (front text back : List Char) : Prop where
  chars : source.chars = front ++ (text ++ back)
  span : t.span = ⟨source, .after .origin front, .after .origin (front ++ text.dropLast)⟩
  last : text = [] → back = []

variable {source : Source} {front text back : List Char}

/-- A token covers the text that it stands at. -/
lemma Token.StandsAt.covers {t : Token} (h : t.StandsAt source front text back) :
    t.span.Covers source front text back where
  chars := h.chars
  ofSource := by rw [h.span]
  range := by
    rw [h.span]
    by_cases htext : text = []
    · have hfront : source.chars = front := by
        rw [h.chars, htext, h.last htext, List.append_nil, List.append_nil]
      rw [Span.range_at_end hfront, Source.length_eq, hfront, htext, List.append_nil]
    · exact Span.range_of_chars h.chars htext
  ordered := by
    rw [h.span, Position.after_append]
    exact Position.isLE_after _ _

/-- From one token to another that stands behind it. -/
lemma Token.StandsAt.through {t u : Token} {middle text' back' : List Char}
    (ht : t.StandsAt source front text back)
    (hu : u.StandsAt source (front ++ text ++ middle) text' back') :
    (t.span.through u.span).Covers source front (text ++ middle ++ text') back' := by
  have hspan : t.span.through u.span = ⟨source, .after .origin front,
      .after .origin (front ++ (text ++ middle ++ text'.dropLast))⟩ := by
    rw [Span.through, ht.span, hu.span]
    simp only [List.append_assoc]
  have hchars : source.chars = front ++ (text ++ middle ++ text' ++ back') := by
    rw [hu.chars]
    simp only [List.append_assoc]
  rw [hspan]
  refine ⟨hchars, rfl, ?_, ?_⟩
  · by_cases htext : text' = []
    · rw [htext, hu.last htext, List.append_nil, List.append_nil] at hchars
      rw [htext, List.dropLast_nil, List.append_nil]
      exact Span.range_to_end hchars
    · rw [← List.dropLast_append_of_ne_nil htext]
      exact Span.range_of_chars hchars fun hnil => htext (List.append_eq_nil_iff.1 hnil).2
  · rw [Position.after_append]
    exact Position.isLE_after _ _

namespace Tiles

variable {tokens : List Token}

/-- Each token of a tiling stands at a text behind the front. -/
lemma exists_standsAt (h : Tiles source front tokens) : ∀ t ∈ tokens,
    ∃ gap text back, t.StandsAt source (front ++ gap) text back := by
  induction h with
  | @stop front gap hchars _ =>
      intro t ht
      rw [List.mem_singleton.1 ht]
      refine ⟨gap, [], [], ?_, ?_, fun _ => rfl⟩
      · rw [List.append_nil, List.append_nil, hchars]
      · rw [List.dropLast_nil, List.append_nil]
  | @token front gap text back lexeme tokens hchars _ htext _ _ ih =>
      intro t ht
      rcases List.mem_cons.1 ht with rfl | ht
      · exact ⟨gap, text, back, hchars, rfl, fun hnil => absurd hnil htext⟩
      · obtain ⟨gap', text', back', hstands⟩ := ih t ht
        refine ⟨gap ++ text ++ gap', text', back', ?_⟩
        rwa [← List.append_assoc, ← List.append_assoc]

/-- Of two tokens of a tiling, the later one stands behind the earlier one. -/
lemma pairwise_standsAt (h : Tiles source front tokens) : tokens.Pairwise fun t u =>
    ∃ front text back middle text' back', t.StandsAt source front text back
      ∧ u.StandsAt source (front ++ text ++ middle) text' back' := by
  induction h with
  | stop => exact List.pairwise_singleton ..
  | @token front gap text back lexeme tokens hchars _ htext _ htiles ih =>
      refine List.pairwise_cons.2 ⟨fun u hu => ?_, ih⟩
      obtain ⟨middle, text', back', hstands⟩ := htiles.exists_standsAt u hu
      exact ⟨front ++ gap, text, back, middle, text', back', ⟨hchars, rfl, fun hnil => absurd hnil htext⟩,
        hstands⟩

end Tiles

/-- **Stretches.**  From a token of a source to the same or a later one, a span covers the text from where
the first starts to where the second ends. -/
lemma Source.through_tokens (source : Source) {i j : Nat} {t u : Token} (hij : i ≤ j)
    (ht : source.tokens[i]? = some t) (hu : source.tokens[j]? = some u) :
    ∃ front text back, (t.span.through u.span).Covers source front text back
      ∧ t.span.range.1 = Text.utf8Length front ∧ u.span.range.2 = Text.utf8Length (front ++ text) := by
  obtain ⟨hi, rfl⟩ := List.getElem?_eq_some_iff.1 ht
  obtain ⟨hj, rfl⟩ := List.getElem?_eq_some_iff.1 hu
  rcases hij.lt_or_eq with hlt | rfl
  · obtain ⟨front, text, back, middle, text', back', hfirst, hlast⟩ :=
      List.pairwise_iff_getElem.1 source.tokens_tile.pairwise_standsAt i j hi hj hlt
    refine ⟨front, text ++ middle ++ text', back', hfirst.through hlast, ?_, ?_⟩
    · rw [hfirst.covers.range]
    · rw [hlast.covers.range]
      simp only [List.append_assoc]
  · obtain ⟨gap, text, back, hstands⟩ :=
      source.tokens_tile.exists_standsAt _ (List.getElem_mem hi)
    refine ⟨_, text, back, hstands.covers, ?_, ?_⟩
    · rw [hstands.covers.range]
    · rw [hstands.covers.range]

/-! ## Stretches of a source -/

/-- A span goes from where a token of the source starts to where the same or a later one ends, and takes up
some whole characters of the text. -/
structure Span.IsStretch (source : Source) (s : Span) : Prop where
  tokens : ∃ (i j : Nat) (t u : Token), i ≤ j ∧ source.tokens[i]? = some t ∧ source.tokens[j]? = some u
    ∧ s = t.span.through u.span
  ordered : (compare s.start s.stop).isLE = true
  taken : s.range.1 < s.range.2
  bounded : s.range.2 ≤ source.length
  starts : source.IsBoundary s.range.1
  ends : source.IsBoundary s.range.2

/-- What goes from one token to the same or a later one is a stretch, unless one of the two is the end of
the file. -/
lemma Source.isStretch_through (source : Source) {i j : Nat} {t u : Token} (hij : i ≤ j)
    (ht : source.tokens[i]? = some t) (hu : source.tokens[j]? = some u) (htkind : t.kind ≠ .endOfFile)
    (hukind : u.kind ≠ .endOfFile) : (t.span.through u.span).IsStretch source
      ∧ (t.span.through u.span).range = (t.span.range.1, u.span.range.2) := by
  obtain ⟨front, text, back, hcovers, hstart, hstop⟩ := source.through_tokens hij ht hu
  have hrange : (t.span.through u.span).range = (t.span.range.1, u.span.range.2) := by
    rw [hcovers.range, hstart, hstop]
  have htaken := source.tokens_tile.taken
  have hafter : t.span.range.1 < u.span.range.2 := by
    obtain ⟨hi, rfl⟩ := List.getElem?_eq_some_iff.1 ht
    obtain ⟨hj, rfl⟩ := List.getElem?_eq_some_iff.1 hu
    have hfirst := (htaken _ (List.getElem_mem hi) htkind).1
    have hlast := (htaken _ (List.getElem_mem hj) hukind).1
    rcases hij.lt_or_eq with hlt | rfl
    · have hordered := List.pairwise_iff_getElem.1 source.tokens_tile.ordered i j hi hj hlt
      omega
    · exact hfirst
  refine ⟨⟨⟨i, j, t, u, hij, ht, hu, rfl⟩, hcovers.ordered, ?_, ?_, ?_, ?_⟩, hrange⟩
  · rw [hrange]
    exact hafter
  · rw [hcovers.range, Source.length_eq, hcovers.chars]
    simp only [Text.utf8Length_append]
    omega
  · rw [hcovers.range]
    exact ⟨front, text ++ back, hcovers.chars, rfl⟩
  · rw [hcovers.range]
    exact ⟨front ++ text, back, by rw [hcovers.chars, List.append_assoc], rfl⟩

end RpcSchema
