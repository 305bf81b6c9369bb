import RpcSchema.Proofs.Token.Layout

/-!
# Passing over a part of a text

`Scanner.Passes s ts s'` says that from a scanner `s` the tokens `ts` are read one by one, and that `s'` is
where the scanner is then.  The tokens in front of a scanner are those of such a run and what is read
behind it (`Passes.drain`), and every list of tokens in front of others is the run of some scanner
(`Passes.exists_of_drain`).

**Other surroundings.**  What stands behind the part that is passed over may be replaced by what may follow
legal tokens: the same tokens are read, in the same places (`Passes.followed`).  So a part of a text can
be cut out behind its last token, and a text can be gone on with.

**The text that is passed over** is the text from the first token that is no line feed to the last, with
layout before it (`Passes.chars_through`).
-/

namespace RpcSchema

namespace Scanner

/-- From one scanner to another some tokens are read, none of which is the end of the file. -/
inductive Passes : Scanner → List Token → Scanner → Prop where
  | nil {s : Scanner} : Passes s [] s
  | cons {s s' : Scanner} {ts : List Token} : s.next.1.kind ≠ .endOfFile → Passes s.next.2 ts s' →
      Passes s (s.next.1 :: ts) s'

variable {s s₁ : Scanner} {ts us vs feeds : List Token} {t u : Token} {front text behind : List Char}

lemma past_past (s : Scanner) (text text' behind behind' : List Char) :
    (s.past text behind).past text' behind' = s.past (text ++ text') behind' := by
  rw [past, past, past, Position.after_append]

/-- At the end of a text only a gap is left. -/
lemma isGap_of_end (h : s.next.1.kind = .endOfFile) : ∀ c ∈ s.rest, isGap c := by
  cases hrest : s.rest.dropWhile isGap with
  | nil => exact List.dropWhile_eq_nil_iff.1 hrest
  | cons c rest =>
      obtain ⟨hlexeme, -⟩ := next_of_cut hrest
      exact absurd ((congrArg Lexeme.kind hlexeme).symm.trans h) (Cut.kind_first_ne_end c rest)

lemma head_drain (s : Scanner) : s.drain.1.head? = some s.next.1 := by
  by_cases hend : s.next.1.kind = .endOfFile
  · rw [drain_of_end hend, List.head?_cons]
  · rw [drain_of_token hend, List.head?_cons]

namespace Passes

lemma drain (h : Passes s ts s₁) : s.drain.1 = ts ++ s₁.drain.1 := by
  induction h with
  | nil => rfl
  | cons hne _ ih => rw [drain_of_token hne, ih, List.cons_append]

/-- Tokens that are read, others behind them, are passed over. -/
lemma exists_of_drain (h : s.drain.1 = ts ++ us) (hne : us ≠ []) :
    ∃ s₁, Passes s ts s₁ ∧ s₁.drain.1 = us := by
  induction ts generalizing s with
  | nil => exact ⟨s, .nil, h⟩
  | cons t ts ih =>
      obtain ⟨rfl, hend, hrest⟩ := drain_cons h (by simp [hne])
      obtain ⟨s₁, hpasses, hdrain⟩ := ih hrest
      exact ⟨s₁, .cons hend hpasses, hdrain⟩

/-- A scanner that passes over tokens passes over a text. -/
lemma exists_text (h : Passes s ts s₁) : ∃ text, s.rest = text ++ s₁.rest ∧ s₁ = s.past text s₁.rest := by
  induction h with
  | nil => exact ⟨[], rfl, rfl⟩
  | @cons s s₁ ts hne _ ih =>
      obtain ⟨gap, c, x, hgap, hc, hrest, hspelled⟩ := next_spelled hne
      obtain ⟨text, htext, hpast⟩ := ih
      have hnext : s.next.2 = s.past (gap ++ c :: x) s.next.2.rest :=
        congrArg Prod.snd (next_of_spelled hgap hc hspelled hrest)
      refine ⟨gap ++ c :: x ++ text, ?_, ?_⟩
      · rw [hrest, htext, List.append_assoc, List.append_assoc]
      · rw [← past_past s _ _ s.next.2.rest, ← hnext]
        exact hpast

/-- Behind what it passes over a scanner has read more of its source. -/
lemma stands (h : Passes s ts s₁) (hs : s.Stands front) : ∃ front', s₁.Stands front' := by
  obtain ⟨text, hrest, hpast⟩ := h.exists_text
  refine ⟨front ++ text, ?_, ?_⟩
  · rw [hpast, past, hs.1, hrest, List.append_assoc]
  · rw [hpast, past, hs.2, Position.after_append]

/-- **Other surroundings.**  Legal tokens are passed over also in front of another text that may
follow. -/
lemma followed (h : Passes s ts s₁) (hlegal : ∀ t ∈ ts, t.kind ≠ .illegal)
    (hrest : s.rest = text ++ s₁.rest) (hfollow : MayFollow s₁.rest behind) :
    Passes { s with rest := text ++ behind } ts { s₁ with rest := behind } := by
  induction h generalizing text with
  | nil =>
      obtain rfl : text = [] := List.self_eq_append_left.1 hrest
      exact .nil
  | @cons s s₁ ts hne h ih =>
      rw [List.forall_mem_cons] at hlegal
      obtain ⟨gap, c, x, hgap, hc, hchars, hspelled⟩ := next_spelled hne
      obtain ⟨text', htext', -⟩ := h.exists_text
      obtain rfl : text = gap ++ (c :: x ++ text') := by
        rw [hchars, htext', ← List.append_assoc (c :: x), ← List.append_assoc] at hrest
        exact (List.append_cancel_right hrest).symm
      have hnext := next_of_spelled hgap hc hspelled hchars
      rw [htext'] at hspelled
      -- the next token is read as before, and the scanner behind it differs in what is left
      have hnext' : ({ s with rest := gap ++ (c :: x ++ text') ++ behind } : Scanner).next
          = (s.next.1, { s.next.2 with rest := text' ++ behind }) := by
        rw [next_of_spelled hgap hc (hspelled.followed hlegal.1 hfollow) (by simp), hnext]
        rfl
      have hrun := ih hlegal.2 htext' hfollow
      have hcons := @Passes.cons { s with rest := gap ++ (c :: x ++ text') ++ behind }
        { s₁ with rest := behind } ts (by rwa [hnext']) (by rwa [hnext'])
      rwa [hnext'] at hcons

/-- In front of the first token that is no line feed there are blanks and line feeds. -/
lemma start_first (h : Passes s (feeds ++ t :: ts) s₁) (hfeeds : ∀ f ∈ feeds, f.kind = .newline) :
    ∃ layout text, (∀ c ∈ layout, IsApart c) ∧ text ≠ [] ∧ s.rest = layout ++ (text ++ s₁.rest)
      ∧ t.span.source = s.source ∧ t.span.start = s.position.after layout := by
  induction feeds generalizing s with
  | nil =>
      cases h with
      | cons hne h =>
          obtain ⟨gap, c, x, hgap, hc, hrest, hspelled⟩ := next_spelled hne
          obtain ⟨text, htext, -⟩ := h.exists_text
          refine ⟨gap, c :: x ++ text, fun c hc => Or.inl (hgap c hc), by simp, ?_, ?_⟩
          · rw [hrest, htext, List.append_assoc (c :: x)]
          · rw [next_of_spelled hgap hc hspelled hrest]
            exact ⟨rfl, rfl⟩
  | cons f feeds ih =>
      rw [List.forall_mem_cons] at hfeeds
      cases h with
      | cons hne h =>
          obtain ⟨gap, c, x, hgap, hc, hrest, hspelled⟩ := next_spelled hne
          obtain ⟨layout, text, hlayout, hnil, htext, hsource, hstart⟩ := ih h hfeeds.2
          have hnext := next_of_spelled hgap hc hspelled hrest
          rw [hspelled.of_newline hfeeds.1] at hrest hnext
          refine ⟨gap ++ '\n' :: layout, text, ?_, hnil, ?_, ?_, ?_⟩
          · refine forall_append (fun c hc => Or.inl (hgap c hc)) ?_
            exact List.forall_mem_cons.2 ⟨Or.inr rfl, hlayout⟩
          · rw [hrest, htext]
            simp
          · rw [hsource, hnext]
            rfl
          · rw [hstart, hnext, past, ← Position.after_append, List.append_assoc, List.singleton_append]

/-- The last token stops at the last character of the text that is passed over. -/
lemma stop_last (h : Passes s (ts ++ [t]) s₁) : ∃ text, text ≠ [] ∧ s.rest = text ++ s₁.rest
    ∧ t.span.stop = s.position.after text.dropLast := by
  induction ts generalizing s with
  | nil =>
      cases h with
      | cons hne h =>
          cases h
          obtain ⟨gap, c, x, hgap, hc, hrest, hspelled⟩ := next_spelled hne
          refine ⟨gap ++ c :: x, by simp, by rw [hrest, List.append_assoc], ?_⟩
          rw [next_of_spelled hgap hc hspelled hrest,
            List.dropLast_append_of_ne_nil (List.cons_ne_nil c x)]
          rfl
  | cons u ts ih =>
      cases h with
      | cons hne h =>
          obtain ⟨gap, c, x, hgap, hc, hrest, hspelled⟩ := next_spelled hne
          obtain ⟨text, hnil, htext, hstop⟩ := ih h
          refine ⟨gap ++ c :: x ++ text, by simp, ?_, ?_⟩
          · rw [hrest, htext, List.append_assoc, List.append_assoc]
          · rw [hstop, next_of_spelled hgap hc hspelled hrest, List.dropLast_append_of_ne_nil hnil,
              Position.after_append]
            rfl

/-- The text from the first token that is no line feed to the last is what is passed over, but for the
layout in front of it. -/
lemma chars_through (h : Passes s ts s₁) (hs : s.Stands front) (hfirst : ts = feeds ++ t :: us)
    (hfeeds : ∀ f ∈ feeds, f.kind = .newline) (hlast : ts = vs ++ [u]) :
    ∃ layout, (∀ c ∈ layout, IsApart c)
      ∧ s.rest = layout ++ (t.span.through u.span).chars ++ s₁.rest := by
  obtain ⟨layout, text, hlayout, hnil, hrest, hsource, hstart⟩ := start_first (hfirst ▸ h) hfeeds
  obtain ⟨text', -, hrest', hstop⟩ := stop_last (hlast ▸ h)
  obtain rfl : text' = layout ++ text := by
    rw [hrest', ← List.append_assoc] at hrest
    exact List.append_cancel_right hrest
  have hchars : s.source.chars = front ++ layout ++ (text ++ s₁.rest) := by
    rw [hs.1, hrest, List.append_assoc]
  have hspan : t.span.through u.span = ⟨s.source, .after .origin (front ++ layout),
      .after .origin (front ++ layout ++ text.dropLast)⟩ := by
    rw [Span.through, hsource, hstart, hstop, hs.2, List.dropLast_append_of_ne_nil hnil,
      ← Position.after_append, ← Position.after_append, List.append_assoc]
  refine ⟨layout, hlayout, ?_⟩
  rw [hspan, Tiles.chars_token hchars hnil, hrest, List.append_assoc]

end Passes

end Scanner

end RpcSchema
