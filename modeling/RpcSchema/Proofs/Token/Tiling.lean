import Mathlib.Data.List.TakeWhile
import RpcSchema.Proofs.Source.Slice
import RpcSchema.Token.Scan

/-!
# Tokens tile their source

A scanner stands in its source: what it has read and what is left make up the text, and its position is
the place after what it has read (`Scanner.Stands`).  Taking a token keeps that, and the token takes up
exactly the text between the end of a gap and the new place.  Draining a scanner therefore *tiles* the
text from its place on (`drain_tiles`): gap, token, gap, token, and at the end of the text a last gap and
the token for the end.

Everything known of the ranges of tokens is read off a tiling, by induction on it.  The two facts that
say what a token of a tiling covers are `Tiles.range_token` and `Tiles.chars_token`.
-/

namespace RpcSchema

/-! ## The kind of a cut -/

lemma Kind.ofDelimiter?_ne_end {c : Char} {kind : Kind} (h : Kind.ofDelimiter? c = some kind) :
    kind ≠ .endOfFile := by
  rw [Kind.ofDelimiter?] at h
  split at h
  · rintro rfl; cases h
  · obtain ⟨d, _, rfl⟩ := Option.map_eq_some_iff.1 h
    simp

lemma Kind.ofWord_ne_end (w : String) : Kind.ofWord w ≠ .endOfFile := by
  rw [Kind.ofWord, Kind.ofWord?]
  split
  · simp
  · split
    · simp
    · cases Keyword.all.find? (·.word = w) <;> simp

namespace Cut

lemma kind_number (c : Char) (rest : List Char) :
    (number c rest).lexeme.kind = .float ∨ (number c rest).lexeme.kind = .integer := by
  rw [number]
  split
  · split
    · exact Or.inl rfl
    · exact Or.inr rfl
  · exact Or.inr rfl

lemma kind_string (c : Char) (rest : List Char) :
    (string c rest).lexeme.kind = .illegal ∨ (string c rest).lexeme.kind = .string := by
  rw [string]
  split
  · exact Or.inl rfl
  · exact Or.inr rfl

lemma kind_enclosed (kind : Kind) (width : Nat) (closing : List Char) (c : Char)
    (rest : List Char) :
    (enclosed kind width closing c rest).lexeme.kind = .illegal
      ∨ (enclosed kind width closing c rest).lexeme.kind = kind := by
  rw [enclosed]
  split
  · exact Or.inl rfl
  · exact Or.inr rfl

/-- No text is the end of the file. -/
lemma kind_first_ne_end (c : Char) (rest : List Char) :
    (first c rest).lexeme.kind ≠ .endOfFile := by
  rw [first]
  split
  · next kind hkind => exact Kind.ofDelimiter?_ne_end hkind
  · split
    · split
      · rcases kind_enclosed .docstring 2 ['"', '"', '"'] c rest with h | h <;> simp [h]
      · rcases kind_string c rest with h | h <;> simp [h]
    · split
      · simp [lineComment]
      · split
        · rcases kind_enclosed .blockComment 1 ['*', '/'] c rest with h | h <;> simp [h]
        · split
          · rcases kind_number c rest with h | h <;> simp [h]
          · split
            · exact Kind.ofWord_ne_end _
            · simp [single]

end Cut

/-! ## Tilings -/

/-- A list of tokens tiles the text of a source behind `front`: before each token stands a gap, each
token takes up some text, and the last is the end of the file, behind a last gap. -/
inductive Tiles (source : Source) : List Char → List Token → Prop where
  | stop {front gap : List Char} :
      source.chars = front ++ gap → (∀ c ∈ gap, isGap c) →
      Tiles source front
        [⟨⟨.endOfFile, ""⟩, source, .after .origin (front ++ gap), .after .origin (front ++ gap)⟩]
  | token {front gap text back : List Char} {lexeme : Lexeme} {tokens : List Token} :
      source.chars = front ++ gap ++ (text ++ back) → (∀ c ∈ gap, isGap c) → text ≠ [] →
      lexeme.kind ≠ .endOfFile → Tiles source (front ++ gap ++ text) tokens →
      Tiles source front
        (⟨lexeme, source, .after .origin (front ++ gap),
          .after .origin (front ++ gap ++ text.dropLast)⟩ :: tokens)

namespace Scanner

/-- What a scanner has read of its source. -/
def Stands (s : Scanner) (front : List Char) : Prop :=
  s.source.chars = front ++ s.rest ∧ s.position = .after .origin front

lemma stands_ofSource (source : Source) : (ofSource source).Stands [] := ⟨rfl, rfl⟩

variable {s : Scanner} {front : List Char}

lemma Stands.skipGap (h : s.Stands front) :
    s.skipGap.Stands (front ++ s.rest.takeWhile isGap) := by
  refine ⟨?_, ?_⟩
  · show s.source.chars = _ ++ s.rest.dropWhile isGap
    rw [List.append_assoc, List.takeWhile_append_dropWhile]
    exact h.1
  · show s.position.after _ = _
    rw [h.2, Position.after_append]

/-- **One token.**  Either nothing but a gap is left and the token is the end of the file, or the token
takes up the text between the gap and where the scanner stands behind it. -/
lemma Stands.next (h : s.Stands front) : ∃ gap, (∀ c ∈ gap, isGap c) ∧
    ((s.source.chars = front ++ gap
        ∧ s.next.1 = ⟨⟨.endOfFile, ""⟩, s.source, .after .origin (front ++ gap),
            .after .origin (front ++ gap)⟩
        ∧ s.next.2 = ⟨s.source, .after .origin (front ++ gap), []⟩)
      ∨ ∃ text lexeme, text ≠ [] ∧ lexeme.kind ≠ .endOfFile
        ∧ s.next.1 = ⟨lexeme, s.source, .after .origin (front ++ gap),
            .after .origin (front ++ gap ++ text.dropLast)⟩
        ∧ s.next.2.source = s.source
        ∧ s.next.2.Stands (front ++ gap ++ text)) := by
  refine ⟨s.rest.takeWhile isGap, fun c hc => List.mem_takeWhile_imp hc, ?_⟩
  obtain ⟨hchars, hposition⟩ := h.skipGap
  have hsource : s.skipGap.source = s.source := rfl
  rw [hsource] at hchars
  rw [Scanner.next]
  cases hrest : s.skipGap.rest with
  | nil =>
      rw [hrest, List.append_nil] at hchars
      refine Or.inl ⟨hchars, ?_, ?_⟩
      · simp only [hposition, hsource]
      · show s.skipGap = _
        rw [← hposition, ← hrest]
        rfl
  | cons c rest =>
      rw [hrest] at hchars
      have hcut := (Cut.first c rest).text_append_rest
      refine Or.inr ⟨(Cut.first c rest).text, (Cut.first c rest).lexeme,
        (Cut.first c rest).text_ne_nil, Cut.kind_first_ne_end c rest, ?_, hsource, ?_, ?_⟩
      · simp only [hposition, hsource, Position.after_append]
      · show s.source.chars = _ ++ (Cut.first c rest).rest
        rw [List.append_assoc, hcut]
        exact hchars
      · show s.skipGap.position.after _ = _
        rw [hposition, Position.after_append _ (front ++ _)]

lemma drain_of_end (h : s.next.1.kind = .endOfFile) : s.drain = ([s.next.1], s.next.2) := by
  rw [drain]
  simp [h]

lemma drain_of_token (h : s.next.1.kind ≠ .endOfFile) :
    s.drain = (s.next.1 :: s.next.2.drain.1, s.next.2.drain.2) := by
  rw [drain]
  simp [h]

/-- Draining a scanner tiles the text from its place on. -/
theorem drain_tiles {s : Scanner} {front : List Char} (h : s.Stands front) :
    Tiles s.source front s.drain.1 := by
  obtain ⟨gap, hgap, ⟨hchars, htoken, _⟩ | ⟨text, lexeme, htext, hkind, htoken, hsource, hstands⟩⟩ :=
    h.next
  · rw [drain_of_end (by rw [htoken]), htoken]
    exact .stop hchars hgap
  · have hne : s.next.1.kind ≠ .endOfFile := by rw [htoken]; exact hkind
    have hless := length_rest_next hne
    have htiles := drain_tiles hstands
    rw [hsource] at htiles
    have hchars := hstands.1
    rw [hsource, List.append_assoc] at hchars
    rw [drain_of_token hne, htoken]
    exact .token hchars hgap htext hkind htiles
termination_by s.rest.length

/-- Behind the end of the text there is nothing but the end of the text. -/
lemma next_of_rest_nil (h : s.rest = []) :
    s.next = (⟨⟨.endOfFile, ""⟩, s.source, s.position, s.position⟩, s) := by
  obtain ⟨source, position, rest⟩ := s
  subst h
  rfl

/-- The scanner behind the last token has nothing left, and stands where that token stands. -/
lemma drain_end {s : Scanner} {front : List Char} (h : s.Stands front) :
    s.drain.2.rest = [] ∧ s.drain.1.getLast? = some s.drain.2.next.1 := by
  obtain ⟨gap, _, ⟨_, htoken, hbehind⟩ | ⟨_, _, _, hkind, htoken, _, hstands⟩⟩ := h.next
  · have hrest : s.next.2.rest = [] := by rw [hbehind]
    rw [drain_of_end (by rw [htoken]), next_of_rest_nil hrest, htoken, hbehind]
    exact ⟨rfl, rfl⟩
  · have hne : s.next.1.kind ≠ .endOfFile := by rw [htoken]; exact hkind
    have hless := length_rest_next hne
    obtain ⟨hrest, hlast⟩ := drain_end hstands
    rw [drain_of_token hne]
    refine ⟨hrest, ?_⟩
    rw [List.getLast?_cons, hlast, Option.getD_some]
termination_by s.rest.length

end Scanner

end RpcSchema
