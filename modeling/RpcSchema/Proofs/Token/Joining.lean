import RpcSchema.Proofs.Source.Lines
import RpcSchema.Proofs.Token.Passing

/-!
# One text behind another

Two texts are joined with an empty line between them.  The tokens of the whole are those of the first
without its end, two line feeds, and those of the second (`Source.tokens_joined`).  Nothing runs together
at the seam: the last token of the first is read as before, since a line feed stands behind it now, and
the second begins at the start of a line.

**Places.**  A `Move` puts places into another source, some lines and bytes further on.  Columns stay, so
a text may be moved from the start of a line to the start of a line.  Scanning does not see the
difference (`Scanner.next_moved`).
-/

namespace RpcSchema

/-- To another source, some lines and bytes further on. -/
structure Move where
  source : Source
  lines : Nat
  bytes : Nat

namespace Move

variable (m : Move)

/-- Where a position is moved. -/
def position (p : Position) : Position := ⟨p.line + m.lines, p.column, p.offset + m.bytes⟩

/-- Where a span is moved. -/
def span (s : Span) : Span := ⟨m.source, m.position s.start, m.position s.stop⟩

/-- A token in the place to which it is moved. -/
def token (t : Token) : Token := { t with span := m.span t.span }

/-- A scanner that reads what is left from where it is moved. -/
def scanner (s : Scanner) : Scanner := ⟨m.source, m.position s.position, s.rest⟩

@[simp]
lemma toLexeme_token (t : Token) : (m.token t).toLexeme = t.toLexeme := rfl

lemma position_advance (p : Position) (c : Char) :
    m.position (p.advance c) = (m.position p).advance c := by
  unfold Position.advance
  split <;> simp only [position] <;> congr 1 <;> omega

lemma position_after (p : Position) (cs : List Char) :
    m.position (p.after cs) = (m.position p).after cs := by
  induction cs generalizing p with
  | nil => rfl
  | cons c cs ih => rw [Position.after_cons, ih, position_advance, Position.after_cons]

/-- Moving commutes with stretching. -/
lemma span_through (s t : Span) : m.span (s.through t) = (m.span s).through (m.span t) := rfl

end Move

namespace Scanner

variable (m : Move)

lemma skipGap_moved (s : Scanner) : (m.scanner s).skipGap = m.scanner s.skipGap := by
  simp only [skipGap, Move.scanner, Move.position_after]

/-- A scanner that is moved reads what it reads otherwise, elsewhere. -/
lemma next_moved (s : Scanner) : (m.scanner s).next = (m.token s.next.1, m.scanner s.next.2) := by
  rw [next, next, skipGap_moved]
  generalize s.skipGap = here
  obtain ⟨source, position, rest⟩ := here
  cases rest with
  | nil => rfl
  | cons c rest => simp only [Move.scanner, Move.token, Move.span, Move.position_after]

lemma drain_moved (s : Scanner) : (m.scanner s).drain.1 = s.drain.1.map m.token := by
  have hnext := next_moved m s
  by_cases hend : s.next.1.kind = .endOfFile
  · rw [drain_of_end hend, drain_of_end (by rw [hnext]; exact hend), hnext, List.map_singleton]
  · have hless := length_rest_next hend
    rw [drain_of_token hend, drain_of_token (by rw [hnext]; exact hend), hnext, drain_moved,
      List.map_cons]
termination_by s.rest.length

lemma Passes.moved {s s₁ : Scanner} {ts : List Token} (h : Passes s ts s₁) :
    Passes (m.scanner s) (ts.map m.token) (m.scanner s₁) := by
  induction h with
  | nil => exact .nil
  | @cons s s₁ ts hne _ ih =>
      have hnext := next_moved m s
      have hcons := @Passes.cons (m.scanner s) (m.scanner s₁) (ts.map m.token)
        (by rw [hnext]; exact hne) (by rwa [hnext])
      rwa [hnext] at hcons

/-- A line feed behind a gap is the next token. -/
lemma drain_of_lineFeed {s : Scanner} {gap behind : List Char} (hgap : ∀ c ∈ gap, isGap c)
    (hrest : s.rest = gap ++ '\n' :: behind) : ∃ feed, feed.toLexeme = .lineFeed
      ∧ s.drain.1 = feed :: (s.past (gap ++ ['\n']) behind).drain.1 := by
  have hspelled : Spelled ['\n'] behind .lineFeed := .single (by decide)
  have hnext := next_of_spelled hgap (by decide) hspelled hrest
  have hne : s.next.1.kind ≠ .endOfFile := by
    rw [hnext]
    exact nofun
  refine ⟨s.next.1, by rw [hnext]; rfl, ?_⟩
  rw [drain_of_token hne, hnext]

/-- Two line feeds behind a gap are the next tokens. -/
lemma drain_of_emptyLine {s : Scanner} {gap behind : List Char} (hgap : ∀ c ∈ gap, isGap c)
    (hrest : s.rest = gap ++ '\n' :: '\n' :: behind) :
    ∃ feed feed', feed.toLexeme = .lineFeed ∧ feed'.toLexeme = .lineFeed
      ∧ s.drain.1 = feed :: feed' :: (s.past (gap ++ ['\n', '\n']) behind).drain.1 := by
  obtain ⟨feed, hfeed, hdrain⟩ := drain_of_lineFeed hgap hrest
  have hfront : (s.past (gap ++ ['\n']) ('\n' :: behind)).rest = [] ++ '\n' :: behind := rfl
  obtain ⟨feed', hfeed', hdrain'⟩ := drain_of_lineFeed (by simp) hfront
  refine ⟨feed, feed', hfeed, hfeed', ?_⟩
  rw [hdrain, hdrain', past_past, List.append_assoc]
  rfl

end Scanner

/-! ## Joined texts -/

/-- A text, an empty line and another text. -/
def Source.joined (file : String) (first second : Source) : Source :=
  ⟨file, first.contents ++ "\n\n" ++ second.contents⟩

/-- From the first of two texts to the whole. -/
def Move.toFront (file : String) (first second : Source) : Move := ⟨.joined file first second, 0, 0⟩

/-- From the second of two texts to the whole: the line feeds and bytes of the first come before. -/
def Move.toBack (file : String) (first second : Source) : Move :=
  ⟨.joined file first second, first.chars.count '\n' + 2, first.length + 2⟩

namespace Source

variable {file : String} {first second : Source}

lemma chars_joined (file : String) (first second : Source) :
    (joined file first second).chars = first.chars ++ '\n' :: '\n' :: second.chars := by
  simp [joined, chars]

/-- Where the second text begins. -/
lemma toBack_origin : (Move.toBack file first second).position .origin
    = Position.origin.after (first.chars ++ ['\n', '\n']) := by
  rw [Position.after_append]
  have hline := Position.line_after first.chars
  have hoffset := Position.offset_origin_after first.chars
  generalize Position.origin.after first.chars = p at hline hoffset
  have hsize : '\n'.utf8Size = 1 := by decide
  simp only [Position.after_cons, Position.after_nil, Position.advance, if_true, hline, hoffset, hsize,
    Move.position, Move.toBack, length_eq, Position.origin]
  congr 1
  omega

/-- All tokens of a text but the last are passed over, and a gap is left then. -/
lemma passes_to_end (source : Source) : ∃ (s : Scanner) (text : List Char),
    Scanner.Passes (.ofSource source) source.tokens.dropLast s ∧ (∀ c ∈ s.rest, isGap c)
      ∧ source.chars = text ++ s.rest ∧ s = (Scanner.ofSource source).past text s.rest := by
  obtain ⟨before, last, htokens, -, hlast, -⟩ := source.tokens_tile.ends
  obtain ⟨s, hpasses, hdrain⟩ := Scanner.Passes.exists_of_drain
    (show (Scanner.ofSource source).drain.1 = before ++ [last] from htokens) (List.cons_ne_nil _ _)
  have hend : s.next.1.kind = .endOfFile := by
    have hhead := s.head_drain
    rw [hdrain] at hhead
    rwa [← Option.some.inj hhead]
  obtain ⟨text, hchars, hpast⟩ := hpasses.exists_text
  rw [htokens, List.dropLast_concat]
  exact ⟨s, text, hpasses, Scanner.isGap_of_end hend, hchars, hpast⟩

/-- **The tokens of joined texts** are those of the first up to its end, two line feeds, and those of the
second, unless something is illegal in the first. -/
lemma tokens_joined (file : String) (second : Source)
    (hlegal : ∀ t ∈ first.tokens, t.kind ≠ .illegal) :
    ∃ feed feed' : Token, feed.toLexeme = .lineFeed ∧ feed'.toLexeme = .lineFeed
      ∧ (joined file first second).tokens
        = first.tokens.dropLast.map (Move.toFront file first second).token
          ++ feed :: feed' :: second.tokens.map (Move.toBack file first second).token := by
  obtain ⟨s, text, hpasses, hgap, hchars, hpast⟩ := first.passes_to_end
  have hlegal' : ∀ t ∈ first.tokens.dropLast, t.kind ≠ .illegal :=
    fun t ht => hlegal t (List.dropLast_subset _ ht)
  -- the tokens of the first text are read again, with the gap at its end and all that comes behind
  have hrun := (hpasses.followed hlegal' hchars
    (mayFollow_gap hgap ('\n' :: second.chars))).moved (.toFront file first second)
  have hwhole : (Move.toFront file first second).scanner
      { Scanner.ofSource first with rest := text ++ (s.rest ++ '\n' :: '\n' :: second.chars) }
      = .ofSource (joined file first second) := by
    have hjoined := chars_joined file first second
    rw [hchars, List.append_assoc] at hjoined
    rw [← hjoined]
    rfl
  rw [hwhole] at hrun
  obtain ⟨feed, feed', hfeed, hfeed', hseam⟩ := Scanner.drain_of_emptyLine hgap
    (show ((Move.toFront file first second).scanner { s with rest := _ }).rest
      = s.rest ++ '\n' :: '\n' :: second.chars from rfl)
  have hposition : s.position.after (s.rest ++ ['\n', '\n'])
      = (Move.toBack file first second).position .origin := by
    rw [toBack_origin, hchars, hpast, List.append_assoc, Position.after_append _ text]
    rfl
  have hbehind : Scanner.past ((Move.toFront file first second).scanner
        { s with rest := s.rest ++ '\n' :: '\n' :: second.chars }) (s.rest ++ ['\n', '\n']) second.chars
      = (Move.toBack file first second).scanner (.ofSource second) :=
    congrArg (Scanner.mk (joined file first second) · second.chars) hposition
  refine ⟨feed, feed', hfeed, hfeed', ?_⟩
  rw [tokens, hrun.drain, hseam, hbehind, Scanner.drain_moved]
  rfl

end Source

end RpcSchema
