import RpcSchema.Proofs.Grammar.Stream
import RpcSchema.Proofs.Text.Escapes
import RpcSchema.Proofs.Token.Passing
import RpcSchema.Proofs.Token.Rendering
import RpcSchema.Proofs.Token.Stretches

/-!
# Strings

A text that is written as a string literal, with its quotes and backslashes escaped, is read back as it
is; and in every string literal of a source the scanner passes over the pairs that are undone when the
value is taken.  `Source.string_values` says both.

What stands behind a literal matters in one case only: the two quotes of an empty string with a third
behind them would open a docstring.
-/

namespace RpcSchema

namespace Text

/-- A text as a string literal. -/
def literalFor (value : List Char) : List Char := '"' :: (escaped value ++ ['"'])

lemma paired_escaped (value : List Char) : Paired (escaped value) := by
  induction value with
  | nil => exact .nil
  | cons c value ih =>
      rw [escaped, List.flatMap_cons]
      split
      · exact .pair ih
      · next hc => exact .plain (not_or.1 hc).1 (not_or.1 hc).2 ih

/-- A text spells its own escapes between two quotes. -/
lemma spelled_literalFor {value behind : List Char} (hbehind : behind.head? ≠ some '"') :
    Spelled (literalFor value) behind ⟨.string, String.ofList (escaped value)⟩ :=
  .string (paired_escaped value).closeString fun _ => hbehind

end Text

/-- The token of the literal for a value, where that is next. -/
def Scanner.stringToken (s : Scanner) (value : List Char) : Token :=
  ⟨⟨.string, String.ofList (Text.escaped value)⟩, s.source, s.position,
    s.position.after (Text.literalFor value).dropLast⟩

/-! ## Reading a string literal -/

/-- What a string is spelled by. -/
lemma Spelled.of_string {text behind : List Char} {l : Lexeme} (h : Spelled text behind l)
    (hl : l.kind = .string) : ∃ body, text = '"' :: (body ++ ['"']) ∧ l.literal = String.ofList body
      ∧ Text.closeString (body ++ '"' :: behind) = some (body, behind) := by
  cases h with
  | single hkind =>
      obtain rfl : _ = Kind.string := hl
      rcases Kind.of_ofDelimiter? hkind with h | ⟨_, h⟩ <;> cases h
  | @string body _ hclose => exact ⟨body, rfl, rfl, Text.closeString_behind hclose behind⟩
  | word =>
      rcases Kind.ofWord_cases _ with h | ⟨_, h⟩ | ⟨_, h⟩ <;> cases h.symm.trans hl
  | _ => cases hl

/-- Every token but the last stands at a text that spells it. -/
lemma Source.exists_spelled {source : Source} {t : Token} (ht : t ∈ source.tokens)
    (hkind : t.kind ≠ .endOfFile) :
    ∃ front text back, t.StandsAt source front text back ∧ Spelled text back t.toLexeme := by
  obtain ⟨earlier, later, hsplit⟩ := List.append_of_mem ht
  obtain ⟨s, hpasses, hdrain⟩ :=
    Scanner.Passes.exists_of_drain (s := .ofSource source) hsplit (List.cons_ne_nil t later)
  have htoken : s.next.1 = t := by
    have hhead := s.head_drain
    rw [hdrain] at hhead
    exact (Option.some.inj hhead).symm
  subst htoken
  obtain ⟨front, hchars, hposition⟩ := hpasses.stands (Scanner.stands_ofSource source)
  obtain ⟨_, _, hpast⟩ := hpasses.exists_text
  have hsource : s.source = source := congrArg Scanner.source hpast
  obtain ⟨gap, c, x, hgap, hc, hrest, hspelled⟩ := Scanner.next_spelled hkind
  refine ⟨front ++ gap, c :: x, s.next.2.rest, ⟨?_, ?_, nofun⟩, hspelled⟩
  · rw [← hsource, hchars, List.append_assoc]
    exact congrArg _ hrest
  · rw [Scanner.next_of_spelled hgap hc hspelled hrest, Scanner.tokenOver, hposition, hsource,
      ← Position.after_append, ← Position.after_append, List.append_assoc]

/-- A string literal that is next is taken as its value. -/
lemma Reader.literal_of_string {σ : Type} [TokenSupply σ] {w : σ} {t : Token}
    (htoken : (TokenSupply.peek w 0).token = t) (hkind : t.kind = .string) :
    (literal : Reader σ Literal).run w
      = .ok ⟨t.span, .string (stringValue t)⟩ (TokenSupply.advance w) := by
  subst htoken
  show literal w = _
  rw [literal, get_bind, hkind]
  rfl

/-- The token in front of a scanner is the first of a window on it, unless it is a line feed. -/
lemma Lookahead.peek_fill {s : Scanner} (h : s.next.1.kind ≠ .newline) (last : Position) :
    (TokenSupply.peek (Lookahead.fill ⟨last, [], s⟩ lookahead) 0).token = s.next.1 := by
  have hfeed : ¬ s.next.1.isFeed := by simpa [Token.isFeed] using h
  show (s.nextWord 0).1.token = _
  rw [Scanner.nextWord_of_not_feed hfeed]

section

variable {s : Scanner} {value behind : List Char}

/-- The literal for a value is one token, up to its closing quote. -/
lemma Scanner.next_of_literalFor (hrest : s.rest = Text.literalFor value ++ behind)
    (hbehind : behind.head? ≠ some '"') :
    s.next = (s.stringToken value, s.past (Text.literalFor value) behind) := by
  have hgap : ∀ c ∈ ([] : List Char), isGap c := nofun
  exact next_of_spelled hgap (by decide) (Text.spelled_literalFor hbehind) hrest

/-- The literal for a value is taken as the value. -/
lemma Reader.literal_of_literalFor (hrest : s.rest = Text.literalFor value ++ behind)
    (hbehind : behind.head? ≠ some '"') (last : Position) :
    (literal : Reader Lookahead Literal).run (.fill ⟨last, [], s⟩ lookahead)
      = .ok ⟨(s.stringToken value).span, .string (String.ofList value)⟩
        (TokenSupply.advance (Lookahead.fill ⟨last, [], s⟩ lookahead)) := by
  have hnext := Scanner.next_of_literalFor hrest hbehind
  have hkind : s.next.1.kind ≠ .newline := by
    rw [hnext]
    nofun
  have hpeek := Lookahead.peek_fill hkind last
  rw [hnext] at hpeek
  have hvalue : stringValue (s.stringToken value) = String.ofList value := by
    rw [stringValue, Scanner.stringToken, String.toList_ofList, Text.unescape_escaped]
  rw [literal_of_string hpeek rfl, hvalue]

end

/-! ## The result -/

/-- **Strings keep their values.**  Where the literal for a value is next, with no quote behind it, it is one
token up to its closing quote, and is taken as the value.  In every string literal of a source, what the
scanner passed over in pairs are the escapes of the body, and these are what is undone; every quote of the
body is the second character of one. -/
theorem Source.string_values :
    (∀ (s : Scanner) (last : Position) (value behind : List Char),
      s.rest = Text.literalFor value ++ behind → behind.head? ≠ some '"' →
        s.next = (s.stringToken value, s.past (Text.literalFor value) behind)
          ∧ (Reader.literal : Reader Lookahead Literal).run (.fill ⟨last, [], s⟩ lookahead)
            = .ok ⟨(s.stringToken value).span, .string (String.ofList value)⟩
              (TokenSupply.advance (Lookahead.fill ⟨last, [], s⟩ lookahead)))
      ∧ ∀ source : Source, ∀ t ∈ source.tokens, t.kind = .string →
        ∃ front body after passed, t.StandsAt source front ('"' :: (body ++ ['"'])) after
          ∧ t.literal = String.ofList body
          ∧ Text.closeStringNoting 0 (body ++ '"' :: after) = some ((body, after), passed)
          ∧ Text.unescapeNoting 0 body = (Text.unescape body, passed)
          ∧ (∀ i, i ∈ passed ↔ Text.IsEscape body i)
          ∧ ∀ before behind, body = before ++ '"' :: behind →
            ∃ i ∈ passed, before.length = i + 1 := by
  refine ⟨?_, ?_⟩
  · intro s last value behind hrest hbehind
    exact ⟨Scanner.next_of_literalFor hrest hbehind, Reader.literal_of_literalFor hrest hbehind last⟩
  · intro source t ht hkind
    obtain ⟨front, text, after, hstands, hspelled⟩ := Source.exists_spelled ht (by rw [hkind]; nofun)
    obtain ⟨body, rfl, hliteral, hclose⟩ := hspelled.of_string hkind
    obtain ⟨passed, hnoting⟩ := Text.exists_closeStringNoting hclose 0
    have hpassed := Text.snd_unescapeNoting hnoting
    refine ⟨_, body, after, passed, hstands, hliteral, hnoting, ?_, ?_, ?_⟩
    · rw [← Text.unescapeNoting_fst 0 body, ← hpassed]
    · intro i
      rw [← hpassed, Text.mem_unescapeNoting_zero_iff]
    · intro before behind hquote
      obtain ⟨i, hi, hlength⟩ := Text.exists_passed_of_quote hnoting hquote
      exact ⟨i, hi, by omega⟩

/-- A backslash and a quote, as a string literal. -/
def backslashQuote : Source := ⟨"value", "\"\\\\\\\"\""⟩

theorem Source.string_values_backslashQuote :
    let s := Scanner.ofSource backslashQuote
    let window := Lookahead.ofSource backslashQuote
    s.rest = Text.literalFor ['\\', '"'] ++ [] ∧ ([] : List Char).head? ≠ some '"'
      ∧ (Reader.literal : Reader Lookahead Literal).run window
        = .ok ⟨s.next.1.span, .string (String.ofList ['\\', '"'])⟩ (TokenSupply.advance window)
      ∧ s.next.1 ∈ backslashQuote.tokens ∧ s.next.1.kind = .string
      ∧ ∃ front body after, s.next.1.StandsAt backslashQuote front ('"' :: (body ++ ['"'])) after
        ∧ body = ['\\', '\\', '\\', '"'] ∧ ∃ i, body.length = i + 2 ∧ Text.IsEscape body i := by
  have hrest : (Scanner.ofSource backslashQuote).rest = Text.literalFor ['\\', '"'] ++ [] := by decide
  obtain ⟨hnext, hread⟩ := Source.string_values.1 (.ofSource backslashQuote) .origin _ [] hrest nofun
  have hkind : (Scanner.ofSource backslashQuote).next.1.kind = .string := by
    rw [hnext]
    rfl
  have hmem : (Scanner.ofSource backslashQuote).next.1 ∈ backslashQuote.tokens := by
    rw [Source.tokens, Scanner.drain_of_token (by rw [hkind]; nofun)]
    exact List.mem_cons_self
  obtain ⟨front, body, after, passed, hstands, hliteral, -, -, hescapes, hquotes⟩ :=
    Source.string_values.2 backslashQuote _ hmem hkind
  have hbody : body = ['\\', '\\', '\\', '"'] := by
    rw [hnext] at hliteral
    exact (String.ofList_injective hliteral).symm
  obtain ⟨i, hi, hlength⟩ := hquotes ['\\', '\\', '\\'] [] hbody
  refine ⟨hrest, nofun, ?_, hmem, hkind, front, body, after, hstands, hbody, i, ?_, (hescapes i).1 hi⟩
  · rw [hnext]
    exact hread
  · rw [hbody]
    exact congrArg (· + 1) hlength

end RpcSchema
