import RpcSchema.Proofs.Text.Escapes
import RpcSchema.Proofs.Token.Passing
import RpcSchema.Proofs.Token.Places
import RpcSchema.Proofs.Token.Stretches

/-!
# Illegal tokens

Nothing is kept with an illegal token of why it is illegal, and its description is made up from how its
literal begins.  Here it is shown that this says what happened.

**Forms.**  A text selects by its first characters the `Form` that its first token is read as, and that form
is cut from it (`Form.cut_select`).  So the form of a token is told by the text where it starts
(`Source.form?`).

**Two shapes.**  A docstring, string or block comment that is never closed is *left open*: `LeftOpen` says so
of a text without looking for the closing mark.  What is illegal leaves a form open, or it is a character by
itself (`Spelled.of_illegal`).  What is left open takes up all that is left, so there is one of it at most
(`Source.leftOpen_cases`).

**Descriptions.**  `Form.complaint` is what should be said of illegal text of a form.  It tells the form, and
the descriptions of legal tokens are others, so a description is a complaint exactly where a form was read
that it is made of (`Source.describe_eq_iff`).
-/

namespace RpcSchema

/-! ## Forms -/

/-- The forms that a token may be read as. -/
inductive Form where
  | mark | docstring | string | lineComment | blockComment | number | word | stray
deriving DecidableEq, Repr

namespace Form

/-- The form that the front of a text selects. -/
def select (c : Char) (rest : List Char) : Form :=
  if (Kind.ofDelimiter? c).isSome then .mark
  else if c = '"' then if ['"', '"'].isPrefixOf rest then .docstring else .string
  else if c = '/' ∧ rest.head? = some '/' then .lineComment
  else if c = '/' ∧ rest.head? = some '*' then .blockComment
  else if c.isDigit then .number
  else if c.isAlpha then .word
  else .stray

/-- The token of a form at the front of a text. -/
def cut (form : Form) (c : Char) (rest : List Char) : Cut (c :: rest) :=
  match form with
  | mark => .single ((Kind.ofDelimiter? c).getD .illegal) c rest
  | docstring => .enclosed .docstring 2 docstringMark c rest
  | string => .string c rest
  | lineComment => .lineComment c rest
  | blockComment => .enclosed .blockComment 1 commentMark c rest
  | number => .number c rest
  | word => .word c rest
  | stray => .single .illegal c rest

/-- What is cut from a text is the token of the form that the text selects. -/
lemma cut_select (c : Char) (rest : List Char) : (select c rest).cut c rest = Cut.first c rest := by
  rw [select, Cut.first]
  cases hkind : Kind.ofDelimiter? c with
  | some kind =>
      show Cut.single ((Kind.ofDelimiter? c).getD .illegal) c rest = _
      rw [hkind]
      rfl
  | none =>
      simp only [Option.isSome_none, Bool.false_eq_true, if_false]
      split_ifs <;> rfl

lemma select_quote_ne_stray (rest : List Char) : select '"' rest ≠ .stray := by
  rw [select, if_neg (by decide), if_pos rfl]
  split <;> simp

end Form

/-! ## What is never closed -/

/-- A mark is not found where it does not occur. -/
lemma Text.splitAtMark_eq_none_iff {mark cs : List Char} (hmark : mark ≠ []) :
    splitAtMark mark cs = none ↔ ¬ mark <:+: cs := by
  induction cs with
  | nil => simpa [splitAtMark] using hmark
  | cons c cs ih =>
      rw [splitAtMark, List.infix_cons_iff, ← List.isPrefixOf_iff_prefix]
      split
      · next hfound => simp [hfound]
      · next hnot => simp [hnot, ih]

/-- A text opens a form and never closes it. -/
inductive LeftOpen : Form → List Char → Prop where
  | docstring {rest : List Char} : ¬ docstringMark <:+: rest →
      LeftOpen .docstring ('"' :: '"' :: '"' :: rest)
  | string {rest : List Char} : Text.QuotesEscaped [] rest → LeftOpen .string ('"' :: rest)
  | blockComment {rest : List Char} : ¬ commentMark <:+: rest →
      LeftOpen .blockComment ('/' :: '*' :: rest)

/-- A string that is left open does not begin as a docstring does. -/
lemma Text.QuotesEscaped.not_docstring {rest : List Char} (h : QuotesEscaped [] rest) :
    ¬ ['"', '"'].isPrefixOf rest := by
  intro hprefix
  obtain ⟨rest, rfl⟩ := List.isPrefixOf_iff_prefix.1 hprefix
  exact absurd ((quotesEscaped_cons.1 h).1 rfl) (by decide)

namespace LeftOpen

variable {form : Form} {text : List Char}

/-- A text selects the form that it leaves open. -/
lemma select_eq {c : Char} {rest : List Char} (h : LeftOpen form (c :: rest)) :
    Form.select c rest = form := by
  cases h with
  | docstring => rfl
  | string h =>
      rw [Form.select, if_neg (by decide), if_pos rfl, if_neg h.not_docstring]
  | blockComment => rfl

/-- What is left open takes up all that is left. -/
lemma spelled (h : LeftOpen form text) : Spelled text [] ⟨.illegal, String.ofList text⟩ := by
  cases h with
  | docstring h => exact .unclosedDocstring ((Text.splitAtMark_eq_none_iff (by simp)).2 h)
  | string h => exact .unclosedString (Text.closeString_eq_none_iff.2 h) h.not_docstring
  | blockComment h => exact .unclosedComment ((Text.splitAtMark_eq_none_iff (by simp)).2 h)

end LeftOpen

namespace Spelled

variable {text behind : List Char} {l : Lexeme}

/-- Only what is cut from a text is spelled at its front. -/
lemma eq_first {c : Char} {rest : List Char} (h : Spelled text behind l)
    (htext : text ++ behind = c :: rest) :
    text = (Cut.first c rest).text ∧ l = (Cut.first c rest).lexeme := by
  cases text with
  | nil => cases h
  | cons d x =>
      obtain ⟨rfl, rfl⟩ := List.cons.inj htext
      exact ⟨h.text_first.symm, h.first.1.symm⟩

/-- **Two shapes.**  What is illegal is a character by itself that selects no form, or leaves a form open. -/
lemma of_illegal (h : Spelled text behind l) (hl : l.kind = .illegal) :
    (∃ c, text = [c] ∧ l = ⟨.illegal, String.singleton c⟩ ∧ Form.select c behind = .stray)
      ∨ behind = [] ∧ l = ⟨.illegal, String.ofList text⟩ ∧ ∃ form, LeftOpen form text := by
  cases h with
  | single hkind =>
      subst hl
      rcases Kind.of_ofDelimiter? hkind with h | ⟨_, h⟩ <;> cases h
  | word => rcases Kind.ofWord_cases _ with h | ⟨_, h⟩ | ⟨_, h⟩ <;> cases h.symm.trans hl
  | @illegal c _ hdelimiter hquote hslash hdigit halpha =>
      refine Or.inl ⟨c, rfl, rfl, ?_⟩
      rw [Form.select, hdelimiter, if_neg (by simp), if_neg hquote, if_neg fun h => (hslash h.1).1 h.2,
        if_neg fun h => (hslash h.1).2 h.2, if_neg hdigit, if_neg halpha]
  | unclosedDocstring h =>
      exact Or.inr ⟨rfl, rfl, _, .docstring ((Text.splitAtMark_eq_none_iff (by simp)).1 h)⟩
  | unclosedString h => exact Or.inr ⟨rfl, rfl, _, .string (Text.closeString_eq_none_iff.1 h)⟩
  | unclosedComment h =>
      exact Or.inr ⟨rfl, rfl, _, .blockComment ((Text.splitAtMark_eq_none_iff (by simp)).1 h)⟩
  | _ => cases hl

end Spelled

/-! ## How illegal lexemes are described -/

namespace Form

/-- What is said of illegal text that was read as a form; the text is given as it is shown. -/
def complaint (shown : String) : Form → Option String
  | docstring => some "unterminated docstring"
  | string => some "unterminated string literal"
  | blockComment => some "unterminated block comment"
  | stray => some ("illegal character " ++ shown)
  | _ => none

lemma head_complaint {shown d : String} {f : Form} (h : f.complaint shown = some d) :
    d.toList.head? = some (if f = .stray then 'i' else 'u') := by
  cases f <;> cases h <;> simp

/-- What is said tells the form. -/
lemma complaint_inj {shown d : String} {f g : Form} (hf : f.complaint shown = some d)
    (hg : g.complaint shown = some d) : f = g := by
  have hhead := (head_complaint hf).symm.trans (head_complaint hg)
  have heq : f.complaint shown = g.complaint shown := hf.trans hg.symm
  have hsome : (f.complaint shown).isSome := by rw [hf, Option.isSome_some]
  clear hf hg
  cases f <;> cases g <;> simp_all [complaint]

end Form

namespace Lexeme

/-- The literal of a lexeme as it is shown in a description. -/
def shown (l : Lexeme) : String := Kind.ticked (String.ofList (Text.shown l.literal.toList))

variable {l : Lexeme}

lemma head_describe (hl : l.kind ≠ .illegal) :
    l.describe.toList.head? ≠ some 'i' ∧ l.describe.toList.head? ≠ some 'u' := by
  obtain ⟨kind, literal⟩ := l
  cases kind <;> simp_all [describe, Kind.describe, Kind.ticked]

/-- What is legal is described in other words. -/
lemma complaint_ne_describe (hl : l.kind ≠ .illegal) (form : Form) (shown : String) :
    form.complaint shown ≠ some l.describe := by
  intro h
  have hhead := Form.head_complaint h
  split at hhead
  · exact (head_describe hl).1 hhead
  · exact (head_describe hl).2 hhead

lemma complaint_stray {c : Char} (hc : c ≠ '"') (hl : l = ⟨.illegal, String.singleton c⟩) :
    Form.stray.complaint l.shown = some l.describe := by
  subst hl
  simp [Form.complaint, describe, shown, Ne.symm hc]

lemma complaint_leftOpen {form : Form} {text : List Char} (h : LeftOpen form text)
    (hl : l = ⟨.illegal, String.ofList text⟩) (shown : String) :
    form.complaint shown = some l.describe := by
  subst hl
  cases h with
  | docstring => simp [Form.complaint, describe]
  | string h =>
      have hmark := h.not_docstring
      rw [List.isPrefixOf_iff_prefix] at hmark
      simp [Form.complaint, describe, hmark]
  | blockComment => simp [Form.complaint, describe]

end Lexeme

/-! ## Where illegal tokens stand -/

namespace Source

/-- The text of a source from where a token starts. -/
def textFrom (source : Source) (t : Token) : List Char :=
  Text.dropBytes source.chars t.span.start.offset

/-- The form that a token was read as: the one that the text selects where the token starts. -/
def form? (source : Source) (t : Token) : Option Form :=
  match source.textFrom t with
  | [] => none
  | c :: rest => some (.select c rest)

/-- A token is a single character, and at its place no other token starts. -/
structure IsStray (source : Source) (t : Token) : Prop where
  single : ∃ c rest, source.textFrom t = c :: rest ∧ t.span.chars = [c]
    ∧ t.literal = String.singleton c
  point : t.span.stop = t.span.start
  form : source.form? t = some .stray
  alone : ∀ text behind l, text ++ behind = source.textFrom t → Spelled text behind l →
    text = t.span.chars ∧ l = t.toLexeme

variable {source : Source} {before after : List Token} {t : Token}

/-- **What a token is cut from.**  A token is the end of the file where nothing is left, or it is cut from
the text that starts at its place; and if that leaves nothing, the end of the file is next. -/
lemma token_cases (h : source.tokens = before ++ t :: after) :
    (t.kind = .endOfFile ∧ source.textFrom t = [])
      ∨ ∃ front c rest, source.textFrom t = c :: rest ∧ t.toLexeme = (Cut.first c rest).lexeme
        ∧ t.StandsAt source front (Cut.first c rest).text (Cut.first c rest).rest
        ∧ ((Cut.first c rest).rest = [] → ∃ stop, after = [stop] ∧ stop.kind = .endOfFile) := by
  obtain ⟨s, hpasses, hdrain⟩ := Scanner.Passes.exists_of_drain h (List.cons_ne_nil t after)
  obtain ⟨front, hstands⟩ := hpasses.stands (Scanner.stands_ofSource source)
  have hsource : s.source = source := by
    obtain ⟨text, -, hpast⟩ := hpasses.exists_text
    rw [hpast]
    rfl
  have hnext : s.next.1 = t := by
    have hhead := s.head_drain
    rw [hdrain] at hhead
    exact (Option.some.inj hhead).symm
  obtain ⟨hchars, hposition⟩ := hstands.skipGap
  rw [show s.skipGap.source = source from hsource] at hchars
  subst hnext
  rw [textFrom, s.span_next.2, hposition, Position.offset_origin_after]
  cases hrest : s.rest.dropWhile isGap with
  | nil =>
      rw [show s.skipGap.rest = [] from hrest, List.append_nil] at hchars
      refine Or.inl ⟨congrArg Lexeme.kind (Scanner.next_of_gap hrest), ?_⟩
      have hdrop := Text.dropBytes_append (front ++ s.rest.takeWhile isGap) []
      rw [List.append_nil] at hdrop
      rw [hchars, hdrop]
  | cons c rest =>
      obtain ⟨hlexeme, hbehind⟩ := Scanner.next_of_cut hrest
      rw [show s.skipGap.rest = c :: rest from hrest] at hchars
      refine Or.inr ⟨front ++ s.rest.takeWhile isGap, c, rest, ?_, hlexeme, ?_, fun hnil => ?_⟩
      · rw [hchars, Text.dropBytes_append]
      · refine ⟨?_, ?_, fun hnil => absurd hnil (Cut.first c rest).text_ne_nil⟩
        · rw [(Cut.first c rest).text_append_rest, hchars]
        · rw [Scanner.next, show s.skipGap.rest = c :: rest from hrest]
          show Span.mk s.source s.skipGap.position (s.skipGap.position.after _) = _
          rw [hsource, hposition, Position.after_append _ (front ++ _)]
      · have hend : s.next.2.next.1.kind = .endOfFile := by
          rw [Scanner.next_of_rest_nil (hbehind.trans hnil)]
        have hne : s.next.1.kind ≠ .endOfFile := by
          rw [show s.next.1.kind = _ from congrArg Lexeme.kind hlexeme]
          exact Cut.kind_first_ne_end c rest
        rw [Scanner.drain_of_token hne, Scanner.drain_of_end hend] at hdrain
        exact ⟨_, (List.cons.inj hdrain).2.symm, hend⟩

/-- What is left open is the last token, and takes up all that is left. -/
lemma leftOpen_cases {form : Form} (h : source.tokens = before ++ t :: after)
    (hopen : LeftOpen form (source.textFrom t)) :
    (∃ stop, after = [stop] ∧ stop.kind = .endOfFile)
      ∧ t.toLexeme = ⟨.illegal, String.ofList (source.textFrom t)⟩ ∧ source.form? t = some form
      ∧ ∃ front, t.StandsAt source front (source.textFrom t) [] := by
  rcases token_cases h with ⟨-, hnone⟩ | ⟨front, c, rest, htext, hlexeme, hstands, hlast⟩
  · rw [hnone] at hopen
    cases hopen
  · rw [form?, htext]
    rw [htext] at hopen
    obtain ⟨hcut, hrest⟩ := hopen.spelled.first
    have hall := hopen.spelled.text_first
    rw [List.append_nil] at hcut hrest hall
    rw [hall, hrest] at hstands
    exact ⟨hlast hrest, hlexeme.trans hcut, congrArg some hopen.select_eq, front, hstands⟩

/-- Only one token leaves something open. -/
lemma not_leftOpen_before {form form' : Form} {u : Token} (h : source.tokens = before ++ t :: after)
    (hopen : LeftOpen form (source.textFrom t)) (hu : u ∈ before) :
    ¬ LeftOpen form' (source.textFrom u) := by
  intro hopen'
  obtain ⟨⟨stop, hlast, -⟩, -⟩ := leftOpen_cases h hopen
  obtain ⟨front, back, rfl⟩ := List.append_of_mem hu
  rw [List.append_assoc, List.cons_append] at h
  obtain ⟨⟨stop', hlast', -⟩, -⟩ := leftOpen_cases h hopen'
  -- behind each of the two there is but one token
  have hlength := congrArg List.length hlast'
  rw [hlast] at hlength
  simp at hlength

lemma IsStray.kind_eq (h : source.IsStray t) (ht : t ∈ source.tokens) : t.kind = .illegal := by
  obtain ⟨before, after, htokens⟩ := List.append_of_mem ht
  have hform := h.form
  rcases token_cases htokens with ⟨-, hnone⟩ | ⟨front, c, rest, htext, hlexeme, -⟩
  · rw [form?, hnone] at hform
    cases hform
  · rw [form?, htext] at hform
    have hselect : Form.select c rest = .stray := Option.some.inj hform
    rw [← Form.cut_select, hselect] at hlexeme
    exact congrArg Lexeme.kind hlexeme

/-- **The shape of an illegal token.** -/
lemma illegal_cases (h : source.tokens = before ++ t :: after) (hkind : t.kind = .illegal) :
    source.IsStray t ∨ ∃ form, LeftOpen form (source.textFrom t) := by
  rcases token_cases h with ⟨hend, -⟩ | ⟨front, c, rest, htext, hlexeme, hstands, -⟩
  · cases hend.symm.trans hkind
  · have hspelled := Cut.spelled_first c rest
    have happend := (Cut.first c rest).text_append_rest
    rw [← hlexeme] at hspelled
    rcases hspelled.of_illegal hkind with ⟨d, hd, hl, hselect⟩ | ⟨hrest, -, form, hopen⟩
    · rw [hd] at hstands happend
      obtain ⟨rfl, hrest⟩ : d = c ∧ (Cut.first c rest).rest = rest := List.cons.inj happend
      refine Or.inl ⟨⟨d, rest, htext, hstands.covers.text, congrArg Lexeme.literal hl⟩, ?_, ?_, ?_⟩
      · rw [hstands.span, List.dropLast_singleton, List.append_nil]
      · rw [hrest] at hselect
        rw [form?, htext]
        exact congrArg some hselect
      · intro text behind l happend' hspelled'
        rw [htext] at happend'
        rw [hstands.covers.text, ← hd, hlexeme]
        exact hspelled'.eq_first happend'
    · right
      rw [hrest, List.append_nil] at happend
      exact ⟨form, by rwa [htext, ← happend]⟩

/-- A description says what is said of a form exactly where an illegal token was read as that form. -/
lemma describe_eq_iff {form : Form} {d : String} (ht : t ∈ source.tokens)
    (hform : form.complaint t.shown = some d) :
    t.describe = d ↔ t.kind = .illegal ∧ source.form? t = some form := by
  obtain ⟨before, after, htokens⟩ := List.append_of_mem ht
  by_cases hkind : t.kind = .illegal
  · obtain ⟨form', hread, hcomplaint⟩ :
        ∃ form', source.form? t = some form' ∧ form'.complaint t.shown = some t.describe := by
      rcases illegal_cases htokens hkind with hstray | ⟨form', hopen⟩
      · obtain ⟨c, rest, htext, -, hliteral⟩ := hstray.single
        have hlexeme : t.toLexeme = ⟨.illegal, String.singleton c⟩ := by rw [← hkind, ← hliteral]
        refine ⟨.stray, hstray.form, Lexeme.complaint_stray ?_ hlexeme⟩
        rintro rfl
        have hform := hstray.form
        rw [form?, htext] at hform
        exact Form.select_quote_ne_stray rest (Option.some.inj hform)
      · obtain ⟨-, hlexeme, hread, -⟩ := leftOpen_cases htokens hopen
        exact ⟨form', hread, Lexeme.complaint_leftOpen hopen hlexeme _⟩
    rw [hread, Option.some.injEq, and_iff_right hkind]
    constructor
    · rintro rfl
      exact Form.complaint_inj hcomplaint hform
    · rintro rfl
      exact Option.some.inj (hcomplaint.symm.trans hform)
  · refine iff_of_false ?_ fun h => hkind h.1
    rintro rfl
    exact Lexeme.complaint_ne_describe hkind form _ hform

/-- **Illegal tokens.**  Every token but the last is what its form cuts from the text where it starts.  It is
illegal exactly if it is a single character where no other token starts, or leaves a docstring, a string or
a block comment open, and never both.  What leaves one open is the last token before the end of the file and
the only one that does; its text and its literal are all that is left of the source, and it stops at the
last character.  And a token is described as a docstring, string or comment without an end exactly if it is
illegal and was read as one, and as an illegal character exactly if it was read as no form at all. -/
theorem illegal_tokens (source : Source) :
    (∀ t ∈ source.tokens, t.kind ≠ .endOfFile → ∃ c rest, source.textFrom t = c :: rest
      ∧ t.toLexeme = ((Form.select c rest).cut c rest).lexeme
      ∧ t.span.chars = ((Form.select c rest).cut c rest).text)
    ∧ (∀ t ∈ source.tokens,
      (t.kind = .illegal ↔ source.IsStray t ∨ ∃ form, LeftOpen form (source.textFrom t))
        ∧ ¬ (source.IsStray t ∧ ∃ form, LeftOpen form (source.textFrom t)))
    ∧ (∀ before t after form, source.tokens = before ++ t :: after →
      LeftOpen form (source.textFrom t) →
        (∃ stop, after = [stop] ∧ stop.kind = .endOfFile)
        ∧ (∀ u ∈ before, ∀ form', ¬ LeftOpen form' (source.textFrom u))
        ∧ source.form? t = some form
        ∧ t.span.chars = source.textFrom t ∧ t.literal.toList = source.textFrom t
        ∧ t.span.stop = .after .origin source.chars.dropLast)
    ∧ ∀ t ∈ source.tokens,
      (t.describe = "unterminated docstring"
        ↔ t.kind = .illegal ∧ source.form? t = some .docstring)
      ∧ (t.describe = "unterminated string literal"
        ↔ t.kind = .illegal ∧ source.form? t = some .string)
      ∧ (t.describe = "unterminated block comment"
        ↔ t.kind = .illegal ∧ source.form? t = some .blockComment)
      ∧ (t.describe = "illegal character " ++ t.shown
        ↔ t.kind = .illegal ∧ source.form? t = some .stray) := by
  refine ⟨fun t ht hne => ?_, fun t ht => ⟨⟨fun hkind => ?_, ?_⟩, ?_⟩,
    fun before t after form h hopen => ?_, fun t ht => ?_⟩
  · obtain ⟨before, after, htokens⟩ := List.append_of_mem ht
    rcases token_cases htokens with ⟨hend, -⟩ | ⟨front, c, rest, htext, hlexeme, hstands, -⟩
    · exact absurd hend hne
    · refine ⟨c, rest, htext, ?_, ?_⟩
      · rw [Form.cut_select, hlexeme]
      · rw [Form.cut_select, hstands.covers.text]
  · obtain ⟨before, after, htokens⟩ := List.append_of_mem ht
    exact illegal_cases htokens hkind
  · rintro (hstray | ⟨form, hopen⟩)
    · exact hstray.kind_eq ht
    · obtain ⟨before, after, htokens⟩ := List.append_of_mem ht
      exact congrArg Lexeme.kind (leftOpen_cases htokens hopen).2.1
  · rintro ⟨hstray, form, hopen⟩
    obtain ⟨before, after, htokens⟩ := List.append_of_mem ht
    obtain ⟨-, -, hread, -⟩ := leftOpen_cases htokens hopen
    obtain rfl : Form.stray = form := Option.some.inj (hstray.form.symm.trans hread)
    cases hopen
  · obtain ⟨hlast, hlexeme, hread, front, hstands⟩ := leftOpen_cases h hopen
    have hne : source.textFrom t ≠ [] := by
      intro hnil
      rw [hnil] at hopen
      cases hopen
    refine ⟨hlast, fun u hu form' => not_leftOpen_before h hopen hu, hread, hstands.covers.text, ?_, ?_⟩
    · rw [show t.literal = _ from congrArg Lexeme.literal hlexeme, String.toList_ofList]
    · have hchars := hstands.chars
      rw [List.append_nil] at hchars
      rw [hstands.span, hchars, List.dropLast_append_of_ne_nil hne]
  · exact ⟨describe_eq_iff ht rfl, describe_eq_iff ht rfl, describe_eq_iff ht rfl,
      describe_eq_iff ht rfl⟩

end Source

/-- A number with a point behind it, and a string whose only other quote is escaped. -/
def brokenFile : Source := ⟨"main.rpcdl", "1. \"a\\\""⟩

/-- The point is a character by itself, and the string is left open. -/
theorem brokenFile_illegal :
    brokenFile.tokens.map (·.literal) = ["1", ".", "\"a\\\"", ""]
      ∧ brokenFile.IsStray (brokenFile.tokens.getD 1 default)
      ∧ (brokenFile.tokens.getD 1 default).describe = "illegal character `.`"
      ∧ LeftOpen .string (brokenFile.textFrom (brokenFile.tokens.getD 2 default))
      ∧ (brokenFile.tokens.getD 2 default).describe = "unterminated string literal" := by
  obtain ⟨-, hshapes, -, hdescribe⟩ := Source.illegal_tokens brokenFile
  have hpoint : brokenFile.tokens.getD 1 default ∈ brokenFile.tokens := by decide +kernel
  have hstring : brokenFile.tokens.getD 2 default ∈ brokenFile.tokens := by decide +kernel
  refine ⟨by decide +kernel, ?_, ?_, ?_, ?_⟩
  · refine ((hshapes _ hpoint).1.1 (by decide +kernel)).resolve_right ?_
    rintro ⟨form, hopen⟩
    rw [show brokenFile.textFrom _ = ". \"a\\\"".toList by decide +kernel] at hopen
    cases hopen
  · exact ((hdescribe _ hpoint).2.2.2.2 ⟨by decide +kernel, by decide +kernel⟩).trans
      (by decide +kernel)
  · rw [show brokenFile.textFrom _ = "\"a\\\"".toList by decide +kernel]
    exact .string (Text.closeString_eq_none_iff.1 (by decide +kernel))
  · exact (hdescribe _ hstring).2.1.2 ⟨by decide +kernel, by decide +kernel⟩

end RpcSchema
