import RpcSchema.Proofs.Token.Lossless
import RpcSchema.Proofs.Token.Spelling

/-!
# Layout between tokens

The lexemes of a text depend on the text alone: `lexemes` reads them off without positions, and they
are those of the tokens of a source (`Source.map_tokens`).

**Reading on.**  `Reads text ls behind` is that a text, in front of another, is read as the lexemes
`ls`.  What is read in front does not depend on blanks and line feeds that are put in behind
(`Reads.lexemes_layout`).  The induction is along the tokens of the text; each of them is in the
same surroundings as before but for the last, and that one is kept apart from what follows it
(`Spelled.apart`).  A comment to the end of its line is the exception: it takes up blanks that are
put behind it, but they are not part of its literal (`Spelled.padded`).
-/

namespace RpcSchema

/-! ## The lexemes of a text -/

/-- The lexemes of a text, up to its end. -/
def lexemes (cs : List Char) : List Lexeme :=
  match _h : cs.dropWhile isGap with
  | [] => []
  | c :: rest => (Cut.first c rest).lexeme :: lexemes (Cut.first c rest).rest
termination_by cs.length
decreasing_by
  have hless := (Cut.first c rest).length_rest_lt
  have hle := (List.dropWhile_suffix (l := cs) isGap).length_le
  rw [_h] at hle
  omega

/-- The lexeme of a line feed. -/
def Lexeme.lineFeed : Lexeme := ⟨.newline, "\n"⟩

/-- The lexeme at the end of a text. -/
def Lexeme.stop : Lexeme := ⟨.endOfFile, ""⟩

variable {c : Char} {gap text front behind behind' x : List Char} {l : Lexeme} {ls : List Lexeme}

lemma lexemes_of_gap {cs : List Char} (h : cs.dropWhile isGap = []) : lexemes cs = [] := by
  rw [lexemes, h]

lemma lexemes_of_cut {cs rest : List Char} (h : cs.dropWhile isGap = c :: rest) :
    lexemes cs = (Cut.first c rest).lexeme :: lexemes (Cut.first c rest).rest := by
  rw [lexemes, h]

lemma lexemes_gap (hgap : ∀ c ∈ gap, isGap c) : lexemes (gap ++ behind) = lexemes behind := by
  rw [lexemes, lexemes, List.dropWhile_append_of_pos hgap]

lemma lexemes_cons {rest : List Char} (hc : ¬ isGap c) : lexemes (c :: rest)
    = (Cut.first c rest).lexeme :: lexemes (Cut.first c rest).rest :=
  lexemes_of_cut (List.dropWhile_cons_of_neg hc)

lemma lexemes_spelled (h : Spelled (c :: x) behind l) (hc : ¬ isGap c) :
    lexemes (c :: x ++ behind) = l :: lexemes behind := by
  rw [List.cons_append, lexemes_cons hc, h.first.1, h.first.2]

lemma lexemes_lineFeed : lexemes ('\n' :: behind) = .lineFeed :: lexemes behind := by
  have hspelled : Spelled ['\n'] behind .lineFeed := .single (by decide)
  exact lexemes_spelled hspelled (by decide)

/-- Blanks and line feeds are read as the line feeds. -/
lemma lexemes_layout {layout : List Char} (h : ∀ c ∈ layout, IsApart c) :
    lexemes (layout ++ behind)
      = List.replicate (layout.count '\n') .lineFeed ++ lexemes behind := by
  induction layout with
  | nil => rfl
  | cons c cs ih =>
      have ih := ih fun d hd => h d (List.mem_cons_of_mem c hd)
      rcases h c List.mem_cons_self with hgap | rfl
      · have hne : c ≠ '\n' := by rintro rfl; revert hgap; decide
        rw [List.count_cons_of_ne hne, ← ih]
        have hall : ∀ d ∈ [c], isGap d := by simpa using hgap
        exact lexemes_gap hall
      · rw [List.cons_append, lexemes_lineFeed, ih, List.count_cons_self, List.replicate_succ,
          List.cons_append]

namespace Scanner

variable {s : Scanner}

lemma next_of_gap (h : s.rest.dropWhile isGap = []) : s.next.1.toLexeme = .stop := by
  have hrest : s.skipGap.rest = [] := h
  rw [next, hrest]
  rfl

lemma next_of_cut {rest : List Char} (h : s.rest.dropWhile isGap = c :: rest) :
    s.next.1.toLexeme = (Cut.first c rest).lexeme ∧ s.next.2.rest = (Cut.first c rest).rest := by
  have hrest : s.skipGap.rest = c :: rest := h
  rw [next, hrest]
  exact ⟨rfl, rfl⟩

/-- The tokens of a scanner say what the text in front of it says, and that it ends. -/
lemma map_drain (s : Scanner) : s.drain.1.map Token.toLexeme = lexemes s.rest ++ [.stop] := by
  cases hrest : s.rest.dropWhile isGap with
  | nil =>
      have hlexeme := next_of_gap hrest
      have hend : s.next.1.kind = .endOfFile := by rw [hlexeme]; rfl
      rw [drain_of_end hend, lexemes_of_gap hrest, List.map_singleton, hlexeme]
      rfl
  | cons c rest =>
      obtain ⟨hlexeme, hbehind⟩ := next_of_cut hrest
      have hne : s.next.1.kind ≠ .endOfFile := by
        rw [hlexeme]
        exact Cut.kind_first_ne_end c rest
      have hless := length_rest_next hne
      rw [drain_of_token hne, List.map_cons, map_drain, lexemes_of_cut hrest, hlexeme, hbehind]
      rfl
termination_by s.rest.length

end Scanner

/-- The tokens of a source say what its text says. -/
lemma Source.map_tokens (source : Source) :
    source.tokens.map Token.toLexeme = lexemes source.chars ++ [.stop] :=
  Scanner.map_drain (.ofSource source)

/-! ## Comments to the end of their lines -/

lemma isBlank_of_isGap (h : isGap c) : Text.isBlank c := by
  simp only [isGap, Bool.or_eq_true, decide_eq_true_eq] at h
  rcases h with (rfl | rfl) | rfl <;> decide

/-- Blanks at the end are trimmed. -/
lemma Text.trim_append_blanks {cs blanks : List Char} (h : ∀ c ∈ blanks, isBlank c) :
    trim (cs ++ blanks) = trim cs := by
  have hback : ∀ c ∈ blanks.reverse, isBlank c := by simpa using h
  rw [trim, trim, trimLeft, trimLeft, List.dropWhile_append]
  split
  · next hnil =>
      rw [List.isEmpty_iff] at hnil
      rw [hnil, List.dropWhile_eq_nil_iff.2 h]
  · rw [trimRight, trimRight, List.reverse_append, List.dropWhile_append_of_pos hback]

/-- The kinds of punctuation marks and line feeds. -/
lemma Kind.of_ofDelimiter? {kind : Kind} (h : Kind.ofDelimiter? c = some kind) :
    kind = .newline ∨ ∃ d, kind = .delimiter d := by
  rw [Kind.ofDelimiter?] at h
  split at h
  · exact Or.inl (Option.some.inj h).symm
  · obtain ⟨d, -, rfl⟩ := Option.map_eq_some_iff.1 h
    exact Or.inr ⟨d, rfl⟩

/-- The kinds of words. -/
lemma Kind.ofWord_cases (w : String) : Kind.ofWord w = .identifier
    ∨ (∃ b, Kind.ofWord w = .boolean b) ∨ ∃ k, Kind.ofWord w = .keyword k := by
  rw [Kind.ofWord, Kind.ofWord?]
  split_ifs
  · exact Or.inr (Or.inl ⟨true, rfl⟩)
  · exact Or.inr (Or.inl ⟨false, rfl⟩)
  · cases Keyword.all.find? (·.word = w) with
    | none => exact Or.inl rfl
    | some k => exact Or.inr (Or.inr ⟨k, rfl⟩)

/-- A comment to the end of its line is spelled in one way only. -/
lemma Spelled.of_lineComment (h : Spelled text behind l) (hl : l.kind = .lineComment) :
    ∃ body, text = '/' :: '/' :: body ∧ l = ⟨.lineComment, String.ofList (Text.trim body)⟩
      ∧ (∀ d ∈ body, d ≠ '\n') ∧ ∀ d ∈ behind.head?, d = '\n' := by
  cases h with
  | single hkind =>
      subst hl
      rcases Kind.of_ofDelimiter? hkind with h | ⟨_, h⟩ <;> cases h
  | lineComment hbody hline => exact ⟨_, rfl, rfl, hbody, hline⟩
  | word =>
      rcases Kind.ofWord_cases _ with h | ⟨_, h⟩ | ⟨_, h⟩ <;> cases h.symm.trans hl
  | _ => cases hl

/-! ## Other texts behind tokens -/

/-- Whether a text may take the place of another behind legal tokens: there is nothing in it, or it
begins with a line feed, or with a separating character as the other does. -/
def MayFollow (behind behind' : List Char) : Prop :=
  ∀ c ∈ behind'.head?, c = '\n' ∨ isGap c ∧ c ∈ behind.head?

lemma mayFollow_nil (behind : List Char) : MayFollow behind [] := nofun

lemma mayFollow_lineFeed (behind rest : List Char) : MayFollow behind ('\n' :: rest) := by
  intro c hc
  exact Or.inl (Option.some.inj hc).symm

/-- A gap may be followed by a line feed where nothing stood behind it. -/
lemma mayFollow_gap (hgap : ∀ c ∈ gap, isGap c) (rest : List Char) :
    MayFollow gap (gap ++ '\n' :: rest) := by
  cases gap with
  | nil => exact mayFollow_lineFeed [] rest
  | cons d ds =>
      intro c hc
      obtain rfl : d = c := Option.some.inj hc
      exact Or.inr ⟨hgap d List.mem_cons_self, rfl⟩

/-- A legal token is spelled also in front of a text that may follow. -/
lemma Spelled.followed (h : Spelled text (front ++ behind) l) (hlegal : l.kind ≠ .illegal)
    (hfollow : MayFollow behind behind') : Spelled text (front ++ behind') l := by
  refine h.apart (fun _ hopen => hlegal hopen.1) (fun c hc => ?_) fun hl c hc => ?_
  · exact (hfollow c hc).elim Or.inr fun hgap => Or.inl hgap.1
  · obtain ⟨-, -, -, -, hline⟩ := h.of_lineComment hl
    cases front with
    | nil => exact (hfollow c hc).elim id fun hgap => hline c hgap.2
    | cons d ds => exact hline c hc

/-! ## Reading on -/

/-- A text is read as some lexemes, in front of another text. -/
inductive Reads : List Char → List Lexeme → List Char → Prop where
  | nil {behind : List Char} : Reads [] [] behind
  | cons {c : Char} {gap x text behind : List Char} {l : Lexeme} {ls : List Lexeme} :
      (∀ c ∈ gap, isGap c) → ¬ isGap c → Spelled (c :: x) (text ++ behind) l →
      Reads text ls behind → Reads (gap ++ (c :: x ++ text)) (l :: ls) behind

lemma Reads.eq_nil (h : Reads [] ls behind) : ls = [] := by
  generalize hnil : [] = text at h
  cases h with
  | nil => rfl
  | cons => simp at hnil

lemma Reads.lexemes (h : Reads text ls behind) :
    lexemes (text ++ behind) = ls ++ RpcSchema.lexemes behind := by
  induction h with
  | nil => rfl
  | cons hgap hc hspelled _ ih =>
      rw [List.append_assoc, lexemes_gap hgap, List.append_assoc, lexemes_spelled hspelled hc, ih,
        List.cons_append]

/-- Blanks that are put behind a comment to the end of its line are taken up, and not part of its
literal. -/
lemma Spelled.padded (h : Spelled text behind l) (hl : l.kind = .lineComment)
    (hgap : ∀ c ∈ gap, isGap c) (hline : ∀ c ∈ behind'.head?, c = '\n') :
    Spelled (text ++ gap) behind' l := by
  obtain ⟨body, rfl, rfl, hbody, -⟩ := h.of_lineComment hl
  have htrim : Text.trim (body ++ gap) = Text.trim body :=
    Text.trim_append_blanks fun c hc => isBlank_of_isGap (hgap c hc)
  rw [← htrim, List.cons_append, List.cons_append]
  refine .lineComment (fun d hd => ?_) hline
  rcases List.mem_append.1 hd with hd | hd
  · exact hbody d hd
  · rintro rfl
    exact absurd (hgap _ hd) (by decide)

lemma forall_append {p : Char → Prop} {cs ds : List Char} (hcs : ∀ c ∈ cs, p c)
    (hds : ∀ c ∈ ds, p c) : ∀ c ∈ cs ++ ds, p c := by
  intro c hc
  exact (List.mem_append.1 hc).elim (hcs c) (hds c)

/-- What is behind a comment to the end of its line begins with a line feed, also when blanks and line
feeds are put in, but for blanks that come to stand in front of it. -/
lemma layout_at_line_end {layout inserted : List Char} (hlayout : ∀ c ∈ layout, IsApart c)
    (hinserted : ∀ c ∈ inserted, IsApart c) (hline : ∀ c ∈ (layout ++ behind).head?, c = '\n') :
    ∃ blanks rest, layout ++ inserted = blanks ++ rest ∧ (∀ c ∈ blanks, isGap c)
      ∧ ∀ c ∈ (rest ++ behind).head?, c = '\n' := by
  refine ⟨_, _, (List.takeWhile_append_dropWhile (p := isGap)).symm, fun c => List.mem_takeWhile_imp,
    fun c hc => ?_⟩
  cases hdrop : (layout ++ inserted).dropWhile isGap with
  | cons d ds =>
      obtain rfl : d = c := by simpa [hdrop] using hc
      have hmem : d ∈ layout ++ inserted := by
        refine (List.dropWhile_suffix isGap).subset ?_
        rw [hdrop]
        exact List.mem_cons_self
      refine (forall_append hlayout hinserted d hmem).resolve_left ?_
      exact Cut.not_head_dropWhile d (by rw [hdrop]; rfl)
  | nil =>
      rw [hdrop, List.nil_append] at hc
      cases layout with
      | nil => exact hline c hc
      | cons d ds =>
          -- the layout would begin with a line feed, and not be dropped
          obtain rfl : d = '\n' := hline d rfl
          cases hdrop

/-- **Layout behind what was read.**  Blanks and line feeds may be put in behind what was read, among
others that are there, unless what was read last was opened and never closed. -/
lemma Reads.lexemes_layout {layout inserted : List Char} (h : Reads text ls (layout ++ behind))
    (hlayout : ∀ c ∈ layout, IsApart c) (hinserted : ∀ c ∈ inserted, IsApart c)
    (hopen : layout ++ behind = [] → ∀ l ∈ ls.getLast?, ¬ l.IsUnclosed) :
    RpcSchema.lexemes (text ++ (layout ++ inserted ++ behind))
      = ls ++ RpcSchema.lexemes (layout ++ inserted ++ behind) := by
  by_cases hnone : layout ++ inserted = []
  · obtain ⟨rfl, rfl⟩ := List.append_eq_nil_iff.1 hnone
    exact h.lexemes
  generalize hb : layout ++ behind = b at h
  induction h with
  | nil => rfl
  | @cons c gap x text b l ls hgap hc hspelled hreads ih =>
      subst hb
      have hrest : layout ++ behind = [] → ∀ l ∈ ls.getLast?, ¬ l.IsUnclosed := by
        intro hnil l' hl'
        refine hopen hnil l' ?_
        rw [List.getLast?_cons, Option.mem_def.1 hl']
        rfl
      rw [List.append_assoc, lexemes_gap hgap]
      by_cases hlast : l.kind = .lineComment ∧ text = []
      · obtain ⟨hl, rfl⟩ := hlast
        obtain rfl := hreads.eq_nil
        obtain ⟨-, -, -, -, hline⟩ := hspelled.of_lineComment hl
        obtain ⟨blanks, rest, heq, hblanks, hrest⟩ := layout_at_line_end hlayout hinserted hline
        have hpadded : Spelled (c :: (x ++ blanks)) (rest ++ behind) l :=
          hspelled.padded hl hblanks hrest
        rw [heq, List.append_assoc blanks, lexemes_gap hblanks, List.singleton_append,
          ← lexemes_spelled hpadded hc, List.append_nil, List.cons_append, List.cons_append,
          List.append_assoc x]
      · have hapart : Spelled (c :: x) (text ++ (layout ++ inserted ++ behind)) l := by
          refine hspelled.apart (fun hnil => ?_) (fun d hd => ?_) fun hl d hd => ?_
          · obtain ⟨rfl, hnil⟩ := List.append_eq_nil_iff.1 hnil
            obtain rfl := hreads.eq_nil
            exact hopen hnil l rfl
          · obtain ⟨e, es, heq⟩ := List.exists_cons_of_ne_nil hnone
            obtain rfl : e = d := by simpa [heq] using hd
            exact forall_append hlayout hinserted e (heq ▸ List.mem_cons_self)
          · obtain ⟨-, -, -, -, hline⟩ := hspelled.of_lineComment hl
            obtain ⟨e, es, rfl⟩ := List.exists_cons_of_ne_nil fun hnil => hlast ⟨hl, hnil⟩
            exact hline d hd
        rw [List.append_assoc, lexemes_spelled hapart hc, ih hrest rfl, List.cons_append]

/-! ## Where tokens stand -/

/-- A line feed is spelled in one way only. -/
lemma Spelled.of_newline (h : Spelled text behind l) (hl : l.kind = .newline) : text = ['\n'] := by
  cases h with
  | @single c _ kind hkind =>
      subst hl
      rw [Kind.ofDelimiter?] at hkind
      split at hkind
      · next hc => rw [hc]
      · obtain ⟨d, -, hd⟩ := Option.map_eq_some_iff.1 hkind
        cases hd
  | word =>
      rcases Kind.ofWord_cases _ with h | ⟨_, h⟩ | ⟨_, h⟩ <;> cases h.symm.trans hl
  | _ => cases hl

namespace Scanner

variable {s : Scanner} {t u : Token} {ts us feeds : List Token}

/-- The token of a lexeme over a text, where a scanner stands in front of the gap before it. -/
def tokenOver (s : Scanner) (gap text : List Char) (l : Lexeme) : Token :=
  ⟨l, s.source, s.position.after gap, s.position.after (gap ++ text.dropLast)⟩

/-- The scanner behind a text and in front of another. -/
def past (s : Scanner) (text behind : List Char) : Scanner :=
  ⟨s.source, s.position.after text, behind⟩

/-- **What is spelled is the next token.** -/
lemma next_of_spelled (hgap : ∀ c ∈ gap, isGap c) (hc : ¬ isGap c) (h : Spelled (c :: x) behind l)
    (hrest : s.rest = gap ++ (c :: x ++ behind)) :
    s.next = (s.tokenOver gap (c :: x) l, s.past (gap ++ c :: x) behind) := by
  obtain ⟨htake, hdrop⟩ := Cut.takeWhile_run hgap
    (show ∀ d ∈ (c :: (x ++ behind)).head?, ¬ isGap d by simpa using hc)
  obtain ⟨hlexeme, hbehind⟩ := h.first
  have hskip : s.skipGap = ⟨s.source, s.position.after gap, c :: (x ++ behind)⟩ := by
    rw [skipGap, hrest, List.cons_append, htake, hdrop]
  rw [next, hskip]
  simp only [hlexeme, hbehind, h.text_first, tokenOver, past, Position.after_append]

/-- The next token is spelled behind a gap, in front of what is left. -/
lemma next_spelled (hne : s.next.1.kind ≠ .endOfFile) :
    ∃ gap c x, (∀ c ∈ gap, isGap c) ∧ ¬ isGap c ∧ s.rest = gap ++ (c :: x ++ s.next.2.rest)
      ∧ Spelled (c :: x) s.next.2.rest s.next.1.toLexeme := by
  cases hrest : s.rest.dropWhile isGap with
  | nil => exact absurd (congrArg Lexeme.kind (next_of_gap hrest)) hne
  | cons c rest =>
      have hsplit : s.rest = s.rest.takeWhile isGap ++ c :: rest := by
        rw [← hrest, List.takeWhile_append_dropWhile]
      have hcut := (Cut.first c rest).text_append_rest
      have hspelled := Cut.spelled_first c rest
      obtain ⟨d, x, htext⟩ := List.exists_cons_of_ne_nil (Cut.first c rest).text_ne_nil
      obtain ⟨hlexeme, hbehind⟩ := next_of_cut hrest
      rw [htext] at hcut hspelled
      obtain rfl : d = c := (List.cons.inj hcut).1
      refine ⟨s.rest.takeWhile isGap, d, x, fun c => List.mem_takeWhile_imp,
        Cut.not_head_dropWhile d (by rw [hrest]; rfl), ?_, ?_⟩
      · rw [hbehind, hcut, ← hsplit]
      · rwa [hbehind, hlexeme]

/-- A token is spelled behind a gap, in front of what is left. -/
lemma Stands.next_token (h : s.Stands front) (hne : s.next.1.kind ≠ .endOfFile) :
    ∃ gap c x, (∀ c ∈ gap, isGap c) ∧ ¬ isGap c ∧ s.rest = gap ++ (c :: x ++ s.next.2.rest)
      ∧ Spelled (c :: x) s.next.2.rest s.next.1.toLexeme
      ∧ s.next.1.span.range = (Text.utf8Length (front ++ gap),
          Text.utf8Length (front ++ gap ++ c :: x))
      ∧ s.next.2.Stands (front ++ gap ++ c :: x) := by
  obtain ⟨gap, c, x, hgap, hc, hrest, hspelled⟩ := next_spelled hne
  have hchars : s.source.chars = front ++ gap ++ (c :: x ++ s.next.2.rest) := by
    rw [h.1, List.append_assoc]
    exact congrArg _ hrest
  refine ⟨gap, c, x, hgap, hc, hrest, hspelled, ?_, ?_⟩
  · rw [next_of_spelled hgap hc hspelled hrest, tokenOver, h.2, ← Position.after_append,
      ← Position.after_append, ← List.append_assoc]
    exact Tiles.range_token hchars (List.cons_ne_nil c x)
  · rw [next_of_spelled hgap hc hspelled hrest]
    refine ⟨hchars.trans (List.append_assoc (front ++ gap) _ _).symm, ?_⟩
    rw [past, h.2, ← Position.after_append, List.append_assoc]

lemma drain_cons {a : Token} {rest : List Token} (h : s.drain.1 = a :: rest) (hne : rest ≠ []) :
    s.next.1 = a ∧ s.next.1.kind ≠ .endOfFile ∧ s.next.2.drain.1 = rest := by
  by_cases hend : s.next.1.kind = .endOfFile
  · rw [drain_of_end hend] at h
    cases h
    exact absurd rfl hne
  · rw [drain_of_token hend] at h
    obtain ⟨ha, hrest⟩ := List.cons.inj h
    exact ⟨ha, hend, hrest⟩

/-- In front of a token there are blanks, and the line feeds that come before it. -/
lemma Stands.layout (h : s.Stands front) (hdrain : s.drain.1 = feeds ++ u :: us)
    (hfeeds : ∀ f ∈ feeds, f.kind = .newline) :
    ∃ layout behind, s.rest = layout ++ behind ∧ (∀ c ∈ layout, IsApart c)
      ∧ u.span.range.1 = Text.utf8Length (front ++ layout) := by
  induction feeds generalizing s front with
  | nil =>
      obtain ⟨gap, hgap, hnext⟩ := h.next
      have hu : s.next.1 = u := by
        by_cases hend : s.next.1.kind = .endOfFile
        · rw [drain_of_end hend] at hdrain
          exact (List.cons.inj hdrain).1
        · rw [drain_of_token hend] at hdrain
          exact (List.cons.inj hdrain).1
      have hchars := h.1
      subst hu
      rcases hnext with ⟨hstop, htoken, -⟩ | ⟨text, lexeme, htext, -, htoken, hsource, hstands⟩
      · rw [hstop] at hchars
        refine ⟨gap, [], ?_, fun c hc => Or.inl (hgap c hc), ?_⟩
        · rw [List.append_nil, ← List.append_cancel_left hchars]
        · rw [htoken, Tiles.range_stop hstop]
      · have hbehind := hstands.1
        rw [hsource, List.append_assoc] at hbehind
        rw [hbehind, List.append_assoc] at hchars
        refine ⟨gap, _, (List.append_cancel_left hchars).symm, fun c hc => Or.inl (hgap c hc), ?_⟩
        rw [htoken, Tiles.range_token hbehind htext]
  | cons f feeds ih =>
      obtain ⟨rfl, hne, hrest⟩ := drain_cons hdrain (by simp)
      obtain ⟨gap, c, x, hgap, -, hchars, hspelled, -, hstands⟩ := h.next_token hne
      have hfeed := hspelled.of_newline (hfeeds _ List.mem_cons_self)
      obtain ⟨layout, behind, hlayout, hapart, hu⟩ :=
        ih hstands hrest fun f hf => hfeeds f (List.mem_cons_of_mem _ hf)
      refine ⟨gap ++ '\n' :: layout, behind, ?_, ?_, ?_⟩
      · rw [hchars, hfeed, hlayout, List.append_assoc]
        rfl
      · refine forall_append (fun c hc => Or.inl (hgap c hc)) ?_
        exact List.forall_mem_cons.2 ⟨Or.inr rfl, hapart⟩
      · rw [hu, hfeed, List.append_assoc, List.append_assoc]
        rfl

/-- Up to a token the text is read as the tokens up to it, and then comes the layout in front of the
next token that is not a line feed. -/
lemma Stands.reads (h : s.Stands front) (hdrain : s.drain.1 = ts ++ t :: (feeds ++ u :: us))
    (hfeeds : ∀ f ∈ feeds, f.kind = .newline) :
    ∃ text layout behind, s.rest = text ++ (layout ++ behind)
      ∧ Reads text ((ts ++ [t]).map Token.toLexeme) (layout ++ behind)
      ∧ (∀ c ∈ layout, IsApart c) ∧ t.span.range.2 = Text.utf8Length (front ++ text)
      ∧ u.span.range.1 = Text.utf8Length (front ++ text ++ layout) := by
  induction ts generalizing s front with
  | nil =>
      obtain ⟨rfl, hne, hrest⟩ := drain_cons hdrain (by simp)
      obtain ⟨gap, c, x, hgap, hc, hchars, hspelled, hrange, hstands⟩ := h.next_token hne
      obtain ⟨layout, behind, hlayout, hapart, hu⟩ := hstands.layout hrest hfeeds
      rw [hlayout] at hchars hspelled
      refine ⟨gap ++ c :: x, layout, behind, ?_, ?_, hapart, ?_, ?_⟩
      · rw [hchars, List.append_assoc]
      · have hreads : Reads (gap ++ (c :: x ++ [])) [s.next.1.toLexeme] (layout ++ behind) :=
          .cons hgap hc hspelled .nil
        rwa [List.append_nil] at hreads
      · rw [hrange, List.append_assoc]
      · rw [hu, ← List.append_assoc front]
  | cons a ts ih =>
      obtain ⟨rfl, hne, hrest⟩ := drain_cons hdrain (by simp)
      obtain ⟨gap, c, x, hgap, hc, hchars, hspelled, hrange, hstands⟩ := h.next_token hne
      obtain ⟨text, layout, behind, htext, hreads, hapart, ht, hu⟩ := ih hstands hrest
      rw [htext] at hchars hspelled
      refine ⟨gap ++ (c :: x ++ text), layout, behind, ?_, .cons hgap hc hspelled hreads, hapart, ?_, ?_⟩
      · rw [hchars, List.append_assoc, List.append_assoc (c :: x)]
      · rw [ht]
        simp only [List.append_assoc]
      · rw [hu]
        simp only [List.append_assoc]

end Scanner

/-! ## Layout in a source -/

/-- Of two ways to cut a text, the one behind cuts the rest of the other. -/
lemma Text.append_eq_append_of_le {cs ds back : List Char} (h : cs ++ ds = front ++ back)
    (hle : utf8Length cs ≤ utf8Length front) : ∃ mid, front = cs ++ mid ∧ ds = mid ++ back := by
  rcases List.append_eq_append_iff.1 h with hcut | ⟨mid, rfl, rfl⟩
  · exact hcut
  · have hmid : mid = [] := by
      by_contra hne
      have hpos := utf8Length_pos hne
      rw [utf8Length_append] at hle
      omega
    subst hmid
    exact ⟨[], by simp, by simp⟩

/-- **Layout put into a source.**  Where blanks and line feeds are put in between two tokens with
nothing but line feeds between them, and the first of the two is not left open, the same is read
with that many line feeds more. -/
lemma Source.lexemes_layout {source : Source} {t u : Token} {ts us feeds : List Token}
    {back inserted : List Char} (htokens : source.tokens = ts ++ t :: (feeds ++ u :: us))
    (hfeeds : ∀ f ∈ feeds, f.kind = .newline) (hchars : source.chars = front ++ back)
    (hafter : t.span.range.2 ≤ Text.utf8Length front)
    (hbefore : Text.utf8Length front ≤ u.span.range.1) (hinserted : ∀ c ∈ inserted, IsApart c)
    (hopen : u.kind = .endOfFile → ¬ t.IsUnclosed) :
    ∃ n ls, source.tokens.map Token.toLexeme
        = (ts ++ [t]).map Token.toLexeme ++ (List.replicate n .lineFeed ++ ls)
      ∧ lexemes (front ++ inserted ++ back) ++ [.stop] = (ts ++ [t]).map Token.toLexeme
        ++ (List.replicate (n + inserted.count '\n') .lineFeed ++ ls) := by
  obtain ⟨text, layout, behind, hsplit, hreads, hapart, ht, hu⟩ :=
    (Scanner.stands_ofSource source).reads htokens hfeeds
  replace hsplit : source.chars = text ++ (layout ++ behind) := hsplit
  rw [List.nil_append] at ht hu
  rw [ht] at hafter
  rw [hu] at hbefore
  obtain ⟨before, rfl, hlayout⟩ := Text.append_eq_append_of_le (hsplit.symm.trans hchars) hafter
  rw [Text.utf8Length_append, Text.utf8Length_append] at hbefore
  obtain ⟨after, rfl, rfl⟩ := Text.append_eq_append_of_le hlayout.symm (by omega)
  have hleft : ∀ c ∈ before, IsApart c := fun c hc => hapart c (List.mem_append_left _ hc)
  rw [List.append_assoc] at hreads hsplit
  have hall := source.map_tokens
  rw [hsplit, hreads.lexemes, List.append_assoc] at hall
  refine ⟨before.count '\n', lexemes (after ++ behind) ++ [.stop], ?_, ?_⟩
  · rw [hall, RpcSchema.lexemes_layout hleft, List.append_assoc]
  · have hlast : before ++ (after ++ behind) = [] →
        ∀ l ∈ ((ts ++ [t]).map Token.toLexeme).getLast?, ¬ l.IsUnclosed := by
      intro hnil l hl
      -- with nothing behind it, the token is followed by the end of the file
      rw [hnil, lexemes_of_gap rfl, htokens, List.append_cons, List.map_append] at hall
      have hend := List.append_cancel_left hall
      have hu : u.kind = .endOfFile := by
        cases feeds with
        | nil => exact congrArg Lexeme.kind (List.cons.inj hend).1
        | cons f fs => simp at hend
      obtain rfl : t.toLexeme = l := by simpa using hl
      exact hopen hu
    have hread := hreads.lexemes_layout hleft hinserted hlast
    rw [List.append_assoc, List.append_assoc, ← List.append_assoc before, hread, List.append_assoc,
      RpcSchema.lexemes_layout (forall_append hleft hinserted), List.count_append, List.append_assoc]

end RpcSchema
