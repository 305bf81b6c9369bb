import RpcSchema.Proofs.Grammar.Acceptance
import RpcSchema.Proofs.Grammar.Resuming
import RpcSchema.Proofs.Grammar.Spans
import RpcSchema.Proofs.Grammar.ViablePrefix
import RpcSchema.Proofs.Token.Passing

/-!
# The text of a statement

The span of a statement is stretched from its first word to its last, behind the docstring that it may
have in front.  Its text is the statement: read on its own it gives that statement and no other
(`Schema.ofSource_excerpt`).

**Cutting out.**  The words that the span is stretched over derive the statement without its docstring, with
nothing behind them (`Grammar.StatementOf.undocumented`).  They stand in a part of the text, with layout
before them, and a scanner that is in front of this part alone, in its old place, has these words and no
others (`Source.exists_scanner_of_words`): at the one end of the part no token is joined to what was
before, since the scanner starts where a token begins, and at the other the last token is read as it was,
since it is legal.

**Moving away.**  The text without the layout is a source of its own.  It says the same as that scanner, and
so the same is read from it in other places (`Scanner.ofSource_of_layout`).
-/

namespace RpcSchema

open Word (stretch)

/-! ## Statements without their docstrings -/

namespace Statement

/-- The docstring that a declaration has in front. -/
def attached? : Statement → Option Docstring
  | .rule d => d.docstring
  | .type d => d.docstring
  | .proc d => d.docstring
  | .stream d => d.docstring
  | _ => none

/-- The statement without the docstring that it has in front. -/
def undocumented : Statement → Statement
  | .rule d => .rule { d with docstring := none }
  | .type d => .type { d with docstring := none }
  | .proc d => .proc { d with docstring := none }
  | .stream d => .stream { d with docstring := none }
  | s => s

end Statement

namespace Grammar

variable {us vs ws behind : List Word} {docstring : Option Docstring} {s : Statement}

/-- A part of a sequence has words in front of it and behind it. -/
lemma Sequence.exists_of_mem {α : Type} {part : List Word → List Word → α → Prop} {as : List α}
    {a : α} (h : Sequence part ws as) (ha : a ∈ as) :
    ∃ front us behind, ws = front ++ (us ++ behind) ∧ part behind us a := by
  induction h with
  | nil => cases ha
  | @cons us behind _ _ hpart _ ih =>
      rcases List.mem_cons.1 ha with rfl | ha
      · exact ⟨[], us, behind, rfl, hpart⟩
      · obtain ⟨front, vs, rest, rfl, hrest⟩ := ih ha
        exact ⟨us ++ front, vs, rest, (List.append_assoc ..).symm, hrest⟩

lemma DeclOf.undocumented {ι : Type} {ks : List Word} {body : List Word → List ι → Prop}
    {d : Declaration ι} (h : DeclOf ks docstring body ws d) :
    DeclOf ks none body ws { d with docstring := none } ∧ d.docstring = docstring
      ∧ d.span = stretch ws := by
  cases h with
  | mk hdeprecation hname hbody => exact ⟨.mk hdeprecation hname hbody, rfl, rfl⟩

lemma DeclarationOf.undocumented (h : DeclarationOf docstring ws s) :
    DeclarationOf none ws s.undocumented ∧ s.attached? = docstring ∧ s.span = stretch ws := by
  cases h with
  | rule hk hm hd => exact hd.undocumented.imp_left (.rule hk hm)
  | type hk hd => exact hd.undocumented.imp_left (.type hk)
  | proc hk hd => exact hd.undocumented.imp_left (.proc hk)
  | stream hk hd => exact hd.undocumented.imp_left (.stream hk)

/-- The words that the span of a statement is stretched over derive the statement without its docstring,
and that is the word in front of them. -/
lemma StatementOf.undocumented (h : StatementOf behind us s) :
    ∃ ds vs, us = ds ++ vs ∧ vs ≠ [] ∧ StatementOf [] vs s.undocumented ∧ s.span = stretch vs
      ∧ ∀ d, s.attached? = some d → ∃ w ∈ ds, d = w.docstring := by
  cases h with
  | version hk hn hlt => exact ⟨[], _, rfl, nofun, .version hk hn hlt, rfl, nofun⟩
  | imports hk hp => exact ⟨[], _, rfl, nofun, .imports hk hp, rfl, nofun⟩
  | comment hk => exact ⟨[], _, rfl, nofun, .comment hk, rfl, nofun⟩
  | docstring hk _ =>
      have hfree : ¬ Attaches Kind.startsDeclaration [] := by
        rintro ⟨_, _, hnil, -⟩
        cases hnil
      exact ⟨[], _, rfl, nofun, .docstring hk hfree, rfl, nofun⟩
  | declaration hd =>
      obtain ⟨hdecl, hattached, hspan⟩ := hd.undocumented
      refine ⟨[], _, rfl, hd.ne_nil, .declaration hdecl, hspan, fun d hd => ?_⟩
      rw [hattached] at hd
      cases hd
  | @documented w _ _ hk _ hd =>
      obtain ⟨hdecl, hattached, hspan⟩ := hd.undocumented
      refine ⟨[w], _, rfl, hd.ne_nil, .declaration hdecl, hspan, fun d hd => ?_⟩
      rw [hattached] at hd
      cases hd
      exact ⟨w, List.mem_cons_self, rfl⟩

end Grammar

/-! ## Tokens of words -/

section

variable {n : Nat} {ts : List Token} {us ws : List Word} {w : Word}

/-- The tokens up to a word give the words up to it, and those behind it the words behind it. -/
lemma exists_upto_of_significant (h : significant n ts = us ++ w :: ws) :
    ∃ as bs, ts = as ++ w.token :: bs ∧ significant n (as ++ [w.token]) = us ++ [w]
      ∧ significant 0 bs = ws ∧ w.kind ≠ .endOfFile := by
  induction ts generalizing n us with
  | nil =>
      rw [significant] at h
      simp at h
  | cons t ts ih =>
      by_cases hfeed : t.kind = .newline
      · rw [significant, if_pos hfeed] at h
        obtain ⟨as, bs, rfl, hupto, hbehind, hend⟩ := ih h
        refine ⟨t :: as, bs, rfl, ?_, hbehind, hend⟩
        rw [List.cons_append, significant, if_pos hfeed, hupto]
      by_cases hstop : t.kind = .endOfFile
      · rw [significant, if_neg hfeed, if_pos hstop] at h
        simp at h
      rw [significant, if_neg hfeed, if_neg hstop] at h
      cases us with
      | nil =>
          obtain ⟨rfl, rfl⟩ := List.cons.inj h
          refine ⟨[], ts, rfl, ?_, rfl, hstop⟩
          simp [significant, hfeed, hstop]
      | cons u us =>
          obtain ⟨rfl, hrest⟩ := List.cons.inj h
          obtain ⟨as, bs, rfl, hupto, hbehind, hend⟩ := ih hrest
          refine ⟨t :: as, bs, rfl, ?_, hbehind, hend⟩
          rw [List.cons_append, significant, if_neg hfeed, if_neg hstop, hupto, List.cons_append]

/-- Words behind others are those of tokens behind others. -/
lemma exists_behind_of_significant (h : significant 0 ts = us ++ ws) :
    ∃ as bs, ts = as ++ bs ∧ significant 0 bs = ws := by
  rcases List.eq_nil_or_concat us with rfl | ⟨us, u, rfl⟩
  · exact ⟨[], ts, rfl, h⟩
  · rw [List.concat_append] at h
    obtain ⟨as, bs, rfl, -, hbehind, -⟩ := exists_upto_of_significant h
    exact ⟨as ++ [u.token], bs, by rw [List.append_assoc]; rfl, hbehind⟩

/-- In front of the first word there are line feeds. -/
lemma exists_feeds_of_significant (h : significant n ts = w :: ws) :
    ∃ feeds us, ts = feeds ++ w.token :: us ∧ ∀ f ∈ feeds, f.kind = .newline := by
  induction ts generalizing n with
  | nil => cases h
  | cons t ts ih =>
      by_cases hfeed : t.kind = .newline
      · rw [significant, if_pos hfeed] at h
        obtain ⟨feeds, us, rfl, hfeeds⟩ := ih h
        exact ⟨t :: feeds, us, rfl, List.forall_mem_cons.2 ⟨hfeed, hfeeds⟩⟩
      by_cases hstop : t.kind = .endOfFile
      · rw [significant, if_neg hfeed, if_pos hstop] at h
        cases h
      rw [significant, if_neg hfeed, if_neg hstop] at h
      obtain ⟨rfl, -⟩ := List.cons.inj h
      exact ⟨[], ts, rfl, List.forall_mem_nil _⟩

/-- The end of the file is no word. -/
lemma significant_append_end {t : Token} (h : t.kind = .endOfFile) :
    significant n (ts ++ [t]) = significant n ts := by
  induction ts generalizing n with
  | nil => simp [significant, h]
  | cons u ts ih => simp only [List.cons_append, significant, ih]

end

/-! ## The excerpt -/

/-- Any places correspond, since they are forgotten on both sides. -/
def Correspondence.withoutPlace : Correspondence where
  Place _ _ := True
  left _ := default
  right _ := default
  span _ := rfl
  through _ _ := rfl

namespace Scanner

variable {s : Scanner} {layout text : List Char}

/-- In front of a text and in front of the layout before it a scanner says the same. -/
lemma resumes_layout (hlayout : ∀ c ∈ layout, IsApart c) (hrest : s.rest = layout ++ text)
    (file : String) : s.Resumes 0 (.ofSource ⟨file, String.ofList text⟩) := by
  have htext : (ofSource ⟨file, String.ofList text⟩).rest = text := String.toList_ofList
  have hstream : s.stream.map (Prod.map Token.toLexeme id)
      = [] ++ ((ofSource ⟨file, String.ofList text⟩).stream.map (Prod.map Token.toLexeme id)).modifyHead
        (Prod.map id (· + layout.count '\n')) := by
    rw [stream_lexemes, stream_lexemes, htext, hrest, lexemes_layout hlayout, List.append_assoc,
      counted_replicate (by rfl), counted_add, List.nil_append]
  exact resumes_of_stream hstream

/-- What is read in front of a text with layout before it is read from the text alone, in other
places. -/
lemma ofSource_of_layout (hlayout : ∀ c ∈ layout, IsApart c) (hrest : s.rest = layout ++ text)
    (file : String) {schema : Schema} {w : Lookahead}
    (hread : Reader.schema (Lookahead.inFront s) = .ok schema w) :
    ∃ schema', Schema.ofSource ⟨file, String.ofList text⟩ = .ok schema'
      ∧ Edit.withoutPlace.schema schema' = Edit.withoutPlace.schema schema := by
  have halike := ((resumes_layout hlayout hrest file).simulation (C := .withoutPlace)
    fun _ => trivial).schema_alike ⟨0, rfl, rfl⟩
  rcases halike.answers_or_errors with
    ⟨_, _, schema', _, hs, hs', hschema, -⟩ | ⟨_, _, _, _, hs, -⟩
  · obtain ⟨rfl, -⟩ := EStateM.Result.ok.inj (hread.symm.trans hs)
    refine ⟨schema', ?_, hschema.symm⟩
    rw [Schema.ofSource, show Reader.schema (Lookahead.ofSource _) = _ from hs']
  · cases hread.symm.trans hs

end Scanner

/-- Words of a source up to some word are those of tokens that are passed over somewhere. -/
lemma Source.exists_passes_of_words {source : Source} {front init behind : List Word} {w : Word}
    (hwords : source.words = front ++ (init ++ w :: behind)) :
    ∃ (before : List Char) (s s₁ : Scanner) (ts : List Token), s.Stands before
      ∧ Scanner.Passes s (ts ++ [w.token]) s₁ ∧ significant 0 (ts ++ [w.token]) = init ++ [w]
      ∧ ∀ t ∈ ts ++ [w.token], t ∈ source.tokens := by
  obtain ⟨earlier, rest, htokens, hrest⟩ := exists_behind_of_significant hwords
  obtain ⟨ts, later, rfl, hupto, -, hkind⟩ := exists_upto_of_significant hrest
  have hsplit : source.tokens = earlier ++ ((ts ++ [w.token]) ++ later) := by
    rw [List.append_assoc]
    exact htokens
  -- the end of the file is no word, so it is behind
  have hlater : later ≠ [] := by
    rintro rfl
    obtain ⟨_, last, heq, -, hend, -⟩ := source.tokens_tile.ends
    rw [htokens, ← List.append_assoc] at heq
    obtain rfl := List.singleton_inj.1 (List.append_inj_right' heq rfl)
    exact hkind hend
  obtain ⟨s, hearlier, hdrain⟩ := Scanner.Passes.exists_of_drain
    (show (Scanner.ofSource source).drain.1 = _ from hsplit) (by simp)
  obtain ⟨s₁, hpasses, -⟩ := Scanner.Passes.exists_of_drain hdrain hlater
  obtain ⟨before, hstands⟩ := hearlier.stands (Scanner.stands_ofSource source)
  refine ⟨before, s, s₁, ts, hstands, hpasses, hupto, fun t ht => ?_⟩
  rw [hsplit]
  exact List.mem_append_right earlier (List.mem_append_left later ht)

/-- Some words of a source stand in the text that their stretch is, with layout before it, and a scanner
in front of just these has these words. -/
lemma Source.exists_scanner_of_words {source : Source} {front vs behind : List Word}
    (hwords : source.words = front ++ (vs ++ behind)) (hne : vs ≠ [])
    (hlegal : ∀ t ∈ source.tokens, t.kind ≠ .illegal) :
    ∃ (s : Scanner) (layout : List Char), (∀ c ∈ layout, IsApart c)
      ∧ s.rest = layout ++ (stretch vs).chars ∧ s.words = vs := by
  obtain ⟨init, w, hlast⟩ := (List.eq_nil_or_concat' vs).resolve_left hne
  obtain ⟨v, tail, hfirst⟩ := List.exists_cons_of_ne_nil hne
  rw [hlast, List.append_assoc] at hwords
  obtain ⟨_, s, s₁, ts, hstands, hpasses, hts, hmem⟩ := exists_passes_of_words hwords
  rw [← hlast] at hts
  obtain ⟨feeds, _, hfeeds, hnewline⟩ := exists_feeds_of_significant (hts.trans hfirst)
  obtain ⟨layout, hlayout, htext⟩ := hpasses.chars_through hstands hfeeds hnewline rfl
  have hstretch : stretch vs = v.token.span.through w.token.span := by
    rw [stretch, hlast, List.getLastD_concat, ← hlast, hfirst]
    rfl
  rw [← hstretch] at htext
  -- the text is cut off behind the last of the tokens
  have hcut := hpasses.followed (fun t ht => hlegal t (hmem t ht)) htext (mayFollow_nil s₁.rest)
  rw [List.append_nil] at hcut
  have hend : ({ s₁ with rest := [] } : Scanner).next.1.kind = .endOfFile := by
    rw [Scanner.next_of_rest_nil rfl]
  refine ⟨{ s with rest := layout ++ (stretch vs).chars }, layout, hlayout, rfl, ?_⟩
  rw [Scanner.words, hcut.drain, Scanner.drain_of_end hend, significant_append_end hend, hts]

/-- Each word of a source ends before any later one begins. -/
lemma Source.ordered_words (source : Source) :
    source.words.Pairwise fun u v => u.span.range.2 ≤ v.span.range.1 := by
  have htokens := source.tokens_tile.ordered.filter
    fun t => t.kind ≠ .newline ∧ t.kind ≠ .endOfFile
  rw [← map_token_words, List.pairwise_map] at htokens
  exact htokens

/-- A span starts where it is stretched from. -/
lemma Span.range_through (s t : Span) : (s.through t).range.1 = s.range.1 := by
  rw [range, range, through]
  split <;> rfl

namespace Schema

variable {source : Source} {schema : Schema} {c : Statement}

/-- A statement that was read is, without its docstring, derived from the words that its span is stretched
over; the docstring is among the words in front of them. -/
lemma exists_words_of_mem (h : ofSource source = .ok schema) (hc : c ∈ schema.statements) :
    ∃ front vs behind, source.words = front ++ (vs ++ behind) ∧ vs ≠ []
      ∧ Grammar.StatementOf [] vs c.undocumented ∧ c.span = stretch vs
      ∧ ∀ d, c.attached? = some d → ∃ w ∈ front, d = w.docstring := by
  obtain ⟨front, us, behind, hwords, hstatement⟩ :=
    ((ofSource_eq_ok_iff source schema).1 h).exists_of_mem hc
  obtain ⟨ds, vs, rfl, hne, hderived, hspan, hattached⟩ := hstatement.undocumented
  refine ⟨front ++ ds, vs, behind, ?_, hne, hderived, hspan, fun d hd => ?_⟩
  · rw [hwords, List.append_assoc, List.append_assoc]
  · obtain ⟨w, hw, rfl⟩ := hattached d hd
    exact ⟨w, List.mem_append_right front hw, rfl⟩

/-- The docstring in front of a statement ends before the statement's span begins. -/
lemma attached_before (h : ofSource source = .ok schema) (hc : c ∈ schema.statements) {d : Docstring}
    (hd : c.attached? = some d) :
    d.span.source = c.span.source ∧ d.span.range.2 ≤ c.span.range.1 := by
  obtain ⟨front, vs, behind, hwords, hne, -, hspan, hattached⟩ := exists_words_of_mem h hc
  obtain ⟨w, hw, rfl⟩ := hattached d hd
  obtain ⟨v, tail, rfl⟩ := List.exists_cons_of_ne_nil hne
  have hmem : w ∈ source.words := by
    rw [hwords]
    exact List.mem_append_left _ hw
  have hordered := source.ordered_words
  rw [hwords, List.pairwise_append] at hordered
  refine ⟨(Source.source_of_mem_words hmem).trans (source_of_ofSource h c hc).symm, ?_⟩
  rw [hspan, stretch, Span.range_through]
  exact hordered.2.2 w hw v List.mem_cons_self

/-- **Excerpts.**  The text of a statement's span, read on its own, is that statement and nothing else, in
other places and without the docstring that it has in front; that ends before the span begins. -/
theorem ofSource_excerpt (h : ofSource source = .ok schema) (hc : c ∈ schema.statements)
    (file : String) :
    (∃ c', ofSource ⟨file, c.span.text⟩ = .ok ⟨[c']⟩
        ∧ Edit.withoutPlace.statement c' = Edit.withoutPlace.statement c.undocumented)
      ∧ ∀ d, c.attached? = some d →
        d.span.source = c.span.source ∧ d.span.range.2 ≤ c.span.range.1 := by
  refine ⟨?_, fun d hd => attached_before h hc hd⟩
  obtain ⟨front, vs, behind, hwords, hne, hderived, hspan, -⟩ := exists_words_of_mem h hc
  obtain ⟨s, layout, hlayout, hrest, hvs⟩ :=
    Source.exists_scanner_of_words hwords hne fun _ => Source.kind_ne_illegal h
  have hstatements : Grammar.Statements s.words [c.undocumented] := by
    rw [hvs, ← List.append_nil vs]
    exact .cons hderived .nil
  obtain ⟨w, hread⟩ := (Reader.schema_inFront_iff s ⟨[c.undocumented]⟩).2 hstatements
  rw [← hspan] at hrest
  obtain ⟨⟨statements⟩, hexcerpt, hsame⟩ := Scanner.ofSource_of_layout hlayout hrest file hread
  have hone : statements.map Edit.withoutPlace.statement
      = [Edit.withoutPlace.statement c.undocumented] := congrArg Schema.statements hsame
  obtain ⟨c', rfl, hc'⟩ := List.map_eq_singleton_iff.1 hone
  exact ⟨c', hexcerpt, hc'⟩

end Schema

/-! ## A type with its docstring -/

/-- A version, and a type with a docstring and a deprecation. -/
def describedFile : Source :=
  ⟨"user.rpcdl", "version 1\n\"\"\"A user\"\"\"\ndeprecated type User \x7b\n  ids: int[]\n\x7d // last"⟩

/-- The text of the type begins behind its docstring, and is the type. -/
theorem describedFile_excerpt : ∃ schema c, Schema.ofSource describedFile = .ok schema
    ∧ c ∈ schema.statements ∧ c.span.text = "deprecated type User \x7b\n  ids: int[]\n\x7d"
    ∧ c.attached?.map Docstring.text = some "A user"
    ∧ (∃ c', Schema.ofSource ⟨"excerpt.rpcdl", c.span.text⟩ = .ok ⟨[c']⟩
      ∧ Edit.withoutPlace.statement c' = Edit.withoutPlace.statement c.undocumented)
    ∧ ∀ d, c.attached? = some d →
      d.span.source = c.span.source ∧ d.span.range.2 ≤ c.span.range.1 := by
  have hread : (Schema.ofSource describedFile).toOption.map
        (·.statements.map fun c => (c.span.text, c.attached?.map Docstring.text))
      = some [("version 1", none),
        ("deprecated type User \x7b\n  ids: int[]\n\x7d", some "A user"), ("// last", none)] := by
    decide +kernel
  cases h : Schema.ofSource describedFile with
  | ok schema =>
      rw [h] at hread
      obtain ⟨c, hc, hpair⟩ := List.mem_map.1
        (Option.some.inj hread ▸ List.mem_cons_of_mem _ List.mem_cons_self)
      obtain ⟨htext, hdocstring⟩ := Prod.mk.inj hpair
      exact ⟨schema, c, rfl, hc, htext, hdocstring,
        Schema.ofSource_excerpt h hc "excerpt.rpcdl"⟩
  | error e =>
      rw [h] at hread
      cases hread

end RpcSchema
