import RpcSchema.Proofs.Grammar.Acceptance
import RpcSchema.Proofs.Grammar.FileSimulation
import RpcSchema.Proofs.Grammar.Resuming
import RpcSchema.Proofs.Grammar.ViablePrefix
import RpcSchema.Proofs.Schema.Editing
import RpcSchema.Proofs.Token.Joining

/-!
# One file behind another

What stands in front of an empty line and what stands behind it are read apart from each other, if the
former is accepted: `Schema.ofSource_joined` says what is read of two texts that are joined so.

**Three runs.**  The words of the first text derive its statements, also where they are moved to
(`Scanner.statements_moved`).  With two line feeds behind it a docstring at its end stays alone
(`Grammar.StatementOf.in_front`), so the reader finds these statements first, and its outcome is that of
a reader that goes on behind them (`Reader.schema_append`), whatever is in its window by then.  A reader
that goes on there does what a reader of the second text does (`Scanner.schema_moved`).
-/

namespace RpcSchema

open TokenSupply LawfulSupply

/-! ## Statements in front of others -/

namespace Grammar

variable {us behind more : List Word} {st : Statement}

/-- A statement may stand in front of more, if nothing of that belongs to a docstring. -/
lemma StatementOf.in_front (h : StatementOf behind us st)
    (hfree : ¬ Attaches Kind.startsDeclaration more) : StatementOf (behind ++ more) us st := by
  cases h with
  | version hk hn hlt => exact .version hk hn hlt
  | imports hk hp => exact .imports hk hp
  | comment hk => exact .comment hk
  | declaration hd => exact .declaration hd
  | documented hk hattaches hd => exact .documented hk hattaches hd
  | docstring hk hattaches =>
      refine .docstring hk ?_
      cases behind with
      | nil => exact hfree
      | cons w ws =>
          rintro ⟨_, _, heq, hstarts, hbreaks⟩
          obtain ⟨rfl, -⟩ := List.cons.inj heq
          exact hattaches ⟨w, ws, rfl, hstarts, hbreaks⟩

end Grammar

namespace Reader

variable {σ : Type} [TokenSupply σ] [LawfulSupply σ] {s s₁ s₂ : σ} {ws behind : List Word}
  {statements : List Statement}

/-- Statements are read, and then those behind them. -/
lemma many_statement_append (hstatements : Grammar.Statements ws statements)
    (hfree : ¬ Grammar.Attaches Kind.startsDeclaration behind) (h : Took s ws s₁)
    (hbehind : Took s₁ behind s₂) (hend : next s₂ = .endOfFile) :
    many statement s = ((statements ++ ·) <$> many statement : Reader σ (List Statement)) s₁ := by
  induction hstatements generalizing s with
  | nil =>
      cases h
      cases hrest : many statement s₁ with
      | ok rest s' => rw [map_of_ok hrest, List.nil_append]
      | error e s' => rw [map_of_error hrest]
  | @cons us ws st sts hst _ ih =>
      obtain ⟨s₀, hus, hws⟩ := h.of_append
      have hread := statement_complete (hst.in_front hfree) hus (hws.append hbehind) hend
      have hless : remaining s₀ < remaining s := by
        obtain ⟨_, _, rfl⟩ := StatementOf.starts hst
        exact hus.remaining_lt (List.cons_ne_nil _ _)
      rw [many, hread]
      simp only [if_pos hless]
      rw [ih hws]
      cases hrest : many statement s₁ with
      | ok rest s' => rw [map_of_ok hrest, map_of_ok hrest, List.cons_append]
      | error e s' => rw [map_of_error hrest, map_of_error hrest]

/-- The schema of statements and what is behind them. -/
lemma schema_append (hstatements : Grammar.Statements ws statements)
    (hfree : ¬ Grammar.Attaches Kind.startsDeclaration behind) (h : Took s ws s₁)
    (hbehind : Took s₁ behind s₂) (hend : next s₂ = .endOfFile) :
    schema s
      = ((fun rest => ⟨statements ++ rest.statements⟩) <$> schema : Reader σ Schema) s₁ := by
  have hmany := many_statement_append hstatements hfree h hbehind hend
  cases hread : many statement s₁ with
  | ok rest s' =>
      have hschema : schema s₁ = .ok ⟨rest⟩ s' := bind_of_ok hread
      rw [map_of_ok hschema, schema, bind_of_ok (hmany.trans (map_of_ok hread))]
      rfl
  | error e s' =>
      have hschema : schema s₁ = .error e s' := bind_of_error hread
      rw [map_of_error hschema, schema, bind_of_error (hmany.trans (map_of_error hread))]

end Reader

/-! ## Reading what is moved -/

/-- The edit that moves everything. -/
def Move.edit (m : Move) : Edit := { span := m.span }

/-- Words correspond to where they are moved. -/
def Move.correspondence (m : Move) : Correspondence where
  Place a b := a = m.span b
  left := id
  right := m.span
  span h := h
  through := by
    rintro _ b _ d rfl rfl
    exact (m.span_through b d).symm

namespace Scanner

variable {m : Move} {s s' : Scanner} {us : List (Token × Nat)} {k : Nat}

/-- A reader that goes on where everything of another scanner is moved to reads what it reads there,
moved; also an error is that error. -/
lemma schema_moved
    (h : s.stream = us ++ counted Token.isFeed k (s'.drain.1.map m.token)) :
    (∀ schema w', Reader.schema (Lookahead.inFront s') = .ok schema w' →
        ∃ w, Reader.schema (Lookahead.taken s us.length) = .ok (m.edit.schema schema) w)
      ∧ ∀ e w', Reader.schema (Lookahead.inFront s') = .error e w' →
        ∃ w, Reader.schema (Lookahead.taken s us.length) = .error ⟨m.span e.span, e.problem⟩ w := by
  have hstream : s.stream.map (Prod.map id id)
      = us ++ (s'.stream.map (Prod.map m.token id)).modifyHead (Prod.map id (· + k)) := by
    have hmap : counted Token.isFeed 0 (s'.drain.1.map m.token)
        = s'.stream.map (Prod.map m.token id) := counted_map (fun _ => rfl) 0 _
    rw [Prod.map_id, List.map_id, h, ← hmap, ← counted_add, Nat.zero_add]
  have hwords := wordAt_of_stream hstream
  have hresumes : s.Resumes us.length s' :=
    ⟨fun n => (congrArg Token.toLexeme (hwords n).1).trans (m.toLexeme_token _),
      fun n _ => (hwords n).2⟩
  have halike := (hresumes.simulation (C := m.correspondence)
    fun n => congrArg Token.span (hwords n).1).schema_alike ⟨0, rfl, rfl⟩
  constructor
  · intro schema' w' hs'
    rcases halike.answers_or_errors with
      ⟨schema, w, _, _, hs, hread, hschema, -⟩ | ⟨_, _, _, _, -, hread, -⟩
    · obtain ⟨rfl, -⟩ := EStateM.Result.ok.inj (hs'.symm.trans hread)
      have hedit : schema = m.edit.schema schema' :=
        (Edit.schema_unchanged schema).symm.trans hschema
      exact ⟨w, hs.trans (congrArg (EStateM.Result.ok · w) hedit)⟩
    · cases hs'.symm.trans hread
  · intro e' w' hs'
    rcases halike.answers_or_errors with
      ⟨_, _, _, _, -, hread, -⟩ | ⟨⟨span, problem⟩, w, _, _, hs, hread, hproblem, hspan⟩
    · cases hs'.symm.trans hread
    · obtain ⟨rfl, -⟩ := EStateM.Result.error.inj (hs'.symm.trans hread)
      obtain rfl : problem = e'.problem := hproblem
      obtain rfl : span = m.span e'.span := hspan
      exact ⟨w, hs⟩

/-- The words of a text that is moved derive its statements, moved. -/
lemma statements_moved {source : Source} {schema : Schema} (h : Schema.ofSource source = .ok schema)
    (m : Move) : Grammar.Statements
      ((counted Token.isFeed 0 (source.tokens.dropLast.map m.token)).map Word.ofEntry)
      (m.edit.schema schema).statements := by
  obtain ⟨w, hread⟩ :=
    (Reader.schema_inFront_iff (.ofSource source) schema).2 ((Schema.ofSource_eq_ok_iff _ _).1 h)
  have hstream : (m.scanner (.ofSource source)).stream
      = [] ++ counted Token.isFeed 0 ((Scanner.ofSource source).drain.1.map m.token) :=
    congrArg (counted Token.isFeed 0) (drain_moved m (.ofSource source))
  have hmoved := (schema_moved hstream).1 schema w hread
  obtain ⟨front, last, htokens, hfront, hlast, -⟩ := source.tokens_tile.ends
  have hends : ∀ t ∈ front.map m.token, t.kind ≠ .endOfFile := List.forall_mem_map.2 hfront
  obtain ⟨k, hcounted⟩ := exists_counted_append hends 0
  -- the end of the file, which is left out, is no word
  have hwords : (m.scanner (.ofSource source)).words
      = (counted Token.isFeed 0 (front.map m.token)).map Word.ofEntry := by
    have hdrain : (m.scanner (.ofSource source)).drain.1 = front.map m.token ++ [m.token last] := by
      rw [drain_moved, show (Scanner.ofSource source).drain.1 = _ from htokens, List.map_append,
        List.map_singleton]
    rw [words, hdrain, (hcounted _).2]
    simp [significant, hlast]
  rw [htokens, List.dropLast_concat, ← hwords]
  exact (Reader.schema_inFront_iff _ _).1 hmoved

end Scanner

/-! ## Concatenation -/

/-- Statements and two line feeds are read, and then what is behind them. -/
lemma Reader.schema_beginning {s : Scanner} {front behind : List Token} {feed feed' : Token}
    {statements : List Statement} (hdrain : s.drain.1 = front ++ feed :: feed' :: behind)
    (hfeed : feed.kind = .newline) (hfeed' : feed'.kind = .newline)
    (hfront : ∀ t ∈ front, t.kind ≠ .endOfFile)
    (hstatements : Grammar.Statements ((counted Token.isFeed 0 front).map Word.ofEntry) statements) :
    ∃ k, s.stream = counted Token.isFeed 0 front ++ counted Token.isFeed k behind
      ∧ schema (Lookahead.inFront s)
        = ((fun rest => ⟨statements ++ rest.statements⟩) <$> schema : Reader Lookahead Schema)
          (Lookahead.taken s (counted Token.isFeed 0 front).length) := by
  obtain ⟨k, hcounted⟩ := exists_counted_append hfront 0
  obtain ⟨hstream, hwords⟩ := hcounted (feed :: feed' :: behind)
  rw [← hdrain] at hstream hwords
  refine ⟨k + 1 + 1, ?_, ?_⟩
  · rw [Scanner.stream, hstream]
    simp [counted, Token.isFeed, hfeed, hfeed']
  obtain ⟨w, htook, hend⟩ := Lookahead.took_words s
  rw [Scanner.words, hwords] at htook
  obtain ⟨w₁, hus, hbehind⟩ := htook.of_append
  obtain ⟨rfl, -⟩ := Lookahead.stream_of_took (k := 0) hus
  rw [List.length_map, Nat.zero_add] at hus hbehind
  refine schema_append hstatements ?_ hus hbehind hend
  -- the first word behind the line feeds is behind a blank line
  rintro ⟨word, words, heq, -, hbreaks⟩
  have hsignificant : significant k (feed :: feed' :: behind) = significant (k + 1 + 1) behind := by
    simp [significant, hfeed, hfeed']
  rw [hsignificant] at heq
  have hle := le_breaks_of_significant heq
  omega

/-- **Concatenation.**  Behind an accepted text and an empty line another text is read as it is on its
own: the tokens are those of the two texts and the line feeds between them, the statements are those of
the first text and then those of the second, or the error is that of the second text.  What comes from
the second text is moved by the lines and bytes in front of it. -/
theorem Schema.ofSource_joined {first : Source} {schema : Schema}
    (h : Schema.ofSource first = .ok schema) (file : String) (second : Source) :
    (∃ feed feed' : Token, feed.toLexeme = .lineFeed ∧ feed'.toLexeme = .lineFeed
        ∧ (Source.joined file first second).tokens
          = first.tokens.dropLast.map (Move.toFront file first second).token
            ++ feed :: feed' :: second.tokens.map (Move.toBack file first second).token)
      ∧ Schema.ofSource (.joined file first second) = match Schema.ofSource second with
        | .ok schema' => .ok ⟨schema.statements.map (Move.toFront file first second).edit.statement
            ++ schema'.statements.map (Move.toBack file first second).edit.statement⟩
        | .error e => .error ⟨(Move.toBack file first second).span e.span, e.problem⟩ := by
  have htokens := Source.tokens_joined file second fun _ => Source.kind_ne_illegal h
  refine ⟨htokens, ?_⟩
  obtain ⟨feed, feed', hfeed, hfeed', hjoined⟩ := htokens
  generalize Move.toFront file first second = front at hjoined ⊢
  generalize Move.toBack file first second = back at hjoined ⊢
  have hends : ∀ t ∈ first.tokens.dropLast.map front.token, t.kind ≠ .endOfFile := by
    obtain ⟨before, last, heq, hbefore, -⟩ := first.tokens_tile.ends
    rw [heq, List.dropLast_concat]
    exact List.forall_mem_map.2 hbefore
  obtain ⟨k, hstream, hschema⟩ := Reader.schema_beginning (s := .ofSource (.joined file first second))
    hjoined (congrArg Lexeme.kind hfeed) (congrArg Lexeme.kind hfeed') hends
    (Scanner.statements_moved h front)
  have hbehind := Scanner.schema_moved hstream
  rw [Schema.ofSource, Schema.ofSource,
    show Reader.schema (Lookahead.ofSource (.joined file first second)) = _ from hschema]
  cases hsecond : Reader.schema (Lookahead.ofSource second) with
  | ok schema' =>
      obtain ⟨w, hread⟩ := hbehind.1 schema' _ hsecond
      rw [Reader.map_of_ok hread]
      rfl
  | error e =>
      obtain ⟨w, hread⟩ := hbehind.2 e _ hsecond
      rw [Reader.map_of_error hread]

/-! ## A docstring at the end -/

/-- A version and a docstring. -/
def remarkFile : Source := ⟨"remark.rpcdl", "version 1\n\"\"\"About\"\"\""⟩

/-- A type. -/
def unremarkedFile : Source := ⟨"type.rpcdl", "type T \x7b a: int \x7d"⟩

/-- The docstring at the end of the first text is not about the type in the second. -/
theorem remarkFile_joined : ∃ schema, Schema.ofSource remarkFile = .ok schema
    ∧ (∃ feed feed' : Token, feed.toLexeme = .lineFeed ∧ feed'.toLexeme = .lineFeed
        ∧ (Source.joined "both.rpcdl" remarkFile unremarkedFile).tokens
          = remarkFile.tokens.dropLast.map (Move.toFront "both.rpcdl" remarkFile unremarkedFile).token
            ++ feed :: feed'
              :: unremarkedFile.tokens.map (Move.toBack "both.rpcdl" remarkFile unremarkedFile).token)
    ∧ Schema.ofSource (.joined "both.rpcdl" remarkFile unremarkedFile)
      = match Schema.ofSource unremarkedFile with
        | .ok schema' => .ok
          ⟨schema.statements.map (Move.toFront "both.rpcdl" remarkFile unremarkedFile).edit.statement
            ++ schema'.statements.map
              (Move.toBack "both.rpcdl" remarkFile unremarkedFile).edit.statement⟩
        | .error e =>
          .error ⟨(Move.toBack "both.rpcdl" remarkFile unremarkedFile).span e.span, e.problem⟩ := by
  have haccepted : (Schema.ofSource remarkFile).isOk := by decide +kernel
  cases h : Schema.ofSource remarkFile with
  | ok schema => exact ⟨schema, rfl, Schema.ofSource_joined h "both.rpcdl" unremarkedFile⟩
  | error e =>
      rw [h] at haccepted
      cases haccepted

end RpcSchema
