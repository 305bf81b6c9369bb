import Mathlib.Logic.Relation
import RpcSchema.Grammar.File
import RpcSchema.Proofs.Grammar.FileSimulation
import RpcSchema.Proofs.Grammar.Resuming

/-!
# Layout does not matter

How the words of a source are set apart from each other, and how they are set on lines, is nothing
to its meaning, but for blank lines behind docstrings.  `Source.Spaced` is that one source is
another with some blanks or line feeds put in at one place between two tokens;
`Schema.ofSource_layout` is that any number of such steps leave the significant tokens and the
outcome of reading as they were.

**Two steps.**  The text says the same words (`Source.Spaced.sameWords`), with the same numbers of
line feeds behind docstrings.  Supplies of sources that say the same words tell the same
(`Source.SameWords.resumes`).

**What was opened and never closed** takes up all that follows, and so also a line feed in front of
the end of the file.
-/

namespace RpcSchema

open TokenSupply LawfulSupply

/-! ## Sources that say the same words -/

/-- The significant tokens of a source, the end of the file among them. -/
def Source.significantTokens (s : Source) : List Token := s.tokens.filter fun t => t.kind ≠ .newline

/-- Whether two sources say the same words, with the same blank lines behind docstrings. -/
structure Source.SameWords (s s' : Source) : Prop where
  tokens : s.significantTokens.map Token.toLexeme = s'.significantTokens.map Token.toLexeme
  attached : ∀ n, (s.wordAt n).kind = .docstring →
    (s.wordAt (n + 1)).breaks = (s'.wordAt (n + 1)).breaks

/-- Whether a lexeme is a line feed. -/
def Lexeme.isFeed (l : Lexeme) : Bool := l.kind = .newline

/-- The significant lexemes of a source, with the line feeds before them. -/
def Source.stream (s : Source) : List (Lexeme × Nat) :=
  counted Lexeme.isFeed 0 (s.tokens.map Token.toLexeme)

/-- What a scanner says is seen from what is left. -/
lemma Scanner.stream_lexemes (s : Scanner) : s.stream.map (Prod.map Token.toLexeme id)
    = counted Lexeme.isFeed 0 (lexemes s.rest ++ [.stop]) := by
  have hfeed : ∀ t : Token, t.toLexeme.isFeed = t.isFeed := fun _ => rfl
  rw [← map_drain, stream, counted_map hfeed]

namespace Source

variable {s s' : Source}

lemma stream_eq (s : Source) :
    s.stream = (Scanner.ofSource s).stream.map (Prod.map Token.toLexeme id) := by
  rw [stream, map_tokens, Scanner.stream_lexemes]
  rfl

lemma significantTokens_eq (s : Source) :
    s.significantTokens = (Scanner.ofSource s).stream.map Prod.fst := by
  rw [Scanner.stream, map_fst_counted, significantTokens]
  refine List.filter_congr fun t _ => ?_
  simp [Token.isFeed]

/-- The word with a number is a significant token. -/
lemma token_wordAt (s : Source) (n : Nat) :
    s.significantTokens[min n (s.significantTokens.length - 1)]? = some (s.wordAt n).token := by
  have hlength : s.significantTokens.length = (Scanner.ofSource s).stream.length := by
    rw [significantTokens_eq, List.length_map]
  rw [hlength, significantTokens_eq]
  exact Scanner.token_wordAt _ n

lemma breaks_wordAt (s : Source) (n : Nat) :
    ((s.stream.map Prod.snd)[n]?).getD 0 = (s.wordAt n).breaks := by
  rw [stream_eq, List.map_map]
  exact Scanner.breaks_wordAt _ n

lemma lexemes_significantTokens (s : Source) :
    s.significantTokens.map Token.toLexeme = s.stream.map Prod.fst := by
  rw [stream_eq, significantTokens_eq, List.map_map, List.map_map]
  rfl

lemma lexeme_wordAt (s : Source) (n : Nat) :
    (s.stream.map Prod.fst)[min n (s.stream.length - 1)]?
      = some (s.wordAt n).token.toLexeme := by
  have hlength : s.stream.length = s.significantTokens.length := by
    rw [significantTokens_eq, stream_eq, List.length_map, List.length_map]
  rw [← lexemes_significantTokens, hlength, List.getElem?_map, token_wordAt, Option.map_some]

/-- Sources say the same words if their streams differ at most in line feeds that do not follow a
docstring. -/
lemma sameWords_of_stream (hfst : s.stream.map Prod.fst = s'.stream.map Prod.fst)
    (hsnd : ∀ n l k, s.stream[n]? = some (l, k) → l.kind = .docstring →
      s.stream[n + 1]? = s'.stream[n + 1]?) : s.SameWords s' where
  tokens := by rw [lexemes_significantTokens, lexemes_significantTokens, hfst]
  attached n hn := by
    have hlength : s.stream.length = s'.stream.length := by
      simpa using congrArg List.length hfst
    rw [← breaks_wordAt, ← breaks_wordAt, List.getElem?_map, List.getElem?_map]
    by_cases hlast : n + 1 < s.stream.length
    · have hlexeme := s.lexeme_wordAt n
      rw [Nat.min_eq_left (by omega), List.getElem?_map, Option.map_eq_some_iff] at hlexeme
      obtain ⟨⟨l, k⟩, hentry, rfl⟩ := hlexeme
      rw [hsnd n _ k hentry hn]
    · rw [List.getElem?_eq_none (by omega), List.getElem?_eq_none (by omega)]

namespace SameWords

lemma lexeme (h : s.SameWords s') (n : Nat) :
    (s.wordAt n).token.toLexeme = (s'.wordAt n).token.toLexeme := by
  have hlength : s.significantTokens.length = s'.significantTokens.length := by
    simpa using congrArg List.length h.tokens
  have htoken := congrArg (Option.map Token.toLexeme) (s.token_wordAt n)
  rw [← List.getElem?_map, h.tokens, hlength, List.getElem?_map, token_wordAt] at htoken
  exact (Option.some.inj htoken).symm

lemma refl (s : Source) : s.SameWords s := ⟨rfl, fun _ _ => rfl⟩

lemma trans {s'' : Source} (h : s.SameWords s') (h' : s'.SameWords s'') : s.SameWords s'' where
  tokens := h.tokens.trans h'.tokens
  attached n hn := by
    have hkind : (s'.wordAt n).kind = .docstring := by
      rw [← hn]
      exact congrArg Lexeme.kind (h.lexeme n).symm
    exact (h.attached n hn).trans (h'.attached n hkind)

end SameWords

/-! ## Layout -/

/-- A place in a text, given by the texts on its two sides, is between two tokens. -/
structure Between (s : Source) (t u : Token) (front back : List Char) : Prop where
  chars : s.chars = front ++ back
  behind : t.span.range.2 ≤ Text.utf8Length front
  before : Text.utf8Length front ≤ u.span.range.1

/-- The text of `s'` is that of `s` with some layout put in at one place: spaces, tabs and carriage
returns between two tokens that follow each other, the second not the end of the file; or line feeds
between two significant tokens that follow each other, the first neither a docstring nor, at the end
of the file, text that was opened and never closed. -/
inductive Spaced (s s' : Source) : Prop where
  | blanks {before after : List Token} {t u : Token} {front blanks back : List Char} :
      s.tokens = before ++ t :: u :: after → u.kind ≠ .endOfFile → s.Between t u front back →
      (∀ c ∈ blanks, isGap c) → s'.chars = front ++ blanks ++ back → Spaced s s'
  | breaks {before feeds after : List Token} {t u : Token} {front breaks back : List Char} :
      s.tokens = before ++ t :: (feeds ++ u :: after) → (∀ f ∈ feeds, f.kind = .newline) →
      t.kind ≠ .newline → u.kind ≠ .newline → t.kind ≠ .docstring →
      (u.kind = .endOfFile → ¬ t.IsUnclosed) → s.Between t u front back →
      (∀ c ∈ breaks, c = '\n') → s'.chars = front ++ breaks ++ back → Spaced s s'

/-- More line feeds behind what is neither a line feed nor a docstring leave the words as they are. -/
lemma sameWords_of_feeds {before behind : List Lexeme} {l : Lexeme} {n m : Nat} (hl : ¬ l.isFeed)
    (hd : l.kind ≠ .docstring)
    (hs : s.tokens.map Token.toLexeme
      = before ++ [l] ++ (List.replicate n .lineFeed ++ behind))
    (hs' : s'.tokens.map Token.toLexeme
      = before ++ [l] ++ (List.replicate (n + m) .lineFeed ++ behind)) : s.SameWords s' := by
  have hfeed : Lexeme.lineFeed.isFeed := rfl
  obtain ⟨entries, k, hentries⟩ : ∃ entries k,
      counted Lexeme.isFeed 0 (before ++ [l]) = entries ++ [(l, k)] := counted_concat hl 0 before
  have hstream : s.stream = entries ++ [(l, k)] ++ counted Lexeme.isFeed n behind := by
    rw [stream, hs, counted_append hl, counted_replicate hfeed, Nat.zero_add, hentries]
  have hstream' : s'.stream = entries ++ [(l, k)]
      ++ (counted Lexeme.isFeed n behind).modifyHead (Prod.map id (· + m)) := by
    rw [stream, hs', counted_append hl, counted_replicate hfeed, Nat.zero_add, hentries, counted_add]
  cases hbehind : counted Lexeme.isFeed n behind with
  | nil =>
      rw [hbehind] at hstream hstream'
      have heq : s.stream = s'.stream := hstream.trans hstream'.symm
      exact sameWords_of_stream (by rw [heq]) fun _ _ _ _ _ => by rw [heq]
  | cons b rest =>
      rw [hbehind] at hstream hstream'
      rw [List.modifyHead_cons] at hstream'
      refine sameWords_of_stream (by simp [hstream, hstream']) fun i e j hentry hkind => ?_
      have hlength : (entries ++ [(l, k)]).length = entries.length + 1 := by simp
      -- only the entry right behind the lexeme is another, and the lexeme is no docstring
      rw [hstream] at hentry
      rw [hstream, hstream']
      rcases Nat.lt_trichotomy i entries.length with hlt | rfl | hgt
      · have hfront : ∀ es, (entries ++ [(l, k)] ++ es)[i + 1]? = (entries ++ [(l, k)])[i + 1]? :=
          fun es => List.getElem?_append_left (by omega)
        rw [hfront, hfront]
      · rw [List.getElem?_append_left (by omega), List.getElem?_concat_length] at hentry
        cases hentry
        exact absurd hkind hd
      · obtain ⟨d, rfl⟩ := Nat.exists_eq_add_of_lt hgt
        rw [List.getElem?_append_right (by omega), List.getElem?_append_right (by omega), hlength,
          show entries.length + d + 1 + 1 - (entries.length + 1) = d + 1 by omega,
          List.getElem?_cons_succ, List.getElem?_cons_succ]

/-- **Layout says nothing.** -/
lemma Spaced.sameWords (h : s.Spaced s') : s.SameWords s' := by
  cases h with
  | @blanks before after t u front blanks back htokens hend hplace hblanks hchars =>
      have hcount : blanks.count '\n' = 0 := by
        refine List.count_eq_zero.2 fun hmem => ?_
        exact absurd (hblanks _ hmem) (by decide)
      have hnext : s.tokens = before ++ t :: ([] ++ u :: after) := htokens
      obtain ⟨n, ls, hs, hs'⟩ := lexemes_layout hnext (by simp) hplace.chars hplace.behind
        hplace.before (fun c hc => Or.inl (hblanks c hc)) fun h => absurd h hend
      rw [← hchars, ← map_tokens, hcount, Nat.add_zero, ← hs] at hs'
      have hstream : s.stream = s'.stream := by rw [stream, stream, hs']
      exact sameWords_of_stream (by rw [hstream]) fun _ _ _ _ _ => by rw [hstream]
  | @breaks before feeds after t u front breaks back htokens hfeeds ht hu hd hopen hplace hbreaks
      hchars =>
      obtain ⟨n, ls, hs, hs'⟩ := lexemes_layout htokens hfeeds hplace.chars hplace.behind
        hplace.before (fun c hc => Or.inr (hbreaks c hc)) hopen
      rw [← hchars, ← map_tokens] at hs'
      rw [List.map_append, List.map_singleton] at hs hs'
      exact sameWords_of_feeds (by simpa [Lexeme.isFeed] using ht) hd hs hs'

end Source

namespace Source.SameWords

variable {s s' : Source}

/-- Words with the same number correspond. -/
def correspondence (s s' : Source) : Correspondence where
  Place a b := ∃ n, a = (s.wordAt n).span ∧ b = (s'.wordAt n).span
  left _ := default
  right _ := default
  span _ := rfl
  through _ _ := rfl

/-- Supplies of sources that say the same words tell the same, when as many words were taken. -/
lemma resumes (h : s.SameWords s') : (Scanner.ofSource s).Resumes 0 (.ofSource s') where
  lexeme k := by
    rw [Nat.zero_add]
    exact h.lexeme k
  attached k hd := by
    rw [Nat.zero_add] at hd ⊢
    exact h.attached k hd

end Source.SameWords

/-! ## Outcomes -/

/-- Whether two sources are read with the same outcome: the same schema but for places, or an error
for the same reason, at significant tokens with the same number. -/
def Source.SameOutcome (s s' : Source) : Prop :=
  match Schema.ofSource s, Schema.ofSource s' with
  | .ok schema, .ok schema' => Edit.withoutPlace.schema schema = Edit.withoutPlace.schema schema'
  | .error e, .error e' => e.problem = e'.problem ∧ ∃ (n : Nat) (t t' : Token),
      s.significantTokens[n]? = some t ∧ s'.significantTokens[n]? = some t'
        ∧ e.span = t.span ∧ e'.span = t'.span
  | _, _ => False

lemma Source.SameWords.sameOutcome {s s' : Source} (h : s.SameWords s') : s.SameOutcome s' := by
  let simulation : Simulation (Source.SameWords.correspondence s s') Lookahead Lookahead :=
    h.resumes.simulation fun n => ⟨n, by rw [Nat.zero_add]; exact ⟨rfl, rfl⟩⟩
  have halike := simulation.schema_alike (s := .ofSource s) (t := .ofSource s') ⟨0, rfl, rfl⟩
  rw [Source.SameOutcome, Schema.ofSource, Schema.ofSource]
  rcases halike.answers_or_errors with
    ⟨schema, _, schema', _, hs, hs', hschema, -⟩ | ⟨e, _, e', _, hs, hs', hproblem, n, he, he'⟩
  · rw [hs, hs']
    exact hschema
  · rw [hs, hs']
    refine ⟨hproblem, _, _, _, s.token_wordAt n, ?_, he, he'⟩
    have hlength : s.significantTokens.length = s'.significantTokens.length := by
      simpa using congrArg List.length h.tokens
    rw [hlength]
    exact s'.token_wordAt n

/-- **Layout does not matter.**  However often layout is put into a source, the significant tokens
keep their kinds and literals, and the source is read with the same outcome. -/
theorem Schema.ofSource_layout {s s' : Source} (h : Relation.ReflTransGen Source.Spaced s s') :
    s.significantTokens.map Token.toLexeme = s'.significantTokens.map Token.toLexeme
      ∧ s.SameOutcome s' := by
  have hwords : s.SameWords s' := by
    induction h with
    | refl => exact .refl s
    | tail _ hstep ih => exact ih.trans hstep.sameWords
  exact ⟨hwords.tokens, hwords.sameOutcome⟩

/-! ## A text on two lines and on three -/

/-- An import with a comment, set as tightly as can be, and a version. -/
def tightFile : Source := ⟨"main.rpcdl", "import\"a\"//first\nversion 1"⟩

/-- The same with the path on a line of its own. -/
def linedFile : Source := ⟨"main.rpcdl", "import\n\"a\"//first\nversion 1"⟩

/-- The same again with blanks behind the comment. -/
def looseFile : Source := ⟨"main.rpcdl", "import\n\"a\"//first \t\nversion 1"⟩

/-- The path goes to a line of its own, and the comment takes up the blanks behind it. -/
theorem looseFile_sameOutcome : Relation.ReflTransGen Source.Spaced tightFile looseFile
    ∧ tightFile.significantTokens.map Token.toLexeme
      = looseFile.significantTokens.map Token.toLexeme
    ∧ tightFile.SameOutcome looseFile := by
  have hline : tightFile.Spaced linedFile :=
    @Source.Spaced.breaks _ _ [] [] (tightFile.tokens.drop 2) (tightFile.tokens.getD 0 default)
      (tightFile.tokens.getD 1 default) "import".toList ['\n'] "\"a\"//first\nversion 1".toList
      (by decide +kernel) (by simp) (by decide +kernel) (by decide +kernel) (by decide +kernel)
      (fun h => absurd h (by decide +kernel))
      ⟨by decide +kernel, by decide +kernel, by decide +kernel⟩ (by simp) (by decide +kernel)
  have hblanks : linedFile.Spaced looseFile :=
    @Source.Spaced.blanks _ _ (linedFile.tokens.take 3) (linedFile.tokens.drop 5)
      (linedFile.tokens.getD 3 default) (linedFile.tokens.getD 4 default)
      "import\n\"a\"//first".toList [' ', '\t'] "\nversion 1".toList (by decide +kernel)
      (by decide +kernel) ⟨by decide +kernel, by decide +kernel, by decide +kernel⟩
      (by simp [isGap]) (by decide +kernel)
  have hsteps : Relation.ReflTransGen Source.Spaced tightFile looseFile :=
    (Relation.ReflTransGen.single hline).tail hblanks
  exact ⟨hsteps, Schema.ofSource_layout hsteps⟩

/-! ## What was never closed -/

/-- A string that is opened where the text ends. -/
def openQuote : Source := ⟨"open.rpcdl", "\""⟩

/-- The same with a line feed between the string and the end of the file. -/
def openQuoteLine : Source := ⟨"open.rpcdl", "\"\n"⟩

/-- A string that is never closed takes up a line feed that is put in between it and the end of the
file, the next significant token: its literal is another then. -/
theorem openQuoteLine_differs :
    openQuote.tokens = [openQuote.tokens.getD 0 default, openQuote.tokens.getD 1 default]
      ∧ (openQuote.tokens.getD 0 default).kind = .illegal
      ∧ (openQuote.tokens.getD 1 default).kind = .endOfFile
      ∧ openQuote.Between (openQuote.tokens.getD 0 default) (openQuote.tokens.getD 1 default) ['"'] []
      ∧ openQuoteLine.chars = ['"'] ++ ['\n'] ++ []
      ∧ openQuoteLine.significantTokens.map Token.toLexeme
        ≠ openQuote.significantTokens.map Token.toLexeme :=
  ⟨by decide +kernel, by decide +kernel, by decide +kernel,
    ⟨by decide +kernel, by decide +kernel, by decide +kernel⟩, by decide +kernel,
    by decide +kernel⟩

end RpcSchema
