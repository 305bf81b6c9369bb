import RpcSchema.Proofs.Grammar.Continuing
import RpcSchema.Proofs.Grammar.FileTracking

/-!
# Errors are found at the right token

A source that is not accepted is read up to the first token that cannot come: the tokens in front of
it begin some accepted source, and with it they begin none (`Schema.ofSource_error_first`).

**One machine for all sources.**  What is pending depends on lexemes alone, and a source is accepted
exactly if all of its significant tokens may come (`Source.exists_schema_iff`).  So tokens that may not
come begin no accepted source.

**A source to show.**  Of tokens that may come, what is pending behind them can be closed, and the
lexemes that close it are written out behind the tokens (`Source.completable_of_mayCome`).
-/

namespace RpcSchema

open TokenSupply LawfulSupply Reader

/-! ## Significant tokens, as they are taken -/

/-- Whether lexemes of tokens may come at the start of a file. -/
def MayCome (ts : List Token) : Prop := (pending (ts.map Token.toLexeme)).isSome

lemma MayCome.of_prefix {ts ts' : List Token} (h : MayCome ts') (hbegins : ts <+: ts') : MayCome ts :=
  isSome_pending_of_prefix h (hbegins.map _)

/-- Whether the arguments of a use begin behind some tokens. -/
def OpensArguments (ts : List Token) : Prop :=
  ∃ front mark name paren, ts = front ++ [mark, name, paren] ∧ mark.kind = .delimiter .atSign
    ∧ name.kind = .identifier ∧ paren.kind = .delimiter .leftParen

namespace Source

variable {source : Source} {us : List Word} {w : Lookahead}

open Lookahead (taken advance_taken peek_taken ready_taken stream_of_took)

/-- The significant tokens of a source are those of words that are taken, and the next ones. -/
lemma significantTokens_of_took (h : Took (Lookahead.ofSource source) us w) : ∃ after,
    source.significantTokens = us.map Word.token ++ (peek w 0).token :: after
      ∧ (next w = .endOfFile → after = [])
      ∧ (next w ≠ .endOfFile → ∃ rest, after = (peek w 1).token :: rest) := by
  have htaken : Took (taken (.ofSource source) 0) us w := h
  obtain ⟨rfl, hstream⟩ := stream_of_took htaken
  rw [Nat.zero_add] at hstream ⊢
  have hahead : peek (taken (.ofSource source) us.length) 1 = source.wordAt (us.length + 1) := by
    rw [peek_one (ready_taken _ _), advance_taken, peek_taken]
    rfl
  have hbehind : Scanner.behind (Scanner.behind^[us.length] (.ofSource source))
      = Scanner.behind^[us.length + 1] (.ofSource source) :=
    (Function.iterate_succ_apply' _ _ _).symm
  rw [next, hahead, peek_taken]
  have hword : (Scanner.behind^[us.length] (.ofSource source)).wordAt 0
      = (Scanner.ofSource source).wordAt us.length := rfl
  rw [Scanner.stream_eq (Scanner.behind^[us.length] _), hbehind, hword] at hstream
  refine ⟨_, source.significantTokens_eq.trans hstream, fun hend => ?_, fun hne => ?_⟩
  · rw [if_pos hend]
    rfl
  · rw [if_neg hne, Scanner.stream_eq]
    exact ⟨_, rfl⟩

/-! ## Accepted sources -/

/-- At the start of a file nothing was taken and nothing is pending. -/
lemma expects_ofSource (source : Source) : Expects [] (Lookahead.ofSource source) [] :=
  ⟨Lookahead.ready_ofSource source, rfl, by simp [pending]⟩

/-- The tokens in front of what is refused may come, and with the token that is refused they may not,
unless that is the word `error` and its colon is missing. -/
lemma of_refuses {e : SyntaxError} (hus : Took (Lookahead.ofSource source) us w)
    (h : Refuses us w e) :
    ∃ before t after, source.significantTokens = before ++ t :: after ∧ e.span = t.span
      ∧ MayCome before
      ∧ (¬ MayCome (before ++ [t]) ∨ OpensArguments before ∧ t.kind = .keyword .error
        ∧ MayCome (before ++ [t]) ∧ ∃ u rest, after = u :: rest ∧ u.kind ≠ .delimiter .colon
          ∧ ¬ MayCome (before ++ [t, u])) := by
  obtain ⟨after, htokens, -, hahead⟩ := significantTokens_of_took hus
  have hlexemes : ∀ ts : List Token, (us.map Word.token ++ ts).map Token.toLexeme
      = us.map Word.lexeme ++ ts.map Token.toLexeme := fun ts => by
    rw [List.map_append, List.map_map]
    rfl
  refine ⟨us.map Word.token, (peek w 0).token, after, htokens, h.span, ?_, ?_⟩
  · rw [MayCome, ← List.append_nil (us.map Word.token), hlexemes, List.map_nil, List.append_nil]
    exact h.viable
  · rcases h.refused with hrefused | hmisses
    · left
      rw [MayCome, hlexemes, List.map_singleton, hrefused]
      nofun
    · right
      obtain ⟨vs, m, n, l, rfl, hm, hn, hl⟩ := hmisses.opened
      obtain ⟨rest, rfl⟩ := hahead (by simp [hmisses.kind])
      refine ⟨⟨vs.map Word.token, m.token, n.token, l.token, by simp, hm, hn, hl⟩, hmisses.kind, ?_,
        _, rest, rfl, hmisses.kind_ahead, ?_⟩
      · rw [MayCome, hlexemes]
        exact hmisses.viable
      · rw [MayCome, hlexemes, List.map_cons, List.map_singleton, hmisses.refused]
        nofun

/-- A source is accepted and all of its tokens may come, or a token is refused. -/
lemma accepted_or_refused (source : Source) :
    (∃ schema, Schema.ofSource source = .ok schema ∧ MayCome source.significantTokens)
      ∨ ∃ e us w, Schema.ofSource source = .error e ∧ Took (Lookahead.ofSource source) us w
        ∧ Refuses us w e := by
  have htracks := schema_tracks (expects_ofSource source)
  rw [Schema.ofSource]
  cases hread : schema (Lookahead.ofSource source) with
  | ok a w =>
      rw [hread] at htracks
      obtain ⟨us, hus, hexpects⟩ := htracks
      obtain ⟨-, -, hend, -⟩ := schema_sound (Lookahead.ready_ofSource source) hread
      obtain ⟨after, htokens, hlast, -⟩ := significantTokens_of_took hus
      obtain rfl := hlast hend
      have hstep : step [] (front w) = some [] := if_pos (Or.inl hend)
      refine Or.inl ⟨a, rfl, ?_⟩
      rw [MayCome, htokens, List.map_append, List.map_map]
      refine (congrArg Option.isSome hexpects.agrees).trans ?_
      rw [hstep]
      rfl
  | error e w =>
      rw [hread] at htracks
      obtain ⟨us, w, hus, hrefuses⟩ := htracks
      exact Or.inr ⟨e, us, w, rfl, hus, hrefuses⟩

/-- **The accepted sources** are those whose significant tokens may all come. -/
lemma exists_schema_iff :
    (∃ schema, Schema.ofSource source = .ok schema) ↔ MayCome source.significantTokens := by
  rcases accepted_or_refused source with ⟨schema, hread, hall⟩ | ⟨e, us, w, hread, hus, hrefuses⟩
  · exact ⟨fun _ => hall, fun _ => ⟨schema, hread⟩⟩
  · obtain ⟨before, t, after, htokens, -, -, hrefused⟩ := of_refuses hus hrefuses
    have hnone : ¬ MayCome source.significantTokens := by
      intro hall
      rw [htokens] at hall
      rcases hrefused with hrefused | ⟨-, -, -, u, rest, rfl, -, hrefused⟩
      · exact hrefused (hall.of_prefix ⟨after, by simp⟩)
      · exact hrefused (hall.of_prefix ⟨rest, by simp⟩)
    refine ⟨?_, fun hall => absurd hall hnone⟩
    rintro ⟨schema, hschema⟩
    rw [hread] at hschema
    cases hschema

end Source

/-! ## What can be completed -/

/-- Whether some accepted source begins with significant tokens that say what the given ones say. -/
def Completable (ts : List Token) : Prop :=
  ∃ (source : Source) (schema : Schema), Schema.ofSource source = .ok schema
    ∧ ts.map Token.toLexeme <+: source.significantTokens.map Token.toLexeme

lemma Completable.mayCome {ts : List Token} (h : Completable ts) : MayCome ts := by
  obtain ⟨source, schema, hread, hbegins⟩ := h
  exact isSome_pending_of_prefix (Source.exists_schema_iff.1 ⟨schema, hread⟩) hbegins

/-- What may come is no illegal token. -/
lemma MayCome.kind_ne_illegal {ts : List Token} (h : MayCome ts) {t : Token} (ht : t ∈ ts) :
    t.kind ≠ .illegal := by
  intro hillegal
  obtain ⟨before, after, rfl⟩ := List.append_of_mem ht
  have hfront : MayCome (before ++ [t]) := h.of_prefix ⟨after, by simp⟩
  rw [MayCome, List.map_append, List.map_singleton, pending_concat] at hfront
  simp [step_illegal hillegal] at hfront

/-- Nothing in an accepted source is illegal. -/
lemma Source.kind_ne_illegal {source : Source} {schema : Schema}
    (h : Schema.ofSource source = .ok schema) {t : Token} (ht : t ∈ source.tokens) :
    t.kind ≠ .illegal := by
  intro hillegal
  have hsignificant : t ∈ source.significantTokens := List.mem_filter.2 ⟨ht, by simp [hillegal]⟩
  exact (Source.exists_schema_iff.1 ⟨schema, h⟩).kind_ne_illegal hsignificant hillegal

lemma Goal.isPlain_of_mem_closing {g : Goal} {l : Lexeme} (h : l ∈ g.closing) : l.IsPlain := by
  have hmark : ∀ d, (Lexeme.mark d).IsPlain := fun d => ⟨.delimiter d, nofun, nofun⟩
  have hword : ∀ k, (Lexeme.word k).IsPlain := fun k => ⟨.keyword k, nofun, nofun⟩
  have hname : Lexeme.someName.IsPlain :=
    ⟨@Lexeme.Writable.identifier 'x' [] (by decide) (by simp) (by decide), nofun, nofun⟩
  have hstring : Lexeme.someString.IsPlain := ⟨.string .nil, nofun, nofun⟩
  have hnumber : Lexeme.someNumber.IsPlain :=
    ⟨@Lexeme.Writable.integer ['0'] (by simp) (List.forall_mem_singleton.2 rfl), nofun, nofun⟩
  revert l
  rw [← List.forall_iff_forall_mem]
  cases g <;> simp [closing, hmark, hword, hname, hstring, hnumber]

/-- **What may come can be completed**: the goals that are pending behind it are closed. -/
lemma Source.completable_of_mayCome {source : Source} {before after : List Token} {t : Token}
    (htokens : source.significantTokens = before ++ t :: after) (h : MayCome before) :
    Completable before := by
  obtain ⟨goals, hgoals⟩ := Option.isSome_iff_exists.1 h
  have hplain : ∀ l ∈ goals.flatMap Goal.closing, l.IsPlain := by
    intro l hl
    obtain ⟨g, -, hg⟩ := List.mem_flatMap.1 hl
    exact Goal.isPlain_of_mem_closing hg
  obtain ⟨source', htokens'⟩ :=
    Source.exists_continued htokens (fun b hb => h.kind_ne_illegal hb) hplain
  have hall : MayCome source'.significantTokens := by
    rw [MayCome, htokens', pending_append, hgoals, Option.bind_some, List.foldlM_append,
      foldlM_closing]
    rfl
  obtain ⟨schema, hread⟩ := Source.exists_schema_iff.2 hall
  exact ⟨source', schema, hread, by rw [htokens']; exact List.prefix_append _ _⟩

/-- **Errors are found at the first token that cannot come.**  The error of a source that is not
accepted is at a significant token, which may be the end of the file.  The tokens in front of it can be
completed to an accepted source, and with it they cannot.  The one exception is the word `error` where
the arguments of a use begin, without a colon behind it: the tokens up to it could still be completed,
and with the token behind it they cannot. -/
theorem Schema.ofSource_error_first {source : Source} {e : SyntaxError}
    (h : Schema.ofSource source = .error e) :
    ∃ before t after, source.significantTokens = before ++ t :: after ∧ e.span = t.span
      ∧ Completable before
      ∧ (¬ Completable (before ++ [t]) ∨ OpensArguments before ∧ t.kind = .keyword .error
        ∧ Completable (before ++ [t]) ∧ ∃ u rest, after = u :: rest ∧ u.kind ≠ .delimiter .colon
          ∧ ¬ Completable (before ++ [t, u])) := by
  rcases Source.accepted_or_refused source with ⟨schema, hread, -⟩ | ⟨e', us, w, hread, hus, hrefuses⟩
  · rw [hread] at h
    cases h
  obtain rfl : e' = e := by
    rw [hread] at h
    exact Except.error.inj h
  obtain ⟨before, t, after, htokens, hspan, hbefore, hrefused⟩ := Source.of_refuses hus hrefuses
  refine ⟨before, t, after, htokens, hspan, Source.completable_of_mayCome htokens hbefore, ?_⟩
  rcases hrefused with hrefused | ⟨hopens, hkind, hmay, u, rest, rfl, hcolon, hrefused⟩
  · exact Or.inl fun h => hrefused h.mayCome
  · have htokens' : source.significantTokens = (before ++ [t]) ++ u :: rest := by
      rw [htokens, List.append_assoc, List.singleton_append]
    exact Or.inr ⟨hopens, hkind, Source.completable_of_mayCome htokens' hmay, u, rest, rfl, hcolon,
      fun h => hrefused h.mayCome⟩

/-! ## A message without its colon -/

/-- A use of a rule that is given the word `error` and a string. -/
def colonMissing : Source := ⟨"colon.rpcdl", "type T \x7b a: int @r(error \"no\") \x7d"⟩

/-- The error is at the word `error`, though a colon behind it would do. -/
theorem colonMissing_error_first : ∃ e, Schema.ofSource colonMissing = .error e
    ∧ e.span.range = (19, 24)
    ∧ ∃ before t after, colonMissing.significantTokens = before ++ t :: after ∧ e.span = t.span
      ∧ Completable before
      ∧ (¬ Completable (before ++ [t]) ∨ OpensArguments before ∧ t.kind = .keyword .error
        ∧ Completable (before ++ [t]) ∧ ∃ u rest, after = u :: rest ∧ u.kind ≠ .delimiter .colon
          ∧ ¬ Completable (before ++ [t, u])) := by
  have hplace : (match Schema.ofSource colonMissing with
      | .ok _ => none
      | .error e => some e.span.range) = some (19, 24) := by decide +kernel
  cases h : Schema.ofSource colonMissing with
  | ok schema =>
      rw [h] at hplace
      cases hplace
  | error e =>
      rw [h] at hplace
      exact ⟨e, rfl, Option.some.inj hplace, Schema.ofSource_error_first h⟩

end RpcSchema
