import RpcSchema.Proofs.Grammar.Layout
import RpcSchema.Proofs.Token.Rendering

/-!
# Going on from a place in a text

The text up to a token can be gone on with in another way.  Behind a line feed anything may be written,
and what was read in front of it is read again (`Source.exists_continued`).  The tokens in front must
all be legal, since what was opened and never closed takes up all that comes.
-/

namespace RpcSchema

variable {text behind : List Char} {ls : List Lexeme}

/-- What is read in front of a text is read in front of another that may follow. -/
lemma Reads.followed {behind' : List Char} (h : Reads text ls behind)
    (hlegal : ∀ l ∈ ls, l.kind ≠ .illegal) (hfollow : MayFollow behind behind') :
    Reads text ls behind' := by
  induction h with
  | nil => exact .nil
  | cons hgap hc hspelled _ ih =>
      rw [List.forall_mem_cons] at hlegal
      exact .cons hgap hc (hspelled.followed hlegal.1 hfollow) (ih hlegal.2 hfollow)

namespace Scanner

variable {s : Scanner} {front : List Char} {ts us : List Token} {t : Token}

/-- The text up to a token is read as the tokens up to it. -/
lemma Stands.reads_front (h : s.Stands front) (hdrain : s.drain.1 = ts ++ t :: us) :
    ∃ text behind, s.rest = text ++ behind ∧ Reads text (ts.map Token.toLexeme) behind := by
  induction ts generalizing s front with
  | nil => exact ⟨[], s.rest, rfl, .nil⟩
  | cons a ts ih =>
      obtain ⟨rfl, hne, hdrain⟩ := drain_cons hdrain (by simp)
      obtain ⟨gap, c, x, hgap, hc, hchars, hspelled, -, hstands⟩ := h.next_token hne
      obtain ⟨text, behind, htext, hreads⟩ := ih hstands hdrain
      rw [htext] at hchars hspelled
      refine ⟨gap ++ (c :: x ++ text), behind, ?_, .cons hgap hc hspelled hreads⟩
      rw [hchars, List.append_assoc, List.append_assoc (c :: x)]

end Scanner

/-- Whether a lexeme may be written behind a line feed and in front of anything, and is seen by the
grammar. -/
structure Lexeme.IsPlain (l : Lexeme) : Prop where
  writable : l.Writable
  kind_ne_newline : l.kind ≠ .newline
  kind_ne_comment : l.kind ≠ .lineComment

lemma Lexeme.IsPlain.lexemes_rendered (h : ∀ l ∈ ls, l.IsPlain) : lexemes (rendered ls) = ls := by
  refine RpcSchema.lexemes_rendered (fun l hl => (h l hl).writable) ?_
  induction ls with
  | nil => exact .nil
  | cons l ls ih =>
      rw [List.forall_mem_cons] at h
      exact List.isChain_cons.2 ⟨fun m _ hl => absurd hl h.1.kind_ne_comment, ih h.2⟩

namespace Source

variable {source : Source} {before after : List Token} {t : Token}

lemma filter_map_tokens (source : Source) : source.significantTokens.map Token.toLexeme
    = (source.tokens.map Token.toLexeme).filter fun l => l.kind ≠ .newline := by
  rw [significantTokens, List.filter_map]
  rfl

/-- **Another end.**  Behind the significant tokens up to one, any lexemes may be written that the
grammar sees. -/
lemma exists_continued (htokens : source.significantTokens = before ++ t :: after)
    (hlegal : ∀ b ∈ before, b.kind ≠ .illegal) (hplain : ∀ l ∈ ls, l.IsPlain) :
    ∃ source' : Source, source'.significantTokens.map Token.toLexeme
      = before.map Token.toLexeme ++ (ls ++ [.stop]) := by
  obtain ⟨ts, us, hsplit, hbefore, hrest⟩ := List.filter_eq_append_iff.1 htokens
  obtain ⟨feeds, vs, rfl, hfeeds, -, -⟩ := List.filter_eq_cons_iff.1 hrest
  -- the tokens in front, line feeds among them
  have hfront : (ts ++ feeds).filter (fun b => b.kind ≠ .newline) = before := by
    rw [List.filter_append, hbefore, List.filter_eq_nil_iff.2 hfeeds, List.append_nil]
  have hnone : ∀ l ∈ (ts ++ feeds).map Token.toLexeme, l.kind ≠ .illegal := by
    intro l hl
    obtain ⟨b, hb, rfl⟩ := List.mem_map.1 hl
    by_cases hfeed : b.kind = .newline
    · rw [hfeed]
      nofun
    · refine hlegal b ?_
      rw [← hfront, List.mem_filter]
      exact ⟨hb, decide_eq_true hfeed⟩
  rw [← List.append_assoc] at hsplit
  obtain ⟨text, behind, -, hreads⟩ := (Scanner.stands_ofSource source).reads_front hsplit
  have hread := (hreads.followed hnone (mayFollow_lineFeed behind (rendered ls))).lexemes
  rw [lexemes_lineFeed, Lexeme.IsPlain.lexemes_rendered hplain] at hread
  have hseen : ls.filter (fun l => l.kind ≠ .newline) = ls :=
    List.filter_eq_self.2 fun l hl => decide_eq_true (hplain l hl).kind_ne_newline
  refine ⟨⟨"", String.ofList (text ++ '\n' :: rendered ls)⟩, ?_⟩
  have hchars : chars ⟨"", String.ofList (text ++ '\n' :: rendered ls)⟩ = text ++ '\n' :: rendered ls :=
    String.toList_ofList
  rw [filter_map_tokens, map_tokens, hchars, hread, ← hfront, List.filter_append, List.filter_append,
    List.filter_map, List.filter_cons_of_neg (by simp [Lexeme.lineFeed]), hseen, List.append_assoc]
  rfl

end Source

end RpcSchema
