import Mathlib.Data.List.DropRight
import RpcSchema.Grammar.File
import RpcSchema.Proofs.Grammar.FileSimulation
import RpcSchema.Proofs.Grammar.Layout
import RpcSchema.Proofs.Schema.Editing

/-!
# Words that were scanned beforehand

A `Lookahead` scans as it goes, always a few words ahead of what is taken.  Here it is compared with a supply
that scans nothing: `Prelexed` is given all words of a source in a list.

**The list.**  `Source.lexed` is the significant tokens of a source up to and with the end of the file, each
with the line feeds before it.  `Source.HasWord` tells where a word of the list stands among the tokens, and
how its line feeds are seen there (`Source.getElem?_lexed`).

**The window.**  After `k` words the window holds the words of the list from number `k` on, and behind the
list ends of the file.  So both supplies tell the same as long as the same number of words was taken of
them (`Lookahead.prelexed`), and the grammar finds the same on both, places and all
(`Simulation.outcome_schema`).

**Past the window** the grammar never looks.  A `Windowed` supply answers there whatever one likes, and what
is read from it is the same all the while.
-/

namespace RpcSchema

open TokenSupply LawfulSupply

/-! ## The words of a source in a list -/

/-- The words of a source up to and with the end of the file. -/
def Source.lexed (source : Source) : List Word :=
  (counted Token.isFeed 0 source.tokens).map Word.ofEntry

/-- The word behind the end of the file, which is the end of the file again. -/
def Source.ending (source : Source) : Word := ⟨source.tokens.getLastD default, 0⟩

/-- A word has a number in a source: it is a significant token with so many significant tokens in front of
it, and its line feeds are all that stand directly before it. -/
inductive Source.HasWord (source : Source) : Nat → Word → Prop where
  | intro {before feeds after : List Token} {w : Word} :
      source.tokens = before ++ feeds ++ w.token :: after → w.kind ≠ .newline →
      (∀ t ∈ before.getLast?, t.kind ≠ .newline) → (∀ t ∈ feeds, t.kind = .newline) →
      feeds.length = w.breaks → HasWord source (before.countP (·.kind ≠ .newline)) w

section

variable {α : Type} {isFeed : α → Bool} {before feeds as : List α} {a : α} {n k : Nat}

/-- What comes behind line feeds is counted with them, at the number of what is in front. -/
lemma getElem?_counted_of_split (after : List α) (hbefore : ∀ b ∈ before.getLast?, ¬ isFeed b)
    (hfeeds : ∀ f ∈ feeds, isFeed f) (ha : ¬ isFeed a) :
    (counted isFeed 0 (before ++ feeds ++ a :: after))[before.countP (!isFeed ·)]?
      = some (a, feeds.length) := by
  have hfront : counted isFeed 0 (feeds ++ a :: after)
      = (a, feeds.length) :: counted isFeed 0 after := by
    rw [counted_feeds hfeeds, Nat.zero_add, counted, if_neg ha]
  rcases List.eq_nil_or_concat' before with rfl | ⟨before, b, rfl⟩
  · rw [List.nil_append, hfront]
    rfl
  · have hb : ¬ isFeed b := hbefore b (by simp)
    have hlength : (counted isFeed 0 (before ++ [b])).length = (before ++ [b]).countP (!isFeed ·) := by
      rw [← List.length_map, map_fst_counted, List.countP_eq_length_filter]
    rw [List.append_assoc, counted_append hb, hfront, ← hlength,
      List.getElem?_append_right (Nat.le_refl _), Nat.sub_self, List.getElem?_cons_zero]

/-- A list ends in line feeds, and what is in front of them does not. -/
lemma exists_feeds (isFeed : α → Bool) (as : List α) : ∃ before feeds, as = before ++ feeds
    ∧ (∀ b ∈ before.getLast?, ¬ isFeed b) ∧ ∀ f ∈ feeds, isFeed f := by
  refine ⟨as.rdropWhile isFeed, as.rtakeWhile isFeed, (List.rdropWhile_append_rtakeWhile ..).symm,
    fun b hb => ?_, fun f hf => List.mem_rtakeWhile_imp hf⟩
  obtain ⟨hne, rfl⟩ := List.mem_getLast?_eq_getLast hb
  exact List.rdropWhile_last_not _ _ hne

/-- What is counted is found behind the line feeds that were counted. -/
lemma exists_split_of_getElem?_counted (h : (counted isFeed 0 as)[n]? = some (a, k)) :
    ∃ before feeds after, as = before ++ feeds ++ a :: after ∧ before.countP (!isFeed ·) = n
      ∧ (∀ b ∈ before.getLast?, ¬ isFeed b) ∧ (∀ f ∈ feeds, isFeed f) ∧ feeds.length = k
      ∧ ¬ isFeed a := by
  have hfilter : (as.filter (!isFeed ·))[n]? = some a := by
    rw [← map_fst_counted 0, List.getElem?_map, h]
    rfl
  obtain ⟨hn, ha⟩ := List.getElem?_eq_some_iff.1 hfilter
  have hcut := (List.take_append_drop n (as.filter (!isFeed ·))).symm
  rw [List.drop_eq_getElem_cons hn, ha] at hcut
  obtain ⟨front, back, rfl, hfront, hback⟩ := List.filter_eq_append_iff.1 hcut
  obtain ⟨feeds, after, rfl, hfeeds, hfeed, -⟩ := List.filter_eq_cons_iff.1 hback
  obtain ⟨before, feeds', hsplit, hbefore, hfeeds'⟩ := exists_feeds isFeed (front ++ feeds)
  have hcount : before.countP (!isFeed ·) = n := by
    have hzero : feeds'.countP (!isFeed ·) = 0 :=
      List.countP_eq_zero.2 fun f hf => by simp [hfeeds' f hf]
    have hcount := congrArg (List.countP (!isFeed ·)) hsplit
    rwa [List.countP_append, List.countP_append, List.countP_eq_zero.2 hfeeds, hzero,
      List.countP_eq_length_filter, hfront, List.length_take_of_le hn.le, eq_comm] at hcount
  have hne : ¬ isFeed a := by simpa using hfeed
  have heq : front ++ (feeds ++ a :: after) = before ++ feeds' ++ a :: after := by
    rw [← hsplit, List.append_assoc]
  have hk := getElem?_counted_of_split after hbefore hfeeds' hne
  rw [← heq, hcount, h] at hk
  obtain ⟨-, rfl⟩ := Prod.mk.inj (Option.some.inj hk)
  exact ⟨before, feeds', after, heq, hcount, hbefore, hfeeds', rfl, hne⟩

end

namespace Source

variable (source : Source)

lemma map_token_lexed : source.lexed.map (·.token) = source.significantTokens := by
  rw [significantTokens_eq, lexed, List.map_map]
  rfl

/-- The list has the words of a source under their numbers. -/
lemma getElem?_lexed {n : Nat} {w : Word} : source.lexed[n]? = some w ↔ source.HasWord n w := by
  have hfeed : (fun t : Token => !t.isFeed) = fun t => decide (t.kind ≠ .newline) := by
    funext t
    simp [Token.isFeed]
  rw [lexed, List.getElem?_map, Option.map_eq_some_iff]
  constructor
  · rintro ⟨⟨t, k⟩, hentry, rfl⟩
    obtain ⟨before, feeds, after, htokens, rfl, hbefore, hfeeds, hlength, ht⟩ :=
      exists_split_of_getElem?_counted hentry
    rw [hfeed]
    exact .intro htokens (fun hkind => ht (Token.isFeed_iff.2 hkind))
      (fun b hb hkind => hbefore b hb (Token.isFeed_iff.2 hkind))
      (fun f hf => Token.isFeed_iff.1 (hfeeds f hf)) hlength
  · rintro ⟨htokens, hw, hbefore, hfeeds, hlength⟩
    refine ⟨(w.token, w.breaks), ?_, rfl⟩
    rw [htokens, ← hlength, ← hfeed]
    exact getElem?_counted_of_split _ (fun b hb h => hbefore b hb (Token.isFeed_iff.1 h))
      (fun f hf => Token.isFeed_iff.2 (hfeeds f hf)) fun h => hw (Token.isFeed_iff.1 h)

lemma kind_ending : source.ending.kind = .endOfFile := by
  obtain ⟨front, last, htokens, -, hlast, -⟩ := source.tokens_tile.ends
  rw [ending, htokens, List.getLastD_concat]
  exact hlast

/-- The list is the words and the end of the file. -/
lemma lexed_eq : ∃ breaks, source.lexed = source.words ++ [⟨source.ending.token, breaks⟩] := by
  obtain ⟨front, last, htokens, hfront, hlast, -⟩ := source.tokens_tile.ends
  obtain ⟨k, hk⟩ := exists_counted_append hfront 0
  obtain ⟨hcounted, hwords⟩ := hk [last]
  refine ⟨k, ?_⟩
  rw [lexed, words, ending, htokens, hcounted, hwords, List.getLastD_concat]
  simp [counted, significant, Token.isFeed, hlast, Word.ofEntry]

/-- The line feeds are with the word that they stand before. -/
example : (⟨"main.rpcdl", "type // a\n\n\n[\n"⟩ : Source).lexed.map (fun w => (w.token.literal, w.breaks))
    = [("type", 0), ("a", 0), ("[", 3), ("", 1)] := by decide +kernel

/-- The word with a number is the one of the list, and behind the list the end of the file. -/
lemma wordAt_eq (n : Nat) : source.wordAt n = source.lexed.getD n source.ending := by
  obtain ⟨breaks, hlexed⟩ := source.lexed_eq
  refine Scanner.wordAt_eq_getD ?_ n
  have hlast := congrArg (Option.map (·.token)) (congrArg List.getLast? hlexed)
  rwa [lexed, List.getLast?_map, List.getLast?_concat, Option.map_map] at hlast

/-- The file ends behind the words. -/
lemma kind_wordAt_ne_end_iff {n : Nat} :
    (source.wordAt n).kind ≠ .endOfFile ↔ n < source.words.length := by
  obtain ⟨breaks, hlexed⟩ := source.lexed_eq
  rw [wordAt_eq, hlexed, List.getD_eq_getElem?_getD]
  by_cases hn : n < source.words.length
  · rw [List.getElem?_append_left hn, List.getElem?_eq_getElem hn]
    exact iff_of_true (token_of_mem_words (List.getElem_mem hn)).2 hn
  · rw [List.getElem?_append_right (Nat.le_of_not_lt hn)]
    refine iff_of_false (fun hne => hne ?_) hn
    cases n - source.words.length <;> exact source.kind_ending

end Source

/-! ## A supply of words in a list -/

/-- Words that were scanned beforehand, and the word that is behind them again and again. -/
structure Prelexed where
  last : Position
  words : List Word
  ending : Word

namespace Prelexed

/-- The words of a source, none of them taken. -/
def ofSource (source : Source) : Prelexed := ⟨.origin, source.lexed, source.ending⟩

/-- The word that stands the given number of words ahead. -/
def peek (p : Prelexed) (ahead : Nat) : Word := p.words.getD ahead p.ending

/-- The supply behind its first word. -/
def advance (p : Prelexed) : Prelexed :=
  { p with last := (p.peek 0).token.span.stop, words := p.words.tail }

instance : TokenSupply Prelexed where
  peek := peek
  advance := advance
  last := last
  remaining p := p.words.countP (·.token.kind ≠ .endOfFile)

instance : LawfulSupply Prelexed where
  Ready p := p.ending.kind = .endOfFile
  ready_advance h := h
  peek_one {p} _ := by
    show p.words.getD 1 _ = p.words.tail.getD 0 _
    cases p.words <;> rfl
  last_advance _ := rfl
  remaining_advance {p} h hne := by
    obtain ⟨last, words, ending⟩ := p
    cases words with
    | nil => exact absurd h hne
    | cons w words =>
        have hw : w.token.kind ≠ .endOfFile := hne
        show words.countP (·.token.kind ≠ .endOfFile)
          < (w :: words).countP (·.token.kind ≠ .endOfFile)
        rw [List.countP_cons_of_pos (by simpa using hw)]
        exact Nat.lt_succ_self _

/-- The words of a source behind some that were taken. -/
def taken (source : Source) (k : Nat) : Prelexed := TokenSupply.advance^[k] (ofSource source)

lemma advance_taken (source : Source) (k : Nat) :
    TokenSupply.advance (taken source k) = taken source (k + 1) :=
  (Function.iterate_succ_apply' TokenSupply.advance k _).symm

lemma words_taken (source : Source) (k : Nat) :
    (taken source k).words = source.lexed.drop k ∧ (taken source k).ending = source.ending := by
  induction k with
  | zero => exact ⟨rfl, rfl⟩
  | succ k ih =>
      rw [← advance_taken]
      obtain ⟨hwords, hending⟩ := ih
      refine ⟨?_, hending⟩
      show (taken source k).words.tail = _
      rw [hwords, List.tail_drop]

lemma peek_taken (source : Source) (k : Nat) :
    TokenSupply.peek (taken source k) 0 = source.wordAt k := by
  obtain ⟨hwords, hending⟩ := words_taken source k
  show (taken source k).words.getD 0 (taken source k).ending = _
  rw [hwords, hending, source.wordAt_eq, List.getD_eq_getElem?_getD, List.getD_eq_getElem?_getD,
    List.getElem?_drop, Nat.add_zero]

lemma ready_taken (source : Source) (k : Nat) : Ready (taken source k) := by
  show (taken source k).ending.kind = _
  rw [(words_taken source k).2]
  exact source.kind_ending

/-- What remains is counted by the words in front of the end of the file. -/
lemma remaining_taken (source : Source) (k : Nat) :
    TokenSupply.remaining (taken source k) = source.words.length - k := by
  obtain ⟨breaks, hlexed⟩ := source.lexed_eq
  have hwords : ∀ w ∈ source.words.drop k, w.token.kind ≠ .endOfFile :=
    fun w hw => (Source.token_of_mem_words (List.mem_of_mem_drop hw)).2
  have hstop : ∀ (n : Nat), ∀ w ∈ [(⟨source.ending.token, breaks⟩ : Word)].drop n,
      ¬ decide (w.token.kind ≠ .endOfFile) := by
    intro n w hw
    rw [List.mem_singleton.1 (List.mem_of_mem_drop hw)]
    simpa using source.kind_ending
  show (taken source k).words.countP (·.token.kind ≠ .endOfFile) = _
  rw [(words_taken source k).1, hlexed, List.drop_append, List.countP_append,
    List.countP_eq_zero.2 (hstop _), List.countP_eq_length.2 (by simpa using hwords), List.length_drop,
    Nat.add_zero]

end Prelexed

/-! ## Supplies that tell the same, places and all -/

/-- Each place corresponds to itself alone. -/
def Correspondence.same : Correspondence where
  Place := Eq
  left := id
  right := id
  span h := h
  through h h' := by rw [h, h']

/-- What a reader found. -/
def Reader.outcome {σ α : Type} : EStateM.Result SyntaxError σ α → Except SyntaxError α
  | .ok a _ => .ok a
  | .error e _ => .error e

section

variable {σ τ : Type} [TokenSupply σ] [LawfulSupply σ] [TokenSupply τ] [LawfulSupply τ]

/-- On supplies that tell the same a file is read as the same schema, or refused by the same error. -/
theorem Simulation.outcome_schema (S : Simulation .same σ τ) {s : σ} {t : τ} (h : S.Rel s t) :
    Reader.outcome (Reader.schema s) = Reader.outcome (Reader.schema t) := by
  rcases (S.schema_alike h).answers_or_errors with
    ⟨schema, s, schema', t, hs, ht, hschema, -⟩ | ⟨e, s, e', t, hs, ht, hproblem, hplace⟩
  · have hsame : ({} : Edit).schema schema = ({} : Edit).schema schema' := hschema
    rw [Edit.schema_unchanged, Edit.schema_unchanged] at hsame
    rw [hs, ht, hsame]
    rfl
  · obtain ⟨span, problem⟩ := e
    obtain ⟨span', problem'⟩ := e'
    obtain rfl : span = span' := hplace
    obtain rfl : problem = problem' := hproblem
    rw [hs, ht]
    rfl

/-! ## Past the window -/

/-- A supply that is known as far as a window reaches, and anything past that. -/
structure Windowed (σ : Type) where
  supply : σ
  beyond : Nat → Word

namespace Windowed

instance : TokenSupply (Windowed σ) where
  peek s ahead := if ahead < lookahead then peek s.supply ahead else s.beyond ahead
  advance s := { s with supply := advance s.supply }
  last s := last s.supply
  remaining s := remaining s.supply

instance : LawfulSupply (Windowed σ) where
  Ready s := Ready s.supply
  ready_advance {s} h := by
    show Ready (TokenSupply.advance s.supply)
    exact ready_advance h
  peek_one {s} h := by
    show TokenSupply.peek s.supply 1 = TokenSupply.peek (TokenSupply.advance s.supply) 0
    exact peek_one h
  last_advance s := last_advance s.supply
  remaining_advance {s} h hne := by
    show TokenSupply.remaining (TokenSupply.advance s.supply) < TokenSupply.remaining s.supply
    exact remaining_advance h hne

/-- What is past the window makes no difference. -/
def simulation (σ : Type) [TokenSupply σ] [LawfulSupply σ] : Simulation .same (Windowed σ) σ where
  Rel s t := s.supply = t ∧ Ready t
  ready := by
    rintro s _ ⟨rfl, h⟩
    exact ⟨show Ready s.supply from h, h⟩
  advance := by
    rintro s _ ⟨rfl, h⟩
    exact ⟨rfl, ready_advance h⟩
  token := by
    rintro s _ ⟨rfl, h⟩
    exact ⟨rfl, rfl⟩
  attached := by
    rintro s _ ⟨rfl, h⟩ _
    exact Iff.rfl
  remaining := by
    rintro s s' _ _ ⟨rfl, h⟩ ⟨rfl, h'⟩
    exact Iff.rfl

end Windowed

end

/-! ## The window and the list -/

namespace Lookahead

/-- A window and a list tell the same when as many words of the source were taken of both. -/
def prelexed (source : Source) : Simulation .same Lookahead Prelexed where
  Rel w p := ∃ k, w = .taken (.ofSource source) k ∧ p = .taken source k
  ready := by
    rintro _ _ ⟨k, rfl, rfl⟩
    exact ⟨ready_taken _ k, Prelexed.ready_taken source k⟩
  advance := by
    rintro _ _ ⟨k, rfl, rfl⟩
    exact ⟨k + 1, advance_taken _ k, Prelexed.advance_taken source k⟩
  token := by
    rintro _ _ ⟨k, rfl, rfl⟩
    rw [peek_taken, Prelexed.peek_taken]
    exact ⟨rfl, rfl⟩
  attached := by
    rintro _ _ ⟨k, rfl, rfl⟩ _
    rw [peek_one (ready_taken _ k), peek_one (Prelexed.ready_taken source k), advance_taken,
      Prelexed.advance_taken, peek_taken, Prelexed.peek_taken]
    rfl
  remaining := by
    rintro _ _ _ _ ⟨k, rfl, rfl⟩ ⟨j, rfl, rfl⟩
    rw [remaining_taken_lt_iff, Prelexed.remaining_taken, Prelexed.remaining_taken]
    show k < j ∧ (source.wordAt k).kind ≠ .endOfFile ↔ _
    rw [source.kind_wordAt_ne_end_iff]
    omega

variable (source : Source)

/-- **A window is a part of the list.**  The list of a source holds its significant tokens, each with the
line feeds directly before it.  When `k` words were taken the window holds as many words as it always does,
which are those of the list from number `k` on and ends of the file behind the list, and the word that was
taken last stops where the supply says.  Whatever is taken to stand past the window, what is read from there
on is what is read from the list; and so it is for the file as a whole. -/
theorem window_refines_list :
    (source.lexed.map (·.token) = source.significantTokens
      ∧ (∀ n w, source.lexed[n]? = some w ↔ source.HasWord n w)
      ∧ source.ending.kind = .endOfFile)
    ∧ (∀ k, (taken (.ofSource source) k).window.length = lookahead
      ∧ ∀ i < lookahead, (taken (.ofSource source) k).window[i]?
        = some (source.lexed.getD (k + i) source.ending))
    ∧ ((taken (.ofSource source) 0).last = .origin
      ∧ ∀ k, (taken (.ofSource source) (k + 1)).last = (source.lexed.getD k source.ending).span.stop)
    ∧ (∀ k beyond,
      Reader.outcome (Reader.schema (Windowed.mk (taken (.ofSource source) k) beyond))
          = Reader.outcome (Reader.schema (Prelexed.taken source k))
        ∧ Reader.outcome (Reader.schema (taken (.ofSource source) k))
          = Reader.outcome (Reader.schema (Prelexed.taken source k)))
    ∧ Schema.ofSource source = Reader.outcome (Reader.schema (Prelexed.ofSource source)) := by
  have hread : ∀ k, Reader.outcome (Reader.schema (taken (.ofSource source) k))
      = Reader.outcome (Reader.schema (Prelexed.taken source k)) :=
    fun k => (prelexed source).outcome_schema ⟨k, rfl, rfl⟩
  refine ⟨⟨source.map_token_lexed, fun n w => source.getElem?_lexed, source.kind_ending⟩,
    fun k => ⟨?_, fun i hi => ?_⟩, ⟨rfl, fun k => ?_⟩, fun k beyond => ⟨?_, hread k⟩, ?_⟩
  · exact ready_taken _ k
  · rw [(window_taken _ k).1, ← source.wordAt_eq]
    match i, hi with
    | 0, _ => rfl
    | 1, _ => rfl
    | 2, _ => rfl
    | 3, _ => rfl
  · rw [← source.wordAt_eq, ← advance_taken]
    show TokenSupply.last (TokenSupply.advance (taken (.ofSource source) k)) = _
    rw [last_advance, peek_taken]
    rfl
  · rw [← hread]
    exact (Windowed.simulation Lookahead).outcome_schema ⟨rfl, ready_taken _ k⟩
  · refine Eq.trans ?_ (hread 0)
    rw [Schema.ofSource]
    show _ = Reader.outcome (Reader.schema (ofSource source))
    cases Reader.schema (ofSource source) <;> rfl

end Lookahead

end RpcSchema
