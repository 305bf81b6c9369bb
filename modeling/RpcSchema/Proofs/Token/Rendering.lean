import Mathlib.Data.List.Chain
import RpcSchema.Proofs.Token.Layout

/-!
# Writing lexemes out

`Lexeme.written` is the text of a lexeme, with its marks, and `rendered` that of a list of lexemes,
with a space between every two.  Which lexemes can be written so is `Lexeme.Writable`, and says of
each form what its literal must be: an identifier is no reserved word, the body of a string has its
quotes and backslashes paired (`Text.Paired`), and what stands between marks neither holds the
closing mark nor has blanks around it.

**What is written is spelled.**  `Lexeme.Writable.spelled` goes through the forms: each of them ends
where its text ends as soon as a separating character or nothing follows.  A comment to the end of
its line also takes the space behind it, which is not part of its literal, so it needs a line feed
behind that space.

The lexemes of a rendered list follow by induction on the list (`lexemes_rendered`).
-/

namespace RpcSchema

/-! ## Bodies of strings -/

/-- The raw body of a string: from the left, every backslash pairs with the character behind it, and
no quote stands without its backslash. -/
inductive Text.Paired : List Char → Prop where
  | nil : Paired []
  | pair {c : Char} {cs : List Char} : Paired cs → Paired ('\\' :: c :: cs)
  | plain {c : Char} {cs : List Char} : c ≠ '"' → c ≠ '\\' → Paired cs → Paired (c :: cs)

namespace Text

variable {body after mark : List Char}

lemma closeString_plain {c : Char} {cs : List Char} (hquote : c ≠ '"') (hbackslash : c ≠ '\\') :
    closeString (c :: cs) = (closeString cs).map fun (body, after) => (c :: body, after) :=
  closeString.eq_5 c cs hquote (fun _ hc => absurd hc hbackslash) fun _ hc => absurd hc hbackslash

/-- A string whose body is paired closes at the quote behind the body. -/
lemma Paired.closeString (h : Paired body) : closeString (body ++ '"' :: after) = some (body, after) := by
  induction h with
  | nil => rfl
  | @pair c cs _ ih =>
      by_cases hquote : c = '"'
      · subst hquote
        rw [List.cons_append, List.cons_append, Text.closeString, ih]
        rfl
      by_cases hbackslash : c = '\\'
      · subst hbackslash
        rw [List.cons_append, List.cons_append, Text.closeString, ih]
        rfl
      -- a backslash in front of any other character is a character by itself
      have halone : Text.closeString ('\\' :: c :: (cs ++ '"' :: after))
          = (Text.closeString (c :: (cs ++ '"' :: after))).map
            fun (body, after) => ('\\' :: body, after) := by
        refine closeString.eq_5 '\\' _ (by decide) (fun _ _ hr => ?_) fun _ _ hr => ?_
        · exact hquote (List.cons.inj hr).1
        · exact hbackslash (List.cons.inj hr).1
      rw [List.cons_append, List.cons_append, halone, closeString_plain hquote hbackslash, ih]
      rfl
  | plain hquote hbackslash _ ih =>
      rw [List.cons_append, closeString_plain hquote hbackslash, ih]
      rfl

/-! ## Text between marks -/

/-- A mark that reaches beyond a text takes up the character behind the text. -/
lemma prefix_of_apart {c : Char} {cs ds : List Char} (hc : c ∉ mark) (h : mark <+: cs ++ c :: ds) :
    mark <+: cs := by
  have hfront : cs ++ [c] <+: cs ++ c :: ds := ⟨ds, by simp⟩
  rcases List.prefix_or_prefix_of_prefix h hfront with hin | hout
  · rcases List.prefix_concat_iff.1 hin with rfl | hin
    · exact absurd (List.mem_append_right cs (List.mem_singleton_self c)) hc
    · exact hin
  · exact absurd (hout.subset (List.mem_append_right cs (List.mem_singleton_self c))) hc

/-- A mark that does not occur in a text is found behind the text, if a character that is no part of
the mark keeps the two apart. -/
lemma splitAtMark_of_apart {c : Char} (hmark : mark ≠ []) (hc : c ∉ mark) (h : ¬ mark <:+: body) :
    splitAtMark mark (body ++ c :: mark) = some (body ++ [c], []) := by
  have hnot : ∀ cs, ¬ mark <:+: cs → ¬ mark.isPrefixOf (cs ++ c :: mark) := fun cs hcs hprefix =>
    hcs (prefix_of_apart hc (List.isPrefixOf_iff_prefix.1 hprefix)).isInfix
  induction body with
  | nil =>
      have hfound : splitAtMark mark mark = some ([], []) := by
        obtain ⟨m, ms, rfl⟩ := List.exists_cons_of_ne_nil hmark
        simp [splitAtMark]
      have hfront : ¬ mark.isPrefixOf (c :: mark) := hnot [] h
      rw [List.nil_append, splitAtMark, if_neg hfront, hfound]
      rfl
  | cons d ds ih =>
      have hrest : ¬ mark <:+: ds := fun hin => h (hin.trans (List.suffix_cons d ds).isInfix)
      have hfront : ¬ mark.isPrefixOf (d :: (ds ++ c :: mark)) := hnot (d :: ds) h
      rw [List.cons_append, splitAtMark, if_neg hfront, ih hrest]
      rfl

/-- A mark without a space in it is found behind a text that does not hold it, with a space before
and behind the text. -/
lemma splitAtMark_spaced (hmark : mark ≠ []) (hspace : ' ' ∉ mark) (h : ¬ mark <:+: body) :
    splitAtMark mark (' ' :: (body ++ [' ']) ++ mark) = some (' ' :: (body ++ [' ']), []) := by
  have hfree : ¬ mark <:+: ' ' :: body := by
    intro hin
    rcases List.infix_cons_iff.1 hin with hprefix | hin
    · have hnil : mark <+: [] := prefix_of_apart hspace hprefix
      exact hmark (List.eq_nil_of_prefix_nil hnil)
    · exact h hin
  have hsplit := splitAtMark_of_apart hmark hspace hfree
  rwa [List.cons_append, List.append_cons _ ' ' mark] at hsplit

lemma trim_space : trim (' ' :: body) = trim body := by
  rw [trim, trim, trimLeft, trimLeft, List.dropWhile_cons_of_pos (by decide)]

/-- Text without blanks around it, put between two spaces, is what trimming brings back. -/
lemma trim_spaced (h : trim body = body) : trim (' ' :: (body ++ [' '])) = body := by
  have hblank : ∀ c ∈ [' '], isBlank c := by simpa using (by decide : isBlank ' ' = true)
  rw [trim_space, trim_append_blanks hblank, h]

end Text

/-! ## Lexemes that can be written -/

namespace Lexeme

/-- How a lexeme is written. -/
def written (l : Lexeme) : List Char :=
  match l.kind with
  | .string => '"' :: (l.literal.toList ++ ['"'])
  | .docstring => docstringMark ++ ' ' :: (l.literal.toList ++ ' ' :: docstringMark)
  | .blockComment => '/' :: '*' :: ' ' :: (l.literal.toList ++ ' ' :: commentMark)
  | .lineComment => '/' :: '/' :: ' ' :: l.literal.toList
  | _ => l.literal.toList

/-- Whether a lexeme is one that can be written. -/
inductive Writable : Lexeme → Prop where
  | identifier {c : Char} {tail : List Char} : c.isAlpha → (∀ d ∈ tail, d.isAlphanum) →
      Kind.ofWord? (String.ofList (c :: tail)) = none →
      Writable ⟨.identifier, String.ofList (c :: tail)⟩
  | keyword (k : Keyword) : Writable ⟨.keyword k, k.word⟩
  | boolean (b : Bool) : Writable ⟨.boolean b, toString b⟩
  | integer {digits : List Char} : digits ≠ [] → (∀ d ∈ digits, d.isDigit) →
      Writable ⟨.integer, String.ofList digits⟩
  | float {whole fraction : List Char} : whole ≠ [] → (∀ d ∈ whole, d.isDigit) → fraction ≠ [] →
      (∀ d ∈ fraction, d.isDigit) → Writable ⟨.float, String.ofList (whole ++ '.' :: fraction)⟩
  | delimiter (d : Delimiter) : Writable ⟨.delimiter d, String.singleton d.char⟩
  | lineFeed : Writable .lineFeed
  | string {body : List Char} : Text.Paired body → Writable ⟨.string, String.ofList body⟩
  | docstring {body : List Char} : Text.trim body = body → ¬ docstringMark <:+: body →
      Writable ⟨.docstring, String.ofList body⟩
  | blockComment {body : List Char} : Text.trim body = body → ¬ commentMark <:+: body →
      Writable ⟨.blockComment, String.ofList body⟩
  | lineComment {body : List Char} : Text.trim body = body → '\n' ∉ body →
      Writable ⟨.lineComment, String.ofList body⟩

variable {l : Lexeme} {ls : List Lexeme} {behind : List Char}

/-- A word of letters and digits is spelled as itself in front of what ends it. -/
lemma spelled_word {w : String} {c : Char} {tail : List Char} (hw : w.toList = c :: tail)
    (hc : c.isAlpha) (htail : ∀ d ∈ tail, d.isAlphanum) (hbehind : ∀ d ∈ behind.head?, IsApart d) :
    Spelled w.toList behind ⟨Kind.ofWord w, w⟩ := by
  have hspelled : Spelled (c :: tail) behind _ :=
    .word hc htail fun d hd => (hbehind d hd).not.1
  rwa [← hw, String.ofList_toList] at hspelled

lemma isWord_keyword (k : Keyword) :
    ∃ c tail, k.word.toList = c :: tail ∧ c.isAlpha ∧ ∀ d ∈ tail, d.isAlphanum := by
  cases k with
  | primitive p => cases p <;> exact ⟨_, _, rfl, by decide, List.all_eq_true.mp (by decide)⟩
  | _ => exact ⟨_, _, rfl, by decide, List.all_eq_true.mp (by decide)⟩

lemma isWord_boolean (b : Bool) :
    ∃ c tail, (toString b).toList = c :: tail ∧ c.isAlpha ∧ ∀ d ∈ tail, d.isAlphanum := by
  cases b <;> exact ⟨_, _, rfl, by decide, List.all_eq_true.mp (by decide)⟩

/-- **What is written is spelled**, in front of a separating character or of nothing, and a comment to
the end of its line in front of a line feed. -/
lemma Writable.spelled (h : l.Writable) (hbehind : ∀ c ∈ behind.head?, IsApart c)
    (hline : l.kind = .lineComment → ∀ c ∈ behind.head?, c = '\n') :
    Spelled l.written behind l := by
  have hdigit : ∀ d ∈ behind.head?, ¬ d.isDigit := fun d hd => (hbehind d hd).not.2.1
  cases h with
  | @identifier c tail hc htail hfree =>
      have hkind : Kind.ofWord (String.ofList (c :: tail)) = .identifier := by
        rw [Kind.ofWord, hfree]
        rfl
      have hspelled := spelled_word String.toList_ofList hc htail hbehind
      rwa [hkind] at hspelled
  | keyword k =>
      obtain ⟨c, tail, hw, hc, htail⟩ := isWord_keyword k
      have hkind : Kind.ofWord k.word = .keyword k := by
        rw [Kind.ofWord, Kind.ofWord?_word]
        rfl
      have hspelled := spelled_word hw hc htail hbehind
      rwa [hkind] at hspelled
  | boolean b =>
      obtain ⟨c, tail, hw, hc, htail⟩ := isWord_boolean b
      have hkind : Kind.ofWord (toString b) = .boolean b := by cases b <;> rfl
      have hspelled := spelled_word hw hc htail hbehind
      rwa [hkind] at hspelled
  | @integer digits hne hdigits =>
      obtain ⟨c, whole, rfl⟩ := List.exists_cons_of_ne_nil hne
      rw [List.forall_mem_cons] at hdigits
      rw [written, String.toList_ofList]
      refine .integer hdigits.1 hdigits.2 hdigit fun d more hpoint => ?_
      subst hpoint
      exact absurd rfl (hbehind '.' rfl).not.2.2.2.2.2
  | @float whole fraction hwhole hdigits hfraction hdigits' =>
      obtain ⟨c, whole, rfl⟩ := List.exists_cons_of_ne_nil hwhole
      obtain ⟨d, fraction, rfl⟩ := List.exists_cons_of_ne_nil hfraction
      rw [List.forall_mem_cons] at hdigits hdigits'
      rw [written, String.toList_ofList]
      exact .float hdigits.1 hdigits.2 hdigits'.1 hdigits'.2 hdigit
  | delimiter d =>
      rw [written, String.toList_singleton]
      exact .single (Kind.ofDelimiter?_char d)
  | lineFeed => exact .single (by decide)
  | @string body hbody =>
      rw [written, String.toList_ofList]
      refine .string hbody.closeString fun _ hquote => ?_
      exact (hbehind '"' hquote).not.2.2.1 rfl
  | @docstring body htrim hmark =>
      have hsplit := Text.splitAtMark_spaced (List.cons_ne_nil _ _) (by decide) hmark
      have hspelled : Spelled _ behind _ := .docstring hsplit
      rw [Text.trim_spaced htrim] at hspelled
      rw [written, String.toList_ofList]
      rwa [List.cons_append, List.append_assoc] at hspelled
  | @blockComment body htrim hmark =>
      have hsplit := Text.splitAtMark_spaced (List.cons_ne_nil _ _) (by decide) hmark
      have hspelled : Spelled _ behind _ := .blockComment hsplit
      rw [Text.trim_spaced htrim] at hspelled
      rw [written, String.toList_ofList]
      rwa [List.cons_append, List.append_assoc] at hspelled
  | @lineComment body htrim hfeed =>
      have hbody : ∀ d ∈ ' ' :: body, d ≠ '\n' := by
        rw [List.forall_mem_cons]
        exact ⟨by decide, fun d hd heq => hfeed (heq ▸ hd)⟩
      have hspelled : Spelled _ behind _ := .lineComment hbody (hline rfl)
      rw [Text.trim_space, htrim] at hspelled
      rwa [written, String.toList_ofList]

/-- What is written begins with a character that does not only separate. -/
lemma Writable.written_eq_cons (h : l.Writable) : ∃ c x, l.written = c :: x ∧ ¬ isGap c := by
  have hdigit : ∀ {c : Char}, c.isDigit → ¬ isGap c := fun hc hgap => IsApart.not (.inl hgap) |>.2.1 hc
  have halpha : ∀ {c : Char}, c.isAlpha → ¬ isGap c := fun hc hgap =>
    IsApart.not (.inl hgap) |>.1 (by simp [Char.isAlphanum, hc])
  cases h with
  | identifier hc => exact ⟨_, _, String.toList_ofList, halpha hc⟩
  | keyword k =>
      obtain ⟨c, tail, hw, hc, -⟩ := isWord_keyword k
      exact ⟨c, tail, hw, halpha hc⟩
  | boolean b =>
      obtain ⟨c, tail, hw, hc, -⟩ := isWord_boolean b
      exact ⟨c, tail, hw, halpha hc⟩
  | integer hne hdigits =>
      obtain ⟨c, whole, rfl⟩ := List.exists_cons_of_ne_nil hne
      exact ⟨c, whole, String.toList_ofList, hdigit (hdigits c List.mem_cons_self)⟩
  | float hne hdigits =>
      obtain ⟨c, whole, rfl⟩ := List.exists_cons_of_ne_nil hne
      exact ⟨c, _, String.toList_ofList, hdigit (hdigits c List.mem_cons_self)⟩
  | delimiter d =>
      refine ⟨d.char, [], String.toList_singleton _, ?_⟩
      cases d <;> decide
  | lineFeed => exact ⟨'\n', [], rfl, by decide⟩
  | string => exact ⟨'"', _, rfl, by decide⟩
  | docstring => exact ⟨'"', _, rfl, by decide⟩
  | blockComment => exact ⟨'/', _, rfl, by decide⟩
  | lineComment => exact ⟨'/', _, rfl, by decide⟩

/-- A comment to the end of its line may be followed by a line feed only. -/
def EndsBefore (l m : Lexeme) : Prop := l.kind = .lineComment → m = .lineFeed

end Lexeme

/-! ## Lists of lexemes -/

/-- The text of a list of lexemes, with a space between every two. -/
def rendered (ls : List Lexeme) : List Char := [' '].intercalate (ls.map Lexeme.written)

variable {gap behind : List Char} {l m : Lexeme} {ls : List Lexeme}

lemma rendered_singleton : rendered [l] = l.written := by
  simp [rendered, List.intercalate]

lemma rendered_cons_cons : rendered (l :: m :: ls) = l.written ++ ' ' :: rendered (m :: ls) := by
  simp [rendered, List.intercalate]

lemma head_rendered_lineFeed : ∀ c ∈ (rendered (.lineFeed :: ls)).head?, c = '\n' := by
  cases ls with
  | nil => simp [rendered_singleton, Lexeme.written, Lexeme.lineFeed]
  | cons => simp [rendered_cons_cons, Lexeme.written, Lexeme.lineFeed]

/-- A lexeme is read where it is written, with blanks that it takes up. -/
lemma lexemes_written (h : l.Writable) (hspelled : Spelled (l.written ++ gap) behind l) :
    lexemes (l.written ++ gap ++ behind) = l :: lexemes behind := by
  obtain ⟨c, x, hwritten, hc⟩ := h.written_eq_cons
  rw [hwritten, List.cons_append] at hspelled ⊢
  exact lexemes_spelled hspelled hc

/-- **The lexemes of a rendered list** are those of the list. -/
lemma lexemes_rendered (hwritable : ∀ l ∈ ls, l.Writable) (hline : ls.IsChain Lexeme.EndsBefore) :
    lexemes (rendered ls) = ls := by
  induction ls with
  | nil => exact lexemes_of_gap rfl
  | cons l ls ih =>
      rw [List.forall_mem_cons] at hwritable
      obtain ⟨hl, hls⟩ := hwritable
      rw [List.isChain_cons] at hline
      obtain ⟨hnext, hline⟩ := hline
      have ih := ih hls hline
      cases ls with
      | nil =>
          have hspelled : Spelled (l.written ++ []) [] l := by
            rw [List.append_nil]
            exact hl.spelled (by simp) (by simp)
          have hread := lexemes_written hl hspelled
          have hend : lexemes [] = [] := lexemes_of_gap rfl
          rwa [List.append_nil, List.append_nil, hend, ← rendered_singleton] at hread
      | cons m ls =>
          by_cases hcomment : l.kind = .lineComment
          · -- the comment takes up the space between it and the line feed
            obtain rfl := hnext m rfl hcomment
            have halone : Spelled l.written [] l := hl.spelled (by simp) (by simp)
            have hspelled : Spelled (l.written ++ [' ']) (rendered (.lineFeed :: ls)) l :=
              halone.padded hcomment (by simp [isGap]) head_rendered_lineFeed
            have hread := lexemes_written hl hspelled
            rwa [List.append_assoc, ih] at hread
          · have hspelled : Spelled (l.written ++ []) (' ' :: rendered (m :: ls)) l := by
              rw [List.append_nil]
              exact hl.spelled (by simp [IsApart, isGap]) (absurd · hcomment)
            have hread := lexemes_written hl hspelled
            have hspace : lexemes (' ' :: rendered (m :: ls)) = lexemes (rendered (m :: ls)) :=
              lexemes_gap (show ∀ c ∈ [' '], isGap c by simp [isGap])
            rwa [List.append_nil, hspace, ih] at hread

namespace Source

/-- **Scanning undoes writing.**  The tokens of a text that a list of lexemes was written to are that
list, and the end of the text. -/
theorem tokens_rendered (file : String) (hwritable : ∀ l ∈ ls, l.Writable)
    (hline : ls.IsChain Lexeme.EndsBefore) :
    (tokens ⟨file, String.ofList (rendered ls)⟩).map Token.toLexeme = ls ++ [.stop] := by
  have hchars : chars ⟨file, String.ofList (rendered ls)⟩ = rendered ls := String.toList_ofList
  rw [map_tokens, hchars, lexemes_rendered hwritable hline]

/-- A string that holds a quote, an empty one right before a docstring with a quote in it, and a
comment to the end of its line. -/
theorem tokens_rendered_quotes :
    let ls : List Lexeme := [⟨.string, "\\\""⟩, ⟨.string, ""⟩, ⟨.docstring, "a \" b"⟩,
      ⟨.lineComment, "type"⟩, .lineFeed, ⟨.identifier, "types"⟩, ⟨.float, "1.50"⟩]
    (∀ l ∈ ls, l.Writable) ∧ ls.IsChain Lexeme.EndsBefore
      ∧ rendered ls = "\"\\\"\" \"\" \"\"\" a \" b \"\"\" // type \n types 1.50".toList
      ∧ (tokens ⟨"quotes.urpc", String.ofList (rendered ls)⟩).map Token.toLexeme = ls ++ [.stop] := by
  intro ls
  have hwritable : ∀ l ∈ ls, l.Writable := by
    simp only [ls, List.forall_mem_cons]
    refine ⟨.string (.pair .nil), .string .nil, ?_, ?_, .lineFeed, ?_, ?_, by simp⟩
    · exact @Lexeme.Writable.docstring "a \" b".toList (by decide) (by decide)
    · exact @Lexeme.Writable.lineComment "type".toList (by decide) (by decide)
    · exact @Lexeme.Writable.identifier 't' "ypes".toList (by decide)
        (List.all_eq_true.mp (by decide)) (by decide)
    · exact @Lexeme.Writable.float ['1'] ['5', '0'] (by decide) (List.all_eq_true.mp (by decide))
        (by decide) (List.all_eq_true.mp (by decide))
  have hline : ls.IsChain Lexeme.EndsBefore := by
    simp [ls, Lexeme.EndsBefore, Lexeme.lineFeed]
  exact ⟨hwritable, hline, by decide, tokens_rendered "quotes.urpc" hwritable hline⟩

end Source

end RpcSchema
