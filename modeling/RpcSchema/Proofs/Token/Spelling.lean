import Mathlib.Data.List.TakeWhile
import Mathlib.Tactic.Lemma
import RpcSchema.Token.Scan

/-!
# How tokens are spelled

`Spelled text behind l` says without a scanner that a text spells a lexeme in front of another text.
What stands behind matters to few forms, and only with its first two characters: a word or number
must not go on there, an integer must not be the front of a fraction, two quotes must not become
three and a slash not the front of a comment; a comment to the end of its line must be at that end,
and what is never closed has nothing behind it.

Cutting takes exactly what is spelled (`Spelled.first`, `Cut.spelled_first`), so that whatever is
known of spellings holds of tokens.

**Tokens in other surroundings.**  A separating character or a line feed is in nobody's way:
`Spelled.apart` is that a text still spells its lexeme when such a character is put somewhere behind
it.
-/

namespace RpcSchema

/-- The mark around a docstring. -/
abbrev docstringMark : List Char := ['"', '"', '"']

/-- The mark at the end of a block comment. -/
abbrev commentMark : List Char := ['*', '/']

/-- A text spells a lexeme, in front of another text. -/
inductive Spelled : List Char → List Char → Lexeme → Prop where
  | single {c : Char} {behind : List Char} {kind : Kind} : Kind.ofDelimiter? c = some kind →
      Spelled [c] behind ⟨kind, String.singleton c⟩
  | docstring {body behind : List Char} :
      Text.splitAtMark docstringMark (body ++ docstringMark) = some (body, []) →
      Spelled ('"' :: '"' :: '"' :: (body ++ docstringMark)) behind
        ⟨.docstring, String.ofList (Text.trim body)⟩
  | string {body behind : List Char} : Text.closeString (body ++ ['"']) = some (body, []) →
      (body = [] → behind.head? ≠ some '"') →
      Spelled ('"' :: (body ++ ['"'])) behind ⟨.string, String.ofList body⟩
  | lineComment {body behind : List Char} : (∀ d ∈ body, d ≠ '\n') →
      (∀ d ∈ behind.head?, d = '\n') →
      Spelled ('/' :: '/' :: body) behind ⟨.lineComment, String.ofList (Text.trim body)⟩
  | blockComment {body behind : List Char} :
      Text.splitAtMark commentMark (body ++ commentMark) = some (body, []) →
      Spelled ('/' :: '*' :: (body ++ commentMark)) behind
        ⟨.blockComment, String.ofList (Text.trim body)⟩
  | integer {c : Char} {whole behind : List Char} : c.isDigit → (∀ d ∈ whole, d.isDigit) →
      (∀ d ∈ behind.head?, ¬ d.isDigit) → (∀ d more, behind = '.' :: d :: more → ¬ d.isDigit) →
      Spelled (c :: whole) behind ⟨.integer, String.ofList (c :: whole)⟩
  | float {c d : Char} {whole fraction behind : List Char} : c.isDigit → (∀ d ∈ whole, d.isDigit) →
      d.isDigit → (∀ d ∈ fraction, d.isDigit) → (∀ d ∈ behind.head?, ¬ d.isDigit) →
      Spelled (c :: (whole ++ '.' :: d :: fraction)) behind
        ⟨.float, String.ofList (c :: (whole ++ '.' :: d :: fraction))⟩
  | word {c : Char} {tail behind : List Char} : c.isAlpha → (∀ d ∈ tail, d.isAlphanum) →
      (∀ d ∈ behind.head?, ¬ d.isAlphanum) →
      Spelled (c :: tail) behind
        ⟨Kind.ofWord (String.ofList (c :: tail)), String.ofList (c :: tail)⟩
  | illegal {c : Char} {behind : List Char} : Kind.ofDelimiter? c = none → c ≠ '"' →
      (c = '/' → behind.head? ≠ some '/' ∧ behind.head? ≠ some '*') → ¬ c.isDigit → ¬ c.isAlpha →
      Spelled [c] behind ⟨.illegal, String.singleton c⟩
  | unclosedDocstring {rest : List Char} : Text.splitAtMark docstringMark rest = none →
      Spelled ('"' :: '"' :: '"' :: rest) [] ⟨.illegal, String.ofList ('"' :: '"' :: '"' :: rest)⟩
  | unclosedString {rest : List Char} : Text.closeString rest = none →
      ¬ ['"', '"'].isPrefixOf rest → Spelled ('"' :: rest) [] ⟨.illegal, String.ofList ('"' :: rest)⟩
  | unclosedComment {rest : List Char} : Text.splitAtMark commentMark rest = none →
      Spelled ('/' :: '*' :: rest) [] ⟨.illegal, String.ofList ('/' :: '*' :: rest)⟩

/-! ## Marks and quotes, whatever is behind them -/

namespace Text

variable {mark body after : List Char}

/-- Where a mark first ends does not depend on what is behind it. -/
lemma splitAtMark_behind (h : splitAtMark mark (body ++ mark ++ after) = some (body, after))
    (hmark : mark ≠ []) (after' : List Char) :
    splitAtMark mark (body ++ mark ++ after') = some (body, after') := by
  induction body with
  | nil =>
      obtain ⟨m, ms, rfl⟩ := List.exists_cons_of_ne_nil hmark
      have hprefix : (m :: ms).isPrefixOf (m :: (ms ++ after')) :=
        List.isPrefixOf_iff_prefix.2 ⟨after', rfl⟩
      have hdrop : (m :: (ms ++ after')).drop (m :: ms).length = after' := List.drop_left
      rw [List.nil_append, List.cons_append, splitAtMark, if_pos hprefix, hdrop]
  | cons c body ih =>
      rw [List.cons_append, List.cons_append, splitAtMark] at h ⊢
      split at h
      · simp at h
      · next hnot =>
          obtain ⟨⟨b, a⟩, hsplit, hpair⟩ := Option.map_eq_some_iff.1 h
          simp only [Prod.mk.injEq, List.cons.injEq, true_and] at hpair
          obtain ⟨rfl, rfl⟩ := hpair
          -- the mark at this place would end before what is behind
          have hnot' : ¬ mark.isPrefixOf (c :: (b ++ mark ++ after')) := by
            rw [List.isPrefixOf_iff_prefix, ← List.cons_append] at hnot ⊢
            intro hprefix
            have hinside : mark <+: c :: (b ++ mark) :=
              List.prefix_of_prefix_length_le hprefix (List.prefix_append _ _) (by simp; omega)
            exact hnot (hinside.trans (List.prefix_append _ _))
          rw [if_neg hnot', ih hsplit]
          rfl

lemma splitAtMark_alone {cs : List Char} (h : splitAtMark mark cs = some (body, after))
    (hmark : mark ≠ []) : splitAtMark mark (body ++ mark) = some (body, []) := by
  rw [← splitAtMark_append h] at h
  have halone : splitAtMark mark (body ++ mark ++ []) = some (body, []) :=
    splitAtMark_behind h hmark []
  rwa [List.append_nil] at halone

/-- Where a string closes does not depend on what is behind it. -/
lemma closeString_behind {cs : List Char} (h : closeString cs = some (body, after))
    (after' : List Char) : closeString (body ++ '"' :: after') = some (body, after') := by
  fun_induction closeString cs generalizing body after with
  | case1 => cases h
  | case2 rest =>
      simp only [Option.some.injEq, Prod.mk.injEq] at h
      obtain ⟨rfl, rfl⟩ := h
      rfl
  | case3 rest ih =>
      obtain ⟨⟨b, a⟩, hb, h⟩ := Option.map_eq_some_iff.1 h
      obtain ⟨rfl, rfl⟩ := Prod.mk.inj h
      simp [closeString, ih hb]
  | case4 rest ih =>
      obtain ⟨⟨b, a⟩, hb, h⟩ := Option.map_eq_some_iff.1 h
      obtain ⟨rfl, rfl⟩ := Prod.mk.inj h
      simp [closeString, ih hb]
  | case5 c rest hquote hescaped hbackslash ih =>
      obtain ⟨⟨b, a⟩, hb, h⟩ := Option.map_eq_some_iff.1 h
      obtain ⟨rfl, rfl⟩ := Prod.mk.inj h
      have hrest := closeString_append hb
      -- what stands behind the character begins with the body or the closing quote, as before
      have hescaped' : ∀ r, c = '\\' → b ++ '"' :: after' = '"' :: r → False := by
        intro r hc hr
        cases b with
        | nil => exact hescaped a hc hrest.symm
        | cons d ds =>
            obtain ⟨rfl, -⟩ := List.cons.inj hr
            exact hescaped _ hc hrest.symm
      have hbackslash' : ∀ r, c = '\\' → b ++ '"' :: after' = '\\' :: r → False := by
        intro r hc hr
        cases b with
        | nil => cases hr
        | cons d ds =>
            obtain ⟨rfl, -⟩ := List.cons.inj hr
            exact hbackslash _ hc hrest.symm
      rw [List.cons_append, closeString.eq_5 c _ hquote hescaped' hbackslash', ih hb]
      rfl

end Text

namespace Cut

variable {c : Char} {rest : List Char}

/-! ## What is cut is spelled -/

lemma spelled_string (hdocstring : ¬ ['"', '"'].isPrefixOf rest) :
    Spelled (string '"' rest).text (string '"' rest).rest (string '"' rest).lexeme := by
  rw [string]
  split
  · next hnone => exact .unclosedString hnone hdocstring
  · next body after hclose =>
      refine .string (Text.closeString_behind hclose []) ?_
      rintro rfl hhead
      rw [← Text.closeString_append hclose] at hdocstring
      cases after with
      | nil => cases hhead
      | cons d ds =>
          cases hhead
          exact hdocstring rfl

lemma spelled_docstring : Spelled (enclosed .docstring 2 docstringMark '"' ('"' :: '"' :: rest)).text
    (enclosed .docstring 2 docstringMark '"' ('"' :: '"' :: rest)).rest
    (enclosed .docstring 2 docstringMark '"' ('"' :: '"' :: rest)).lexeme := by
  rw [enclosed]
  split
  · next hnone => exact .unclosedDocstring hnone
  · next body after hsplit =>
      exact .docstring (Text.splitAtMark_alone hsplit (List.cons_ne_nil _ _))

lemma spelled_blockComment : Spelled (enclosed .blockComment 1 commentMark '/' ('*' :: rest)).text
    (enclosed .blockComment 1 commentMark '/' ('*' :: rest)).rest
    (enclosed .blockComment 1 commentMark '/' ('*' :: rest)).lexeme := by
  rw [enclosed]
  split
  · next hnone => exact .unclosedComment hnone
  · next body after hsplit =>
      exact .blockComment (Text.splitAtMark_alone hsplit (List.cons_ne_nil _ _))

/-- What a run of characters of one class leaves does not begin with another. -/
lemma not_head_dropWhile {p : Char → Bool} {cs : List Char} :
    ∀ d ∈ (cs.dropWhile p).head?, ¬ p d := by
  intro d hd
  have hhead := List.head?_dropWhile_not p cs
  rw [Option.mem_def.1 hd] at hhead
  simpa using hhead

lemma spelled_lineComment : Spelled (lineComment '/' ('/' :: rest)).text
    (lineComment '/' ('/' :: rest)).rest (lineComment '/' ('/' :: rest)).lexeme := by
  have hslash : ('/' :: rest).takeWhile (· ≠ '\n') = '/' :: rest.takeWhile (· ≠ '\n') := rfl
  have hbody : ∀ d ∈ rest.takeWhile (· ≠ '\n'), d ≠ '\n' := fun d hd => by
    simpa using List.mem_takeWhile_imp hd
  simp only [lineComment, hslash, List.drop_one, List.tail_cons]
  refine .lineComment hbody fun d hd => ?_
  simpa using not_head_dropWhile d hd

lemma spelled_number (hc : c.isDigit) :
    Spelled (number c rest).text (number c rest).rest (number c rest).lexeme := by
  have hwhole : ∀ d ∈ rest.takeWhile Char.isDigit, d.isDigit := fun d => List.mem_takeWhile_imp
  have hstop : ∀ d ∈ (rest.dropWhile Char.isDigit).head?, ¬ d.isDigit := not_head_dropWhile
  rw [number]
  split
  · next d more hrest =>
      split
      · next hd =>
          exact .float hc hwhole hd (fun e => List.mem_takeWhile_imp) not_head_dropWhile
      · next hd =>
          rw [hrest] at hstop
          refine .integer hc hwhole hstop fun e _ he => ?_
          cases he
          exact hd
  · next hpoint =>
      refine .integer hc hwhole hstop fun d more hrest => ?_
      exact absurd hrest (hpoint d more)

/-- **What is cut is spelled.** -/
lemma spelled_first (c : Char) (rest : List Char) :
    Spelled (first c rest).text (first c rest).rest (first c rest).lexeme := by
  rw [first]
  split
  · next kind hkind => exact .single hkind
  · next hdelimiter =>
      split_ifs with hquote hmark hline hblock hdigit halpha
      · subst hquote
        obtain ⟨rest, rfl⟩ := List.isPrefixOf_iff_prefix.1 hmark
        exact spelled_docstring
      · subst hquote
        exact spelled_string hmark
      · obtain ⟨rfl, hhead⟩ := hline
        obtain ⟨rest, rfl⟩ := List.head?_eq_some_iff.1 hhead
        exact spelled_lineComment
      · obtain ⟨rfl, hhead⟩ := hblock
        obtain ⟨rest, rfl⟩ := List.head?_eq_some_iff.1 hhead
        exact spelled_blockComment
      · exact spelled_number hdigit
      · exact .word halpha (fun d => List.mem_takeWhile_imp) not_head_dropWhile
      · refine .illegal hdelimiter hquote (fun hslash => ?_) hdigit halpha
        exact ⟨fun h => hline ⟨hslash, h⟩, fun h => hblock ⟨hslash, h⟩⟩

/-! ## What is spelled is cut -/

variable {body after : List Char}

lemma string_of_some (h : Text.closeString rest = some (body, after)) :
    (string c rest).lexeme = ⟨.string, String.ofList body⟩ ∧ (string c rest).rest = after := by
  rw [string]
  split
  · next hnone =>
      rw [h] at hnone
      cases hnone
  · next hsome =>
      rw [h] at hsome
      cases hsome
      exact ⟨rfl, rfl⟩

lemma string_of_none (h : Text.closeString rest = none) : string c rest = unclosed c rest := by
  rw [string]
  split
  · rfl
  · next hsome =>
      rw [h] at hsome
      cases hsome

lemma enclosed_of_some {kind : Kind} {width : Nat} {mark : List Char}
    (h : Text.splitAtMark mark (rest.drop width) = some (body, after)) :
    (enclosed kind width mark c rest).lexeme = ⟨kind, String.ofList (Text.trim body)⟩
      ∧ (enclosed kind width mark c rest).rest = after := by
  rw [enclosed]
  split
  · next hnone =>
      rw [h] at hnone
      cases hnone
  · next hsome =>
      rw [h] at hsome
      cases hsome
      exact ⟨rfl, rfl⟩

lemma enclosed_of_none {kind : Kind} {width : Nat} {mark : List Char}
    (h : Text.splitAtMark mark (rest.drop width) = none) :
    enclosed kind width mark c rest = unclosed c rest := by
  rw [enclosed]
  split
  · rfl
  · next hsome =>
      rw [h] at hsome
      cases hsome

/-- A run of characters of one class, in front of one that is not. -/
lemma takeWhile_run {p : Char → Bool} {run behind : List Char} (hrun : ∀ d ∈ run, p d)
    (hbehind : ∀ d ∈ behind.head?, ¬ p d) :
    (run ++ behind).takeWhile p = run ∧ (run ++ behind).dropWhile p = behind := by
  rw [List.takeWhile_append_of_pos hrun, List.dropWhile_append_of_pos hrun]
  cases behind with
  | nil => simp
  | cons d ds =>
      have hd : p d = false := by simpa using hbehind d rfl
      simp [hd]

lemma number_of_integer {whole behind : List Char} (hwhole : ∀ d ∈ whole, d.isDigit)
    (hstop : ∀ d ∈ behind.head?, ¬ d.isDigit)
    (hpoint : ∀ d more, behind = '.' :: d :: more → ¬ d.isDigit) :
    (number c (whole ++ behind)).lexeme = ⟨.integer, String.ofList (c :: whole)⟩
      ∧ (number c (whole ++ behind)).rest = behind := by
  obtain ⟨htake, hdrop⟩ := takeWhile_run hwhole hstop
  rw [number]
  split
  · next d more hrest =>
      rw [hdrop] at hrest
      rw [if_neg (hpoint d more hrest)]
      exact ⟨by simp only [htake], hrest.symm⟩
  · exact ⟨by simp only [htake], hdrop⟩

lemma number_of_float {whole fraction behind : List Char} {d : Char}
    (hwhole : ∀ d ∈ whole, d.isDigit) (hd : d.isDigit) (hfraction : ∀ d ∈ fraction, d.isDigit)
    (hstop : ∀ d ∈ behind.head?, ¬ d.isDigit) :
    (number c (whole ++ '.' :: d :: (fraction ++ behind))).lexeme
        = ⟨.float, String.ofList (c :: (whole ++ '.' :: d :: fraction))⟩
      ∧ (number c (whole ++ '.' :: d :: (fraction ++ behind))).rest = behind := by
  obtain ⟨htake, hdrop⟩ := takeWhile_run hwhole
    (show ∀ e ∈ ('.' :: d :: (fraction ++ behind)).head?, ¬ e.isDigit by simp)
  obtain ⟨htake', hdrop'⟩ := takeWhile_run hfraction hstop
  rw [number]
  split
  · next e more hrest =>
      rw [hdrop] at hrest
      cases hrest
      simp only [if_pos hd, htake, htake', hdrop', List.cons_append, and_self]
  · next hpoint => exact absurd hdrop (hpoint d _)

lemma first_of_delimiter {kind : Kind} (h : Kind.ofDelimiter? c = some kind) :
    first c rest = single kind c rest := by
  rw [first]
  split <;> simp_all

lemma first_docstring : first '"' ('"' :: '"' :: rest)
    = enclosed .docstring 2 docstringMark '"' ('"' :: '"' :: rest) := rfl

lemma first_string (h : ¬ ['"', '"'].isPrefixOf rest) : first '"' rest = string '"' rest := by
  have hdelimiter : Kind.ofDelimiter? '"' = none := by decide
  rw [first]
  simp only [hdelimiter, if_true, if_neg h]

lemma first_lineComment : first '/' ('/' :: rest) = lineComment '/' ('/' :: rest) := rfl

lemma first_blockComment :
    first '/' ('*' :: rest) = enclosed .blockComment 1 commentMark '/' ('*' :: rest) := rfl

/-- A character that is neither a line feed nor a punctuation mark. -/
lemma ofDelimiter?_eq_none (hline : c ≠ '\n') (hmark : ∀ d : Delimiter, d.char ≠ c) :
    Kind.ofDelimiter? c = none := by
  rw [Kind.ofDelimiter?, if_neg hline, Option.map_eq_none_iff, List.find?_eq_none]
  simpa using fun d _ => hmark d

/-- A digit begins no form but a number. -/
lemma first_of_isDigit (hc : c.isDigit) : first c rest = number c rest := by
  have hdelimiter : Kind.ofDelimiter? c = none := by
    refine ofDelimiter?_eq_none ?_ fun d => ?_
    · rintro rfl; revert hc; decide
    · rintro rfl; revert hc; cases d <;> decide
  have hquote : c ≠ '"' := by rintro rfl; revert hc; decide
  have hslash : c ≠ '/' := by rintro rfl; revert hc; decide
  rw [first]
  simp only [hdelimiter, hquote, hslash, hc, if_false, if_true, false_and]

/-- A letter begins no form but a word. -/
lemma first_of_isAlpha (hc : c.isAlpha) : first c rest = word c rest := by
  have hdelimiter : Kind.ofDelimiter? c = none := by
    refine ofDelimiter?_eq_none ?_ fun d => ?_
    · rintro rfl; revert hc; decide
    · rintro rfl; revert hc; cases d <;> decide
  have hquote : c ≠ '"' := by rintro rfl; revert hc; decide
  have hslash : c ≠ '/' := by rintro rfl; revert hc; decide
  have hdigit : c.isDigit = false := by
    delta Char.isAlpha Char.isUpper Char.isLower at hc
    simp only [Char.isDigit, UInt32.le_iff_toNat_le] at hc ⊢
    grind
  rw [first]
  simp only [hdelimiter, hquote, hslash, hc, hdigit, if_false, if_true, false_and, Bool.false_eq_true]

end Cut

/-- **What is spelled is cut.** -/
lemma Spelled.first {c : Char} {x behind : List Char} {l : Lexeme} (h : Spelled (c :: x) behind l) :
    (Cut.first c (x ++ behind)).lexeme = l ∧ (Cut.first c (x ++ behind)).rest = behind := by
  cases h with
  | single hkind =>
      rw [Cut.first_of_delimiter hkind]
      exact ⟨rfl, rfl⟩
  | @docstring body _ hbody =>
      have hsplit := Text.splitAtMark_behind
        (show Text.splitAtMark docstringMark (body ++ docstringMark ++ []) = _ by
          rwa [List.append_nil]) (List.cons_ne_nil _ _) behind
      rw [List.cons_append, List.cons_append, Cut.first_docstring]
      exact Cut.enclosed_of_some hsplit
  | @string body _ hbody hquote =>
      have hclose := Text.closeString_behind hbody behind
      -- a body does not begin with a quote, and an empty one has no third quote behind it
      have hdocstring : ¬ ['"', '"'].isPrefixOf (body ++ '"' :: behind) := by
        cases body with
        | nil =>
            have hhead := hquote rfl
            cases behind with
            | nil => simp
            | cons d ds => simpa using fun he : '"' = d => hhead (by rw [← he]; rfl)
        | cons d ds =>
            intro hprefix
            obtain ⟨rfl, -⟩ : '"' = d ∧ ['"'] <+: ds ++ '"' :: behind := by simpa using hprefix
            simp [Text.closeString] at hbody
      rw [List.append_assoc, List.singleton_append, Cut.first_string hdocstring]
      exact Cut.string_of_some hclose
  | @lineComment body _ hbody hline =>
      have hrun : ∀ d ∈ '/' :: body, d ≠ '\n' := by simpa using hbody
      obtain ⟨htake, hdrop⟩ := Cut.takeWhile_run (p := (· ≠ '\n'))
        (show ∀ d ∈ '/' :: body, decide (d ≠ '\n') by simpa using hrun)
        (show ∀ d ∈ behind.head?, ¬ decide (d ≠ '\n') by simpa using hline)
      rw [List.cons_append, Cut.first_lineComment, Cut.lineComment, ← List.cons_append]
      simp only [htake, hdrop, List.drop_one, List.tail_cons, and_self]
  | @blockComment body _ hbody =>
      have hsplit := Text.splitAtMark_behind
        (show Text.splitAtMark commentMark (body ++ commentMark ++ []) = _ by
          rwa [List.append_nil]) (List.cons_ne_nil _ _) behind
      rw [List.cons_append, Cut.first_blockComment]
      exact Cut.enclosed_of_some hsplit
  | integer hc hwhole hstop hpoint =>
      rw [Cut.first_of_isDigit hc]
      exact Cut.number_of_integer hwhole hstop hpoint
  | float hc hwhole hd hfraction hstop =>
      rw [Cut.first_of_isDigit hc, List.append_assoc, List.cons_append, List.cons_append]
      exact Cut.number_of_float hwhole hd hfraction hstop
  | word hc htail hstop =>
      obtain ⟨htake, hdrop⟩ := Cut.takeWhile_run htail hstop
      rw [Cut.first_of_isAlpha hc, Cut.word]
      simp only [htake, hdrop, and_self]
  | illegal hdelimiter hquote hslash hdigit halpha =>
      rw [List.nil_append, Cut.first]
      simp only [hdelimiter, if_neg hquote, if_neg hdigit, if_neg halpha]
      rw [if_neg fun h => (hslash h.1).1 h.2, if_neg fun h => (hslash h.1).2 h.2]
      exact ⟨rfl, rfl⟩
  | unclosedDocstring h =>
      rw [List.append_nil, Cut.first_docstring, Cut.enclosed_of_none h]
      exact ⟨rfl, rfl⟩
  | unclosedString h hdocstring =>
      rw [List.append_nil, Cut.first_string hdocstring, Cut.string_of_none h]
      exact ⟨rfl, rfl⟩
  | unclosedComment h =>
      rw [List.append_nil, Cut.first_blockComment, Cut.enclosed_of_none h]
      exact ⟨rfl, rfl⟩

/-- The text that is cut is the one that is spelled. -/
lemma Spelled.text_first {c : Char} {x behind : List Char} {l : Lexeme}
    (h : Spelled (c :: x) behind l) : (Cut.first c (x ++ behind)).text = c :: x := by
  have hcut := (Cut.first c (x ++ behind)).text_append_rest
  rw [h.first.2] at hcut
  exact List.append_cancel_right (hcut.trans (List.cons_append ..).symm)

/-! ## Tokens in other surroundings -/

/-- Whether a character ends every token that is not enclosed. -/
def IsApart (c : Char) : Prop := isGap c ∨ c = '\n'

/-- Whether a lexeme is what was opened and never closed. -/
def Lexeme.IsUnclosed (l : Lexeme) : Prop :=
  l.kind = .illegal ∧ (['"'] <+: l.literal.toList ∨ ['/', '*'] <+: l.literal.toList)

/-- A character that ends tokens is none that continues one. -/
lemma IsApart.not {c : Char} (h : IsApart c) :
    ¬ c.isAlphanum ∧ ¬ c.isDigit ∧ c ≠ '"' ∧ c ≠ '/' ∧ c ≠ '*' ∧ c ≠ '.' := by
  rcases h with h | rfl
  · simp only [isGap, Bool.or_eq_true, decide_eq_true_eq] at h
    rcases h with (rfl | rfl) | rfl <;> decide
  · decide

namespace Spelled

variable {text : List Char} {front behind behind' : List Char} {l : Lexeme}

/-- **Tokens keep apart.**  What a text spells in front of another, it spells also where something
is put into that other text, or in front of it, that begins with a separating character, unless it
was opened and never closed. -/
lemma apart (h : Spelled text (front ++ behind) l)
    (hopen : front ++ behind = [] → ¬ l.IsUnclosed)
    (hapart : ∀ c ∈ behind'.head?, IsApart c)
    (hline : l.kind = .lineComment → ∀ c ∈ (front ++ behind').head?, c = '\n') :
    Spelled text (front ++ behind') l := by
  have hhead : ∀ c ∈ (front ++ behind').head?, c ∈ (front ++ behind).head? ∨ IsApart c := by
    intro c hc
    cases front with
    | nil => exact Or.inr (hapart c hc)
    | cons d ds => exact Or.inl hc
  have hpoint : ∀ c more, front ++ behind' = '.' :: c :: more →
      (∃ more', front ++ behind = '.' :: c :: more') ∨ IsApart c := by
    intro c more heq
    match front, heq with
    | [], heq => exact absurd rfl (hapart '.' (by rw [show behind' = _ from heq]; rfl)).not.2.2.2.2.2
    | [_], heq =>
        obtain ⟨rfl, rfl⟩ := List.cons.inj heq
        exact Or.inr (hapart c rfl)
    | _ :: _ :: ds, heq =>
        cases heq
        exact Or.inl ⟨ds ++ behind, rfl⟩
  generalize front ++ behind = b at h hopen hhead hpoint
  generalize front ++ behind' = b' at hhead hpoint hline ⊢
  -- what must not be next is not what separates
  have hnext : ∀ {c : Char}, ¬ IsApart c → b.head? ≠ some c → b'.head? ≠ some c := by
    intro c hc hb hb'
    rcases hhead c hb' with h | h
    · exact hb h
    · exact hc h
  have hstop : ∀ {p : Char → Bool}, (∀ c, IsApart c → ¬ p c) → (∀ c ∈ b.head?, ¬ p c) →
      ∀ c ∈ b'.head?, ¬ p c := fun hp hb c hc => (hhead c hc).elim (hb c) (hp c)
  cases h with
  | single hkind => exact .single hkind
  | docstring hbody => exact .docstring hbody
  | string hbody hquote =>
      exact .string hbody fun hnil => hnext (fun h => h.not.2.2.1 rfl) (hquote hnil)
  | lineComment hbody _ => exact .lineComment hbody (hline rfl)
  | blockComment hbody => exact .blockComment hbody
  | integer hc hwhole hdigit hnone =>
      refine .integer hc hwhole (hstop (fun _ h => h.not.2.1) hdigit) fun d more heq => ?_
      rcases hpoint d more heq with ⟨more', heq'⟩ | hd
      · exact hnone d more' heq'
      · exact hd.not.2.1
  | float hc hwhole hd hfraction hdigit =>
      exact .float hc hwhole hd hfraction (hstop (fun _ h => h.not.2.1) hdigit)
  | word hc htail halphanum =>
      exact .word hc htail (hstop (fun _ h => h.not.1) halphanum)
  | illegal hdelimiter hquote hslash hdigit halpha =>
      refine .illegal hdelimiter hquote (fun heq => ?_) hdigit halpha
      exact ⟨hnext (fun h => h.not.2.2.2.1 rfl) (hslash heq).1,
        hnext (fun h => h.not.2.2.2.2.1 rfl) (hslash heq).2⟩
  | unclosedDocstring => exact absurd ⟨rfl, Or.inl (by simp)⟩ (hopen rfl)
  | unclosedString => exact absurd ⟨rfl, Or.inl (by simp)⟩ (hopen rfl)
  | unclosedComment => exact absurd ⟨rfl, Or.inr (by simp)⟩ (hopen rfl)

end Spelled

end RpcSchema
