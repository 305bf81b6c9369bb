import Mathlib.Algebra.Group.Even
import Mathlib.Algebra.Ring.Parity
import Mathlib.Data.List.DropRight
import Mathlib.Tactic.Lemma
import RpcSchema.Text.StringBody

/-!
# Escapes

A text is put into the body of a string literal with a backslash in front of each of its quotes and
backslashes (`Text.escaped`), and undoing the escapes brings it back (`Text.unescape_escaped`).

**Which backslashes escape.**  In a body it is not enough that a backslash stands in front of a quote or
backslash, since it may be escaped itself: an even number of backslashes must stand before it
(`Text.IsEscape`).  This says where the escapes are without reading the body from the left.

**Two scanners.**  One finds the closing quote, the other undoes the escapes, and each pairs backslashes
with what is behind them on its own.  `closeStringNoting` and `unescapeNoting` are the two with the places
of the pairs noted.

* The first notes what the second notes (`Text.snd_unescapeNoting`), and that are the escapes
  (`Text.mem_unescapeNoting_iff`).
* Every quote of a body that was closed stands behind one of them (`Text.exists_passed_of_quote`).

**What leaves a string open** is told in the same way: all its quotes are escaped
(`Text.closeString_eq_none_iff`).
-/

namespace RpcSchema.Text

/-! ## Putting a text into a body -/

/-- The body that stands for a text: a backslash is put in front of every quote and backslash. -/
def escaped (value : List Char) : List Char :=
  value.flatMap fun c => if c = '"' ∨ c = '\\' then ['\\', c] else [c]

lemma unescape_plain {c : Char} (hc : c ≠ '\\') (cs : List Char) :
    unescape (c :: cs) = c :: unescape cs :=
  unescape.eq_4 c cs (fun _ h => absurd h hc) fun _ h => absurd h hc

/-- Undoing the escapes brings a text back. -/
lemma unescape_escaped (value : List Char) : unescape (escaped value) = value := by
  induction value with
  | nil => rfl
  | cons c value ih =>
      rw [escaped, List.flatMap_cons]
      by_cases hc : c = '"' ∨ c = '\\'
      · rw [if_pos hc]
        rcases hc with rfl | rfl <;> exact congrArg _ ih
      · rw [if_neg hc, List.singleton_append, unescape_plain (not_or.1 hc).2]
        exact congrArg _ ih

/-! ## Where the escapes are -/

/-- The number of backslashes at the end of a text. -/
def backslashes (front : List Char) : Nat := (front.rtakeWhile (· = '\\')).length

/-- At the offset there is a backslash in front of a quote or backslash, and an even number of backslashes
before it. -/
def IsEscape (cs : List Char) (i : Nat) : Prop :=
  ∃ front d behind, cs = front ++ '\\' :: d :: behind ∧ front.length = i ∧ (d = '"' ∨ d = '\\')
    ∧ Even (backslashes front)

lemma backslashes_concat (front : List Char) (c : Char) :
    backslashes (front ++ [c]) = if c = '\\' then backslashes front + 1 else 0 := by
  rw [backslashes, backslashes]
  split
  · next hc => rw [List.rtakeWhile_concat_pos _ _ _ (by simpa using hc), List.length_append]; rfl
  · next hc => rw [List.rtakeWhile_concat_neg _ _ _ (by simpa using hc)]; rfl

lemma IsEscape.lt {cs : List Char} {i : Nat} (h : IsEscape cs i) : i + 1 < cs.length := by
  obtain ⟨front, d, behind, rfl, rfl, -, -⟩ := h
  simp

/-- The escape behind a text. -/
lemma isEscape_length_iff {front cs : List Char} : IsEscape (front ++ cs) front.length ↔
    ∃ d behind, cs = '\\' :: d :: behind ∧ (d = '"' ∨ d = '\\') ∧ Even (backslashes front) := by
  constructor
  · rintro ⟨front', d, behind, hsplit, hlength, hd, heven⟩
    obtain ⟨rfl, rfl⟩ := List.append_inj hsplit hlength.symm
    exact ⟨d, behind, rfl, hd, heven⟩
  · rintro ⟨d, behind, rfl, hd, heven⟩
    exact ⟨front, d, behind, rfl, rfl, hd, heven⟩

/-! ## Finding the closing quote -/

/-- `closeString`, with the offsets noted at which it passes over two characters together.  The text
begins at offset `n`. -/
def closeStringNoting (n : Nat) : List Char → Option ((List Char × List Char) × List Nat)
  | [] => none
  | '"' :: rest => some (([], rest), [])
  | '\\' :: '"' :: rest => (closeStringNoting (n + 2) rest).map fun ((body, after), passed) =>
    (('\\' :: '"' :: body, after), n :: passed)
  | '\\' :: '\\' :: rest => (closeStringNoting (n + 2) rest).map fun ((body, after), passed) =>
    (('\\' :: '\\' :: body, after), n :: passed)
  | c :: rest => (closeStringNoting (n + 1) rest).map fun ((body, after), passed) =>
    ((c :: body, after), passed)

/-- Noting changes nothing. -/
lemma closeStringNoting_fst (n : Nat) (cs : List Char) :
    (closeStringNoting n cs).map Prod.fst = closeString cs := by
  fun_induction closeString cs generalizing n with
  | case1 => rfl
  | case2 rest => rfl
  | case3 rest ih =>
      rw [closeStringNoting, ← ih (n + 2), Option.map_map, Option.map_map]
      rfl
  | case4 rest ih =>
      rw [closeStringNoting, ← ih (n + 2), Option.map_map, Option.map_map]
      rfl
  | case5 c rest hquote hescaped hbackslash ih =>
      rw [closeStringNoting.eq_5 n c rest hquote hescaped hbackslash, ← ih (n + 1), Option.map_map,
        Option.map_map]
      rfl

lemma exists_closeStringNoting {cs body after : List Char} (h : closeString cs = some (body, after))
    (n : Nat) : ∃ passed, closeStringNoting n cs = some ((body, after), passed) := by
  rw [← closeStringNoting_fst n] at h
  obtain ⟨⟨_, passed⟩, hnoting, rfl⟩ := Option.map_eq_some_iff.1 h
  exact ⟨passed, hnoting⟩

/-- A quote in a body that was closed stands behind a backslash that was passed over with it. -/
lemma exists_passed_of_quote {n : Nat} {cs body after : List Char} {passed : List Nat}
    (h : closeStringNoting n cs = some ((body, after), passed)) {before behind : List Char}
    (hquote : body = before ++ '"' :: behind) : ∃ i ∈ passed, n + before.length = i + 1 := by
  fun_induction closeStringNoting n cs generalizing body after passed before with
  | case1 => cases h
  | case2 n rest =>
      cases h
      exact absurd hquote (by simp)
  | case3 n rest ih | case4 n rest ih =>
      obtain ⟨⟨⟨b, a⟩, p⟩, hb, h⟩ := Option.map_eq_some_iff.1 h
      cases h
      match before with
      | [] => cases hquote
      | [c] => exact ⟨n, List.mem_cons_self, rfl⟩
      | c :: d :: before =>
          obtain ⟨i, hi, hlength⟩ := ih hb (List.cons.inj (List.cons.inj hquote).2).2
          exact ⟨i, List.mem_cons_of_mem n hi, by simp only [List.length_cons]; omega⟩
  | case5 n c rest hopen _ _ ih =>
      obtain ⟨⟨⟨b, a⟩, p⟩, hb, h⟩ := Option.map_eq_some_iff.1 h
      cases h
      cases before with
      | nil => exact absurd (List.cons.inj hquote).1 hopen
      | cons d before =>
          obtain ⟨i, hi, hlength⟩ := ih hb (List.cons.inj hquote).2
          exact ⟨i, hi, by simp only [List.length_cons]; omega⟩

/-! ## Undoing the escapes -/

/-- `unescape`, with the offsets noted at which it takes two characters for one.  The body begins at
offset `n`. -/
def unescapeNoting (n : Nat) : List Char → List Char × List Nat
  | [] => ([], [])
  | '\\' :: '"' :: rest =>
    ('"' :: (unescapeNoting (n + 2) rest).1, n :: (unescapeNoting (n + 2) rest).2)
  | '\\' :: '\\' :: rest =>
    ('\\' :: (unescapeNoting (n + 2) rest).1, n :: (unescapeNoting (n + 2) rest).2)
  | c :: rest => (c :: (unescapeNoting (n + 1) rest).1, (unescapeNoting (n + 1) rest).2)

/-- Noting changes nothing. -/
lemma unescapeNoting_fst (n : Nat) (cs : List Char) : (unescapeNoting n cs).1 = unescape cs := by
  fun_induction unescape cs generalizing n with
  | case1 => rfl
  | case2 rest ih => rw [unescapeNoting, ih]
  | case3 rest ih => rw [unescapeNoting, ih]
  | case4 c rest hescaped hbackslash ih =>
      rw [unescapeNoting.eq_4 n c rest hescaped hbackslash, ih]

/-- **The two scanners pair alike.**  In a body that was closed, the escapes that are undone are the pairs
that were passed over. -/
lemma snd_unescapeNoting {n : Nat} {cs body after : List Char} {passed : List Nat}
    (h : closeStringNoting n cs = some ((body, after), passed)) :
    (unescapeNoting n body).2 = passed := by
  fun_induction closeStringNoting n cs generalizing body after passed with
  | case1 => cases h
  | case2 n rest =>
      cases h
      rfl
  | case3 n rest ih | case4 n rest ih =>
      obtain ⟨⟨⟨b, a⟩, p⟩, hb, h⟩ := Option.map_eq_some_iff.1 h
      cases h
      rw [unescapeNoting, ih hb]
  | case5 n c rest _ hescaped hbackslash ih =>
      obtain ⟨⟨⟨b, a⟩, p⟩, hb, h⟩ := Option.map_eq_some_iff.1 h
      cases h
      have hclose : closeString rest = some (b, after) := by
        rw [← closeStringNoting_fst (n + 1), hb]
        rfl
      have hrest := closeString_append hclose
      -- a pair in the body would have been one in the text
      rw [unescapeNoting.eq_4, ih hb]
      · intro r hc hr
        exact hescaped (r ++ '"' :: after) hc (by rw [← hrest, hr]; rfl)
      · intro r hc hr
        exact hbackslash (r ++ '"' :: after) hc (by rw [← hrest, hr]; rfl)

/-- Behind a text with a pair in front: the pair is an escape, its second character is not. -/
private lemma isEscape_pair_iff {front rest : List Char} {d : Char} (hd : d = '"' ∨ d = '\\')
    (heven : Even (backslashes front)) {i : Nat} :
    i = front.length ∨ front.length + 2 ≤ i ∧ IsEscape (front ++ '\\' :: d :: rest) i
      ↔ front.length ≤ i ∧ IsEscape (front ++ '\\' :: d :: rest) i := by
  constructor
  · rintro (rfl | ⟨hi, h⟩)
    · exact ⟨Nat.le_refl _, isEscape_length_iff.2 ⟨d, rest, rfl, hd, heven⟩⟩
    · exact ⟨by omega, h⟩
  · rintro ⟨hi, h⟩
    rcases Nat.lt_or_ge i (front.length + 2) with hlt | hge
    · left
      by_contra hne
      -- the second character of the pair is behind an odd number of backslashes
      obtain rfl : i = (front ++ ['\\']).length := by
        rw [List.length_append, List.length_singleton]
        omega
      rw [List.append_cons, isEscape_length_iff] at h
      obtain ⟨_, _, _, _, hodd⟩ := h
      rw [backslashes_concat, if_pos rfl, Nat.even_add_one] at hodd
      exact hodd heven
    · exact Or.inr ⟨hge, h⟩

/-- Behind a text with no pair in front: its first character is no escape. -/
private lemma isEscape_plain_iff {front rest : List Char} {c : Char}
    (hc : ∀ d behind, c = '\\' → rest = d :: behind → ¬ (d = '"' ∨ d = '\\')) {i : Nat} :
    front.length + 1 ≤ i ∧ IsEscape (front ++ c :: rest) i
      ↔ front.length ≤ i ∧ IsEscape (front ++ c :: rest) i := by
  constructor
  · rintro ⟨hi, h⟩
    exact ⟨by omega, h⟩
  · rintro ⟨hi, h⟩
    refine ⟨Nat.lt_of_le_of_ne hi ?_, h⟩
    rintro rfl
    obtain ⟨d, behind, hsplit, hd, _⟩ := isEscape_length_iff.1 h
    obtain ⟨rfl, rfl⟩ := List.cons.inj hsplit
    exact hc d behind rfl rfl hd

private lemma not_pair {rest : List Char} {c : Char}
    (hescaped : ∀ behind, c = '\\' → rest = '"' :: behind → False)
    (hbackslash : ∀ behind, c = '\\' → rest = '\\' :: behind → False) :
    ∀ d behind, c = '\\' → rest = d :: behind → ¬ (d = '"' ∨ d = '\\') := by
  rintro d behind hc hrest (rfl | rfl)
  · exact hescaped behind hc hrest
  · exact hbackslash behind hc hrest

/-- Behind a backslash that pairs with nothing there is no quote or backslash. -/
private lemma even_or_of_plain {front rest : List Char} {c : Char}
    (hc : ∀ d behind, c = '\\' → rest = d :: behind → ¬ (d = '"' ∨ d = '\\')) :
    Even (backslashes (front ++ [c])) ∨ rest.head? ≠ some '"' ∧ rest.head? ≠ some '\\' := by
  by_cases hbackslash : c = '\\'
  · right
    cases rest with
    | nil => simp
    | cons d behind => simpa using hc d behind hbackslash rfl
  · left
    rw [backslashes_concat, if_neg hbackslash]
    exact Even.zero

/-- **The escapes that are undone** behind a text are those that there are, if no quote or backslash is
next that the text would escape. -/
lemma mem_unescapeNoting_iff {n : Nat} {front cs : List Char} (hn : n = front.length)
    (hnext : Even (backslashes front) ∨ cs.head? ≠ some '"' ∧ cs.head? ≠ some '\\') {i : Nat} :
    i ∈ (unescapeNoting n cs).2 ↔ n ≤ i ∧ IsEscape (front ++ cs) i := by
  fun_induction unescapeNoting n cs generalizing front with
  | case1 n =>
      subst hn
      simp only [List.not_mem_nil, List.append_nil, false_iff, not_and]
      intro hi h
      have := h.lt
      omega
  | case2 n rest ih =>
      subst hn
      have heven : Even (backslashes front) := by simpa using hnext
      have heven' : Even (backslashes (front ++ ['\\'] ++ ['"'])) := by
        rw [backslashes_concat, if_neg (by decide)]
        exact Even.zero
      rw [List.mem_cons, @ih (front ++ ['\\'] ++ ['"']) (by simp) (Or.inl heven'),
        ← isEscape_pair_iff (Or.inl rfl) heven, List.append_assoc, List.append_assoc]
      rfl
  | case3 n rest ih =>
      subst hn
      have heven : Even (backslashes front) := by simpa using hnext
      have heven' : Even (backslashes (front ++ ['\\'] ++ ['\\'])) := by
        rw [backslashes_concat, if_pos rfl, backslashes_concat, if_pos rfl]
        exact heven.add even_two
      rw [List.mem_cons, @ih (front ++ ['\\'] ++ ['\\']) (by simp) (Or.inl heven'),
        ← isEscape_pair_iff (Or.inr rfl) heven, List.append_assoc, List.append_assoc]
      rfl
  | case4 n c rest hescaped hbackslash ih =>
      subst hn
      have hplain := not_pair hescaped hbackslash
      rw [@ih (front ++ [c]) (by simp) (even_or_of_plain hplain), ← isEscape_plain_iff hplain,
        List.append_assoc]
      rfl

/-- In a body by itself, the escapes that are undone are those that there are. -/
lemma mem_unescapeNoting_zero_iff {body : List Char} {i : Nat} :
    i ∈ (unescapeNoting 0 body).2 ↔ IsEscape body i := by
  have hiff := @mem_unescapeNoting_iff 0 [] body rfl (Or.inl Even.zero) i
  rw [List.nil_append] at hiff
  exact hiff.trans (and_iff_right (Nat.zero_le i))

/-! ## Strings that are not closed -/

/-- Behind the text `front`, every quote has an odd number of backslashes before it. -/
def QuotesEscaped (front cs : List Char) : Prop :=
  ∀ before behind, cs = before ++ '"' :: behind → Odd (backslashes (front ++ before))

lemma quotesEscaped_nil (front : List Char) : QuotesEscaped front [] :=
  fun before behind h => absurd h (by simp)

lemma quotesEscaped_cons {front rest : List Char} {c : Char} : QuotesEscaped front (c :: rest)
    ↔ (c = '"' → Odd (backslashes front)) ∧ QuotesEscaped (front ++ [c]) rest := by
  constructor
  · refine fun h => ⟨?_, fun before behind hsplit => ?_⟩
    · rintro rfl
      have hodd := h [] rest rfl
      rwa [List.append_nil] at hodd
    · rw [List.append_assoc]
      exact h (c :: before) behind (by rw [hsplit, List.cons_append])
  · rintro ⟨hc, h⟩ before behind hsplit
    cases before with
    | nil =>
        rw [List.append_nil]
        exact hc (List.cons.inj hsplit).1
    | cons d before =>
        obtain ⟨rfl, hrest⟩ := List.cons.inj hsplit
        have hodd := h before behind hrest
        rwa [List.append_assoc] at hodd

/-- Behind a text that would escape nothing that is next, a string is not closed if its quotes are
escaped. -/
lemma closeString_eq_none_iff_behind {front cs : List Char}
    (hnext : Even (backslashes front) ∨ cs.head? ≠ some '"' ∧ cs.head? ≠ some '\\') :
    closeString cs = none ↔ QuotesEscaped front cs := by
  fun_induction closeString cs generalizing front with
  | case1 => exact iff_of_true rfl (quotesEscaped_nil front)
  | case2 rest =>
      have heven : Even (backslashes front) := by simpa using hnext
      refine iff_of_false (Option.some_ne_none _) fun h => ?_
      exact Nat.not_even_iff_odd.2 ((quotesEscaped_cons.1 h).1 rfl) heven
  | case3 rest ih =>
      have heven : Even (backslashes front) := by simpa using hnext
      have hodd : Odd (backslashes (front ++ ['\\'])) := by
        rw [backslashes_concat, if_pos rfl]
        exact heven.add_one
      have heven' : Even (backslashes (front ++ ['\\'] ++ ['"'])) := by
        rw [backslashes_concat, if_neg (by decide)]
        exact Even.zero
      rw [Option.map_eq_none_iff, ih (Or.inl heven'), quotesEscaped_cons, quotesEscaped_cons]
      simp [hodd]
  | case4 rest ih =>
      have heven : Even (backslashes front) := by simpa using hnext
      have heven' : Even (backslashes (front ++ ['\\'] ++ ['\\'])) := by
        rw [backslashes_concat, if_pos rfl, backslashes_concat, if_pos rfl]
        exact heven.add even_two
      rw [Option.map_eq_none_iff, ih (Or.inl heven'), quotesEscaped_cons, quotesEscaped_cons]
      simp
  | case5 c rest hquote hescaped hbackslash ih =>
      have hplain := not_pair hescaped hbackslash
      rw [Option.map_eq_none_iff, ih (even_or_of_plain hplain), quotesEscaped_cons]
      exact (and_iff_right fun hc => absurd hc hquote).symm

/-- **What leaves a string open**: every quote has an odd number of backslashes before it. -/
lemma closeString_eq_none_iff {cs : List Char} : closeString cs = none ↔ QuotesEscaped [] cs :=
  closeString_eq_none_iff_behind (Or.inl Even.zero)

end RpcSchema.Text
