import RpcSchema.Proofs.Grammar.Taking
import RpcSchema.Proofs.Token.Lossless

/-!
# The words of a source

`Source.words` is what the grammar is about: the significant tokens of a source up to its end, each with
the number of line feeds before it.  A `Lookahead` in front of a source gives exactly these words: it is
a lawful supply, and taking all of them leads to the end of the file (`Lookahead.took_words`).

**What a window holds.**  A window is filled from its scanner as words are taken, so at any time the words
that are still to come are those in the window, and behind them those of the scanner.  `Holds` is that
relation; at the end of the file the window holds ends of the file only.
-/

namespace RpcSchema

/-- The significant tokens in front of the end of the file, where some line feeds were passed before. -/
def significant : Nat → List Token → List Word
  | _, [] => []
  | breaks, t :: ts =>
    if t.kind = .newline then significant (breaks + 1) ts
    else if t.kind = .endOfFile then []
    else ⟨t, breaks⟩ :: significant 0 ts

/-- The words of a source. -/
def Source.words (source : Source) : List Word := significant 0 source.tokens

/-- The words of a scanner. -/
def Scanner.words (s : Scanner) : List Word := significant 0 s.drain.1

lemma token_mem_of_mem_significant {w : Word} {breaks : Nat} {ts : List Token}
    (h : w ∈ significant breaks ts) : w.token ∈ ts := by
  induction ts generalizing breaks with
  | nil => cases h
  | cons t ts ih =>
      rw [significant] at h
      split at h
      · exact List.mem_cons_of_mem t (ih h)
      · split at h
        · cases h
        · rcases List.mem_cons.1 h with rfl | h
          · exact List.mem_cons_self
          · exact List.mem_cons_of_mem t (ih h)

/-- The words are the tokens without line feeds and the end. -/
lemma Source.map_token_words (source : Source) : source.words.map (·.token)
    = source.tokens.filter (fun t => t.kind ≠ .newline ∧ t.kind ≠ .endOfFile) := by
  obtain ⟨front, last, htokens, hfront, hlast, _⟩ := source.tokens_tile.ends
  have key : ∀ breaks, (significant breaks (front ++ [last])).map (·.token)
      = (front ++ [last]).filter (fun t => t.kind ≠ .newline ∧ t.kind ≠ .endOfFile) := by
    clear htokens
    induction front with
    | nil =>
        intro breaks
        simp [significant, hlast]
    | cons t ts ih =>
        intro breaks
        have ht := hfront t List.mem_cons_self
        have ih := ih fun u hu => hfront u (List.mem_cons_of_mem t hu)
        by_cases hnewline : t.kind = .newline
        · simp only [List.cons_append, significant, hnewline, if_true, ih]
          rw [List.filter_cons_of_neg (by simp [hnewline])]
        · simp only [List.cons_append, significant, hnewline, ht, if_false, List.map_cons, ih]
          rw [List.filter_cons_of_pos (by simp [hnewline, ht])]
  rw [Source.words, htokens]
  exact key 0

lemma Source.token_of_mem_words {source : Source} {w : Word} (hw : w ∈ source.words) :
    w.token ∈ source.tokens ∧ w.kind ≠ .endOfFile := by
  have htoken : w.token ∈ source.words.map (·.token) := List.mem_map_of_mem hw
  rw [source.map_token_words, List.mem_filter] at htoken
  simp only [decide_eq_true_eq] at htoken
  exact ⟨htoken.1, htoken.2.2⟩

lemma Source.source_of_mem_words {source : Source} {w : Word} (h : w ∈ source.words) :
    w.span.source = source :=
  source.tokens_tile.ofSource _ (token_mem_of_mem_significant h)

namespace Scanner

variable {s : Scanner}

/-- The end of the file is met where there is only a gap left. -/
lemma rest_skipGap_of_end (h : s.next.1.kind = .endOfFile) : s.skipGap.rest = [] := by
  cases hrest : s.skipGap.rest with
  | nil => rfl
  | cons c rest =>
      rw [next, hrest] at h
      exact absurd h (Cut.kind_first_ne_end c rest)

lemma rest_next_of_end (h : s.next.1.kind = .endOfFile) : s.next.2.rest = [] := by
  have hrest := rest_skipGap_of_end h
  simp only [next, hrest]

/-- The next word of a scanner is the first of its words, or the end of the file if there is none. -/
lemma nextWord_words {s : Scanner} (breaks : Nat) :
    ((s.nextWord breaks).1.kind ≠ .endOfFile
        ∧ significant breaks s.drain.1 = (s.nextWord breaks).1 :: (s.nextWord breaks).2.words
        ∧ (s.nextWord breaks).2.rest.length < s.rest.length)
      ∨ ((s.nextWord breaks).1.kind = .endOfFile ∧ significant breaks s.drain.1 = []
        ∧ (s.nextWord breaks).2.rest = []) := by
  by_cases hend : s.next.1.kind = .endOfFile
  · have hword : s.nextWord breaks = (⟨s.next.1, breaks⟩, s.next.2) := by
      rw [nextWord]
      simp [hend]
    rw [hword, drain_of_end hend]
    refine Or.inr ⟨hend, ?_, rest_next_of_end hend⟩
    simp [significant, hend]
  · have hless := length_rest_next hend
    by_cases hnewline : s.next.1.kind = .newline
    · have hword : s.nextWord breaks = s.next.2.nextWord (breaks + 1) := by
        rw [nextWord]
        simp [hnewline]
      have hsignificant : significant breaks s.drain.1
          = significant (breaks + 1) s.next.2.drain.1 := by
        rw [drain_of_token hend, significant, if_pos hnewline]
      rw [hword, hsignificant]
      rcases nextWord_words (s := s.next.2) (breaks + 1) with ⟨hne, hwords, hrest⟩ | hstop
      · exact Or.inl ⟨hne, hwords, by omega⟩
      · exact Or.inr hstop
    · have hword : s.nextWord breaks = (⟨s.next.1, breaks⟩, s.next.2) := by
        rw [nextWord]
        simp [hnewline]
      rw [hword, drain_of_token hend, significant, if_neg hnewline, if_neg hend]
      exact Or.inl ⟨hend, rfl, hless⟩
termination_by s.rest.length

lemma words_of_rest_nil (h : s.rest = []) : s.words = [] := by
  have hend : s.next.1.kind = .endOfFile := by rw [next_of_rest_nil h]
  rw [words, drain_of_end hend]
  simp [significant, hend]

end Scanner

namespace Lookahead

open TokenSupply LawfulSupply

/-! ## What a window holds -/

/-- The words to come, of a window and the scanner behind it. -/
inductive Holds (scanner : Scanner) : List Word → List Word → Prop where
  | scanner : Holds scanner [] scanner.words
  | word {x : Word} {window ws : List Word} : x.kind ≠ .endOfFile → Holds scanner window ws →
      Holds scanner (x :: window) (x :: ws)
  | stop {x : Word} {window : List Word} : x.kind = .endOfFile → Holds scanner window [] →
      Holds scanner (x :: window) []

/-- A word moves from the scanner to the window. -/
lemma Holds.fill {scanner : Scanner} {window ws : List Word} (h : Holds scanner window ws) :
    Holds (scanner.nextWord 0).2 (window ++ [(scanner.nextWord 0).1]) ws := by
  induction h with
  | scanner =>
      rcases scanner.nextWord_words 0 with ⟨hne, hwords, _⟩ | ⟨hend, hwords, hrest⟩
      · rw [Scanner.words, hwords]
        exact .word hne .scanner
      · have hnone : Holds (scanner.nextWord 0).2 [] (scanner.nextWord 0).2.words := .scanner
        rw [Scanner.words_of_rest_nil hrest] at hnone
        rw [Scanner.words, hwords]
        exact .stop hend hnone
  | word hne _ ih => exact .word hne ih
  | stop hend _ ih => exact .stop hend ih

lemma fill_holds {w : Lookahead} {ws : List Word} (n : Nat) (h : Holds w.scanner w.window ws) :
    Holds (w.fill n).scanner (w.fill n).window ws := by
  induction n generalizing w with
  | zero => exact h
  | succ n ih => exact ih h.fill

lemma length_fill (w : Lookahead) (n : Nat) : (w.fill n).window.length = w.window.length + n := by
  induction n generalizing w with
  | zero => rfl
  | succ n ih =>
      rw [Lookahead.fill, ih, List.length_append, List.length_singleton]
      omega

/-! ## A lawful supply -/

instance : LawfulSupply Lookahead where
  Ready w := w.window.length = lookahead
  ready_advance {w} h := by
    show (fill _ 1).window.length = lookahead
    rw [length_fill, List.length_drop, h]
    rfl
  peek_one {w} h := by
    obtain ⟨last, window, scanner⟩ := w
    match window, h with
    | _ :: _ :: _, _ => rfl
  last_advance _ := rfl
  remaining_advance {w} h hne := by
    obtain ⟨last, window, scanner⟩ := w
    match window, h with
    | x :: window, _ =>
      show (window ++ [(scanner.nextWord 0).1]).countP (·.token.kind ≠ .endOfFile)
          + (scanner.nextWord 0).2.rest.length
        < (x :: window).countP (·.token.kind ≠ .endOfFile) + scanner.rest.length
      have hx : x.token.kind ≠ .endOfFile := hne
      simp only [List.countP_append, List.countP_cons, List.countP_nil]
      rcases scanner.nextWord_words 0 with ⟨hword, _, hless⟩ | ⟨hend, _, hrest⟩
      · replace hword : (scanner.nextWord 0).1.token.kind ≠ .endOfFile := hword
        simp only [hx, hword, ne_eq, not_false_eq_true, decide_true, if_true]
        omega
      · replace hend : (scanner.nextWord 0).1.token.kind = .endOfFile := hend
        simp only [hx, hend, hrest, ne_eq, not_false_eq_true, not_true_eq_false, decide_true,
          decide_false, if_true, Bool.false_eq_true, if_false, List.length_nil]
        omega

/-- A supply gives the words that it holds, and is at the end of the file then. -/
lemma took_of_holds {w : Lookahead} {ws : List Word} (hready : Ready w)
    (h : Holds w.scanner w.window ws) : ∃ w', Took w ws w' ∧ next w' = .endOfFile := by
  induction ws generalizing w with
  | nil =>
      refine ⟨w, .nil hready, ?_⟩
      obtain ⟨last, window, scanner⟩ := w
      match window, hready, h with
      | x :: window, _, .stop hend _ => exact hend
  | cons y ws ih =>
      obtain ⟨last, window, scanner⟩ := w
      match window, hready, h with
      | x :: window, hready, .word hne hwindow =>
        obtain ⟨w', htook, hend⟩ := ih (ready_advance hready) hwindow.fill
        exact ⟨w', .cons hready hne htook, hend⟩

/-! ## In front of a scanner -/

/-- The supply in front of a scanner. -/
def inFront (s : Scanner) : Lookahead := fill ⟨s.position, [], s⟩ lookahead

lemma ready_inFront (s : Scanner) : Ready (inFront s) := length_fill _ lookahead

lemma ready_ofSource (source : Source) : Ready (ofSource source) := ready_inFront (.ofSource source)

/-- The supply in front of a scanner gives its words. -/
theorem took_words (s : Scanner) : ∃ w, Took (inFront s) s.words w ∧ next w = .endOfFile :=
  took_of_holds (ready_inFront s) (fill_holds lookahead .scanner)

end Lookahead

end RpcSchema
