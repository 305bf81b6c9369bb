import Mathlib.Order.Monotone.Basic
import RpcSchema.Proofs.Grammar.Words
import RpcSchema.Proofs.Token.Layout

/-!
# Words by their number

`Scanner.wordAt` is the word of a scanner with the given number, counted from zero.  Words do not run
out: at the end of the file stands the end of the file, and so it does behind it.  A supply from
which `k` words were taken has the word with number `k` in front, and the next behind it
(`Lookahead.peek_taken`), so that two supplies may be compared word by word.

**What remains** comes down with every word that is taken until the file ends, and is nothing from
there on.  So less remains after `j` words than after `k` exactly if `k` is smaller and does not
lead to the end (`Lookahead.remaining_taken_lt_iff`); how much remains does not matter to that.
-/

namespace RpcSchema

/-! ## Counting line feeds -/

/-- What is not a line feed, with the number of line feeds before it. -/
def counted {α : Type} (isFeed : α → Bool) : Nat → List α → List (α × Nat)
  | _, [] => []
  | n, a :: as => if isFeed a then counted isFeed (n + 1) as else (a, n) :: counted isFeed 0 as

section

variable {α β : Type} {isFeed : α → Bool}

lemma counted_map {isFeed' : β → Bool} {f : α → β} (h : ∀ a, isFeed' (f a) = isFeed a) (n : Nat)
    (as : List α) : counted isFeed' n (as.map f) = (counted isFeed n as).map (Prod.map f id) := by
  induction as generalizing n with
  | nil => rfl
  | cons a as ih =>
      simp only [List.map_cons, counted, h, ih]
      split <;> rfl

lemma map_fst_counted (n : Nat) (as : List α) :
    (counted isFeed n as).map Prod.fst = as.filter (fun a => !isFeed a) := by
  induction as generalizing n with
  | nil => rfl
  | cons a as ih =>
      rw [counted]
      split
      · next ha => rw [ih, List.filter_cons_of_neg (by simp [ha])]
      · next ha => rw [List.map_cons, ih, List.filter_cons_of_pos (by simp [ha])]

/-- The count begins anew behind what is not a line feed. -/
lemma counted_append {a : α} (ha : ¬ isFeed a) (n : Nat) (as bs : List α) :
    counted isFeed n (as ++ [a] ++ bs) = counted isFeed n (as ++ [a]) ++ counted isFeed 0 bs := by
  induction as generalizing n with
  | nil => simp [counted, ha]
  | cons b as ih =>
      simp only [List.cons_append, counted, ih]
      split <;> rfl

lemma counted_concat {a : α} (ha : ¬ isFeed a) (n : Nat) (as : List α) :
    ∃ entries k, counted isFeed n (as ++ [a]) = entries ++ [(a, k)] := by
  induction as generalizing n with
  | nil => exact ⟨[], n, by simp [counted, ha]⟩
  | cons b as ih =>
      rw [List.cons_append, counted]
      split
      · exact ih (n + 1)
      · obtain ⟨entries, k, heq⟩ := ih 0
        exact ⟨(b, n) :: entries, k, by rw [heq, List.cons_append]⟩

/-- Line feeds in front are counted. -/
lemma counted_feeds {feeds : List α} (h : ∀ f ∈ feeds, isFeed f) (n : Nat) (as : List α) :
    counted isFeed n (feeds ++ as) = counted isFeed (n + feeds.length) as := by
  induction feeds generalizing n with
  | nil => rfl
  | cons f feeds ih =>
      rw [List.forall_mem_cons] at h
      rw [List.cons_append, counted, if_pos h.1, ih h.2, List.length_cons, Nat.add_right_comm,
        Nat.add_assoc]

lemma counted_replicate {a : α} (ha : isFeed a) (n m : Nat) (as : List α) :
    counted isFeed n (List.replicate m a ++ as) = counted isFeed (n + m) as := by
  have hfeeds : ∀ f ∈ List.replicate m a, isFeed f := by
    intro f hf
    rwa [List.eq_of_mem_replicate hf]
  rw [counted_feeds hfeeds, List.length_replicate]

/-- More line feeds in front count for what comes first. -/
lemma counted_add (n m : Nat) (as : List α) :
    counted isFeed (n + m) as = (counted isFeed n as).modifyHead (Prod.map id (· + m)) := by
  induction as generalizing n with
  | nil => rfl
  | cons a as ih =>
      rw [counted, counted]
      split
      · rw [Nat.add_right_comm, ih]
      · rfl

end

/-! ## The words of a scanner, by their number -/

/-- Whether a token is a line feed. -/
def Token.isFeed (t : Token) : Bool := t.kind = .newline

lemma Token.isFeed_iff {t : Token} : t.isFeed ↔ t.kind = .newline := decide_eq_true_iff

/-- A token with the line feeds before it, as a word. -/
def Word.ofEntry (e : Token × Nat) : Word := ⟨e.1, e.2⟩

/-- Behind some tokens the count of line feeds, and the words, go on as from some number of line feeds
on. -/
lemma exists_counted_append {as : List Token} (h : ∀ t ∈ as, t.kind ≠ .endOfFile) (n : Nat) :
    ∃ k, ∀ bs, counted Token.isFeed n (as ++ bs) = counted Token.isFeed n as ++ counted Token.isFeed k bs
      ∧ significant n (as ++ bs) = (counted Token.isFeed n as).map Word.ofEntry ++ significant k bs := by
  induction as generalizing n with
  | nil => exact ⟨n, fun _ => ⟨rfl, rfl⟩⟩
  | cons a as ih =>
      rw [List.forall_mem_cons] at h
      by_cases hfeed : a.kind = .newline
      · obtain ⟨k, hk⟩ := ih h.2 (n + 1)
        refine ⟨k, fun bs => ?_⟩
        simpa [counted, significant, Token.isFeed, hfeed] using hk bs
      · obtain ⟨k, hk⟩ := ih h.2 0
        refine ⟨k, fun bs => ?_⟩
        simpa [counted, significant, Token.isFeed, hfeed, h.1, Word.ofEntry] using hk bs

/-- The first of the words has all line feeds before it that were passed. -/
lemma le_breaks_of_significant {n : Nat} {ts : List Token} {w : Word} {ws : List Word}
    (h : significant n ts = w :: ws) : n ≤ w.breaks := by
  induction ts generalizing n with
  | nil => cases h
  | cons t ts ih =>
      rw [significant] at h
      split at h
      · exact Nat.le_of_succ_le (ih h)
      · split at h
        · cases h
        · obtain ⟨rfl, -⟩ := List.cons.inj h
          exact Nat.le_refl n

namespace Scanner

/-- The scanner behind its next word. -/
def behind (s : Scanner) : Scanner := (s.nextWord 0).2

/-- The word with a number. -/
def wordAt (s : Scanner) (n : Nat) : Word := ((behind^[n] s).nextWord 0).1

/-- The significant tokens of a scanner up to and with the end, with the line feeds before them. -/
def stream (s : Scanner) : List (Token × Nat) := counted Token.isFeed 0 s.drain.1

variable {s : Scanner} {breaks : Nat}

lemma wordAt_succ (s : Scanner) (n : Nat) : s.wordAt (n + 1) = s.behind.wordAt n := by
  rw [wordAt, Function.iterate_succ_apply, wordAt]

lemma nextWord_of_feed (h : s.next.1.isFeed) :
    s.nextWord breaks = s.next.2.nextWord (breaks + 1) := by
  have hkind : s.next.1.kind = .newline := by simpa [Token.isFeed] using h
  rw [nextWord]
  simp [hkind]

lemma nextWord_of_not_feed (h : ¬ s.next.1.isFeed) :
    s.nextWord breaks = (⟨s.next.1, breaks⟩, s.next.2) := by
  have hkind : s.next.1.kind ≠ .newline := by simpa [Token.isFeed] using h
  rw [nextWord]
  simp [hkind]

/-- The scanner at the end of the file stays there. -/
lemma next_of_end (h : s.next.1.kind = .endOfFile) : s.next.2.next = (s.next.1, s.next.2) := by
  have hrest := rest_skipGap_of_end h
  rw [next_of_rest_nil (rest_next_of_end h)]
  simp only [next, hrest]

/-- The next word is the first of what a scanner counts. -/
lemma counted_drain (s : Scanner) (breaks : Nat) : counted Token.isFeed breaks s.drain.1
    = ((s.nextWord breaks).1.token, (s.nextWord breaks).1.breaks)
      :: if (s.nextWord breaks).1.kind = .endOfFile then [] else (s.nextWord breaks).2.stream := by
  by_cases hend : s.next.1.kind = .endOfFile
  · have hfeed : ¬ s.next.1.isFeed := by simp [Token.isFeed, hend]
    rw [drain_of_end hend, nextWord_of_not_feed hfeed, if_pos hend, counted, if_neg hfeed, counted]
  · have hless := length_rest_next hend
    rw [drain_of_token hend]
    by_cases hfeed : s.next.1.isFeed
    · rw [nextWord_of_feed hfeed, counted, if_pos hfeed, counted_drain]
    · rw [nextWord_of_not_feed hfeed, if_neg hend, counted, if_neg hfeed, stream]
termination_by s.rest.length

/-- Behind the end of the file stands the end of the file. -/
lemma nextWord_of_end {s : Scanner} {breaks : Nat}
    (h : (s.nextWord breaks).1.kind = .endOfFile) :
    (s.nextWord breaks).2.nextWord 0 = (⟨(s.nextWord breaks).1.token, 0⟩, (s.nextWord breaks).2)
      ∧ (s.nextWord breaks).2.rest = [] := by
  by_cases hfeed : s.next.1.isFeed
  · have hne : s.next.1.kind ≠ .endOfFile := by
      have hkind : s.next.1.kind = .newline := by simpa [Token.isFeed] using hfeed
      simp [hkind]
    have hless := length_rest_next hne
    rw [nextWord_of_feed hfeed] at h ⊢
    exact nextWord_of_end h
  · rw [nextWord_of_not_feed hfeed] at h ⊢
    have hnext := next_of_end h
    have hfeed' : ¬ s.next.2.next.1.isFeed := by rwa [hnext]
    refine ⟨?_, rest_next_of_end h⟩
    rw [nextWord_of_not_feed hfeed', hnext]
termination_by s.rest.length

lemma wordAt_of_end (h : (s.wordAt 0).kind = .endOfFile) (n : Nat) :
    s.wordAt (n + 1) = ⟨(s.wordAt 0).token, 0⟩ := by
  have hword : s.behind.nextWord 0 = (⟨(s.wordAt 0).token, 0⟩, s.behind) := (nextWord_of_end h).1
  have hfixed : s.behind.behind = s.behind := by
    show (s.behind.nextWord 0).2 = _
    rw [hword]
  rw [wordAt_succ, wordAt, Function.iterate_fixed hfixed, hword]

/-- What a scanner counts, from the front. -/
lemma stream_eq (s : Scanner) : s.stream = ((s.wordAt 0).token, (s.wordAt 0).breaks)
    :: if (s.wordAt 0).kind = .endOfFile then [] else s.behind.stream := counted_drain s 0

/-- The words of a scanner are those of its stream, and behind them its last token is repeated. -/
lemma wordAt_eq_getD {t : Token} (h : s.stream.getLast?.map Prod.fst = some t)
    (n : Nat) : s.wordAt n = (s.stream.map Word.ofEntry).getD n ⟨t, 0⟩ := by
  induction n generalizing s with
  | zero =>
      rw [stream_eq]
      rfl
  | succ n ih =>
      rw [stream_eq] at h ⊢
      split at h
      · next hend =>
          obtain rfl : (s.wordAt 0).token = t := Option.some.inj h
          rw [if_pos hend, wordAt_of_end hend]
          rfl
      · next hend =>
          have hne : s.behind.stream ≠ [] := by
            rw [stream_eq]
            simp
          rw [List.getLast?_cons_of_ne_nil hne] at h
          rw [if_neg hend, List.map_cons, List.getD_cons_succ, wordAt_succ, ih h]

lemma exists_getLast?_stream (s : Scanner) : ∃ t, s.stream.getLast?.map Prod.fst = some t := by
  rw [stream_eq, List.getLast?_cons]
  exact ⟨_, rfl⟩

/-- The token with a number; behind the last stands the last. -/
lemma token_wordAt (s : Scanner) (n : Nat) :
    (s.stream.map Prod.fst)[min n (s.stream.length - 1)]? = some (s.wordAt n).token := by
  obtain ⟨t, hlast⟩ := s.exists_getLast?_stream
  rw [wordAt_eq_getD hlast, List.getElem?_map, List.getD_eq_getElem?_getD, List.getElem?_map]
  by_cases hn : n < s.stream.length
  · rw [Nat.min_eq_left (by omega), List.getElem?_eq_getElem hn]
    rfl
  · rw [Nat.min_eq_right (by omega), ← List.getLast?_eq_getElem?, hlast,
      List.getElem?_eq_none (Nat.le_of_not_lt hn)]
    rfl

/-- The line feeds before the word with a number; behind the last word there are none. -/
lemma breaks_wordAt (s : Scanner) (n : Nat) :
    ((s.stream.map Prod.snd)[n]?).getD 0 = (s.wordAt n).breaks := by
  obtain ⟨t, hlast⟩ := s.exists_getLast?_stream
  rw [wordAt_eq_getD hlast, List.getD_eq_getElem?_getD, List.getElem?_map, List.getElem?_map]
  cases s.stream[n]? <;> rfl

/-- Behind the end of the file nothing is left. -/
lemma rest_iterate_of_end {n : Nat} (h : (s.wordAt n).kind = .endOfFile) (m : Nat) :
    (s.wordAt (n + m)).kind = .endOfFile ∧ (behind^[n + m + 1] s).rest = [] := by
  induction m with
  | zero =>
      refine ⟨h, ?_⟩
      rw [Nat.add_zero, Function.iterate_succ_apply']
      exact (nextWord_of_end h).2
  | succ m ih =>
      have hword : (behind^[n + m + 1] s).nextWord 0
          = (⟨(s.wordAt (n + m)).token, 0⟩, behind^[n + m + 1] s) := by
        rw [Function.iterate_succ_apply']
        exact (nextWord_of_end ih.1).1
      have hbehind : behind^[n + m + 1 + 1] s = behind^[n + m + 1] s := by
        rw [Function.iterate_succ_apply']
        exact congrArg Prod.snd hword
      refine ⟨?_, ?_⟩
      · rw [← Nat.add_assoc, wordAt, hword]
        exact ih.1
      · rw [← Nat.add_assoc, hbehind]
        exact ih.2

end Scanner

/-- The word of a source with a number. -/
def Source.wordAt (source : Source) (n : Nat) : Word := (Scanner.ofSource source).wordAt n

/-! ## Supplies, by the number of words that were taken -/

namespace Lookahead

open LawfulSupply

/-- The supply in front of a scanner, after some words were taken. -/
def taken (s : Scanner) (k : Nat) : Lookahead := TokenSupply.advance^[k] (inFront s)

variable {s : Scanner} {k : Nat}

lemma advance_taken (s : Scanner) (k : Nat) : TokenSupply.advance (taken s k) = taken s (k + 1) :=
  (Function.iterate_succ_apply' TokenSupply.advance k _).symm

/-- A window holds the next words, and the scanner stands behind them. -/
lemma window_taken (s : Scanner) (k : Nat) :
    (taken s k).window = [s.wordAt k, s.wordAt (k + 1), s.wordAt (k + 2), s.wordAt (k + 3)]
      ∧ (taken s k).scanner = Scanner.behind^[k + lookahead] s := by
  induction k with
  | zero => exact ⟨rfl, rfl⟩
  | succ k ih =>
      rw [← advance_taken]
      obtain ⟨hwindow, hscanner⟩ := ih
      constructor
      · show (taken s k).window.drop 1 ++ [((taken s k).scanner.nextWord 0).1] = _
        rw [hwindow, hscanner]
        rfl
      · show ((taken s k).scanner.nextWord 0).2 = _
        rw [hscanner, Nat.add_right_comm, Function.iterate_succ_apply']
        rfl

/-- The next word is the one with the number of words that were taken. -/
lemma peek_taken (s : Scanner) (k : Nat) : TokenSupply.peek (taken s k) 0 = s.wordAt k := by
  show (taken s k).window.getD 0 _ = _
  rw [(window_taken s k).1]
  rfl

lemma ready_taken (s : Scanner) (k : Nat) : Ready (taken s k) := by
  show (taken s k).window.length = lookahead
  rw [(window_taken s k).1]
  rfl

lemma remaining_taken_of_end (h : (s.wordAt k).kind = .endOfFile) :
    TokenSupply.remaining (taken s k) = 0 := by
  show (taken s k).window.countP (·.token.kind ≠ .endOfFile) + (taken s k).scanner.rest.length = 0
  obtain ⟨hwindow, hscanner⟩ := window_taken s k
  have hend : ∀ m, (s.wordAt (k + m)).token.kind = .endOfFile :=
    fun m => (Scanner.rest_iterate_of_end h m).1
  have hrest : (Scanner.behind^[k + lookahead] s).rest = [] := (Scanner.rest_iterate_of_end h 3).2
  rw [hwindow, hscanner, hrest]
  simp [hend 1, hend 2, hend 3, show (s.wordAt k).token.kind = _ from h]

lemma remaining_taken_succ_le (s : Scanner) (k : Nat) :
    TokenSupply.remaining (taken s (k + 1)) ≤ TokenSupply.remaining (taken s k) := by
  by_cases hend : (s.wordAt k).kind = .endOfFile
  · rw [remaining_taken_of_end hend,
      remaining_taken_of_end (Scanner.rest_iterate_of_end hend 1).1]
  · rw [← advance_taken]
    rw [← peek_taken] at hend
    exact Nat.le_of_lt (remaining_advance (ready_taken s k) hend)

/-- Less remains exactly when more words were taken, short of the end. -/
lemma remaining_taken_lt_iff {j : Nat} :
    TokenSupply.remaining (taken s j) < TokenSupply.remaining (taken s k)
      ↔ k < j ∧ (s.wordAt k).kind ≠ .endOfFile := by
  have hanti : Antitone fun n => TokenSupply.remaining (taken s n) :=
    antitone_nat_of_succ_le (remaining_taken_succ_le s)
  constructor
  · intro hless
    refine ⟨?_, fun hend => ?_⟩
    · by_contra hle
      exact absurd hless (Nat.not_lt_of_le (hanti (Nat.le_of_not_lt hle)))
    · rw [remaining_taken_of_end hend] at hless
      exact absurd hless (Nat.not_lt_zero _)
  · rintro ⟨hless, hend⟩
    rw [← peek_taken] at hend
    have hstep := remaining_advance (ready_taken s k) hend
    rw [advance_taken] at hstep
    exact Nat.lt_of_le_of_lt (hanti hless) hstep

/-- A scanner gives the words that are taken, and then what it gives behind them. -/
lemma stream_of_took {us : List Word} {w : Lookahead} (h : Took (taken s k) us w) :
    w = taken s (k + us.length)
      ∧ (Scanner.behind^[k] s).stream.map Prod.fst = us.map Word.token
        ++ (Scanner.behind^[k + us.length] s).stream.map Prod.fst := by
  generalize hs : taken s k = s₀ at h
  induction h generalizing k with
  | nil =>
      subst hs
      exact ⟨rfl, rfl⟩
  | @cons s₀ s₁ ws hready hne h ih =>
      subst hs
      obtain ⟨rfl, hstream⟩ := ih (advance_taken s k).symm
      have hend : ((Scanner.behind^[k] s).wordAt 0).kind ≠ .endOfFile := by
        rwa [peek_taken] at hne
      have hstep : Scanner.behind (Scanner.behind^[k] s) = Scanner.behind^[k + 1] s :=
        (Function.iterate_succ_apply' _ _ _).symm
      rw [List.length_cons, Nat.add_comm ws.length 1, ← Nat.add_assoc]
      refine ⟨rfl, ?_⟩
      rw [Scanner.stream_eq, if_neg hend, hstep, List.map_cons, hstream, List.map_cons, peek_taken]
      rfl

end Lookahead

end RpcSchema
