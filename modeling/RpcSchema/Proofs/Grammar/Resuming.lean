import RpcSchema.Proofs.Grammar.Simulation
import RpcSchema.Proofs.Grammar.Stream

/-!
# Scanners that say the same

From some word on a scanner may say what another says from its start: the two may scan one text in two
places, or texts that are set in different ways.  What a reader finds from that word on is then what it
finds on the other scanner (`Scanner.Resumes.simulation`), but for the places, which may correspond in
any way.

Whether they say the same is seen from the streams of the two (`Scanner.resumes_of_stream`).  Behind the
words of its own, the stream of the one must be that of the other; only in front of the first word it may
hold more line feeds.
-/

namespace RpcSchema

open TokenSupply LawfulSupply

/-- From its word with the number `n` on, a scanner says the same words as another, with the same line
feeds behind docstrings. -/
structure Scanner.Resumes (s : Scanner) (n : Nat) (s' : Scanner) : Prop where
  lexeme (k : Nat) : (s.wordAt (n + k)).token.toLexeme = (s'.wordAt k).token.toLexeme
  attached (k : Nat) : (s.wordAt (n + k)).kind = .docstring →
    (s.wordAt (n + (k + 1))).breaks = (s'.wordAt (k + 1)).breaks

namespace Scanner

variable {s s' : Scanner} {n : Nat}

/-- Supplies in front of scanners that say the same tell the same, when as many words were taken from
there on, whichever correspondence holds of the places of these words. -/
def Resumes.simulation {C : Correspondence} (h : s.Resumes n s')
    (place : ∀ k, C.Place (s.wordAt (n + k)).span (s'.wordAt k).span) :
    Simulation C Lookahead Lookahead where
  Rel w w' := ∃ k, w = .taken s (n + k) ∧ w' = .taken s' k
  ready := by
    rintro _ _ ⟨k, rfl, rfl⟩
    exact ⟨Lookahead.ready_taken s _, Lookahead.ready_taken s' k⟩
  advance := by
    rintro _ _ ⟨k, rfl, rfl⟩
    exact ⟨k + 1, Lookahead.advance_taken s _, Lookahead.advance_taken s' k⟩
  token := by
    rintro _ _ ⟨k, rfl, rfl⟩
    rw [Lookahead.peek_taken, Lookahead.peek_taken]
    exact ⟨h.lexeme k, place k⟩
  attached := by
    rintro _ _ ⟨k, rfl, rfl⟩ hd
    rw [TokenSupply.next, Lookahead.peek_taken] at hd
    rw [peek_one (Lookahead.ready_taken s _), peek_one (Lookahead.ready_taken s' k),
      Lookahead.advance_taken, Lookahead.advance_taken, Lookahead.peek_taken, Lookahead.peek_taken,
      Nat.add_assoc, h.attached k hd]
  remaining := by
    rintro _ _ _ _ ⟨k, rfl, rfl⟩ ⟨j, rfl, rfl⟩
    have hkind : (s.wordAt (n + k)).kind = (s'.wordAt k).kind := congrArg Lexeme.kind (h.lexeme k)
    rw [Lookahead.remaining_taken_lt_iff, Lookahead.remaining_taken_lt_iff, hkind,
      Nat.add_lt_add_iff_left]

/-! ## Streams -/

section

variable {α : Type} {f f' : Token → α} {us : List (α × Nat)} {m : Nat}

/-- Where the stream of a scanner is that of another behind some words, so are the words by number. -/
lemma wordAt_of_stream (h : s.stream.map (Prod.map f id)
      = us ++ (s'.stream.map (Prod.map f' id)).modifyHead (Prod.map id (· + m))) (k : Nat) :
    f (s.wordAt (us.length + k)).token = f' (s'.wordAt k).token
      ∧ (s.wordAt (us.length + (k + 1))).breaks = (s'.wordAt (k + 1)).breaks := by
  have hne : s'.stream.length ≠ 0 := by
    rw [stream_eq]
    simp
  have hlength : s.stream.length = us.length + s'.stream.length := by
    simpa using congrArg List.length h
  have htokens : s.stream.map (f ∘ Prod.fst) = us.map Prod.fst ++ s'.stream.map (f' ∘ Prod.fst) := by
    have hmap := congrArg (List.map Prod.fst) h
    rw [List.map_map, List.map_append] at hmap
    refine hmap.trans (congrArg _ ?_)
    cases s'.stream <;> simp
  -- the first entry of the other stream is the only one whose line feeds may differ
  have hbreaks : (s.stream.map Prod.snd)[us.length + (k + 1)]? = (s'.stream.map Prod.snd)[k + 1]? := by
    have hmap := congrArg (List.map Prod.snd) h
    rw [List.map_map, List.map_append] at hmap
    refine (congrArg (·[us.length + (k + 1)]?) hmap).trans ?_
    rw [List.getElem?_append_right (by simp), List.length_map, Nat.add_sub_cancel_left]
    cases s'.stream <;> simp [Function.comp_def]
  constructor
  · have htoken := congrArg (Option.map f) (s.token_wordAt (us.length + k))
    have htoken' := congrArg (Option.map f') (s'.token_wordAt k)
    rw [← List.getElem?_map, List.map_map, htokens, hlength, Nat.add_sub_assoc (by omega),
      Nat.add_min_add_left, List.getElem?_append_right (by simp), List.length_map,
      Nat.add_sub_cancel_left] at htoken
    rw [← List.getElem?_map, List.map_map] at htoken'
    exact Option.some.inj (htoken.symm.trans htoken')
  · rw [← breaks_wordAt, ← breaks_wordAt, hbreaks]

end

/-- **Scanners that say the same.**  The lexemes of a scanner behind some words are those of another, and
the line feeds before them are but for the first. -/
lemma resumes_of_stream {us : List (Lexeme × Nat)} {m : Nat}
    (h : s.stream.map (Prod.map Token.toLexeme id)
      = us ++ (s'.stream.map (Prod.map Token.toLexeme id)).modifyHead (Prod.map id (· + m))) :
    s.Resumes us.length s' where
  lexeme k := (wordAt_of_stream h k).1
  attached k _ := (wordAt_of_stream h k).2

end Scanner

end RpcSchema
