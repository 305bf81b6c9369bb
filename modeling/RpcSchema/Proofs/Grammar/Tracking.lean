import RpcSchema.Proofs.Grammar.FieldSoundness
import RpcSchema.Proofs.Grammar.Pending

/-!
# Readers keep track of what is pending

A reader that is called where some goals are pending does what they tell: it takes words that may come,
and refuses a word only if it cannot come.

* `Expects ws s goals` is that the words `ws` were taken since the start of the file, and that `goals`
  tell what may come next.  Goals that do the same with the next word are as good as each other
  (`Expects.congr`), so that a part that is left out needs no step.
* `Refuses ws s e` is that the next word is where the error is, and that it cannot come.
* `Tracks ws s Q r` is that `r`, the result of reading from there, is an answer `a` where the goals
  `Q a` are pending, or refuses a word that is reached by words that may come.

`Tracks` is closed under the steps of readers, under binding, repeating and nesting, with one lemma for
each.

**The word `error`** in front of the arguments of a use can come, but only with a colon behind it.  A
reader looks at both words and refuses the first.  That is the one place where a reader looks ahead of
the word it refuses, and `MissesColon` is what it is.
-/

namespace RpcSchema

/-- What a word says. -/
abbrev Word.lexeme (w : Word) : Lexeme := w.token.toLexeme

open TokenSupply LawfulSupply

namespace TokenSupply

/-- What the next word says. -/
abbrev front {σ : Type} [TokenSupply σ] (s : σ) : Lexeme := (peek s 0).lexeme

@[simp] lemma kind_front {σ : Type} [TokenSupply σ] (s : σ) : (front s).kind = next s := rfl

end TokenSupply

namespace Reader

variable {σ : Type} [TokenSupply σ] [LawfulSupply σ] {s s₁ : σ} {us ws : List Word}
  {goals K : List Goal} {e : SyntaxError}

/-- Words were taken since the start of a file, and goals tell what may come behind them. -/
structure Expects (ws : List Word) (s : σ) (goals : List Goal) : Prop where
  ready : Ready s
  viable : (pending (ws.map Word.lexeme)).isSome
  agrees : pending (ws.map Word.lexeme ++ [front s]) = step goals (front s)

/-- Where the arguments of a use begin, the word `error` is next, with no colon behind it. -/
structure MissesColon (ws : List Word) (s : σ) : Prop where
  opened : ∃ us m n l, ws = us ++ [m, n, l] ∧ m.kind = .delimiter .atSign ∧ n.kind = .identifier
    ∧ l.kind = .delimiter .leftParen
  kind : next s = .keyword .error
  kind_ahead : (peek s 1).kind ≠ .delimiter .colon
  viable : (pending (ws.map Word.lexeme ++ [front s])).isSome
  refused : pending (ws.map Word.lexeme ++ [front s, (peek s 1).lexeme]) = none

/-- The next word is refused, since it cannot come. -/
structure Refuses (ws : List Word) (s : σ) (e : SyntaxError) : Prop where
  viable : (pending (ws.map Word.lexeme)).isSome
  span : e.span = (peek s 0).span
  refused : pending (ws.map Word.lexeme ++ [front s]) = none ∨ MissesColon ws s

namespace Expects

lemma congr (h : Expects ws s goals) (heq : step goals (front s) = step K (front s)) :
    Expects ws s K :=
  ⟨h.ready, h.viable, h.agrees.trans heq⟩

/-- A word is taken that may come. -/
lemma take (h : Expects ws s goals) (hstep : step goals (front s) = some K)
    (hne : next s ≠ .endOfFile) : Expects (ws ++ [peek s 0]) (advance s) K where
  ready := (Took.one h.ready hne).ready_behind
  viable := by
    rw [List.map_append, List.map_singleton, h.agrees, hstep]
    rfl
  agrees := by
    rw [List.map_append, List.map_singleton, pending_concat, h.agrees, hstep]
    rfl

lemma refuses (h : Expects ws s goals) (hstep : step goals (front s) = none)
    (hspan : e.span = (peek s 0).span) : Refuses ws s e :=
  ⟨h.viable, hspan, Or.inl (h.agrees.trans hstep)⟩

end Expects

/-! ## Results -/

variable {α β : Type} {Q : α → List Goal} {R : β → List Goal}

/-- A result of reading keeps track of what is pending. -/
def Tracks (ws : List Word) (s : σ) (Q : α → List Goal) : EStateM.Result SyntaxError σ α → Prop
  | .ok a s₁ => ∃ us, Took s us s₁ ∧ Expects (ws ++ us) s₁ (Q a)
  | .error e _ => ∃ us s₁, Took s us s₁ ∧ Refuses (ws ++ us) s₁ e

namespace Tracks

variable {x : Reader σ α} {f : α → Reader σ β} {r : EStateM.Result SyntaxError σ α}

lemma pure {a : α} (h : Expects ws s (Q a)) : Tracks ws s Q ((Pure.pure a : Reader σ α) s) :=
  ⟨[], .nil h.ready, by rwa [List.append_nil]⟩

lemma error (hs : Ready s) (h : Refuses ws s e) {s₁ : σ} :
    Tracks ws s Q (.error e s₁ : EStateM.Result SyntaxError σ α) :=
  ⟨[], s, .nil hs, by rwa [List.append_nil]⟩

/-- What is read behind some words that may come. -/
lemma behind (hus : Took s us s₁) (h : Tracks (ws ++ us) s₁ Q r) : Tracks ws s Q r := by
  cases r with
  | ok a s₂ =>
      obtain ⟨vs, hvs, h⟩ := h
      exact ⟨us ++ vs, hus.append hvs, by rwa [← List.append_assoc]⟩
  | error e _ =>
      obtain ⟨vs, s₂, hvs, h⟩ := h
      exact ⟨us ++ vs, s₂, hus.append hvs, by rwa [← List.append_assoc]⟩

/-- Binding, where the second part needs to know that words were taken. -/
lemma bind_took (hx : Tracks ws s Q (x s))
    (hf : ∀ {a us s₁}, Took s us s₁ → Expects (ws ++ us) s₁ (Q a) →
      Tracks (ws ++ us) s₁ R (f a s₁)) : Tracks ws s R ((x >>= f) s) := by
  cases hr : x s with
  | ok a s₁ =>
      rw [hr] at hx
      obtain ⟨us, hus, h⟩ := hx
      rw [bind_of_ok hr]
      exact (hf hus h).behind hus
  | error e s₁ =>
      rw [bind_of_error hr]
      rwa [hr] at hx

lemma bind (hx : Tracks ws s Q (x s))
    (hf : ∀ {a ws s}, Expects ws s (Q a) → Tracks ws s R (f a s)) : Tracks ws s R ((x >>= f) s) :=
  hx.bind_took fun _ => hf

/-- Binding, where the first part takes one word and something is known of it. -/
lemma bind_word {p : Word → α → Prop} (hx : Tracks ws s Q (x s))
    (hword : ∀ {a s₁}, x s = .ok a s₁ → ∃ w, Took s [w] s₁ ∧ p w a)
    (hf : ∀ {a w s₁}, p w a → Expects (ws ++ [w]) s₁ (Q a) → Tracks (ws ++ [w]) s₁ R (f a s₁)) :
    Tracks ws s R ((x >>= f) s) := by
  cases hr : x s with
  | ok a s₁ =>
      rw [hr] at hx
      obtain ⟨us, hus, h⟩ := hx
      obtain ⟨w, hw, hp⟩ := hword hr
      obtain rfl := hus.unique hw
      rw [bind_of_ok hr]
      exact (hf hp h).behind hw
  | error e s₁ =>
      rw [bind_of_error hr]
      rwa [hr] at hx

lemma map {g : α → β} (hx : Tracks ws s Q (x s)) (hR : ∀ {a}, R (g a) = Q a) :
    Tracks ws s R ((g <$> x) s) :=
  show Tracks ws s R ((x >>= fun a => Pure.pure (g a)) s) from
    hx.bind fun h => pure (hR ▸ h)

end Tracks

/-! ## Steps -/

lemma unexpected_tracks (h : Expects ws s goals) (hstep : step goals (front s) = none)
    (expected : String) : Tracks ws s Q ((unexpected expected : Reader σ α) s) :=
  .error h.ready (h.refuses hstep rfl)

lemma take_tracks (h : Expects ws s goals) (hstep : step goals (front s) = some K)
    (hne : next s ≠ .endOfFile) : Tracks ws s (fun _ => K) (take s) :=
  ⟨[peek s 0], .one h.ready hne, h.take hstep hne⟩

lemma expect_tracks (h : Expects ws s goals) (wanted : Kind) (role : String)
    (hwanted : wanted ≠ .endOfFile)
    (hgoals : ∀ l, step goals l = if l.kind = wanted then some K else none) :
    Tracks ws s (fun _ => K) (expect wanted role s) := by
  rw [expect, kind_bind]
  split
  · next hk => exact take_tracks h ((hgoals _).trans (if_pos hk)) (hk ▸ hwanted)
  · next hk => exact unexpected_tracks h ((hgoals _).trans (if_neg hk)) _

lemma expectMark_tracks {d : Delimiter} {role : String} (h : Expects ws s (.delimiter d :: goals)) :
    Tracks ws s (fun _ => goals) (expectMark d role s) :=
  expect_tracks h _ _ nofun fun _ => rfl

/-- A mark that may be left out: behind it other goals are pending than without it. -/
lemma takeMark?_tracks {d : Delimiter} (h : Expects ws s goals) (present absent : List Goal)
    (hgoals : ∀ l, step goals l = if l.kind = .delimiter d then some present else step absent l) :
    Tracks ws s (fun taken => if taken then present else absent) (takeMark? d s) := by
  rw [takeMark?, kind_bind]
  split
  · next hk =>
      have hne : next s ≠ .endOfFile := by simp [hk]
      exact (take_tracks h ((hgoals _).trans (if_pos hk)) hne).bind fun h => .pure h
  · next hk => exact .pure (h.congr ((hgoals _).trans (if_neg hk)))

/-! ## Repeating -/

/-- What is pending stays the same as long as a reader answers, and is something else at the end.  Each
answer takes words, whatever more is known of them.  Where the reader calls itself, it is known only with
less than some count to read. -/
lemma many_tracks_within {item : Reader σ (Option α)} {bound : Nat} {p : List Word → α → σ → Prop}
    (htook : ∀ {s a s₁}, Ready s → item s = .ok (some a) s₁ →
      ∃ us, Took s us s₁ ∧ us ≠ [] ∧ p us a s₁)
    (hitem : ∀ {ws s}, remaining s ≤ bound → Expects ws s goals →
      Tracks ws s (fun answer => answer.elim K fun _ => goals) (item s))
    {ws : List Word} {s : σ} (hbound : remaining s ≤ bound) (h : Expects ws s goals) :
    Tracks ws s (fun _ => K) (many item s) := by
  have hfirst := hitem hbound h
  rw [many]
  cases hr : item s with
  | error e s₁ =>
      rw [hr] at hfirst
      exact hfirst
  | ok answer s₁ =>
      rw [hr] at hfirst
      obtain ⟨us, hus, hrest⟩ := hfirst
      cases answer with
      | none => exact ⟨us, hus, hrest⟩
      | some a =>
          obtain ⟨vs, hvs, hne, -⟩ := htook h.ready hr
          have hless := hvs.remaining_lt hne
          have hmany := many_tracks_within htook hitem (by omega) hrest
          simp only [if_pos hless]
          cases hr' : many item s₁ with
          | ok as s₂ =>
              rw [hr'] at hmany
              exact hmany.behind hus
          | error e s₂ =>
              rw [hr'] at hmany
              exact hmany.behind hus
termination_by remaining s

lemma many_tracks {item : Reader σ (Option α)} {p : List Word → α → σ → Prop}
    (htook : ∀ {s a s₁}, Ready s → item s = .ok (some a) s₁ →
      ∃ us, Took s us s₁ ∧ us ≠ [] ∧ p us a s₁)
    (hitem : ∀ {ws s}, Expects ws s goals →
      Tracks ws s (fun answer => answer.elim K fun _ => goals) (item s))
    {ws : List Word} {s : σ} (h : Expects ws s goals) : Tracks ws s (fun _ => K) (many item s) :=
  many_tracks_within htook (fun _ => hitem) (Nat.le_refl _) h

end Reader

end RpcSchema
