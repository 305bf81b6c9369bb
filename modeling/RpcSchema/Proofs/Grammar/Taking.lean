import RpcSchema.Proofs.Grammar.Rules

/-!
# Taking words

What a reader does to a supply is to take some words from it.  `Took s ws s'` says that taking the words
`ws` one by one leads from `s` to `s'`; what a reader means is then a statement about the words it took.

Two statements are made of every reader, against a rule `G` of the grammar.

* *Soundness*: if the reader answers `a`, then it took some words that `G` derives `a` from.
* *Completeness*: where words that `G` derives `a` from are next, and what is behind them does not
  continue them, the reader takes them and answers `a`.

Both are put together from those of the steps (`of_bind_ok` for soundness, `bind_of_ok` for completeness),
and repetition has one lemma for each (`many_sound`, `many_complete`).

A supply must behave for that: it moves on by one word at a time, and comes nearer to its end.  That is
`LawfulSupply`.
-/

namespace RpcSchema

open TokenSupply

/-- A supply that gives its words one after the other.  The laws are about states that a supply can
be in; `Ready` tells them. -/
class LawfulSupply (σ : Type) [TokenSupply σ] where
  Ready : σ → Prop
  ready_advance {s : σ} : Ready s → Ready (advance s)
  peek_one {s : σ} : Ready s → peek s 1 = peek (advance s) 0
  last_advance (s : σ) : last (advance s) = (peek s 0).span.stop
  remaining_advance {s : σ} : Ready s → (peek s 0).kind ≠ .endOfFile →
    remaining (advance s) < remaining s

open LawfulSupply

section

variable {σ : Type} [TokenSupply σ]

/-- The kind of the next word. -/
def TokenSupply.next (s : σ) : Kind := (peek s 0).kind

variable [LawfulSupply σ]

/-- Taking some words, none of which is the end of the file, leads from one state to another. -/
inductive Took : σ → List Word → σ → Prop where
  | nil {s : σ} : Ready s → Took s [] s
  | cons {s s' : σ} {ws : List Word} : Ready s → (peek s 0).kind ≠ .endOfFile →
      Took (advance s) ws s' → Took s (peek s 0 :: ws) s'

namespace Took

variable {s s₁ s₂ : σ} {w : Word} {us vs ws : List Word}

lemma ready (h : Took s ws s₁) : Ready s := by
  cases h with
  | nil hs => exact hs
  | cons hs _ _ => exact hs

lemma ready_behind (h : Took s ws s₁) : Ready s₁ := by
  induction h with
  | nil hs => exact hs
  | cons _ _ _ ih => exact ih

lemma one (hs : Ready s) (hne : next s ≠ .endOfFile) : Took s [peek s 0] (advance s) :=
  .cons hs hne (.nil (ready_advance hs))

lemma append (h₁ : Took s us s₁) (h₂ : Took s₁ vs s₂) : Took s (us ++ vs) s₂ := by
  induction h₁ with
  | nil => exact h₂
  | cons hs hne _ ih => exact .cons hs hne (ih h₂)

/-- Words that were taken can be cut anywhere. -/
lemma of_append (h : Took s (us ++ vs) s₂) : ∃ s₁, Took s us s₁ ∧ Took s₁ vs s₂ := by
  induction us generalizing s with
  | nil => exact ⟨s, .nil h.ready, h⟩
  | cons u us ih =>
      rw [List.cons_append] at h
      cases h with
      | cons hs hne h =>
          obtain ⟨s₁, h₁, h₂⟩ := ih h
          exact ⟨s₁, .cons hs hne h₁, h₂⟩

lemma of_cons (h : Took s (w :: ws) s₂) : ∃ s₁, Took s [w] s₁ ∧ Took s₁ ws s₂ :=
  of_append (show Took s ([w] ++ ws) s₂ from h)

lemma next_eq (h : Took s (w :: ws) s₁) : next s = w.kind := by
  cases h with
  | cons => rfl

lemma peek_eq (h : Took s (w :: ws) s₁) : peek s 0 = w := by
  cases h with
  | cons => rfl

lemma eq_cons (h : Took s ws s₁) (hne : ws ≠ []) : ∃ us, ws = peek s 0 :: us := by
  cases h with
  | nil => exact absurd rfl hne
  | cons => exact ⟨_, rfl⟩

lemma advance_eq (h : Took s [w] s₁) : advance s = s₁ := by
  cases h with
  | cons _ _ h =>
      cases h with
      | nil => rfl

lemma peek_one_eq (h : Took s [w] s₁) : peek s 1 = peek s₁ 0 := by
  rw [peek_one h.ready, h.advance_eq]

lemma last_eq (h : Took s (us ++ [w]) s₁) : last s₁ = w.span.stop := by
  obtain ⟨s₀, _, h⟩ := h.of_append
  rw [← h.advance_eq, last_advance, h.peek_eq]

/-- The stretch that a reader computes from where it began is that of the words it took. -/
lemma stretch_eq (h : Took s ws s₁) (hne : ws ≠ []) :
    { (peek s 0).span with stop := last s₁ } = Word.stretch ws := by
  have hlast : last s₁ = (ws.getLastD default).span.stop := by
    rw [← List.dropLast_concat_getLast hne] at h ⊢
    rw [h.last_eq, List.getLastD_concat]
  cases h with
  | nil => exact absurd rfl hne
  | cons => rw [hlast]; rfl

lemma stretch_cons (h : Took s (w :: ws) s₁) :
    { w.span with stop := last s₁ } = Word.stretch (w :: ws) := by
  rw [← h.stretch_eq (List.cons_ne_nil w ws), h.peek_eq]

lemma remaining_le (h : Took s ws s₁) : remaining s₁ ≤ remaining s := by
  induction h with
  | nil => exact Nat.le_refl _
  | cons hs hne _ ih => exact Nat.le_trans ih (Nat.le_of_lt (remaining_advance hs hne))

lemma remaining_lt (h : Took s ws s₁) (hne : ws ≠ []) : remaining s₁ < remaining s := by
  cases h with
  | nil => exact absurd rfl hne
  | cons hs hend h => exact Nat.lt_of_le_of_lt h.remaining_le (remaining_advance hs hend)

/-- There is one way only from one state to another. -/
lemma unique (h₁ : Took s us s₁) (h₂ : Took s vs s₁) : us = vs := by
  induction h₁ generalizing vs with
  | nil =>
      cases vs with
      | nil => rfl
      | cons => exact absurd (h₂.remaining_lt nofun) (Nat.lt_irrefl _)
  | cons hs hend h ih =>
      cases h₂ with
      | nil => exact absurd ((Took.cons hs hend h).remaining_lt nofun) (Nat.lt_irrefl _)
      | cons _ _ h₂ => rw [ih h₂]

/-- There is one way only to take all words up to the end. -/
lemma eq_of_end (h₁ : Took s us s₁) (h₂ : Took s vs s₂) (he₁ : next s₁ = .endOfFile)
    (he₂ : next s₂ = .endOfFile) : us = vs := by
  induction h₁ generalizing vs with
  | nil =>
      cases h₂ with
      | nil => rfl
      | cons _ hne _ => exact absurd he₁ hne
  | cons _ hne _ ih =>
      cases h₂ with
      | nil => exact absurd he₂ hne
      | cons _ _ h₂ => rw [ih h₂ he₁]

end Took

end

namespace Reader

/-! ## Running readers -/

section

variable {σ : Type} {α β : Type} {x : Reader σ α} {f : α → Reader σ β} {s s₁ s₂ : σ} {a : α} {b : β}

lemma bind_of_ok (h : x s = .ok a s₁) : (x >>= f) s = f a s₁ := by
  show EStateM.bind x f s = _
  rw [EStateM.bind, h]

lemma of_bind_ok (h : (x >>= f) s = .ok b s₂) : ∃ a s₁, x s = .ok a s₁ ∧ f a s₁ = .ok b s₂ := by
  replace h : EStateM.bind x f s = .ok b s₂ := h
  rw [EStateM.bind] at h
  split at h
  · next a s₁ hx => exact ⟨a, s₁, hx, h⟩
  · cases h

lemma bind_of_error {e : SyntaxError} (h : x s = .error e s₁) : (x >>= f) s = .error e s₁ := by
  show EStateM.bind x f s = _
  rw [EStateM.bind, h]

lemma get_bind {f : σ → Reader σ β} : (get >>= f) s = f s s := rfl

lemma map_of_ok {g : α → β} (h : x s = .ok a s₁) : (g <$> x) s = .ok (g a) s₁ := by
  show EStateM.map g x s = _
  rw [EStateM.map, h]

lemma map_of_error {g : α → β} {e : SyntaxError} (h : x s = .error e s₁) :
    (g <$> x) s = .error e s₁ := by
  show EStateM.map g x s = _
  rw [EStateM.map, h]

lemma of_map_ok {g : α → β} (h : (g <$> x) s = .ok b s₁) : ∃ a, x s = .ok a s₁ ∧ g a = b := by
  replace h : EStateM.map g x s = .ok b s₁ := h
  rw [EStateM.map] at h
  split at h
  · next a s₀ hx => cases h; exact ⟨a, hx, rfl⟩
  · cases h

end

/-! ## Steps -/

section

variable {σ : Type} [TokenSupply σ] {β : Type} {f : Kind → Reader σ β} {s s₁ : σ}

lemma kind_bind : (kind >>= f) s = f (next s) s := rfl

lemma kindAhead_bind {n : Nat} : (kindAhead n >>= f) s = f (peek s n).kind s := rfl

lemma breaksAhead_bind {n : Nat} {f : Nat → Reader σ β} :
    (breaksAhead n >>= f) s = f (peek s n).breaks s := rfl

lemma here_bind {f : Span → Reader σ β} : (here >>= f) s = f (peek s 0).span s := rfl

lemma take_bind {f : Token → Reader σ β} : (take >>= f) s = f (peek s 0).token (advance s) := rfl

lemma spanFrom_bind {start : Span} {f : Span → Reader σ β} :
    (spanFrom start >>= f) s = f { start with stop := last s } s := rfl

lemma unexpected_ne_ok {expected : String} {b : β} :
    (unexpected expected : Reader σ β) s ≠ .ok b s₁ := nofun

lemma takeMark?_of_not_next {d : Delimiter} (h : next s ≠ .delimiter d) :
    takeMark? d s = .ok false s := by
  rw [takeMark?, kind_bind, if_neg h]
  rfl

variable [LawfulSupply σ] {w : Word}

lemma expect_sound {wanted : Kind} {role : String} {t : Token} (hs : Ready s)
    (h : expect wanted role s = .ok t s₁) (hw : wanted ≠ .endOfFile) :
    ∃ w, Took s [w] s₁ ∧ w.kind = wanted ∧ w.token = t := by
  rw [expect, kind_bind] at h
  split at h
  · next hk =>
      cases h
      exact ⟨_, .one hs (hk ▸ hw), hk, rfl⟩
  · exact absurd h unexpected_ne_ok

lemma expect_complete {wanted : Kind} {role : String} (h : Took s [w] s₁) (hk : w.kind = wanted) :
    expect wanted role s = .ok w.token s₁ := by
  rw [expect, kind_bind, if_pos (h.next_eq.trans hk), ← h.peek_eq, ← h.advance_eq]
  rfl

lemma expectMark_sound {d : Delimiter} {role : String} {t : Token} (hs : Ready s)
    (h : expectMark d role s = .ok t s₁) :
    ∃ w, Took s [w] s₁ ∧ w.kind = .delimiter d ∧ w.token = t :=
  expect_sound hs h nofun

lemma expectMark_complete {d : Delimiter} {role : String} (h : Took s [w] s₁)
    (hk : w.kind = .delimiter d) : expectMark d role s = .ok w.token s₁ :=
  expect_complete h hk

lemma takeMark?_of_next {d : Delimiter} (h : Took s [w] s₁) (hk : w.kind = .delimiter d) :
    takeMark? d s = .ok true s₁ := by
  rw [takeMark?, kind_bind, if_pos (h.next_eq.trans hk), ← h.advance_eq]
  rfl

end

/-! ## Repeating and nesting -/

section

variable {σ : Type} [TokenSupply σ] {α : Type} {item : Reader σ (Option α)} {s s₁ s₂ : σ} {a : α}
  {as : List α}

lemma many_of_none (h : item s = .ok none s₁) : many item s = .ok [] s₁ := by
  rw [many, h]

lemma many_of_some (h : item s = .ok (some a) s₁) (hless : remaining s₁ < remaining s)
    (hrest : many item s₁ = .ok as s₂) : many item s = .ok (a :: as) s₂ := by
  rw [many, h]
  simp only [if_pos hless, hrest]

lemma nest_eq {body : Reader σ α → Reader σ α} :
    nest body s = body (fun s' => if remaining s' < remaining s then nest body s'
      else .error (errorAtNext s' "an inner part") s') s := by
  rw [nest]

variable [LawfulSupply σ]

/-- What holds of the last answer, and of an answer in front of others if it holds of those, holds of
every repetition of a reader that takes words for each answer. -/
lemma many_induct {P : σ → List α → σ → Prop}
    (htook : ∀ {s a s₁}, Ready s → item s = .ok (some a) s₁ → ∃ ws, Took s ws s₁ ∧ ws ≠ [])
    (hnone : ∀ {s s₁}, Ready s → item s = .ok none s₁ → P s [] s₁)
    (hsome : ∀ {s a s₁ as s₂}, Ready s → item s = .ok (some a) s₁ → P s₁ as s₂ →
      P s (a :: as) s₂)
    {s s₂ : σ} {as : List α} (hs : Ready s) (h : many item s = .ok as s₂) : P s as s₂ := by
  rw [many] at h
  split at h
  · cases h
  · next s₁ hitem => cases h; exact hnone hs hitem
  · next a s₁ hitem =>
      obtain ⟨ws, hws, hne⟩ := htook hs hitem
      have hless := hws.remaining_lt hne
      rw [if_pos hless] at h
      split at h
      · cases h
      · next as s₂ hrest =>
          cases h
          exact hsome hs hitem (many_induct htook hnone hsome hws.ready_behind hrest)
termination_by remaining s

end

end Reader

end RpcSchema
