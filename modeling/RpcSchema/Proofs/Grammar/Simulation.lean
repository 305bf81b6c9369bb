import Mathlib.Data.List.Forall2
import RpcSchema.Proofs.Grammar.Taking
import RpcSchema.Proofs.Schema.Edits

/-!
# Readers on two supplies

A reader knows of its supply only what a supply tells.  So on two supplies that tell the same, place
by place, it does the same: it answers the same schema but for the places, or it fails for the same
reason at the same word.  A `Simulation` says which states of two supplies tell the same, and which
spans correspond; `Reader.schema_alike` is the result.

**What has to agree.**  Words must agree in their lexemes, and line feeds before a word must agree
behind a docstring, where alone they are looked at, in whether they make a blank line.  Spans are
compared after a map on either side.  A span is stretched from the start of a word to the stop of
another, so it is enough that the maps agree on such spans (`Simulation.through`); they may forget
places altogether, or move those of one side to those of the other.

**Stretching.**  A reader stretches a span up to the word that was taken last, and it has taken one
then.  `Simulation.behind` is the simulation between states behind a word, and the only one that
answers for spans (`Simulation.stretch`).
-/

namespace RpcSchema

open TokenSupply LawfulSupply

/-- Which places on two sides correspond, and maps of the spans of the sides that agree on them. -/
structure Correspondence where
  /-- Spans of words that correspond. -/
  Place : Span → Span → Prop
  left : Span → Span
  right : Span → Span
  span {a b : Span} : Place a b → left a = right b
  through {a b c d : Span} : Place a b → Place c d → left (a.through c) = right (b.through d)

namespace Correspondence

variable (C : Correspondence)

/-- The edit of what is read on the left. -/
def editLeft : Edit := { span := C.left }

/-- The edit of what is read on the right. -/
def editRight : Edit := { span := C.right }

/-- Tokens that say the same, in places that correspond. -/
def SameToken (a b : Token) : Prop := a.toLexeme = b.toLexeme ∧ C.Place a.span b.span

/-- Names that are the same, in places that correspond. -/
def SameName (a b : Name) : Prop := a.text = b.text ∧ C.Place a.span b.span

/-- Literals of the same value, in places that correspond. -/
def SameLiteral (a b : Literal) : Prop := a.value = b.value ∧ C.Place a.span b.span

variable {C}

lemma SameToken.literal {a b : Token} (h : C.SameToken a b) : a.literal = b.literal :=
  congrArg Lexeme.literal h.1

lemma SameToken.kind {a b : Token} (h : C.SameToken a b) : a.kind = b.kind :=
  congrArg Lexeme.kind h.1

lemma edit_span {a b : Span} (h : C.Place a b) : C.editLeft.span a = C.editRight.span b := C.span h

lemma SameLiteral.edit {a b : Literal} (h : C.SameLiteral a b) :
    C.editLeft.literal a = C.editRight.literal b := by
  rw [Edit.literal, Edit.literal, h.1, edit_span h.2]

lemma SameName.edit {a b : Name} (h : C.SameName a b) :
    C.editLeft.name a = C.editRight.name b := by
  rw [Edit.name, Edit.name, h.1, edit_span h.2]

end Correspondence

/-- Two supplies that tell the same, but for places that correspond. -/
structure Simulation (C : Correspondence) (σ τ : Type) [TokenSupply σ] [LawfulSupply σ]
    [TokenSupply τ] [LawfulSupply τ] where
  /-- States that tell the same. -/
  Rel : σ → τ → Prop
  ready {s : σ} {t : τ} : Rel s t → Ready s ∧ Ready t
  advance {s : σ} {t : τ} : Rel s t → Rel (advance s) (advance t)
  token {s : σ} {t : τ} : Rel s t → C.SameToken (peek s 0).token (peek t 0).token
  attached {s : σ} {t : τ} : Rel s t → next s = .docstring →
    ((peek s 1).breaks < 2 ↔ (peek t 1).breaks < 2)
  remaining {s s' : σ} {t t' : τ} : Rel s t → Rel s' t' →
    (remaining s' < remaining s ↔ remaining t' < remaining t)

namespace Simulation

variable {C : Correspondence} {σ τ : Type} [TokenSupply σ] [LawfulSupply σ] [TokenSupply τ]
  [LawfulSupply τ] (S : Simulation C σ τ) {s : σ} {t : τ}

/-- The simulation between states behind a word. -/
def behind : Simulation C σ τ where
  Rel s' t' := ∃ s t, S.Rel s t ∧ s' = TokenSupply.advance s ∧ t' = TokenSupply.advance t
  ready := by
    rintro _ _ ⟨s, t, h, rfl, rfl⟩
    exact S.ready (S.advance h)
  advance := by
    rintro _ _ ⟨s, t, h, rfl, rfl⟩
    exact ⟨_, _, S.advance h, rfl, rfl⟩
  token := by
    rintro _ _ ⟨s, t, h, rfl, rfl⟩
    exact S.token (S.advance h)
  attached := by
    rintro _ _ ⟨s, t, h, rfl, rfl⟩
    exact S.attached (S.advance h)
  remaining := by
    rintro _ _ _ _ ⟨s, t, h, rfl, rfl⟩ ⟨s', t', h', rfl, rfl⟩
    exact S.remaining (S.advance h) (S.advance h')

variable {S}

lemma rel_of_behind (h : S.behind.Rel s t) : S.Rel s t := by
  obtain ⟨s, t, h, rfl, rfl⟩ := h
  exact S.advance h

lemma behind_advance (h : S.Rel s t) : S.behind.Rel (TokenSupply.advance s) (TokenSupply.advance t) :=
  ⟨s, t, h, rfl, rfl⟩

/-- Spans up to the word that was taken last correspond if they start at words that do. -/
lemma stretch {a b : Span} (h : S.behind.Rel s t) (hplace : C.Place a b) :
    C.editLeft.span { a with stop := last s } = C.editRight.span { b with stop := last t } := by
  obtain ⟨s, t, h, rfl, rfl⟩ := h
  rw [last_advance, last_advance]
  exact C.through hplace (S.token h).2

lemma next_eq (h : S.Rel s t) : next s = next t := (S.token h).kind

lemma next_ahead_eq (h : S.Rel s t) : (peek s 1).kind = (peek t 1).kind := by
  rw [peek_one (S.ready h).1, peek_one (S.ready h).2]
  exact next_eq (S.advance h)

/-! ## Alike results -/

variable {α β γ δ : Type} {R : α → β → Prop} {Q : γ → δ → Prop}

variable (S) in
/-- Two results are alike if both are answers that correspond, in states that tell the same, or both
are errors for the same reason at words that correspond. -/
def Alike (R : α → β → Prop) :
    EStateM.Result SyntaxError σ α → EStateM.Result SyntaxError τ β → Prop
  | .ok a s, .ok b t => R a b ∧ S.Rel s t
  | .error e _, .error f _ => e.problem = f.problem ∧ C.Place e.span f.span
  | _, _ => False

namespace Alike

variable {x : Reader σ α} {y : Reader τ β} {f : α → Reader σ γ} {g : β → Reader τ δ}

lemma pure {a : α} {b : β} (hab : R a b) (h : S.Rel s t) :
    S.Alike R ((Pure.pure a : Reader σ α) s) ((Pure.pure b : Reader τ β) t) := ⟨hab, h⟩

/-- Alike results are two answers or two errors. -/
lemma answers_or_errors {r : EStateM.Result SyntaxError σ α} {r' : EStateM.Result SyntaxError τ β}
    (h : S.Alike R r r') :
    (∃ a s b t, r = .ok a s ∧ r' = .ok b t ∧ R a b ∧ S.Rel s t)
      ∨ ∃ e s f t, r = .error e s ∧ r' = .error f t ∧ e.problem = f.problem
        ∧ C.Place e.span f.span := by
  cases r <;> cases r'
  · exact Or.inl ⟨_, _, _, _, rfl, rfl, h⟩
  · exact h.elim
  · exact h.elim
  · exact Or.inr ⟨_, _, _, _, rfl, rfl, h⟩

lemma bind (hx : S.Alike R (x s) (y t))
    (hf : ∀ {a b s t}, R a b → S.Rel s t → S.Alike Q (f a s) (g b t)) :
    S.Alike Q ((x >>= f) s) ((y >>= g) t) := by
  show S.Alike Q (EStateM.bind x f s) (EStateM.bind y g t)
  rw [EStateM.bind, EStateM.bind]
  rcases hx.answers_or_errors with ⟨a, s, b, t, hs, ht, hab, h⟩ | ⟨e, s, e', t, hs, ht, herror⟩
  · rw [hs, ht]
    exact hf hab h
  · rw [hs, ht]
    exact herror

/-- A word that is taken in the second part is a word that is taken. -/
lemma bind_behind (hx : S.Alike R (x s) (y t))
    (hf : ∀ {a b s t}, R a b → S.Rel s t → S.behind.Alike Q (f a s) (g b t)) :
    S.behind.Alike Q ((x >>= f) s) ((y >>= g) t) := by
  show S.behind.Alike Q (EStateM.bind x f s) (EStateM.bind y g t)
  rw [EStateM.bind, EStateM.bind]
  rcases hx.answers_or_errors with ⟨a, s, b, t, hs, ht, hab, h⟩ | ⟨e, s, e', t, hs, ht, herror⟩
  · rw [hs, ht]
    exact hf hab h
  · rw [hs, ht]
    exact herror

variable {r : EStateM.Result SyntaxError σ α} {r' : EStateM.Result SyntaxError τ β}

/-- Results that are alike behind a word are alike. -/
lemma weaken (h : S.behind.Alike R r r') : S.Alike R r r' := by
  rcases h.answers_or_errors with ⟨a, s, b, t, rfl, rfl, hab, h⟩ | ⟨e, s, e', t, rfl, rfl, herror⟩
  · exact ⟨hab, rel_of_behind h⟩
  · exact herror

lemma imp {R' : α → β → Prop} (hR : ∀ {a b}, R a b → R' a b) (h : S.Alike R r r') :
    S.Alike R' r r' := by
  rcases h.answers_or_errors with ⟨a, s, b, t, rfl, rfl, hab, h⟩ | ⟨e, s, e', t, rfl, rfl, herror⟩
  · exact ⟨hR hab, h⟩
  · exact herror

lemma map {p : α → γ} {q : β → δ} (hR : ∀ {a b}, R a b → Q (p a) (q b))
    (hx : S.Alike R (x s) (y t)) : S.Alike Q ((p <$> x) s) ((q <$> y) t) :=
  show S.Alike Q ((x >>= fun a => Pure.pure (p a)) s) ((y >>= fun b => Pure.pure (q b)) t) from
    hx.bind fun hab h => pure (hR hab) h

end Alike

/-! ## Steps -/

open Reader

lemma errorAtNext_alike (h : S.Rel s t) (expected : String) :
    (errorAtNext s expected).problem = (errorAtNext t expected).problem
      ∧ C.Place (errorAtNext s expected).span (errorAtNext t expected).span := by
  refine ⟨?_, (S.token h).2⟩
  simp only [errorAtNext, (S.token h).1]

lemma unexpected_alike (h : S.Rel s t) (expected : String) :
    S.Alike R ((unexpected expected : Reader σ α) s) ((unexpected expected : Reader τ β) t) :=
  errorAtNext_alike h expected

lemma take_alike (h : S.Rel s t) : S.behind.Alike C.SameToken (take s) (take t) :=
  ⟨S.token h, behind_advance h⟩

lemma expect_alike (h : S.Rel s t) (wanted : Kind) (role : String) :
    S.behind.Alike C.SameToken (expect wanted role s) (expect wanted role t) := by
  rw [expect, expect, kind_bind, kind_bind, next_eq h]
  split
  · exact take_alike h
  · exact errorAtNext_alike h _

lemma expectMark_alike (h : S.Rel s t) (wanted : Delimiter) (role : String) :
    S.behind.Alike C.SameToken (expectMark wanted role s) (expectMark wanted role t) :=
  expect_alike h _ _

lemma takeMark?_alike (h : S.Rel s t) (wanted : Delimiter) :
    S.Alike Eq (takeMark? wanted s) (takeMark? wanted t) := by
  rw [takeMark?, takeMark?, kind_bind, kind_bind, next_eq h]
  split
  · exact (take_alike h).weaken.bind fun _ h => .pure rfl h
  · exact .pure rfl h

/-! ## Repeating and nesting -/

lemma many_alike {item : Reader σ (Option α)} {item' : Reader τ (Option β)}
    (hitem : ∀ {s t}, S.Rel s t → S.Alike (Option.Rel R) (item s) (item' t)) {s : σ} {t : τ}
    (h : S.Rel s t) : S.Alike (List.Forall₂ R) (many item s) (many item' t) := by
  rw [many, many]
  rcases (hitem h).answers_or_errors with
    ⟨_, s', _, t', hs, ht, ha, h'⟩ | ⟨e, _, e', _, hs, ht, herror⟩
  · rw [hs, ht]
    cases ha with
    | none => exact ⟨.nil, h'⟩
    | some hab =>
        by_cases hless : TokenSupply.remaining s' < TokenSupply.remaining s
        · simp only [if_pos hless, if_pos ((S.remaining h h').1 hless)]
          rcases (many_alike hitem h').answers_or_errors with
            ⟨as, _, bs, _, hs, ht, habs, h''⟩ | ⟨e, _, e', _, hs, ht, herror⟩
          · rw [hs, ht]
            exact ⟨.cons hab habs, h''⟩
          · rw [hs, ht]
            exact herror
        · simp only [if_neg hless, if_neg fun hless' => hless ((S.remaining h h').2 hless')]
          exact ⟨.cons hab .nil, h'⟩
  · rw [hs, ht]
    exact herror
termination_by TokenSupply.remaining s

lemma nest_alike {body : Reader σ α → Reader σ α} {body' : Reader τ β → Reader τ β}
    (hbody : ∀ {x y}, (∀ {s t}, S.Rel s t → S.Alike R (x s) (y t)) →
      ∀ {s t}, S.Rel s t → S.Alike R (body x s) (body' y t)) {s : σ} {t : τ} (h : S.Rel s t) :
    S.Alike R (nest body s) (nest body' t) := by
  rw [nest_eq, nest_eq]
  refine hbody (fun {s' t'} h' => ?_) h
  by_cases hless : TokenSupply.remaining s' < TokenSupply.remaining s
  · rw [if_pos hless, if_pos ((S.remaining h h').1 hless)]
    exact nest_alike hbody h'
  · rw [if_neg hless, if_neg fun hless' => hless ((S.remaining h h').2 hless')]
    exact errorAtNext_alike h' _
termination_by TokenSupply.remaining s

end Simulation

end RpcSchema
