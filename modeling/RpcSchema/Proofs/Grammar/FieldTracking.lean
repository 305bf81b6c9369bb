import RpcSchema.Proofs.Grammar.FieldCompleteness
import RpcSchema.Proofs.Grammar.Tracking

/-!
# Readers of fields keep track of what is pending

One lemma a reader, from the leaves up to lists of fields (`fieldItems_tracks`): which goals are
pending where it is called, and which ones behind it.  The goals behind a reader that may leave
something out are told by those that are pending without it.
-/

namespace RpcSchema.Reader

open TokenSupply LawfulSupply

/-- What a literal is told by its lexeme: a value is read, or the word is refused. -/
lemma literal_of_valueKind? {σ : Type} [TokenSupply σ] (s : σ) :
    (∃ v : Value, (front s).valueKind? = some v.kind ∧ next s ≠ .endOfFile
      ∧ literal s = .ok ⟨(peek s 0).span, v⟩ (advance s))
    ∨ (front s).valueKind? = none ∧ ∃ e, literal s = .error e s ∧ e.span = (peek s 0).span := by
  rw [literal, get_bind]
  dsimp only
  cases hk : (peek s 0).token.kind with
  | string => exact Or.inl ⟨_, by simp [Lexeme.valueKind?, hk, Value.kind], by simp [next, hk], rfl⟩
  | integer =>
      by_cases hrange : (front s).number < Decimal.integerBound
      · have hnatural := natural_of_lt (σ := σ) (s := s) (t := (peek s 0).token) hrange
        dsimp only
        rw [bind_of_ok (map_of_ok hnatural)]
        exact Or.inl ⟨_, by simp [Lexeme.valueKind?, hk, hrange, Value.kind], by simp [next, hk], rfl⟩
      · dsimp only
        rw [bind_of_error (map_of_error (natural_of_not_lt hrange))]
        exact Or.inr ⟨by simp [Lexeme.valueKind?, hk, hrange], _, rfl, rfl⟩
  | float => exact Or.inl ⟨_, by simp [Lexeme.valueKind?, hk, Value.kind], by simp [next, hk], rfl⟩
  | boolean b => exact Or.inl ⟨_, by simp [Lexeme.valueKind?, hk, Value.kind], by simp [next, hk], rfl⟩
  | _ => exact Or.inr ⟨by simp [Lexeme.valueKind?, hk], _, rfl, rfl⟩

variable {σ : Type} [TokenSupply σ] [LawfulSupply σ] {s s₁ : σ} {us ws : List Word}
  {goals K rest : List Goal}

/-! ## Leaves -/

lemma name_tracks (h : Expects ws s goals) (hstep : step goals (front s) = some K)
    (hne : next s ≠ .endOfFile) : Tracks ws s (fun _ => K) (name s) :=
  (take_tracks h hstep hne).bind fun h => .pure h

lemma identifier_tracks {role : String} (h : Expects ws s goals)
    (hgoals : ∀ l, step goals l = if l.kind = .identifier then some K else none) :
    Tracks ws s (fun _ => K) (identifier role s) :=
  (expect_tracks h .identifier role nofun hgoals).bind fun h => .pure h

lemma typeName_tracks (h : Expects ws s (.typeName :: rest)) :
    Tracks ws s (fun _ => rest) (typeName s) := by
  rw [typeName, kind_bind]
  split
  · next hk => exact name_tracks h (if_pos hk) (isTypeName_ne_end hk)
  · next hk => exact unexpected_tracks h (if_neg hk) _

lemma arraySuffix_tracks (h : Expects ws s goals) (absent : List Goal)
    (hgoals : ∀ l, step goals l = if l.kind = .delimiter .leftBracket
      then some (.delimiter .rightBracket :: absent) else step absent l) :
    Tracks ws s (fun _ => absent) (arraySuffix s) := by
  refine (takeMark?_tracks h _ absent hgoals).bind ?_
  intro taken ws s h
  cases taken
  · exact .pure h
  · exact (expectMark_tracks h).bind fun h => .pure h

lemma stringLiteral_tracks {role : String} (h : Expects ws s (.string :: rest)) :
    Tracks ws s (fun _ => rest) (stringLiteral role s) :=
  (expect_tracks h .string role nofun fun _ => rfl).bind fun h => .pure h

lemma comment_tracks (h : Expects ws s goals) (hstep : step goals (front s) = some K)
    (hk : (next s).isComment) : Tracks ws s (fun _ => K) (comment s) :=
  (take_tracks h hstep (isComment_ne_end hk)).bind fun h => .pure h

/-- A literal is read where its value decides what is pending behind it. -/
lemma literal_tracks {K : ValueKind → List Goal} (h : Expects ws s goals)
    (hstep : step goals (front s) = (front s).valueKind?.map K) :
    Tracks ws s (fun l => K l.value.kind) (literal s) := by
  rcases literal_of_valueKind? s with ⟨v, hv, hne, hread⟩ | ⟨hnone, e, hread, hspan⟩
  · rw [hread]
    exact ⟨[peek s 0], .one h.ready hne, h.take (by rw [hstep, hv]; rfl) hne⟩
  · rw [hread]
    exact .error h.ready (h.refuses (by rw [hstep, hnone]; rfl) hspan)

/-! ## Uses of rules -/

lemma errorClause_tracks
    (h : Expects ws s (.keyword .error :: .delimiter .colon :: .string :: rest)) :
    Tracks ws s (fun _ => rest) (errorClause s) := by
  refine (expect_tracks h (.keyword .error) "" nofun fun _ => rfl).bind fun h => ?_
  refine (expectMark_tracks h).bind fun h => ?_
  refine (stringLiteral_tracks h).bind fun {_ _ s} h => ?_
  rw [spanFrom_bind]
  exact .pure h

lemma arrayItem_tracks {first : ValueKind} (h : Expects ws s (.moreItems first :: rest)) :
    Tracks ws s (fun answer => answer.elim (.delimiter .rightBracket :: rest)
      fun _ => .moreItems first :: rest) (arrayItem first s) := by
  rw [arrayItem]
  refine (takeMark?_tracks h (.nextItem first :: rest) (.delimiter .rightBracket :: rest)
    fun _ => rfl).bind ?_
  intro taken ws s h
  cases taken
  · exact .pure h
  · simp only [if_true] at h ⊢
    rw [kind_bind]
    split
    · next hk => exact .pure (h.congr (by simp [step, Goal.on, hk]))
    · next hk =>
        have hstep : step (.nextItem first :: rest) (front s)
            = if (front s).valueKind? = some first then some (.moreItems first :: rest) else none :=
          if_neg hk
        rcases literal_of_valueKind? s with ⟨v, hv, hne, hread⟩ | ⟨hnone, e, hread, hspan⟩
        · rw [bind_of_ok hread]
          dsimp only
          split
          · next hfirst =>
              rw [hv, hfirst, if_pos rfl] at hstep
              exact .behind (.one h.ready hne) (.pure (h.take hstep hne))
          · next hfirst =>
              rw [hv, if_neg (fun heq => hfirst (Option.some.inj heq))] at hstep
              exact .error h.ready (h.refuses hstep rfl)
        · rw [bind_of_error hread]
          rw [hnone, if_neg (Option.some_ne_none first).symm] at hstep
          exact .error h.ready (h.refuses hstep hspan)

lemma arrayItems_tracks (h : Expects ws s (.items :: rest)) :
    Tracks ws s (fun _ => .delimiter .rightBracket :: rest) (arrayItems s) := by
  rw [arrayItems, kind_bind]
  split
  · next hk => exact .pure (h.congr (by simp [step, Goal.on, hk]))
  · next hk =>
      refine (literal_tracks (K := fun first => .moreItems first :: rest) h (if_neg hk)).bind ?_
      intro first ws s h
      have hrest := many_tracks arrayItem_some arrayItem_tracks h
      exact hrest.bind fun h => .pure h

lemma argument_tracks (h : Expects ws s (.arguments :: rest)) (hk : next s ≠ .keyword .error)
    (hk' : next s ≠ .delimiter .rightParen) :
    Tracks ws s (fun _ => .moreArguments :: rest) (argument s) := by
  have hstep : step (.arguments :: rest) (front s) = if next s = .delimiter .leftBracket
      then some (.items :: .moreArguments :: rest)
      else (front s).valueKind?.map fun _ => .moreArguments :: rest :=
    (if_neg hk).trans (if_neg hk')
  rw [argument, kind_bind]
  split
  · next hk =>
      rw [if_pos hk] at hstep
      refine (take_tracks h hstep (by simp [hk])).bind fun h => ?_
      refine (arrayItems_tracks h).bind fun h => ?_
      refine (expectMark_tracks h).bind fun {_ _ s} h => ?_
      rw [spanFrom_bind]
      exact .pure h
  · next hk =>
      rw [if_neg hk] at hstep
      exact (literal_tracks h hstep).bind fun h => .pure h

/-- The arguments of a use, behind the words that open them. -/
lemma useArguments_tracks {m n l : Word} (h : Expects (ws ++ [m, n, l]) s (.arguments :: rest))
    (hm : m.kind = .delimiter .atSign) (hn : n.kind = .identifier)
    (hl : l.kind = .delimiter .leftParen) :
    Tracks (ws ++ [m, n, l]) s (fun _ => .delimiter .rightParen :: rest) (useArguments s) := by
  rw [useArguments, kind_bind, kindAhead_bind]
  split
  · next hk =>
      have herror := h.congr
        (K := .keyword .error :: .delimiter .colon :: .string :: .delimiter .rightParen :: rest)
        (by simp [step, Goal.on, hk.1])
      exact (errorClause_tracks herror).bind fun h => .pure h
  next hcolon =>
  rw [kind_bind]
  split
  · next hk => exact .pure (h.congr (by simp [step, Goal.on, hk]))
  next hparen =>
  by_cases hk : next s = .keyword .error
  · -- the word may come, but not the one behind it
    have hahead : (peek s 1).kind ≠ .delimiter .colon := fun hc => hcolon ⟨hk, hc⟩
    have hstep : pending ((ws ++ [m, n, l]).map Word.lexeme ++ [front s])
        = some (.delimiter .colon :: .string :: .delimiter .rightParen :: rest) :=
      h.agrees.trans (if_pos hk)
    have hmisses : MissesColon (ws ++ [m, n, l]) s := by
      refine ⟨⟨ws, m, n, l, rfl, hm, hn, hl⟩, hk, hahead, by rw [hstep]; rfl, ?_⟩
      rw [List.append_cons, pending_concat, hstep]
      exact if_neg hahead
    rcases literal_of_valueKind? s with ⟨v, hv, -⟩ | ⟨-, e, hread, hspan⟩
    · simp [Lexeme.valueKind?, hk] at hv
    · have hargument : argument s = .error e s := by
        rw [argument, kind_bind, if_neg (by simp [hk]), bind_of_error hread]
      rw [bind_of_error hargument]
      exact .error h.ready ⟨h.viable, hspan, Or.inr hmisses⟩
  · refine (argument_tracks h hk hparen).bind fun {_ ws s} h => ?_
    refine (takeMark?_tracks h
      (.keyword .error :: .delimiter .colon :: .string :: .delimiter .rightParen :: rest)
      (.delimiter .rightParen :: rest) fun _ => rfl).bind ?_
    intro taken ws s h
    cases taken
    · exact .pure h
    · exact (errorClause_tracks h).bind fun h => .pure h

lemma ruleUse_tracks (h : Expects ws s (.uses :: rest)) (hk : next s = .delimiter .atSign) :
    Tracks ws s (fun _ => .uses :: rest) (ruleUse s) := by
  have hmark := h.congr (K := .delimiter .atSign :: .useName :: rest)
    (by simp [step, Goal.on, Goal.onUses, hk])
  refine (expectMark_tracks hmark).bind_word (expectMark_sound h.ready) fun {_ m s} hm h => ?_
  refine (identifier_tracks h fun _ => rfl).bind_word (identifier_sound h.ready)
    fun {_ n s} hn h => ?_
  by_cases hl : next s = .delimiter .leftParen
  · have hword : Took s [peek s 0] (advance s) := .one h.ready (by simp [hl])
    rw [bind_of_ok (takeMark?_of_next hword hl)]
    have hopened := h.take (K := .arguments :: .uses :: rest) (if_pos hl) (by simp [hl])
    rw [List.append_assoc, List.append_assoc] at hopened
    refine .behind hword ?_
    rw [List.append_assoc, List.append_assoc]
    refine (useArguments_tracks hopened hm.1 hn.1 hl).bind fun h => ?_
    refine (expectMark_tracks h).bind fun {_ _ s} h => ?_
    rw [spanFrom_bind]
    exact .pure h
  · rw [bind_of_ok (takeMark?_of_not_next hl)]
    simp only [Bool.false_eq_true, if_false]
    rw [spanFrom_bind]
    exact .pure (h.congr (if_neg hl))

/-- A use of a rule, or none: what comes behind it is told by the same goal. -/
lemma ruleUse?_tracks (h : Expects ws s (.uses :: rest)) : Tracks ws s
    (fun answer => answer.elim (.fields :: rest) fun _ => .uses :: rest) (ruleUse? s) := by
  rw [ruleUse?, kind_bind]
  split
  · next hk => exact (ruleUse_tracks h hk).map rfl
  · next hk => exact .pure (h.congr (if_neg hk))

/-! ## Fields and their types -/

/-- What is known of the reader for inner lists of fields, inside of a list where the given count
remained. -/
def InlineTracks (inline : Reader σ (List FieldItem)) (bound : Nat) : Prop :=
  ∀ {ws s rest}, remaining s < bound → Expects ws s (.fields :: rest) →
    Tracks ws s (fun _ => .delimiter .rightBrace :: rest) (inline s)

variable {inline : Reader σ (List FieldItem)} {bound : Nat}

/-- What follows the base of a type. -/
lemma typed_tracks {base : FieldBase} {start : Span} (h : Expects ws s (.afterBase :: rest)) :
    Tracks ws s (fun _ => .afterType :: rest)
      ((do let isArray ← arraySuffix; pure ⟨← spanFrom start, base, isArray⟩ :
        Reader σ FieldType) s) := by
  refine (arraySuffix_tracks h (.afterType :: rest) fun _ => rfl).bind fun {_ _ s} h => ?_
  rw [spanFrom_bind]
  exact .pure h

lemma fieldType_tracks (hinline : InlineTracks inline bound) (hbound : remaining s ≤ bound)
    (h : Expects ws s (.fieldType :: rest)) :
    Tracks ws s (fun _ => .afterType :: rest) (fieldType inline s) := by
  rw [fieldType, here_bind, kind_bind]
  split
  · next hk =>
      have hword : Took s [peek s 0] (advance s) := .one h.ready (by simp [hk])
      have hless := hword.remaining_lt (List.cons_ne_nil _ _)
      have hopened := h.take (K := .fields :: .afterBase :: rest) (if_pos hk) (by simp [hk])
      rw [bind_of_ok (take_complete hword)]
      refine .behind hword ?_
      refine (hinline (by omega) hopened).bind fun h => ?_
      exact (expectMark_tracks h).bind fun h => typed_tracks h
  next hbrace =>
  split
  · next hk =>
      have hstep : step (.fieldType :: rest) (front s) = some (.afterBase :: rest) :=
        (if_neg hbrace).trans (if_pos hk)
      have hname := (name_tracks h hstep (isTypeName_ne_end hk)).map (g := FieldBase.named)
        (R := fun _ => .afterBase :: rest) rfl
      exact hname.bind fun h => typed_tracks h
  · next hk => exact unexpected_tracks h ((if_neg hbrace).trans (if_neg hk)) _

lemma field_tracks {docstring : Option Docstring} (hinline : InlineTracks inline bound)
    (hbound : remaining s ≤ bound) (h : Expects ws s (.fields :: rest)) (hk : (next s).isName) :
    Tracks ws s (fun _ => .fields :: rest) (field inline docstring s) := by
  have hstep : step (.fields :: rest) (front s) = some (.afterName :: rest) := by
    rcases isName_cases hk with hk | ⟨k, hk⟩ <;>
      simp [step, Goal.on, Goal.onFields, hk, Kind.isComment, Kind.isName, Kind.isKeyword]
  rw [field]
  refine (name_tracks h hstep (isName_ne_end hk)).bind_took fun {_ us₁ s₁} hus₁ h => ?_
  refine (takeMark?_tracks h (.delimiter .colon :: .fieldType :: rest)
    (.delimiter .colon :: .fieldType :: rest) fun _ => rfl).bind_took fun {byName us₂ s₂} hus₂ h => ?_
  replace h : Expects (ws ++ us₁ ++ us₂) s₂ (.delimiter .colon :: .fieldType :: rest) := by
    cases byName <;> exact h
  refine (expectMark_tracks h).bind_took fun {_ us₃ s₃} hus₃ h => ?_
  have hbound₃ : remaining s₃ ≤ bound :=
    Nat.le_trans (hus₁.append (hus₂.append hus₃)).remaining_le hbound
  refine (fieldType_tracks hinline hbound₃ h).bind fun h => ?_
  refine (takeMark?_tracks h (.uses :: rest) (.uses :: rest) fun _ => rfl).bind
    fun {byType ws s} h => ?_
  replace h : Expects ws s (.uses :: rest) := by
    cases byType <;> exact h
  refine (many_tracks ruleUse?_some ruleUse?_tracks h).bind fun {_ _ s} h => ?_
  rw [spanFrom_bind]
  exact .pure h

/-- An entry of a list of fields, or the end of the list in front of its closing brace. -/
lemma fieldItem_tracks (hinline : InlineTracks inline bound) (hbound : remaining s ≤ bound)
    (h : Expects ws s (.fields :: rest)) : Tracks ws s
      (fun answer => answer.elim (.delimiter .rightBrace :: rest) fun _ => .fields :: rest)
      (fieldItem inline s) := by
  have hstep : step (.fields :: rest) (front s) = if next s = .delimiter .rightBrace
      then some rest
      else if (next s).isComment ∨ next s = .docstring then some (.fields :: rest)
      else if (next s).isName then some (.afterName :: rest)
      else none := rfl
  rw [fieldItem, kind_bind]
  split
  · next hk => exact .pure (h.congr (by simp [step, Goal.on, Goal.onFields, hk]))
  next hbrace =>
  rw [if_neg hbrace] at hstep
  split
  · next hk =>
      rw [if_pos (Or.inl hk)] at hstep
      exact (comment_tracks h hstep hk).bind fun h => .pure h
  next hcomment =>
  split
  · next hk =>
      rw [if_pos (Or.inr hk)] at hstep
      have hword : Took s [peek s 0] (advance s) := .one h.ready (by simp [hk])
      have hbound' := Nat.le_trans hword.remaining_le hbound
      have hbehind := h.take hstep (by simp [hk])
      rw [bind_of_ok docstring_run, bind_of_ok fieldFollows_run]
      refine .behind hword ?_
      split
      · next hfollows =>
          have hname := (Bool.and_eq_true_iff.1 hfollows).1
          exact (field_tracks hinline hbound' hbehind hname).bind fun h => .pure h
      · exact .pure hbehind
  next hdocstring =>
  rw [if_neg (not_or.2 ⟨hcomment, hdocstring⟩)] at hstep
  split
  · next hk => exact (field_tracks hinline hbound h hk).bind fun h => .pure h
  · next hk => exact unexpected_tracks h (hstep.trans (if_neg hk)) _

/-- **Lists of fields** are read up to their closing brace. -/
lemma fieldItems_tracks {ws : List Word} {s : σ} {rest : List Goal}
    (h : Expects ws s (.fields :: rest)) :
    Tracks ws s (fun _ => .delimiter .rightBrace :: rest) (fieldItems s) := by
  have hinline : InlineTracks (innerFields (σ := σ) (remaining s)) (remaining s) := by
    intro ws s₁ inner hless h
    rw [innerFields_of_lt hless]
    exact fieldItems_tracks h
  have hsound : InlineSound (innerFields (σ := σ) (remaining s)) := by
    intro s₁ items s₂ hs₁ hread
    exact fieldItems_sound hs₁ (of_innerFields_ok hread).2
  rw [fieldItems_eq]
  exact many_tracks_within (fieldItem_some hsound) (fieldItem_tracks hinline) (Nat.le_refl _) h
termination_by remaining s

end RpcSchema.Reader
