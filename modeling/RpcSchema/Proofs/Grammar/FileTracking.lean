import RpcSchema.Proofs.Grammar.Completeness
import RpcSchema.Proofs.Grammar.FieldTracking

/-!
# Readers of files keep track of what is pending

From bodies and declarations up to whole files.  A statement is read where nothing is pending, and
nothing is pending behind it, so that a file is read up to its end or up to a word that cannot come
(`schema_tracks`).
-/

namespace RpcSchema.Reader

open TokenSupply LawfulSupply

lemma expect_of_not_next {σ : Type} [TokenSupply σ] {s : σ} {wanted : Kind} (role : String)
    (h : next s ≠ wanted) :
    ∃ e, expect wanted role s = .error e s ∧ e.span = (peek s 0).span := by
  rw [expect, kind_bind, if_neg h]
  exact ⟨_, rfl, rfl⟩

variable {σ : Type} [TokenSupply σ] [LawfulSupply σ] {s : σ} {ws : List Word}
  {goals rest : List Goal}

/-! ## What declarations have in common -/

lemma deprecation_tracks (h : Expects ws s []) (hk : next s = .keyword .deprecated) :
    Tracks ws s (fun _ => [.declaration]) (deprecation s) := by
  have hstep : step [] (front s) = some [.afterDeprecated] := by
    simp [step, Goal.onStatement, hk, Kind.isComment]
  rw [deprecation]
  refine (take_tracks h hstep (by simp [hk])).bind fun {_ ws s} h => ?_
  refine (takeMark?_tracks h [.string, .delimiter .rightParen, .declaration] [.declaration]
    fun _ => rfl).bind ?_
  intro given ws s h
  cases given
  · simp only [Bool.false_eq_true, if_false]
    rw [spanFrom_bind]
    exact .pure h
  · simp only [if_true]
    refine (stringLiteral_tracks h).bind fun {_ ws s} h => ?_
    refine (expectMark_tracks h).bind fun {_ ws s} h => ?_
    rw [spanFrom_bind]
    exact .pure h

section

variable {ι : Type} {items : Reader σ (List ι)} {g : Goal} {opening closing : String}

/-- What is known of the reader of the entries of a body, which are up to the goal. -/
def BodyTracks (items : Reader σ (List ι)) (g : Goal) : Prop :=
  ∀ {ws s rest}, Expects ws s (g :: rest) →
    Tracks ws s (fun _ => .delimiter .rightBrace :: rest) (items s)

lemma body_tracks (hitems : BodyTracks items g)
    (h : Expects ws s (.delimiter .leftBrace :: g :: rest)) :
    Tracks ws s (fun _ => rest) (body items opening closing s) := by
  rw [body]
  refine (expectMark_tracks h).bind fun h => ?_
  refine (hitems h).bind fun h => ?_
  exact (expectMark_tracks h).bind fun h => .pure h

lemma declared_tracks {preamble : Preamble} {role : String} (hitems : BodyTracks items g)
    (h : Expects ws s (.identifier :: .delimiter .leftBrace :: g :: rest)) :
    Tracks ws s (fun _ => rest) (declared preamble role (body items opening closing) s) := by
  rw [declared]
  refine (identifier_tracks h fun _ => rfl).bind fun h => ?_
  refine (body_tracks hitems h).bind fun {_ _ s} h => ?_
  rw [spanFrom_bind]
  exact .pure h

end

/-! ## Rules -/

lemma typeClause_tracks {role : String} (h : Expects ws s goals)
    (hstep : step goals (front s)
      = some (.delimiter .colon :: .typeName :: .afterClauseType :: rest))
    (hne : next s ≠ .endOfFile) : Tracks ws s (fun _ => .ruleItems :: rest) (typeClause role s) := by
  rw [typeClause]
  refine (take_tracks h hstep hne).bind fun h => ?_
  refine (expectMark_tracks h).bind fun h => ?_
  refine (typeName_tracks h).bind fun h => ?_
  refine (arraySuffix_tracks h (.ruleItems :: rest) fun _ => rfl).bind fun {_ _ s} h => ?_
  rw [spanFrom_bind]
  exact .pure h

lemma ruleItem_tracks (h : Expects ws s (.ruleItems :: rest)) : Tracks ws s
    (fun answer => answer.elim (.delimiter .rightBrace :: rest) fun _ => .ruleItems :: rest)
    (ruleItem s) := by
  have hstep : step (.ruleItems :: rest) (front s) = Goal.onRuleItems (front s) rest := rfl
  rw [Goal.onRuleItems, kind_front] at hstep
  rw [ruleItem, kind_bind]
  generalize hk : next s = k at hstep ⊢
  cases k with
  | lineComment | blockComment =>
      have hcomment : (next s).isComment := by rw [hk]; rfl
      exact (comment_tracks h hstep hcomment).bind fun h => .pure h
  | delimiter d =>
      cases d with
      | rightBrace => exact .pure (h.congr (hstep.trans (if_pos hk).symm))
      | _ => exact unexpected_tracks h hstep _
  | keyword k =>
      cases k with
      | target | param =>
          exact (typeClause_tracks h hstep (by simp [hk])).bind fun h => .pure h
      | error =>
          have herror := h.congr
            (K := .keyword .error :: .delimiter .colon :: .string :: .ruleItems :: rest)
            (hstep.trans (if_pos hk).symm)
          exact (errorClause_tracks herror).bind fun h => .pure h
      | _ => exact unexpected_tracks h hstep _
  | _ => exact unexpected_tracks h hstep _

lemma ruleDecl_tracks {preamble : Preamble} (h : Expects ws s (.declaration :: rest))
    (hk : next s = .keyword .rule) : Tracks ws s (fun _ => rest) (ruleDecl preamble s) := by
  have hstep : step (.declaration :: rest) (front s) = some (.delimiter .atSign :: .identifier
      :: .delimiter .leftBrace :: .ruleItems :: rest) := by
    simp [step, Goal.on, Goal.onDeclaration, hk]
  rw [ruleDecl]
  refine (take_tracks h hstep (by simp [hk])).bind fun h => ?_
  refine (expectMark_tracks h).bind fun h => ?_
  exact declared_tracks (many_tracks ruleItem_some ruleItem_tracks) h

/-! ## Types -/

lemma typeDecl_tracks {preamble : Preamble} (h : Expects ws s (.declaration :: rest))
    (hk : next s = .keyword .type) : Tracks ws s (fun _ => rest) (typeDecl preamble s) := by
  have hstep : step (.declaration :: rest) (front s)
      = some (.identifier :: .delimiter .leftBrace :: .fields :: rest) := by
    simp [step, Goal.on, Goal.onDeclaration, hk]
  rw [typeDecl]
  refine (take_tracks h hstep (by simp [hk])).bind fun h => ?_
  exact declared_tracks fieldItems_tracks h

/-! ## Procedures and streams -/

lemma fieldBlock_tracks (h : Expects ws s goals)
    (hstep : step goals (front s) = some (.delimiter .leftBrace :: .fields :: rest))
    (hne : next s ≠ .endOfFile) : Tracks ws s (fun _ => rest) (fieldBlock s) := by
  rw [fieldBlock]
  refine (take_tracks h hstep hne).bind fun h => ?_
  refine (body_tracks fieldItems_tracks h).bind fun {_ _ s} h => ?_
  rw [spanFrom_bind]
  exact .pure h

lemma metaItem_tracks (h : Expects ws s (.metaItems :: rest)) : Tracks ws s
    (fun answer => answer.elim (.delimiter .rightBrace :: rest) fun _ => .metaItems :: rest)
    (metaItem s) := by
  have hstep : step (.metaItems :: rest) (front s) = if next s = .delimiter .rightBrace then some rest
      else if (next s).isComment then some (.metaItems :: rest)
      else if (next s).isName then some (.delimiter .colon :: .literal :: .metaItems :: rest)
      else none := rfl
  rw [metaItem, kind_bind]
  split
  · next hk => exact .pure (h.congr (by simp [step, Goal.on, hk]))
  next hbrace =>
  rw [if_neg hbrace] at hstep
  split
  · next hk =>
      rw [if_pos hk] at hstep
      exact (comment_tracks h hstep hk).bind fun h => .pure h
  next hcomment =>
  rw [if_neg hcomment] at hstep
  split
  · next hk =>
      rw [if_pos hk] at hstep
      have hentry : Tracks ws s (fun _ => .metaItems :: rest) (metaEntry s) := by
        rw [metaEntry]
        refine (name_tracks h hstep (isName_ne_end hk)).bind fun h => ?_
        refine (expectMark_tracks h).bind fun h => ?_
        exact (literal_tracks h rfl).bind fun h => .pure h
      exact hentry.bind fun h => .pure h
  · next hk => exact unexpected_tracks h (hstep.trans (if_neg hk)) _

lemma metaBlock_tracks (h : Expects ws s goals)
    (hstep : step goals (front s) = some (.delimiter .leftBrace :: .metaItems :: rest))
    (hne : next s ≠ .endOfFile) : Tracks ws s (fun _ => rest) (metaBlock s) := by
  rw [metaBlock]
  refine (take_tracks h hstep hne).bind fun h => ?_
  have hitems : BodyTracks (many (metaItem (σ := σ))) .metaItems :=
    many_tracks metaItem_some metaItem_tracks
  refine (body_tracks hitems h).bind fun {_ _ s} h => ?_
  rw [spanFrom_bind]
  exact .pure h

lemma procItem_tracks (h : Expects ws s (.procItems :: rest)) : Tracks ws s
    (fun answer => answer.elim (.delimiter .rightBrace :: rest) fun _ => .procItems :: rest)
    (procItem s) := by
  have hstep : step (.procItems :: rest) (front s) = Goal.onProcItems (front s) rest := rfl
  rw [Goal.onProcItems, kind_front] at hstep
  rw [procItem, kind_bind]
  generalize hk : next s = k at hstep ⊢
  cases k with
  | lineComment | blockComment =>
      have hcomment : (next s).isComment := by rw [hk]; rfl
      exact (comment_tracks h hstep hcomment).bind fun h => .pure h
  | delimiter d =>
      cases d with
      | rightBrace => exact .pure (h.congr (hstep.trans (if_pos hk).symm))
      | _ => exact unexpected_tracks h hstep _
  | keyword k =>
      cases k with
      | input | output =>
          exact (fieldBlock_tracks h hstep (by simp [hk])).bind fun h => .pure h
      | metadata =>
          exact (metaBlock_tracks h hstep (by simp [hk])).bind fun h => .pure h
      | _ => exact unexpected_tracks h hstep _
  | _ => exact unexpected_tracks h hstep _

lemma procDecl_tracks {preamble : Preamble} {role : String} (h : Expects ws s goals)
    (hstep : step goals (front s)
      = some (.identifier :: .delimiter .leftBrace :: .procItems :: rest))
    (hne : next s ≠ .endOfFile) : Tracks ws s (fun _ => rest) (procDecl preamble role s) := by
  rw [procDecl]
  refine (take_tracks h hstep hne).bind fun h => ?_
  exact declared_tracks (many_tracks procItem_some procItem_tracks) h

/-! ## Statements -/

lemma versionStatement_tracks (h : Expects ws s []) (hk : next s = .keyword .version) :
    Tracks ws s (fun _ => []) (versionStatement s) := by
  have hstep : step [] (front s) = some [.number] := by
    simp [step, Goal.onStatement, hk, Kind.isComment]
  rw [versionStatement]
  refine (take_tracks h hstep (by simp [hk])).bind fun {_ ws s} h => ?_
  have hnumber : step [.number] (front s)
      = if next s = .integer ∧ (front s).number < Decimal.integerBound then some [] else none := rfl
  by_cases hk : next s = .integer
  · -- the number is taken before it is looked at
    have hword : Took s [peek s 0] (advance s) := .one h.ready (by simp [hk])
    rw [bind_of_ok (expect_complete hword hk)]
    by_cases hrange : (front s).number < Decimal.integerBound
    · rw [bind_of_ok (natural_of_lt hrange), spanFrom_bind]
      rw [if_pos ⟨hk, hrange⟩] at hnumber
      exact .behind hword (.pure (h.take hnumber (by simp [hk])))
    · rw [bind_of_error (natural_of_not_lt hrange)]
      rw [if_neg fun hboth => hrange hboth.2] at hnumber
      exact .error h.ready (h.refuses hnumber rfl)
  · obtain ⟨e, hread, hspan⟩ := expect_of_not_next "after `version`" hk
    rw [bind_of_error hread]
    rw [if_neg fun hboth => hk hboth.1] at hnumber
    exact .error h.ready (h.refuses hnumber hspan)

lemma importStatement_tracks (h : Expects ws s []) (hk : next s = .keyword .imports) :
    Tracks ws s (fun _ => []) (importStatement s) := by
  have hstep : step [] (front s) = some [.string] := by
    simp [step, Goal.onStatement, hk, Kind.isComment]
  rw [importStatement]
  refine (take_tracks h hstep (by simp [hk])).bind fun h => ?_
  refine (stringLiteral_tracks h).bind fun {_ _ s} h => ?_
  rw [spanFrom_bind]
  exact .pure h

lemma declarationBehind_tracks {preamble : Preamble} (h : Expects ws s [.declaration]) :
    Tracks ws s (fun _ => []) (declarationBehind preamble s) := by
  have hstep : step [.declaration] (front s) = Goal.onDeclaration (front s) [] := rfl
  rw [Goal.onDeclaration, kind_front] at hstep
  rw [declarationBehind, kind_bind]
  generalize hk : next s = k at hstep ⊢
  cases k with
  | keyword k =>
      cases k with
      | rule => exact (ruleDecl_tracks h hk).map rfl
      | type => exact (typeDecl_tracks h hk).map rfl
      | proc | stream =>
          exact (procDecl_tracks h hstep (by simp [hk])).map rfl
      | _ => exact unexpected_tracks h hstep _
  | _ => exact unexpected_tracks h hstep _

lemma declaration_tracks {docstring : Option Docstring} (h : Expects ws s [])
    (hk : (next s).startsDeclaration) : Tracks ws s (fun _ => []) (declaration docstring s) := by
  by_cases hdeprecated : next s = .keyword .deprecated
  · rw [declaration, here_bind, kind_bind, if_pos hdeprecated]
    have hdeprecation := (deprecation_tracks h hdeprecated).map (g := some)
      (R := fun _ => [.declaration]) rfl
    exact hdeprecation.bind fun h => declarationBehind_tracks h
  · rw [declaration_of_bare hdeprecated]
    exact declarationBehind_tracks (h.congr (Goal.onStatement_of_starts [] hk hdeprecated))

/-- A statement, or the end of the file. -/
lemma statement_tracks (h : Expects ws s []) :
    Tracks ws s (fun answer => answer.elim [] fun _ => []) (statement s) := by
  rw [statement, kind_bind]
  split
  · exact .pure h
  split
  · next hk => exact ((versionStatement_tracks h hk).map (R := fun _ => []) rfl).map rfl
  split
  · next hk => exact ((importStatement_tracks h hk).map (R := fun _ => []) rfl).map rfl
  split
  · next hk =>
      have hstep : step [] (front s) = some [] := if_pos (Or.inr (Or.inl hk))
      exact ((comment_tracks h hstep hk).map (R := fun _ => []) rfl).map rfl
  split
  · next hk =>
      have hstep : step [] (front s) = some [] := if_pos (Or.inr (Or.inr hk))
      have hne : next s ≠ .endOfFile := by simp [hk]
      have hword : Took s [peek s 0] (advance s) := .one h.ready hne
      have hbehind := h.take hstep hne
      rw [bind_of_ok (declarationFollows_run hword)]
      split
      · next hfollows =>
          rw [bind_of_ok docstring_run]
          refine .behind hword ?_
          exact (declaration_tracks hbehind (Bool.and_eq_true_iff.1 hfollows).1).map rfl
      · rw [map_of_ok (map_of_ok docstring_run)]
        exact .behind hword (.pure hbehind)
  next hend hversion himport hcomment hdocstring =>
  split
  · next hk => exact (declaration_tracks h hk).map rfl
  · next hk =>
      have hdeprecated : next s ≠ .keyword .deprecated := by
        intro hdeprecated
        rw [hdeprecated] at hk
        exact hk rfl
      have hstep : step [] (front s) = none := by
        have hnone : Goal.onDeclaration (front s) [] = none := Goal.onDeclaration_of_not_starts [] hk
        simp [step, Goal.onStatement, hend, hversion, himport, hcomment, hdocstring, hdeprecated,
          hnone]
      exact unexpected_tracks h hstep _

/-- **Files are read up to a word that cannot come.** -/
theorem schema_tracks (h : Expects ws s []) : Tracks ws s (fun _ => []) (schema s) := by
  rw [schema]
  exact (many_tracks statement_some statement_tracks h).bind fun h => .pure h

end RpcSchema.Reader
