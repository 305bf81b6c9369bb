import RpcSchema.Proofs.Grammar.FieldSimulation
import RpcSchema.Proofs.Grammar.Soundness

/-!
# Files on two supplies

From bodies and declarations up to whole files: on supplies that tell the same, the same schema is
read but for places, or the same error is found at the same word (`schema_alike`).
-/

namespace RpcSchema

open TokenSupply LawfulSupply Reader

/-- Preambles that say the same and start at places that correspond. -/
structure Correspondence.SamePreamble (C : Correspondence) (p q : Preamble) : Prop where
  start : C.Place p.start q.start
  docstring : p.docstring.map C.editLeft.docstring = q.docstring.map C.editRight.docstring
  deprecation : p.deprecation.map C.editLeft.deprecation = q.deprecation.map C.editRight.deprecation

namespace Simulation

variable {C : Correspondence} {σ τ : Type} [TokenSupply σ] [LawfulSupply σ] [TokenSupply τ]
  [LawfulSupply τ] {S : Simulation C σ τ} {s : σ} {t : τ}

/-! ## What declarations have in common -/

lemma deprecation_alike (h : S.Rel s t) : S.behind.Alike
    (fun a b => C.editLeft.deprecation a = C.editRight.deprecation b)
    (deprecation s) (deprecation t) := by
  refine (take_alike h).bind fun hkeyword h => ?_
  refine (takeMark?_alike h _).bind ?_
  rintro given _ s t rfl h
  cases given
  · simp only [Bool.false_eq_true, if_false]
    rw [spanFrom_bind, spanFrom_bind]
    refine .pure ?_ h
    rw [Edit.deprecation, Edit.deprecation, stretch h hkeyword.2]
  · simp only [if_true]
    refine (stringLiteral_alike h _).weaken.bind ?_
    rintro message _ s t rfl h
    refine (expectMark_alike h _ _).weaken.bind fun _ h => ?_
    rw [spanFrom_bind, spanFrom_bind]
    refine .pure ?_ h
    rw [Edit.deprecation, Edit.deprecation, stretch h hkeyword.2]

section

variable {ι : Type} {R : List ι → List ι → Prop} {items : Reader σ (List ι)}
  {items' : Reader τ (List ι)}

lemma body_alike (hitems : ∀ {s t}, S.Rel s t → S.Alike R (items s) (items' t)) (h : S.Rel s t)
    (opening closing : String) :
    S.behind.Alike R (body items opening closing s) (body items' opening closing t) := by
  refine (expectMark_alike h _ _).weaken.bind_behind fun _ h => ?_
  refine (hitems h).bind_behind fun his h => ?_
  exact (expectMark_alike h _ _).bind fun _ h => .pure his h

/-- Declarations are alike where their bodies are. -/
lemma declared_alike {p q : Preamble} {role : String} {edit edit' : List ι → List ι}
    (hpreamble : C.SamePreamble p q)
    (hitems : ∀ {s t}, S.Rel s t →
      S.behind.Alike (fun a b => edit a = edit' b) (items s) (items' t)) (h : S.Rel s t) :
    S.behind.Alike
      (fun a b => C.editLeft.declaration edit a = C.editRight.declaration edit' b)
      (declared p role items s) (declared q role items' t) := by
  refine (identifier_alike h _).weaken.bind_behind fun hname h => ?_
  refine (hitems h).bind fun his h => ?_
  rw [spanFrom_bind, spanFrom_bind]
  refine .pure ?_ h
  simp only [Edit.declaration, hname.edit, his, hpreamble.docstring, hpreamble.deprecation]
  rw [stretch h hpreamble.start]

end

/-! ## Rules -/

lemma typeClause_alike (h : S.Rel s t) (role : String) : S.behind.Alike
    (fun a b => C.editLeft.typeClause a = C.editRight.typeClause b)
    (typeClause role s) (typeClause role t) := by
  refine (take_alike h).bind fun hkeyword h => ?_
  refine (expectMark_alike h _ _).weaken.bind fun _ h => ?_
  refine (typeName_alike h).weaken.bind fun htype h => ?_
  refine (arraySuffix_alike h).bind ?_
  rintro isArray _ s t rfl h
  rw [spanFrom_bind, spanFrom_bind]
  refine .pure ?_ h
  rw [Edit.typeClause, Edit.typeClause, stretch h hkeyword.2, htype.edit]

lemma ruleItem_alike (h : S.Rel s t) : S.Alike
    (Option.Rel fun a b => C.editLeft.ruleItem a = C.editRight.ruleItem b)
    (ruleItem s) (ruleItem t) := by
  have hcomment : S.Alike (Option.Rel fun a b => C.editLeft.ruleItem a = C.editRight.ruleItem b)
      ((do let c ← comment; pure (some (.comment c)) : Reader σ (Option RuleItem)) s)
      ((do let c ← comment; pure (some (.comment c)) : Reader τ (Option RuleItem)) t) :=
    (comment_alike h).weaken.bind fun hc h => .pure (.some (congrArg RuleItem.comment hc)) h
  rw [ruleItem, ruleItem, kind_bind, kind_bind, next_eq h]
  cases next t with
  | lineComment => exact hcomment
  | blockComment => exact hcomment
  | delimiter d =>
      cases d with
      | rightBrace => exact .pure .none h
      | _ => exact unexpected_alike h _
  | keyword k =>
      cases k with
      | target =>
          exact (typeClause_alike h _).weaken.bind
            fun hc h => .pure (.some (congrArg RuleItem.target hc)) h
      | param =>
          exact (typeClause_alike h _).weaken.bind
            fun hc h => .pure (.some (congrArg RuleItem.param hc)) h
      | error =>
          exact (errorClause_alike h).weaken.bind
            fun hc h => .pure (.some (congrArg RuleItem.error hc)) h
      | _ => exact unexpected_alike h _
  | _ => exact unexpected_alike h _

lemma ruleDecl_alike {p q : Preamble} (hpreamble : C.SamePreamble p q) (h : S.Rel s t) :
    S.Alike (fun a b => C.editLeft.ruleDecl a = C.editRight.ruleDecl b)
      (ruleDecl p s) (ruleDecl q t) := by
  refine (take_alike h).weaken.bind fun _ h => ?_
  refine (expectMark_alike h _ _).weaken.bind fun _ h => ?_
  refine (declared_alike hpreamble (fun h => body_alike (fun h => ?_) h _ _) h).weaken
  exact (many_alike ruleItem_alike h).imp map_eq_map

/-! ## Types -/

lemma typeDecl_alike {p q : Preamble} (hpreamble : C.SamePreamble p q) (h : S.Rel s t) :
    S.Alike (fun a b => C.editLeft.typeDecl a = C.editRight.typeDecl b)
      (typeDecl p s) (typeDecl q t) := by
  refine (take_alike h).weaken.bind fun _ h => ?_
  exact (declared_alike hpreamble (fun h => body_alike fieldItems_alike h _ _) h).weaken

/-! ## Procedures and streams -/

lemma fieldBlock_alike (h : S.Rel s t) : S.behind.Alike
    (fun a b => C.editLeft.fieldBlock a = C.editRight.fieldBlock b)
    (fieldBlock s) (fieldBlock t) := by
  refine (take_alike h).bind fun {keyword keyword' s t} hkeyword h => ?_
  rw [hkeyword.literal]
  refine (body_alike fieldItems_alike h _ _).weaken.bind fun hitems h => ?_
  rw [spanFrom_bind, spanFrom_bind]
  refine .pure ?_ h
  rw [Edit.fieldBlock, Edit.fieldBlock, stretch h hkeyword.2, hitems]

lemma metaEntry_alike (h : S.Rel s t) : S.behind.Alike
    (fun a b => C.editLeft.metaEntry a = C.editRight.metaEntry b)
    (metaEntry s) (metaEntry t) := by
  refine (name_alike h).weaken.bind_behind fun {key key' s t} hkey h => ?_
  refine (expectMark_alike h _ _).weaken.bind_behind fun _ h => ?_
  refine (literal_alike h).bind fun {value value' s t} hvalue h => .pure ?_ h
  have hspan : C.editLeft.span (key.span.through value.span)
      = C.editRight.span (key'.span.through value'.span) := C.through hkey.2 hvalue.2
  rw [Edit.metaEntry, Edit.metaEntry, hspan, hkey.edit, hvalue.edit]

lemma metaItem_alike (h : S.Rel s t) : S.Alike
    (Option.Rel fun a b => C.editLeft.metaItem a = C.editRight.metaItem b)
    (metaItem s) (metaItem t) := by
  rw [metaItem, metaItem, kind_bind, kind_bind, next_eq h]
  split
  · exact .pure .none h
  split
  · exact (comment_alike h).weaken.bind
      fun hc h => .pure (.some (congrArg MetaItem.comment hc)) h
  split
  · exact (metaEntry_alike h).weaken.bind
      fun hentry h => .pure (.some (congrArg MetaItem.entry hentry)) h
  · exact unexpected_alike h _

lemma metaBlock_alike (h : S.Rel s t) : S.behind.Alike
    (fun a b => C.editLeft.metaBlock a = C.editRight.metaBlock b)
    (metaBlock s) (metaBlock t) := by
  refine (take_alike h).bind fun hkeyword h => ?_
  refine (body_alike (many_alike metaItem_alike) h _ _).weaken.bind fun hitems h => ?_
  rw [spanFrom_bind, spanFrom_bind]
  refine .pure ?_ h
  rw [Edit.metaBlock, Edit.metaBlock, stretch h hkeyword.2, map_eq_map hitems]

lemma procItem_alike (h : S.Rel s t) : S.Alike
    (Option.Rel fun a b => C.editLeft.procItem a = C.editRight.procItem b)
    (procItem s) (procItem t) := by
  have hcomment : S.Alike (Option.Rel fun a b => C.editLeft.procItem a = C.editRight.procItem b)
      ((do let c ← comment; pure (some (.comment c)) : Reader σ (Option ProcItem)) s)
      ((do let c ← comment; pure (some (.comment c)) : Reader τ (Option ProcItem)) t) :=
    (comment_alike h).weaken.bind fun hc h => .pure (.some (congrArg ProcItem.comment hc)) h
  rw [procItem, procItem, kind_bind, kind_bind, next_eq h]
  cases next t with
  | lineComment => exact hcomment
  | blockComment => exact hcomment
  | delimiter d =>
      cases d with
      | rightBrace => exact .pure .none h
      | _ => exact unexpected_alike h _
  | keyword k =>
      cases k with
      | input =>
          exact (fieldBlock_alike h).weaken.bind
            fun hb h => .pure (.some (congrArg ProcItem.input hb)) h
      | output =>
          exact (fieldBlock_alike h).weaken.bind
            fun hb h => .pure (.some (congrArg ProcItem.output hb)) h
      | metadata =>
          exact (metaBlock_alike h).weaken.bind
            fun hb h => .pure (.some (congrArg ProcItem.metadata hb)) h
      | _ => exact unexpected_alike h _
  | _ => exact unexpected_alike h _

lemma procDecl_alike {p q : Preamble} (hpreamble : C.SamePreamble p q) (h : S.Rel s t)
    (role : String) : S.Alike (fun a b => C.editLeft.procDecl a = C.editRight.procDecl b)
      (procDecl p role s) (procDecl q role t) := by
  refine (take_alike h).weaken.bind fun _ h => ?_
  refine (declared_alike hpreamble (fun h => body_alike (fun h => ?_) h _ _) h).weaken
  exact (many_alike procItem_alike h).imp map_eq_map

/-! ## Statements -/

lemma versionStatement_alike (h : S.Rel s t) : S.Alike
    (fun a b => C.editLeft.versionStatement a = C.editRight.versionStatement b)
    (versionStatement s) (versionStatement t) := by
  refine Alike.weaken ((take_alike h).bind fun hkeyword h => ?_)
  refine (expect_alike h _ _).weaken.bind fun htoken h => ?_
  refine (natural_alike htoken h).bind ?_
  rintro number _ s t rfl h
  rw [spanFrom_bind, spanFrom_bind]
  refine .pure ?_ h
  rw [Edit.versionStatement, Edit.versionStatement, stretch h hkeyword.2]

lemma importStatement_alike (h : S.Rel s t) : S.Alike
    (fun a b => C.editLeft.importStatement a = C.editRight.importStatement b)
    (importStatement s) (importStatement t) := by
  refine Alike.weaken ((take_alike h).bind fun hkeyword h => ?_)
  refine (stringLiteral_alike h _).weaken.bind ?_
  rintro path _ s t rfl h
  rw [spanFrom_bind, spanFrom_bind]
  refine .pure ?_ h
  rw [Edit.importStatement, Edit.importStatement, stretch h hkeyword.2]
  rfl

lemma declarationFollows_alike (h : S.Rel s t) (hd : next s = .docstring) :
    S.Alike Eq (declarationFollows s) (declarationFollows t) := by
  rw [declarationFollows, declarationFollows, kindAhead_bind, kindAhead_bind, breaksAhead_bind,
    breaksAhead_bind, next_ahead_eq h, decide_eq_decide.2 (S.attached h hd)]
  exact .pure rfl h

lemma declarationBehind_alike {p q : Preamble} (hpreamble : C.SamePreamble p q) (h : S.Rel s t) :
    S.Alike (fun a b => C.editLeft.statement a = C.editRight.statement b)
      (declarationBehind p s) (declarationBehind q t) := by
  rw [declarationBehind, declarationBehind, kind_bind, kind_bind, next_eq h]
  cases next t with
  | keyword k =>
      cases k with
      | rule => exact (ruleDecl_alike hpreamble h).map (congrArg Statement.rule)
      | type => exact (typeDecl_alike hpreamble h).map (congrArg Statement.type)
      | proc => exact (procDecl_alike hpreamble h _).map (congrArg Statement.proc)
      | stream => exact (procDecl_alike hpreamble h _).map (congrArg Statement.stream)
      | _ => exact unexpected_alike h _
  | _ => exact unexpected_alike h _

lemma declaration_alike {d d' : Option Docstring}
    (hd : d.map C.editLeft.docstring = d'.map C.editRight.docstring) (h : S.Rel s t) :
    S.Alike (fun a b => C.editLeft.statement a = C.editRight.statement b)
      (declaration d s) (declaration d' t) := by
  have hstart := (S.token h).2
  by_cases hk : next t = .keyword .deprecated
  · rw [declaration, declaration, here_bind, here_bind, kind_bind, kind_bind, next_eq h,
      if_pos hk, if_pos hk]
    have hdeprecation := (deprecation_alike h).weaken.map (p := some) (q := some)
      (Q := fun a b => a.map C.editLeft.deprecation = b.map C.editRight.deprecation) (congrArg some)
    exact hdeprecation.bind fun he h => declarationBehind_alike ⟨hstart, hd, he⟩ h
  · rw [declaration_of_bare hk, declaration_of_bare (by rwa [next_eq h])]
    exact declarationBehind_alike ⟨hstart, hd, rfl⟩ h

lemma some_alike {x : Reader σ Statement} {y : Reader τ Statement}
    (h : S.Alike (fun a b => C.editLeft.statement a = C.editRight.statement b) (x s) (y t)) :
    S.Alike (Option.Rel fun a b => C.editLeft.statement a = C.editRight.statement b)
      ((some <$> x) s) ((some <$> y) t) := h.map .some

lemma statement_alike (h : S.Rel s t) : S.Alike
    (Option.Rel fun a b => C.editLeft.statement a = C.editRight.statement b)
    (statement s) (statement t) := by
  rw [statement, statement, kind_bind, kind_bind, next_eq h]
  split
  · exact .pure .none h
  split
  · exact some_alike ((versionStatement_alike h).map (congrArg Statement.version))
  split
  · exact some_alike ((importStatement_alike h).map (congrArg Statement.imports))
  split
  · exact some_alike ((comment_alike h).weaken.map (congrArg Statement.comment))
  split
  · next hd =>
      refine (declarationFollows_alike h ((next_eq h).trans hd)).bind ?_
      rintro follows _ s t rfl h
      cases follows
      · exact some_alike ((docstring_alike h).weaken.map (congrArg Statement.docstring))
      · refine (docstring_alike h).weaken.bind fun {d d' s t} hdocstring h => ?_
        have hsome : (some d).map C.editLeft.docstring = (some d').map C.editRight.docstring :=
          congrArg some hdocstring
        exact some_alike (declaration_alike hsome h)
  split
  · exact some_alike (declaration_alike rfl h)
  · exact unexpected_alike h _

/-- **Files on two supplies.**  The same schema is read but for places, or the same error is found
at the same word. -/
theorem schema_alike (h : S.Rel s t) : S.Alike
    (fun a b => C.editLeft.schema a = C.editRight.schema b) (schema s) (schema t) := by
  refine (many_alike statement_alike h).bind fun hstatements h => .pure ?_ h
  rw [Edit.schema, Edit.schema, map_eq_map hstatements]

end Simulation

end RpcSchema
