import RpcSchema.Proofs.Grammar.FieldCompleteness
import RpcSchema.Proofs.Grammar.Soundness

/-!
# Derived declarations and files are read

Completeness from bodies up to whole files.  The result is `schema_complete`: where the words up to the
end of the file are derived from a list of statements, these statements are read.
-/

namespace RpcSchema.Reader

open Grammar TokenSupply LawfulSupply

variable {σ : Type} [TokenSupply σ] [LawfulSupply σ] {s s' s₁ s₂ : σ} {w : Word} {ws : List Word}

/-! ## What declarations have in common -/

lemma deprecation_complete {d : Deprecation} (hd : DeprecationOf ws (some d)) (h : Took s ws s')
    (hnext : next s' ≠ .delimiter .leftParen) : deprecation s = .ok d s' := by
  cases hd with
  | bare hk =>
      rw [deprecation, bind_of_ok (take_complete h), bind_of_ok (takeMark?_of_not_next hnext),
        if_neg Bool.false_ne_true, spanFrom_bind, h.stretch_cons]
      rfl
  | reason hk kl km kr =>
      obtain ⟨s₁, hw, h₁⟩ := h.of_cons
      obtain ⟨s₂, hl, h₂⟩ := h₁.of_cons
      obtain ⟨s₃, hm, hr⟩ := h₂.of_cons
      rw [deprecation, bind_of_ok (take_complete hw), bind_of_ok (takeMark?_of_next hl kl),
        if_pos rfl, bind_of_ok (stringLiteral_complete hm km),
        bind_of_ok (expectMark_complete hr kr), spanFrom_bind, h.stretch_cons]
      rfl

section

variable {ι : Type} {items : Reader σ (List ι)} {inner : List Word → List ι → Prop}

lemma body_complete {opening closing : String} {is : List ι}
    (hitems : ∀ {s ws is s'}, inner ws is → Took s ws s' → next s' = .delimiter .rightBrace →
      items s = .ok is s')
    (hbody : Braced inner ws is) (h : Took s ws s') :
    body items opening closing s = .ok is s' := by
  cases hbody with
  | mk kl his kr =>
      obtain ⟨s₁, hl, h₁⟩ := h.of_cons
      obtain ⟨s₂, hws, hr⟩ := h₁.of_append
      rw [body, bind_of_ok (expectMark_complete hl kl),
        bind_of_ok (hitems his hws (hr.next_eq.trans kr)), bind_of_ok (expectMark_complete hr kr)]
      rfl

/-- A declaration is read behind the words up to its name, wherever its deprecation was read. -/
lemma declOf_complete {role : String} {ks : List Word} {docstring : Option Docstring}
    {d : Declaration ι}
    (hitems : ∀ {s ws is s'}, Braced inner ws is → Took s ws s' → items s = .ok is s')
    (hd : DeclOf ks docstring inner ws d) (h : Took s ws s') :
    ∃ ds deprecation s₁ s₂, DeprecationOf ds deprecation ∧ Took s ds s₁ ∧ Took s₁ ks s₂
      ∧ declared ⟨(peek s 0).span, docstring, deprecation⟩ role items s₂ = .ok d s' := by
  cases hd with
  | mk hdeprecation kn his =>
      obtain ⟨s₂, h₂, hdecl⟩ := h.of_append
      obtain ⟨s₁, hds, hks⟩ := h₂.of_append
      obtain ⟨s₃, hn, hws⟩ := hdecl.of_cons
      refine ⟨_, _, s₁, s₂, hdeprecation, hds, hks, ?_⟩
      rw [declared, bind_of_ok (identifier_complete hn kn), bind_of_ok (hitems his hws),
        spanFrom_bind, h.stretch_eq (by simp)]
      rfl

end

/-! ## Bodies -/

lemma typeClause_complete {keyword : Keyword} {role : String} {c : TypeClause}
    (hc : ClauseOf keyword ws c) (h : Took s ws s') (hnext : next s' ≠ .delimiter .leftBracket) :
    typeClause role s = .ok c s' := by
  cases hc with
  | mk kk km kt hbrackets =>
      obtain ⟨s₁, hk, h₁⟩ := h.of_cons
      obtain ⟨s₂, hm, h₂⟩ := h₁.of_cons
      obtain ⟨s₃, ht, hks⟩ := h₂.of_cons
      rw [typeClause, bind_of_ok (take_complete hk), bind_of_ok (expectMark_complete hm km),
        bind_of_ok (typeName_complete ht kt),
        bind_of_ok (arraySuffix_complete hbrackets hks hnext), spanFrom_bind, h.stretch_cons]
      rfl

lemma isComment_cases {k : Kind} (h : k.isComment) : k = .lineComment ∨ k = .blockComment := by
  cases k with
  | lineComment => exact Or.inl rfl
  | blockComment => exact Or.inr rfl
  | _ => cases h

lemma ruleItem_complete {item : RuleItem} (hitem : RuleItemOf ws item) (h : Took s ws s')
    (hnext : next s' ≠ .delimiter .leftBracket) : ruleItem s = .ok (some item) s' := by
  rw [ruleItem, kind_bind]
  cases hitem with
  | comment hk =>
      rw [← h.next_eq] at hk
      rcases isComment_cases hk with hk | hk <;> rw [hk]
      · exact (bind_of_ok (comment_complete h)).trans rfl
      · exact (bind_of_ok (comment_complete h)).trans rfl
  | target hc =>
      have hk : next s = .keyword .target := by
        cases hc with
        | mk kk _ _ _ => exact h.next_eq.trans kk
      rw [hk]
      exact (bind_of_ok (typeClause_complete hc h hnext)).trans rfl
  | param hc =>
      have hk : next s = .keyword .param := by
        cases hc with
        | mk kk _ _ _ => exact h.next_eq.trans kk
      rw [hk]
      exact (bind_of_ok (typeClause_complete hc h hnext)).trans rfl
  | error he =>
      have hk : next s = .keyword .error := by
        cases he with
        | mk kk _ _ => exact h.next_eq.trans kk
      rw [hk]
      exact (bind_of_ok (errorClause_complete he h)).trans rfl

lemma RuleItemOf.starts {item : RuleItem} (h : RuleItemOf ws item) :
    ∃ w vs, ws = w :: vs ∧ w.kind ≠ .delimiter .leftBracket := by
  cases h with
  | comment hk => exact ⟨_, _, rfl, (EndsField.of_isComment hk).1⟩
  | target hc =>
      cases hc with
      | mk kk _ _ _ => exact ⟨_, _, rfl, by simp [kk]⟩
  | param hc =>
      cases hc with
      | mk kk _ _ _ => exact ⟨_, _, rfl, by simp [kk]⟩
  | error he =>
      cases he with
      | mk kk _ _ => exact ⟨_, _, rfl, by simp [kk]⟩

lemma ruleItems_complete {items : List RuleItem} (hitems : Star RuleItemOf ws items)
    (h : Took s ws s') (hnext : next s' = .delimiter .rightBrace) :
    many ruleItem s = .ok items s' := by
  refine star_complete (· ≠ .delimiter .leftBracket) ruleItem_complete RuleItemOf.starts ?_ ?_ hitems h
  · rw [ruleItem, kind_bind, hnext]
    rfl
  · simp [hnext]

lemma metaItem_complete {item : MetaItem} (hitem : MetaItemOf ws item) (h : Took s ws s') :
    metaItem s = .ok (some item) s' := by
  rw [metaItem, kind_bind]
  cases hitem with
  | comment hk =>
      rw [← h.next_eq] at hk
      have hbrace : next s ≠ .delimiter .rightBrace := by
        rcases isComment_cases hk with hk | hk <;> simp [hk]
      rw [if_neg hbrace, if_pos hk, bind_of_ok (comment_complete h)]
      rfl
  | entry kk kc hl =>
      obtain ⟨s₁, hk, h₁⟩ := h.of_cons
      obtain ⟨s₂, hc, hv⟩ := h₁.of_cons
      rw [← h.next_eq] at kk
      have hfirst : next s ≠ .delimiter .rightBrace ∧ ¬ (next s).isComment := by
        rcases isName_cases kk with hk | ⟨_, hk⟩ <;> simp [hk, Kind.isComment]
      have hentry : metaEntry s = .ok ⟨_, _, _⟩ s' :=
        (bind_of_ok (name_complete hk)).trans ((bind_of_ok (expectMark_complete hc kc)).trans
          ((bind_of_ok (literal_complete hl hv)).trans rfl))
      rw [if_neg hfirst.1, if_neg hfirst.2, if_pos kk, bind_of_ok hentry]
      cases hl <;> rfl

lemma metaItems_complete {items : List MetaItem} (hitems : Star MetaItemOf ws items)
    (h : Took s ws s') (hnext : next s' = .delimiter .rightBrace) :
    many metaItem s = .ok items s' := by
  refine star_complete (fun _ => True) (fun ha hus _ => metaItem_complete ha hus)
    (fun ha => by cases ha <;> exact ⟨_, _, rfl, trivial⟩) ?_ trivial hitems h
  rw [metaItem, kind_bind, if_pos hnext]
  rfl

/-- A block is read behind its keyword, and its span is that of all its words. -/
lemma blockOf_complete {ι : Type} {keyword : Keyword} {items : Reader σ (List ι)}
    {inner : List Word → List ι → Prop} {opening closing : String} {b : Span × List ι}
    (hitems : ∀ {s ws is s'}, inner ws is → Took s ws s' → next s' = .delimiter .rightBrace →
      items s = .ok is s')
    (hb : BlockOf keyword inner ws b) (h : Took s ws s') :
    next s = .keyword keyword ∧ body items opening closing (advance s) = .ok b.2 s'
      ∧ { (peek s 0).span with stop := last s' } = b.1 := by
  cases hb with
  | mk kk his =>
      obtain ⟨s₁, hk, hws⟩ := h.of_cons
      rw [hk.advance_eq, h.peek_eq]
      exact ⟨h.next_eq.trans kk, body_complete hitems his hws, h.stretch_cons⟩

lemma fieldBlock_complete {keyword : Keyword} {b : FieldBlock}
    (hb : BlockOf keyword Fields ws (b.span, b.items)) (h : Took s ws s') :
    next s = .keyword keyword ∧ fieldBlock s = .ok b s' := by
  obtain ⟨hk, hbody, hspan⟩ := blockOf_complete fieldItems_complete hb h
  refine ⟨hk, ?_⟩
  rw [fieldBlock, take_bind, bind_of_ok hbody, spanFrom_bind, hspan]
  rfl

lemma metaBlock_complete {b : MetaBlock}
    (hb : BlockOf .metadata (Star MetaItemOf) ws (b.span, b.items)) (h : Took s ws s') :
    next s = .keyword .metadata ∧ metaBlock s = .ok b s' := by
  obtain ⟨hk, hbody, hspan⟩ := blockOf_complete metaItems_complete hb h
  refine ⟨hk, ?_⟩
  rw [metaBlock, take_bind, bind_of_ok hbody, spanFrom_bind, hspan]
  rfl

lemma procItem_complete {item : ProcItem} (hitem : ProcItemOf ws item) (h : Took s ws s') :
    procItem s = .ok (some item) s' := by
  rw [procItem, kind_bind]
  cases hitem with
  | comment hk =>
      rw [← h.next_eq] at hk
      rcases isComment_cases hk with hk | hk <;> rw [hk]
      · exact (bind_of_ok (comment_complete h)).trans rfl
      · exact (bind_of_ok (comment_complete h)).trans rfl
  | input hb =>
      obtain ⟨hk, hb⟩ := fieldBlock_complete hb h
      rw [hk]
      exact (bind_of_ok hb).trans rfl
  | output hb =>
      obtain ⟨hk, hb⟩ := fieldBlock_complete hb h
      rw [hk]
      exact (bind_of_ok hb).trans rfl
  | metadata hb =>
      obtain ⟨hk, hb⟩ := metaBlock_complete hb h
      rw [hk]
      exact (bind_of_ok hb).trans rfl

lemma BlockOf.starts {ι : Type} {keyword : Keyword} {items : List Word → List ι → Prop}
    {b : Span × List ι} (h : BlockOf keyword items ws b) : ∃ w vs, ws = w :: vs := by
  cases h
  exact ⟨_, _, rfl⟩

lemma ProcItemOf.starts {item : ProcItem} (h : ProcItemOf ws item) : ∃ w vs, ws = w :: vs := by
  cases h with
  | comment _ => exact ⟨_, _, rfl⟩
  | input hb => exact BlockOf.starts hb
  | output hb => exact BlockOf.starts hb
  | metadata hb => exact BlockOf.starts hb

lemma procItems_complete {items : List ProcItem} (hitems : Star ProcItemOf ws items)
    (h : Took s ws s') (hnext : next s' = .delimiter .rightBrace) :
    many procItem s = .ok items s' := by
  refine star_complete (fun _ => True) (fun ha hus _ => procItem_complete ha hus) ?_ ?_ trivial
    hitems h
  · intro us a ha
    obtain ⟨w, vs, hus⟩ := ProcItemOf.starts ha
    exact ⟨w, vs, hus, trivial⟩
  · rw [procItem, kind_bind, hnext]
    rfl

/-! ## Declarations -/

/-- A deprecation, or none, is read in front of a keyword of a declaration. -/
lemma declaration_eq {ds : List Word} {docstring : Option Docstring}
    {deprecation : Option Deprecation} {k : Keyword} (hdeprecation : DeprecationOf ds deprecation)
    (hds : Took s ds s₁) (hk : next s₁ = .keyword k) (hne : k ≠ .deprecated) :
    declaration docstring s
      = declarationBehind ⟨(peek s 0).span, docstring, deprecation⟩ s₁ := by
  cases deprecation with
  | none =>
      cases hdeprecation
      cases hds
      refine declaration_of_bare ?_
      rw [hk]
      exact fun hc => hne (Kind.keyword.inj hc)
  | some d =>
      have hfirst : next s = .keyword .deprecated := by
        cases hdeprecation with
        | bare kw => exact hds.next_eq.trans kw
        | reason kw _ _ _ => exact hds.next_eq.trans kw
      exact declaration_of_deprecated hfirst
        (deprecation_complete hdeprecation hds (by simp [hk]))

/-- A procedure or stream is read from its keyword on. -/
lemma procDecl_complete {preamble : Preamble} {role : String} {d : ProcDecl}
    (hw : Took s [w] s₁)
    (h : declared preamble role
      (body (many procItem) "to open declaration body" "to close declaration body") s₁ = .ok d s') :
    procDecl preamble role s = .ok d s' := by
  rw [procDecl, bind_of_ok (take_complete hw), h]

lemma declaration_complete {docstring : Option Docstring} {d : Statement}
    (hd : DeclarationOf docstring ws d) (h : Took s ws s') :
    declaration docstring s = .ok d s' := by
  cases hd with
  | rule kk km hd =>
      obtain ⟨ds, deprecation, s₁, s₂, hdeprecation, hds, hks, hdecl⟩ :=
        declOf_complete (body_complete ruleItems_complete) hd h
      obtain ⟨s₃, hk, hm⟩ := hks.of_cons
      rw [declaration_eq hdeprecation hds (hk.next_eq.trans kk) (by simp), declarationBehind, kind_bind,
        hk.next_eq, kk]
      refine map_of_ok ?_
      rw [ruleDecl, bind_of_ok (take_complete hk), bind_of_ok (expectMark_complete hm km), hdecl]
  | type kk hd =>
      obtain ⟨ds, deprecation, s₁, s₂, hdeprecation, hds, hk, hdecl⟩ :=
        declOf_complete (body_complete fieldItems_complete) hd h
      rw [declaration_eq hdeprecation hds (hk.next_eq.trans kk) (by simp), declarationBehind, kind_bind,
        hk.next_eq, kk]
      refine map_of_ok ?_
      rw [typeDecl, bind_of_ok (take_complete hk), hdecl]
  | proc kk hd =>
      obtain ⟨ds, deprecation, s₁, s₂, hdeprecation, hds, hk, hdecl⟩ :=
        declOf_complete (body_complete procItems_complete) hd h
      rw [declaration_eq hdeprecation hds (hk.next_eq.trans kk) (by simp), declarationBehind, kind_bind,
        hk.next_eq, kk]
      exact map_of_ok (procDecl_complete hk hdecl)
  | stream kk hd =>
      obtain ⟨ds, deprecation, s₁, s₂, hdeprecation, hds, hk, hdecl⟩ :=
        declOf_complete (body_complete procItems_complete) hd h
      rw [declaration_eq hdeprecation hds (hk.next_eq.trans kk) (by simp), declarationBehind, kind_bind,
        hk.next_eq, kk]
      exact map_of_ok (procDecl_complete hk hdecl)

/-! ## Files -/

lemma DeclarationOf.starts {docstring : Option Docstring} {d : Statement}
    (h : DeclarationOf docstring ws d) :
    ∃ w vs, ws = w :: vs ∧ ∃ k, w.kind = .keyword k ∧ w.kind.startsDeclaration := by
  have key : ∀ {ι : Type} {k : Word} {ks ws : List Word} {inner : List Word → List ι → Prop}
      {d : Declaration ι}, DeclOf (k :: ks) docstring inner ws d →
      (∃ keyword, k.kind = .keyword keyword ∧ k.kind.startsDeclaration) →
      ∃ w vs, ws = w :: vs ∧ ∃ k, w.kind = .keyword k ∧ w.kind.startsDeclaration := by
    intro ι k ks ws inner d hd hk
    cases hd with
    | mk hdeprecation _ _ =>
        cases hdeprecation with
        | absent => exact ⟨_, _, rfl, hk⟩
        | bare kw => exact ⟨_, _, rfl, _, kw, by rw [kw]; rfl⟩
        | reason kw _ _ _ => exact ⟨_, _, rfl, _, kw, by rw [kw]; rfl⟩
  cases h with
  | rule kk _ hd => exact key hd ⟨_, kk, by rw [kk]; rfl⟩
  | type kk hd => exact key hd ⟨_, kk, by rw [kk]; rfl⟩
  | proc kk hd => exact key hd ⟨_, kk, by rw [kk]; rfl⟩
  | stream kk hd => exact key hd ⟨_, kk, by rw [kk]; rfl⟩

lemma versionStatement_complete {k n : Word} (kn : n.kind = .integer)
    (hlt : n.number < Decimal.integerBound) (h : Took s [k, n] s') :
    versionStatement s = .ok ⟨Word.stretch [k, n], n.number⟩ s' := by
  obtain ⟨s₁, hk, hn⟩ := h.of_cons
  rw [versionStatement, bind_of_ok (take_complete hk), bind_of_ok (expect_complete hn kn),
    bind_of_ok (natural_of_lt hlt), spanFrom_bind, h.stretch_cons]
  rfl

lemma importStatement_complete {k p : Word} (kp : p.kind = .string) (h : Took s [k, p] s') :
    importStatement s = .ok ⟨Word.stretch [k, p], p.value⟩ s' := by
  obtain ⟨s₁, hk, hp⟩ := h.of_cons
  rw [importStatement, bind_of_ok (take_complete hk), bind_of_ok (stringLiteral_complete hp kp),
    spanFrom_bind, h.stretch_cons]
  rfl

lemma declarationFollows_run (hw : Took s [w] s₁) : declarationFollows s
    = .ok ((next s₁).startsDeclaration && decide ((peek s₁ 0).breaks < 2)) s := by
  rw [declarationFollows, kindAhead_bind, breaksAhead_bind, hw.peek_one_eq]
  rfl

/-- What begins a declaration begins no other statement. -/
lemma startsDeclaration_ne {k : Kind} (h : k.startsDeclaration) :
    k ≠ .endOfFile ∧ k ≠ .keyword .version ∧ k ≠ .keyword .imports ∧ ¬ k.isComment
      ∧ k ≠ .docstring := by
  refine ⟨?_, ?_, ?_, ?_, ?_⟩
  · rintro rfl; cases h
  · rintro rfl; cases h
  · rintro rfl; cases h
  · intro hc
    rcases isComment_cases hc with rfl | rfl <;> cases h
  · rintro rfl; cases h

lemma statement_complete {behind : List Word} {st : Statement} (hst : StatementOf behind ws st)
    (h : Took s ws s₁) (hbehind : Took s₁ behind s₂) (hend : next s₂ = .endOfFile) :
    statement s = .ok (some st) s₁ := by
  rw [statement, kind_bind]
  cases hst with
  | version kk kn hlt =>
      rw [h.next_eq, kk, if_neg (by simp), if_pos rfl]
      exact map_of_ok (map_of_ok (versionStatement_complete kn hlt h))
  | imports kk kp =>
      rw [h.next_eq, kk, if_neg (by simp), if_neg (by simp), if_pos rfl]
      exact map_of_ok (map_of_ok (importStatement_complete kp h))
  | comment hk =>
      have hfirst : next s ≠ .endOfFile ∧ next s ≠ .keyword .version
          ∧ next s ≠ .keyword .imports := by
        rw [h.next_eq]
        rcases isComment_cases hk with hk | hk <;> simp [hk]
      rw [if_neg hfirst.1, if_neg hfirst.2.1, if_neg hfirst.2.2,
        if_pos (by rw [h.next_eq]; exact hk)]
      exact map_of_ok (map_of_ok (comment_complete h))
  | docstring hk hattached =>
      have hfollows := not_follows_of_not_attaches hattached hbehind (by rw [hend]; rfl)
      rw [h.next_eq, hk, if_neg (by simp), if_neg (by simp), if_neg (by simp),
        if_neg (by simp [Kind.isComment]), if_pos rfl,
        bind_of_ok (declarationFollows_run h), hfollows, if_neg Bool.false_ne_true]
      exact map_of_ok (map_of_ok (docstring_complete h))
  | declaration hd =>
      obtain ⟨w, vs, rfl, _, _, hstarts⟩ := DeclarationOf.starts hd
      rw [← h.next_eq] at hstarts
      obtain ⟨hne₁, hne₂, hne₃, hne₄, hne₅⟩ := startsDeclaration_ne hstarts
      rw [if_neg hne₁, if_neg hne₂, if_neg hne₃, if_neg hne₄, if_neg hne₅, if_pos hstarts]
      exact map_of_ok (declaration_complete hd h)
  | documented hk hattached hd =>
      obtain ⟨s₃, hw, hus⟩ := h.of_cons
      have hfollows := follows_of_attaches hattached hus
      rw [h.next_eq, hk, if_neg (by simp), if_neg (by simp), if_neg (by simp),
        if_neg (by simp [Kind.isComment]), if_pos rfl,
        bind_of_ok (declarationFollows_run hw), hfollows, if_pos rfl,
        bind_of_ok (docstring_complete hw)]
      exact map_of_ok (declaration_complete hd hus)

lemma StatementOf.starts {behind : List Word} {st : Statement} (h : StatementOf behind ws st) :
    ∃ w vs, ws = w :: vs := by
  cases h with
  | declaration hd =>
      obtain ⟨w, vs, hws, _⟩ := DeclarationOf.starts hd
      exact ⟨w, vs, hws⟩
  | _ => exact ⟨_, _, rfl⟩

/-- **What is derived is read.**  Where the words up to the end of the file are derived from a list of
statements, these are the statements that are read. -/
theorem schema_complete {statements : List Statement} (hst : Statements ws statements)
    (h : Took s ws s') (hend : next s' = .endOfFile) :
    Reader.schema s = .ok ⟨statements⟩ s' := by
  have hmany : many statement s = .ok statements s' := by
    refine many_complete (fun _ => True) ?_ ?_ ?_ trivial hst h (Nat.le_refl _)
    · intro behind us st s s₁ _ hst hus hbehind _
      exact statement_complete hst hus hbehind hend
    · intro behind us st hst
      obtain ⟨w, vs, hus⟩ := StatementOf.starts hst
      exact ⟨w, vs, hus, trivial⟩
    · rw [statement, kind_bind, if_pos hend]
      rfl
  rw [Reader.schema, bind_of_ok hmany]
  rfl

end RpcSchema.Reader
