import RpcSchema.Proofs.Grammar.FieldSoundness

/-!
# What readers of declarations and files answer is derived

Soundness from bodies up to whole files.  What all declarations have in common is in `body_sound` and
`declOf_sound`; the result is `schema_sound`: the statements that are read from a supply are derived from
the words that were taken, and the supply is at the end of its file.
-/

namespace RpcSchema.Reader

open Grammar TokenSupply LawfulSupply

variable {σ : Type} [TokenSupply σ] {s s' : σ}

/-- What is read of a declaration behind its deprecation. -/
def declarationBehind (preamble : Preamble) : Reader σ Statement := do
  match ← kind with
  | .keyword .rule => .rule <$> ruleDecl preamble
  | .keyword .type => .type <$> typeDecl preamble
  | .keyword .proc => .proc <$> procDecl preamble "as proc name"
  | .keyword .stream => .stream <$> procDecl preamble "as stream name"
  | _ => unexpected "`rule`, `type`, `proc` or `stream`"

lemma declaration_of_deprecated {docstring : Option Docstring} {d : Deprecation}
    (hk : next s = .keyword .deprecated) (h : deprecation s = .ok d s') :
    declaration docstring s = declarationBehind ⟨(peek s 0).span, docstring, some d⟩ s' := by
  rw [declaration, here_bind, kind_bind, if_pos hk]
  exact bind_of_ok (map_of_ok h)

lemma declaration_of_bare {docstring : Option Docstring} (hk : next s ≠ .keyword .deprecated) :
    declaration docstring s = declarationBehind ⟨(peek s 0).span, docstring, none⟩ s := by
  rw [declaration, here_bind, kind_bind, if_neg hk]
  rfl

/-! ## Where repetitions stop -/

lemma ruleItem_none (h : ruleItem s = .ok none s') : s = s' := by
  rw [ruleItem, kind_bind] at h
  generalize next s = k at h
  split at h
  · cases h
    rfl
  · cases h
  · cases h
  · obtain ⟨_, _, _, h⟩ := of_bind_ok h
    cases h
  · obtain ⟨_, _, _, h⟩ := of_bind_ok h
    cases h
  · obtain ⟨_, _, _, h⟩ := of_bind_ok h
    cases h
  · exact absurd h unexpected_ne_ok

lemma metaItem_none (h : metaItem s = .ok none s') : s = s' := by
  rw [metaItem, kind_bind] at h
  split at h
  · cases h
    rfl
  · split at h
    · cases h
    · split at h
      · obtain ⟨_, _, _, h⟩ := of_bind_ok h
        cases h
      · exact absurd h unexpected_ne_ok

lemma procItem_none (h : procItem s = .ok none s') : s = s' := by
  rw [procItem, kind_bind] at h
  generalize next s = k at h
  split at h
  · cases h
    rfl
  · cases h
  · cases h
  · obtain ⟨_, _, _, h⟩ := of_bind_ok h
    cases h
  · obtain ⟨_, _, _, h⟩ := of_bind_ok h
    cases h
  · obtain ⟨_, _, _, h⟩ := of_bind_ok h
    cases h
  · exact absurd h unexpected_ne_ok

lemma statement_none (h : statement s = .ok none s') : s = s' ∧ next s = .endOfFile := by
  rw [statement, kind_bind] at h
  split at h
  · next hk =>
      cases h
      exact ⟨rfl, hk⟩
  · split at h
    · obtain ⟨_, _, hs⟩ := of_map_ok h
      cases hs
    · split at h
      · obtain ⟨_, _, hs⟩ := of_map_ok h
        cases hs
      · split at h
        · obtain ⟨_, _, hs⟩ := of_map_ok h
          cases hs
        · split at h
          · obtain ⟨_, _, _, h⟩ := of_bind_ok h
            split at h
            · obtain ⟨_, _, _, h⟩ := of_bind_ok h
              obtain ⟨_, _, hs⟩ := of_map_ok h
              cases hs
            · obtain ⟨_, _, hs⟩ := of_map_ok h
              cases hs
          · split at h
            · obtain ⟨_, _, hs⟩ := of_map_ok h
              cases hs
            · exact absurd h unexpected_ne_ok

variable [LawfulSupply σ]

/-- Taking the next word, whose kind is known. -/
lemma took_next {k : Kind} (hs : Ready s) (hk : next s = k) (hne : k ≠ .endOfFile) :
    Took s [peek s 0] (advance s) :=
  .one hs (hk ▸ hne)

/-! ## What declarations have in common -/

lemma deprecation_sound {d : Deprecation} (hs : Ready s) (hk : next s = .keyword .deprecated)
    (h : deprecation s = .ok d s') :
    ∃ ws, Took s ws s' ∧ ws ≠ [] ∧ DeprecationOf ws (some d) := by
  rw [deprecation, take_bind] at h
  have hw := took_next hs hk nofun
  obtain ⟨_, s₂, h₂, h⟩ := of_bind_ok h
  rcases takeMark?_sound hw.ready_behind h₂ with ⟨rfl, l, hl, kl⟩ | ⟨rfl, rfl, _⟩
  · rw [if_pos rfl] at h
    obtain ⟨_, s₃, h₃, h⟩ := of_bind_ok h
    obtain ⟨m, hm, km, rfl⟩ := stringLiteral_sound hl.ready_behind h₃
    obtain ⟨_, s₄, h₄, h⟩ := of_bind_ok h
    obtain ⟨r, hr, kr, _⟩ := expectMark_sound hm.ready_behind h₄
    have ht : Took s [peek s 0, l, m, r] s₄ := hw.append (hl.append (hm.append hr))
    cases h
    refine ⟨_, ht, nofun, ?_⟩
    rw [ht.stretch_cons]
    exact .reason hk kl km kr
  · cases h
    refine ⟨_, hw, nofun, ?_⟩
    rw [hw.stretch_cons]
    exact .bare hk

lemma body_sound {ι : Type} {items : Reader σ (List ι)} {inner : List Word → List ι → Prop}
    {opening closing : String} {is : List ι}
    (hitems : ∀ {s is s'}, Ready s → items s = .ok is s' → ∃ ws, Took s ws s' ∧ inner ws is)
    (hs : Ready s) (h : body items opening closing s = .ok is s') :
    ∃ ws, Took s ws s' ∧ Braced inner ws is := by
  rw [body] at h
  obtain ⟨_, s₁, h₁, h⟩ := of_bind_ok h
  obtain ⟨l, hl, kl, _⟩ := expectMark_sound hs h₁
  obtain ⟨_, s₂, h₂, h⟩ := of_bind_ok h
  obtain ⟨ws, hws, his⟩ := hitems hl.ready_behind h₂
  obtain ⟨_, s₃, h₃, h⟩ := of_bind_ok h
  obtain ⟨r, hr, kr, _⟩ := expectMark_sound hws.ready_behind h₃
  cases h
  exact ⟨_, (hl.append hws).append hr, .mk kl his kr⟩

/-- A declaration, from the words of its deprecation, those up to its name, and what is read from its
name on. -/
lemma declOf_sound {ι : Type} {items : Reader σ (List ι)} {inner : List Word → List ι → Prop}
    {docstring : Option Docstring} {deprecation : Option Deprecation} {role : String}
    {d : Declaration ι} {s₁ s₂ s₃ : σ} {ds ks : List Word}
    (hitems : ∀ {s is s'}, Ready s → items s = .ok is s' → ∃ ws, Took s ws s' ∧ Braced inner ws is)
    (hds : Took s ds s₁) (hdeprecation : DeprecationOf ds deprecation) (hks : Took s₁ ks s₂)
    (h : declared ⟨(peek s 0).span, docstring, deprecation⟩ role items s₂ = .ok d s₃) :
    ∃ ws, Took s ws s₃ ∧ DeclOf ks docstring inner ws d := by
  rw [declared] at h
  obtain ⟨_, s₄, h₄, h⟩ := of_bind_ok h
  obtain ⟨n, hn, kn, rfl⟩ := identifier_sound hks.ready_behind h₄
  obtain ⟨is, s₅, h₅, h⟩ := of_bind_ok h
  obtain ⟨ws, hws, his⟩ := hitems hn.ready_behind h₅
  have ht : Took s (ds ++ ks ++ n :: ws) s₅ := (hds.append hks).append (hn.append hws)
  cases h
  refine ⟨_, ht, ?_⟩
  rw [ht.stretch_eq (by simp)]
  exact .mk hdeprecation kn his

/-! ## Bodies -/

lemma typeClause_sound {keyword : Keyword} {role : String} {c : TypeClause} (hs : Ready s)
    (hk : next s = .keyword keyword) (h : typeClause role s = .ok c s') :
    ∃ ws, Took s ws s' ∧ ws ≠ [] ∧ ClauseOf keyword ws c := by
  rw [typeClause, take_bind] at h
  have hw := took_next hs hk nofun
  obtain ⟨_, s₁, h₁, h⟩ := of_bind_ok h
  obtain ⟨m, hm, km, _⟩ := expectMark_sound hw.ready_behind h₁
  obtain ⟨_, s₂, h₂, h⟩ := of_bind_ok h
  obtain ⟨t, ht, kt, rfl⟩ := typeName_sound hm.ready_behind h₂
  obtain ⟨isArray, s₃, h₃, h⟩ := of_bind_ok h
  obtain ⟨ws, hws, hbrackets⟩ := arraySuffix_sound ht.ready_behind h₃
  have htook : Took s (peek s 0 :: m :: t :: ws) s₃ := hw.append (hm.append (ht.append hws))
  cases h
  refine ⟨_, htook, nofun, ?_⟩
  rw [htook.stretch_cons]
  exact .mk hk km kt hbrackets

lemma ruleItem_some {item : RuleItem} (hs : Ready s) (h : ruleItem s = .ok (some item) s') :
    ∃ ws, Took s ws s' ∧ ws ≠ [] ∧ RuleItemOf ws item := by
  rw [ruleItem, kind_bind] at h
  generalize hk : next s = k at h
  split at h
  · cases h
  · cases h
    exact ⟨_, took_next hs hk nofun, nofun, .comment (congrArg Kind.isComment hk)⟩
  · cases h
    exact ⟨_, took_next hs hk nofun, nofun, .comment (congrArg Kind.isComment hk)⟩
  · obtain ⟨c, s₁, h₁, h⟩ := of_bind_ok h
    obtain ⟨ws, hws, hne, hc⟩ := typeClause_sound hs hk h₁
    cases h
    exact ⟨ws, hws, hne, .target hc⟩
  · obtain ⟨c, s₁, h₁, h⟩ := of_bind_ok h
    obtain ⟨ws, hws, hne, hc⟩ := typeClause_sound hs hk h₁
    cases h
    exact ⟨ws, hws, hne, .param hc⟩
  · obtain ⟨e, s₁, h₁, h⟩ := of_bind_ok h
    obtain ⟨ws, hws, he⟩ := errorClause_sound hs h₁
    cases h
    exact ⟨ws, hws, by cases he; nofun, .error he⟩
  · exact absurd h unexpected_ne_ok

lemma metaItem_some {item : MetaItem} (hs : Ready s) (h : metaItem s = .ok (some item) s') :
    ∃ ws, Took s ws s' ∧ ws ≠ [] ∧ MetaItemOf ws item := by
  rw [metaItem, kind_bind] at h
  split at h
  · cases h
  · split at h
    · next hk =>
        cases h
        exact ⟨_, .one hs (isComment_ne_end hk), nofun, .comment hk⟩
    · split at h
      · next hk =>
          obtain ⟨e, s₁, h₁, h⟩ := of_bind_ok h
          rw [metaEntry, bind_of_ok name_run] at h₁
          have hn : Took s [peek s 0] (advance s) := .one hs (isName_ne_end hk)
          obtain ⟨_, s₂, h₂, h₁⟩ := of_bind_ok h₁
          obtain ⟨c, hc, kc, _⟩ := expectMark_sound hn.ready_behind h₂
          obtain ⟨l, s₃, h₃, h₁⟩ := of_bind_ok h₁
          obtain ⟨v, hv, hl⟩ := literal_sound hc.ready_behind h₃
          have hspan : (peek s 0).name.span.through l.span
              = Word.stretch [peek s 0, c, v] := by
            cases hl <;> rfl
          cases h₁
          cases h
          refine ⟨_, hn.append (hc.append hv), nofun, ?_⟩
          rw [hspan]
          exact .entry hk kc hl
      · exact absurd h unexpected_ne_ok

/-- A block, from its keyword and what is read behind it. -/
lemma blockOf_sound {ι : Type} {keyword : Keyword} {items : Reader σ (List ι)}
    {inner : List Word → List ι → Prop} {opening closing : String} {is : List ι}
    (hitems : ∀ {s is s'}, Ready s → items s = .ok is s' → ∃ ws, Took s ws s' ∧ inner ws is)
    (hs : Ready s) (hk : next s = .keyword keyword)
    (h : body items opening closing (advance s) = .ok is s') :
    ∃ ws, Took s ws s' ∧ ws ≠ []
      ∧ BlockOf keyword inner ws ({ (peek s 0).span with stop := last s' }, is) := by
  have hw := took_next hs hk nofun
  obtain ⟨ws, hws, his⟩ := body_sound hitems hw.ready_behind h
  have ht : Took s (peek s 0 :: ws) s' := hw.append hws
  refine ⟨_, ht, nofun, ?_⟩
  rw [ht.stretch_cons]
  exact .mk hk his

lemma fieldBlock_sound {keyword : Keyword} {b : FieldBlock} (hs : Ready s)
    (hk : next s = .keyword keyword) (h : fieldBlock s = .ok b s') :
    ∃ ws, Took s ws s' ∧ ws ≠ [] ∧ BlockOf keyword Fields ws (b.span, b.items) := by
  rw [fieldBlock, take_bind] at h
  obtain ⟨is, s₁, h₁, h⟩ := of_bind_ok h
  cases h
  exact blockOf_sound fieldItems_sound hs hk h₁

lemma metaBlock_sound {b : MetaBlock} (hs : Ready s) (hk : next s = .keyword .metadata)
    (h : metaBlock s = .ok b s') :
    ∃ ws, Took s ws s' ∧ ws ≠ []
      ∧ BlockOf .metadata (Star MetaItemOf) ws (b.span, b.items) := by
  rw [metaBlock, take_bind] at h
  obtain ⟨is, s₁, h₁, h⟩ := of_bind_ok h
  cases h
  exact blockOf_sound (star_sound metaItem_some metaItem_none) hs hk h₁

lemma procItem_some {item : ProcItem} (hs : Ready s) (h : procItem s = .ok (some item) s') :
    ∃ ws, Took s ws s' ∧ ws ≠ [] ∧ ProcItemOf ws item := by
  rw [procItem, kind_bind] at h
  generalize hk : next s = k at h
  split at h
  · cases h
  · cases h
    exact ⟨_, took_next hs hk nofun, nofun, .comment (congrArg Kind.isComment hk)⟩
  · cases h
    exact ⟨_, took_next hs hk nofun, nofun, .comment (congrArg Kind.isComment hk)⟩
  · obtain ⟨b, s₁, h₁, h⟩ := of_bind_ok h
    obtain ⟨ws, hws, hne, hb⟩ := fieldBlock_sound hs hk h₁
    cases h
    exact ⟨ws, hws, hne, .input hb⟩
  · obtain ⟨b, s₁, h₁, h⟩ := of_bind_ok h
    obtain ⟨ws, hws, hne, hb⟩ := fieldBlock_sound hs hk h₁
    cases h
    exact ⟨ws, hws, hne, .output hb⟩
  · obtain ⟨b, s₁, h₁, h⟩ := of_bind_ok h
    obtain ⟨ws, hws, hne, hb⟩ := metaBlock_sound hs hk h₁
    cases h
    exact ⟨ws, hws, hne, .metadata hb⟩
  · exact absurd h unexpected_ne_ok

/-! ## Declarations -/

section

variable {docstring : Option Docstring} {deprecation : Option Deprecation} {ds : List Word}
  {s₁ : σ}

lemma ruleDecl_sound {d : RuleDecl} (hds : Took s ds s₁) (hdeprecation : DeprecationOf ds deprecation)
    (hk : next s₁ = .keyword .rule)
    (h : ruleDecl ⟨(peek s 0).span, docstring, deprecation⟩ s₁ = .ok d s') :
    ∃ ws, Took s ws s' ∧ DeclarationOf docstring ws (.rule d) := by
  rw [ruleDecl, take_bind] at h
  have hw := took_next hds.ready_behind hk nofun
  obtain ⟨_, s₂, h₂, h⟩ := of_bind_ok h
  obtain ⟨m, hm, km, _⟩ := expectMark_sound hw.ready_behind h₂
  obtain ⟨ws, hws, hd⟩ := declOf_sound (body_sound (star_sound ruleItem_some ruleItem_none)) hds
    hdeprecation (hw.append hm) h
  exact ⟨ws, hws, .rule hk km hd⟩

lemma typeDecl_sound {d : TypeDecl} (hds : Took s ds s₁) (hdeprecation : DeprecationOf ds deprecation)
    (hk : next s₁ = .keyword .type)
    (h : typeDecl ⟨(peek s 0).span, docstring, deprecation⟩ s₁ = .ok d s') :
    ∃ ws, Took s ws s' ∧ DeclarationOf docstring ws (.type d) := by
  rw [typeDecl, take_bind] at h
  have hw := took_next hds.ready_behind hk nofun
  obtain ⟨ws, hws, hd⟩ := declOf_sound (body_sound fieldItems_sound) hds hdeprecation hw h
  exact ⟨ws, hws, .type hk hd⟩

/-- Procedures and streams differ in their keyword only. -/
lemma procDecl_sound {keyword : Keyword} {role : String} {d : ProcDecl} (hds : Took s ds s₁)
    (hdeprecation : DeprecationOf ds deprecation) (hk : next s₁ = .keyword keyword)
    (h : procDecl ⟨(peek s 0).span, docstring, deprecation⟩ role s₁ = .ok d s') :
    ∃ k ws, Took s ws s' ∧ k.kind = .keyword keyword
      ∧ DeclOf [k] docstring (Star ProcItemOf) ws d := by
  rw [procDecl, take_bind] at h
  have hw := took_next hds.ready_behind hk nofun
  obtain ⟨ws, hws, hd⟩ := declOf_sound (body_sound (star_sound procItem_some procItem_none)) hds
    hdeprecation hw h
  exact ⟨_, ws, hws, hk, hd⟩

end

lemma declaration_sound {docstring : Option Docstring} {d : Statement} (hs : Ready s)
    (h : declaration docstring s = .ok d s') :
    ∃ ws, Took s ws s' ∧ DeclarationOf docstring ws d := by
  have key : ∃ ds deprecation s₁, Took s ds s₁ ∧ DeprecationOf ds deprecation
      ∧ declarationBehind ⟨(peek s 0).span, docstring, deprecation⟩ s₁ = .ok d s' := by
    by_cases hk : next s = .keyword .deprecated
    · rw [declaration, here_bind, kind_bind, if_pos hk] at h
      obtain ⟨_, s₁, h₁, h⟩ := of_bind_ok h
      obtain ⟨_, hd, rfl⟩ := of_map_ok h₁
      obtain ⟨ds, hds, _, hdeprecation⟩ := deprecation_sound hs hk hd
      exact ⟨ds, _, s₁, hds, hdeprecation, h⟩
    · rw [declaration_of_bare hk] at h
      exact ⟨[], none, s, .nil hs, .absent, h⟩
  obtain ⟨ds, deprecation, s₁, hds, hdeprecation, h⟩ := key
  rw [declarationBehind, kind_bind] at h
  generalize hk : next s₁ = k at h
  split at h
  · obtain ⟨_, hrule, rfl⟩ := of_map_ok h
    exact ruleDecl_sound hds hdeprecation hk hrule
  · obtain ⟨_, htype, rfl⟩ := of_map_ok h
    exact typeDecl_sound hds hdeprecation hk htype
  · obtain ⟨_, hproc, rfl⟩ := of_map_ok h
    obtain ⟨_, ws, hws, kk, hd⟩ := procDecl_sound hds hdeprecation hk hproc
    exact ⟨ws, hws, .proc kk hd⟩
  · obtain ⟨_, hproc, rfl⟩ := of_map_ok h
    obtain ⟨_, ws, hws, kk, hd⟩ := procDecl_sound hds hdeprecation hk hproc
    exact ⟨ws, hws, .stream kk hd⟩
  · exact absurd h unexpected_ne_ok

/-! ## Files -/

lemma versionStatement_sound {v : VersionStatement} (hs : Ready s)
    (hk : next s = .keyword .version) (h : versionStatement s = .ok v s') :
    ∃ ws, Took s ws s' ∧ ws ≠ [] ∧ ∀ behind, StatementOf behind ws (.version v) := by
  rw [versionStatement, take_bind] at h
  have hw := took_next hs hk nofun
  obtain ⟨_, s₁, h₁, h⟩ := of_bind_ok h
  obtain ⟨n, hn, kn, rfl⟩ := expect_sound hw.ready_behind h₁ nofun
  obtain ⟨_, s₂, h₂, h⟩ := of_bind_ok h
  obtain ⟨rfl, rfl, hlt⟩ := of_natural_ok h₂
  have ht : Took s [peek s 0, n] s₁ := hw.append hn
  cases h
  refine ⟨_, ht, nofun, fun behind => ?_⟩
  rw [ht.stretch_cons]
  exact .version hk kn hlt

lemma importStatement_sound {i : ImportStatement} (hs : Ready s)
    (hk : next s = .keyword .imports) (h : importStatement s = .ok i s') :
    ∃ ws, Took s ws s' ∧ ws ≠ [] ∧ ∀ behind, StatementOf behind ws (.imports i) := by
  rw [importStatement, take_bind] at h
  have hw := took_next hs hk nofun
  obtain ⟨_, s₁, h₁, h⟩ := of_bind_ok h
  obtain ⟨p, hp, kp, rfl⟩ := stringLiteral_sound hw.ready_behind h₁
  have ht : Took s [peek s 0, p] s₁ := hw.append hp
  cases h
  refine ⟨_, ht, nofun, fun behind => ?_⟩
  rw [ht.stretch_cons]
  exact .imports hk kp

lemma statement_some {st : Statement} (hs : Ready s) (h : statement s = .ok (some st) s') :
    ∃ ws, Took s ws s' ∧ ws ≠ []
      ∧ ∀ {behind s₂}, Took s' behind s₂ → StatementOf behind ws st := by
  rw [statement, kind_bind] at h
  split at h
  · cases h
  · split at h
    · next hk =>
        obtain ⟨_, h₁, hst⟩ := of_map_ok h
        obtain ⟨v, h₂, rfl⟩ := of_map_ok h₁
        cases hst
        obtain ⟨ws, hws, hne, hv⟩ := versionStatement_sound hs hk h₂
        exact ⟨ws, hws, hne, fun _ => hv _⟩
    · split at h
      · next hk =>
          obtain ⟨_, h₁, hst⟩ := of_map_ok h
          obtain ⟨i, h₂, rfl⟩ := of_map_ok h₁
          cases hst
          obtain ⟨ws, hws, hne, hi⟩ := importStatement_sound hs hk h₂
          exact ⟨ws, hws, hne, fun _ => hi _⟩
      · split at h
        · next hk =>
            cases h
            exact ⟨_, .one hs (isComment_ne_end hk), nofun, fun _ => .comment hk⟩
        · split at h
          · next hk =>
              have hw := took_next hs hk nofun
              obtain ⟨follows, s₁, h₁, h⟩ := of_bind_ok h
              cases h₁
              rw [hw.peek_one_eq] at h
              split at h
              · next hfollows =>
                  rw [bind_of_ok docstring_run] at h
                  obtain ⟨_, hrun, hst⟩ := of_map_ok h
                  cases hst
                  obtain ⟨ws, hws, hd⟩ := declaration_sound hw.ready_behind hrun
                  have hattached := attaches_of_follows hws hd.ne_nil hfollows
                  exact ⟨_, hw.append hws, nofun, fun _ => .documented hk hattached hd⟩
              · next hfollows =>
                  cases h
                  exact ⟨_, hw, nofun, fun hbehind =>
                    .docstring hk fun ha => hfollows (follows_of_attaches ha hbehind)⟩
          · split at h
            · next hk =>
                obtain ⟨_, hrun, hst⟩ := of_map_ok h
                cases hst
                obtain ⟨ws, hws, hd⟩ := declaration_sound hs hrun
                exact ⟨ws, hws, hd.ne_nil, fun _ => .declaration hd⟩
            · exact absurd h unexpected_ne_ok

/-- **What is read is derived.**  The statements that are read from a supply are those of the words that
were taken, and what is next is the end of the file. -/
theorem schema_sound {schema : Schema} (hs : Ready s) (h : Reader.schema s = .ok schema s') :
    ∃ ws, Took s ws s' ∧ next s' = .endOfFile ∧ Statements ws schema.statements := by
  rw [Reader.schema] at h
  obtain ⟨statements, s₁, hmany, h⟩ := of_bind_ok h
  cases h
  obtain ⟨ws, hws, hstatements⟩ :=
    sequence_sound statement_some (fun h => (statement_none h).1) hs hmany
  have hend : next s' = .endOfFile := by
    refine many_induct (P := fun _ _ s' => next s' = .endOfFile) ?_ ?_ ?_ hs hmany
    · intro s a s₁ hs h
      obtain ⟨ws, hws, hne, _⟩ := statement_some hs h
      exact ⟨ws, hws, hne⟩
    · intro s s₁ _ h
      obtain ⟨rfl, hend⟩ := statement_none h
      exact hend
    · intro s a s₁ as s₂ _ _ hend
      exact hend
  exact ⟨ws, hws, hend, hstatements⟩

end RpcSchema.Reader
