import RpcSchema.Proofs.Grammar.Taking

/-!
# What readers of fields answer is derived

Whatever a reader answers, the grammar derives from the words that the reader took: soundness, one lemma
a reader, in the order of the readers, from the leaves up to lists of fields.  Each follows the steps of
its reader; the words of the steps are put together, and the rule of the grammar is applied to them.

**Inner lists.**  A list of fields is read by a reader that contains itself.  The lemmas up to
`fieldItem_some` are about any reader for the inner lists that is sound; `fieldItems_sound` closes the
circle by induction on what remains.
-/

namespace RpcSchema.Reader

open Grammar TokenSupply LawfulSupply

/-! ## Leaves -/

lemma of_natural_ok {σ : Type} {s s' : σ} {t : Token} {n : Nat} (h : natural t s = .ok n s') :
    s = s' ∧ n = Decimal.naturalOfDigits t.literal.toList ∧ n < Decimal.integerBound := by
  rw [natural] at h
  split at h
  · next hlt =>
      cases h
      exact ⟨rfl, rfl, hlt⟩
  · cases h

section

variable {σ : Type} [TokenSupply σ] {s s' : σ}

lemma name_run : name s = .ok (peek s 0).name (advance s) := rfl

lemma comment_run : comment s = .ok (peek s 0).comment (advance s) := rfl

lemma fieldFollows_run : (fieldFollows : Reader σ Bool) s
    = .ok ((next s).isName && decide ((peek s 0).breaks < 2)) s := rfl

lemma docstring_run : docstring s = .ok (peek s 0).docstring (advance s) := rfl

lemma ruleUse?_none (h : ruleUse? s = .ok none s') : s = s' := by
  rw [ruleUse?, kind_bind] at h
  split at h
  · obtain ⟨_, _, hu⟩ := of_map_ok h
    cases hu
  · cases h
    rfl

lemma fieldItem_none {inline : Reader σ (List FieldItem)} (h : fieldItem inline s = .ok none s') : s = s' := by
  rw [fieldItem, kind_bind] at h
  split at h
  · cases h
    rfl
  · split at h
    · cases h
    · split at h
      · obtain ⟨_, s₁, h₁, h⟩ := of_bind_ok h
        obtain ⟨_, s₂, h₂, h⟩ := of_bind_ok h
        split at h
        · obtain ⟨_, _, _, h⟩ := of_bind_ok h
          cases h
        · cases h
      · split at h
        · obtain ⟨_, _, _, h⟩ := of_bind_ok h
          cases h
        · exact absurd h unexpected_ne_ok

lemma fieldItem_stop {inline : Reader σ (List FieldItem)} (h : next s = .delimiter .rightBrace) :
    fieldItem inline s = .ok none s := by
  rw [fieldItem, kind_bind, if_pos h]
  rfl

/-- The reader for the inner lists of fields, inside of a list where the given count remained. -/
def innerFields (bound : Nat) : Reader σ (List FieldItem) := fun s =>
  if remaining s < bound then fieldItems s else .error (errorAtNext s "an inner part") s

lemma fieldItems_eq : fieldItems s = many (fieldItem (innerFields (remaining s))) s := nest_eq

lemma innerFields_of_lt {bound : Nat} (h : remaining s < bound) :
    innerFields bound s = fieldItems s := if_pos h

lemma of_innerFields_ok {bound : Nat} {items : List FieldItem}
    (h : innerFields bound s = .ok items s') : remaining s < bound ∧ fieldItems s = .ok items s' := by
  rw [innerFields] at h
  split at h
  · next hlt => exact ⟨hlt, h⟩
  · cases h

variable [LawfulSupply σ]

lemma takeMark?_sound {d : Delimiter} {b : Bool} (hs : Ready s) (h : takeMark? d s = .ok b s') :
    (b = true ∧ ∃ w, Took s [w] s' ∧ w.kind = .delimiter d)
      ∨ (b = false ∧ s = s' ∧ next s ≠ .delimiter d) := by
  rw [takeMark?, kind_bind] at h
  split at h
  · next hk =>
      cases h
      exact Or.inl ⟨rfl, _, .one hs (by simp [hk]), hk⟩
  · next hk =>
      cases h
      exact Or.inr ⟨rfl, rfl, hk⟩

/-- The mark of the grammar, from the step that takes it. -/
lemma mark_sound {d : Delimiter} {b : Bool} (hs : Ready s) (h : takeMark? d s = .ok b s') :
    ∃ ws, Took s ws s' ∧ Mark d ws b := by
  rcases takeMark?_sound hs h with ⟨rfl, w, hw, hk⟩ | ⟨rfl, rfl, _⟩
  · exact ⟨[w], hw, .present hk⟩
  · exact ⟨[], .nil hs, .absent⟩

lemma identifier_sound {role : String} {n : Name} (hs : Ready s)
    (h : identifier role s = .ok n s') :
    ∃ w, Took s [w] s' ∧ w.kind = .identifier ∧ w.name = n := by
  rw [identifier] at h
  obtain ⟨_, s₁, h₁, h⟩ := of_bind_ok h
  obtain ⟨w, hw, hk, rfl⟩ := expect_sound hs h₁ nofun
  cases h
  exact ⟨w, hw, hk, rfl⟩

lemma typeName_sound {n : Name} (hs : Ready s) (h : typeName s = .ok n s') :
    ∃ w, Took s [w] s' ∧ w.kind.isTypeName ∧ w.name = n := by
  rw [typeName, kind_bind] at h
  split at h
  · next hk =>
      cases h
      refine ⟨_, .one hs ?_, hk, rfl⟩
      intro heof
      rw [heof] at hk
      cases hk
  · exact absurd h unexpected_ne_ok

lemma arraySuffix_sound {b : Bool} (hs : Ready s) (h : arraySuffix s = .ok b s') :
    ∃ ws, Took s ws s' ∧ Brackets ws b := by
  rw [arraySuffix] at h
  obtain ⟨_, s₁, h₁, h⟩ := of_bind_ok h
  rcases takeMark?_sound hs h₁ with ⟨rfl, l, hl, kl⟩ | ⟨rfl, rfl, _⟩
  · rw [if_pos rfl] at h
    obtain ⟨_, s₂, h₂, h⟩ := of_bind_ok h
    obtain ⟨r, hr, kr, _⟩ := expectMark_sound hl.ready_behind h₂
    cases h
    exact ⟨[l, r], hl.append hr, .present kl kr⟩
  · cases h
    exact ⟨[], .nil hs, .absent⟩

lemma stringLiteral_sound {role : String} {v : String} (hs : Ready s)
    (h : stringLiteral role s = .ok v s') :
    ∃ w, Took s [w] s' ∧ w.kind = .string ∧ w.value = v := by
  rw [stringLiteral] at h
  obtain ⟨_, s₁, h₁, h⟩ := of_bind_ok h
  obtain ⟨w, hw, hk, rfl⟩ := expect_sound hs h₁ nofun
  cases h
  exact ⟨w, hw, hk, rfl⟩

lemma literal_sound {l : Literal} (hs : Ready s) (h : literal s = .ok l s') :
    ∃ w, Took s [w] s' ∧ LiteralOf w l := by
  rw [literal, get_bind] at h
  dsimp only at h
  -- whatever the kind, the value is found first and the word is taken then
  have key : ∃ v, LiteralOf (peek s 0) ⟨(peek s 0).span, v⟩
      ∧ (.ok ⟨(peek s 0).span, v⟩ (advance s) : EStateM.Result SyntaxError σ Literal)
        = .ok l s' := by
    cases hk : (peek s 0).token.kind with
    | string =>
        rw [hk] at h
        exact ⟨_, .string hk, h⟩
    | integer =>
        rw [hk] at h
        obtain ⟨_, s₁, hv, h⟩ := of_bind_ok h
        obtain ⟨n, hn, rfl⟩ := of_map_ok hv
        obtain ⟨rfl, rfl, hlt⟩ := of_natural_ok hn
        exact ⟨_, .integer hk hlt, h⟩
    | float =>
        rw [hk] at h
        exact ⟨_, .float hk, h⟩
    | boolean b =>
        rw [hk] at h
        exact ⟨_, .boolean hk, h⟩
    | _ =>
        rw [hk] at h
        obtain ⟨_, _, hv, _⟩ := of_bind_ok h
        exact absurd hv unexpected_ne_ok
  obtain ⟨v, hl, hv⟩ := key
  cases hv
  exact ⟨_, .one hs hl.kind_ne.1, hl⟩

/-! ## Repetition -/

lemma many_sound {α : Type} {item : Reader σ (Option α)}
    {part : List Word → List Word → α → Prop} {stop : List Word → Prop} {as : List α}
    (hsome : ∀ {s a s₁}, Ready s → item s = .ok (some a) s₁ → ∃ ws, Took s ws s₁ ∧ ws ≠ []
      ∧ ∀ {behind s₂}, Took s₁ behind s₂ → part behind ws a)
    (hnone : ∀ {s s₁}, Ready s → item s = .ok none s₁ → ∃ ws, Took s ws s₁ ∧ stop ws)
    (hs : Ready s) (h : many item s = .ok as s') :
    ∃ us vs, Took s (us ++ vs) s' ∧ Sequence part us as ∧ stop vs := by
  refine many_induct
    (P := fun s as s' => ∃ us vs, Took s (us ++ vs) s' ∧ Sequence part us as ∧ stop vs) ?_ ?_ ?_ hs h
  · intro s a s₁ hs h
    obtain ⟨ws, hws, hne, _⟩ := hsome hs h
    exact ⟨ws, hws, hne⟩
  · intro s s₁ hs h
    obtain ⟨ws, hws, hstop⟩ := hnone hs h
    exact ⟨[], ws, hws, .nil, hstop⟩
  · intro s a s₁ as s₂ hs h ih
    obtain ⟨ws, hws, _, ha⟩ := hsome hs h
    obtain ⟨us, vs, hrest, has, hstop⟩ := ih
    obtain ⟨_, hus, _⟩ := hrest.of_append
    refine ⟨ws ++ us, vs, ?_, .cons (ha hus) has, hstop⟩
    rw [List.append_assoc]
    exact hws.append hrest

/-- A repetition that stops in front of a word. -/
lemma sequence_sound {α : Type} {item : Reader σ (Option α)}
    {part : List Word → List Word → α → Prop} {as : List α}
    (hsome : ∀ {s a s₁}, Ready s → item s = .ok (some a) s₁ → ∃ ws, Took s ws s₁ ∧ ws ≠ []
      ∧ ∀ {behind s₂}, Took s₁ behind s₂ → part behind ws a)
    (hnone : ∀ {s s₁}, item s = .ok none s₁ → s = s₁)
    (hs : Ready s) (h : many item s = .ok as s') :
    ∃ ws, Took s ws s' ∧ Sequence part ws as := by
  have hstop : ∀ {s s₁ : σ}, Ready s → item s = .ok none s₁ → ∃ ws, Took s ws s₁ ∧ ws = [] := by
    intro s s₁ hs h
    obtain rfl := hnone h
    exact ⟨[], .nil hs, rfl⟩
  obtain ⟨us, vs, ht, has, rfl⟩ := many_sound hsome hstop hs h
  rw [List.append_nil] at ht
  exact ⟨us, ht, has⟩

/-- A repetition of parts that do not depend on what is behind them. -/
lemma star_sound {α : Type} {item : Reader σ (Option α)} {part : List Word → α → Prop}
    {as : List α}
    (hsome : ∀ {s a s₁}, Ready s → item s = .ok (some a) s₁ →
      ∃ ws, Took s ws s₁ ∧ ws ≠ [] ∧ part ws a)
    (hnone : ∀ {s s₁}, item s = .ok none s₁ → s = s₁)
    (hs : Ready s) (h : many item s = .ok as s') :
    ∃ ws, Took s ws s' ∧ Star part ws as := by
  refine sequence_sound ?_ hnone hs h
  intro s a s₁ hs h
  obtain ⟨ws, hws, hne, ha⟩ := hsome hs h
  exact ⟨ws, hws, hne, fun _ => ha⟩

/-! ## Uses of rules -/

lemma errorClause_sound {e : ErrorClause} (hs : Ready s) (h : errorClause s = .ok e s') :
    ∃ ws, Took s ws s' ∧ ErrorOf ws e := by
  rw [errorClause] at h
  obtain ⟨_, s₁, h₁, h⟩ := of_bind_ok h
  obtain ⟨k, hk, kk, rfl⟩ := expect_sound hs h₁ nofun
  obtain ⟨_, s₂, h₂, h⟩ := of_bind_ok h
  obtain ⟨c, hc, kc, _⟩ := expectMark_sound hk.ready_behind h₂
  obtain ⟨_, s₃, h₃, h⟩ := of_bind_ok h
  obtain ⟨m, hm, km, rfl⟩ := stringLiteral_sound hc.ready_behind h₃
  have ht : Took s [k, c, m] s₃ := hk.append (hc.append hm)
  cases h
  refine ⟨_, ht, ?_⟩
  rw [ht.stretch_cons]
  exact .mk kk kc km

lemma arrayItem_some {first : ValueKind} {l : Literal} (hs : Ready s)
    (h : arrayItem first s = .ok (some l) s') :
    ∃ ws, Took s ws s' ∧ ws ≠ [] ∧ NextItem first ws l := by
  rw [arrayItem] at h
  obtain ⟨_, s₁, h₁, h⟩ := of_bind_ok h
  rcases takeMark?_sound hs h₁ with ⟨rfl, c, hc, kc⟩ | ⟨rfl, rfl, _⟩
  · rw [if_pos rfl, kind_bind] at h
    split at h
    · cases h
    · obtain ⟨item, s₂, h₂, h⟩ := of_bind_ok h
      obtain ⟨w, hw, hl⟩ := literal_sound hc.ready_behind h₂
      split at h
      · next hkind =>
          cases h
          exact ⟨[c, w], hc.append hw, nofun, .mk kc hl hkind⟩
      · cases h
  · cases h

lemma arrayItem_none {first : ValueKind} (hs : Ready s)
    (h : arrayItem first s = .ok none s') :
    ∃ ws, Took s ws s' ∧ ∃ trailing, Mark .comma ws trailing := by
  rw [arrayItem] at h
  obtain ⟨_, s₁, h₁, h⟩ := of_bind_ok h
  rcases takeMark?_sound hs h₁ with ⟨rfl, c, hc, kc⟩ | ⟨rfl, rfl, _⟩
  · rw [if_pos rfl, kind_bind] at h
    split at h
    · cases h
      exact ⟨[c], hc, true, .present kc⟩
    · obtain ⟨item, s₂, h₂, h⟩ := of_bind_ok h
      split at h <;> cases h
  · cases h
    exact ⟨[], .nil hs, false, .absent⟩

lemma arrayItems_sound {ls : List Literal} (hs : Ready s) (h : arrayItems s = .ok ls s') :
    ∃ ws, Took s ws s' ∧ Items ws ls := by
  rw [arrayItems, kind_bind] at h
  split at h
  · cases h
    exact ⟨[], .nil hs, .none⟩
  · obtain ⟨l, s₁, h₁, h⟩ := of_bind_ok h
    obtain ⟨w, hw, hl⟩ := literal_sound hs h₁
    obtain ⟨rest, s₂, h₂, h⟩ := of_bind_ok h
    have hsome : ∀ {s a} {s₁ : σ}, Ready s → arrayItem l.value.kind s = .ok (some a) s₁ →
        ∃ ws, Took s ws s₁ ∧ ws ≠ []
          ∧ ∀ {behind s₂}, Took s₁ behind s₂ → NextItem l.value.kind ws a := by
      intro s a s₁ hs h
      obtain ⟨ws, hws, hne, ha⟩ := arrayItem_some hs h
      exact ⟨ws, hws, hne, fun _ => ha⟩
    have hmany : ∃ us vs, Took s₁ (us ++ vs) s₂ ∧ Star (NextItem l.value.kind) us rest
        ∧ ∃ trailing, Mark .comma vs trailing :=
      many_sound hsome arrayItem_none hw.ready_behind h₂
    obtain ⟨us, vs, hrest, hitems, trailing, htrailing⟩ := hmany
    have ht : Took s (w :: (us ++ vs)) s₂ := hw.append hrest
    cases h
    exact ⟨_, ht, .some hl hitems htrailing⟩

lemma argument_sound {a : Argument} (hs : Ready s) (h : argument s = .ok a s') :
    ∃ ws, Took s ws s' ∧ ArgumentOf ws a := by
  rw [argument, kind_bind] at h
  split at h
  · next hk =>
      rw [take_bind] at h
      have hl : Took s [peek s 0] (advance s) := .one hs (by simp [hk])
      obtain ⟨items, s₂, h₂, h⟩ := of_bind_ok h
      obtain ⟨ws, hws, hitems⟩ := arrayItems_sound hl.ready_behind h₂
      obtain ⟨_, s₃, h₃, h⟩ := of_bind_ok h
      obtain ⟨r, hr, kr, _⟩ := expectMark_sound hws.ready_behind h₃
      have ht : Took s (peek s 0 :: ws ++ [r]) s₃ := (hl.append hws).append hr
      cases h
      refine ⟨_, ht, ?_⟩
      rw [ht.stretch_cons]
      exact .array hk hitems kr
  · obtain ⟨l, s₁, h₁, h⟩ := of_bind_ok h
    obtain ⟨w, hw, hl⟩ := literal_sound hs h₁
    cases h
    exact ⟨[w], hw, .single hl⟩

lemma useArguments_sound {p : Option Argument × Option ErrorClause} (hs : Ready s)
    (h : useArguments s = .ok p s') : ∃ ws, Took s ws s' ∧ Arguments ws p := by
  rw [useArguments, kind_bind, kindAhead_bind] at h
  split at h
  · obtain ⟨e, s₁, h₁, h⟩ := of_bind_ok h
    obtain ⟨ws, hws, he⟩ := errorClause_sound hs h₁
    cases h
    exact ⟨ws, hws, .error he⟩
  · rw [kind_bind] at h
    split at h
    · cases h
      exact ⟨[], .nil hs, .empty⟩
    · obtain ⟨a, s₁, h₁, h⟩ := of_bind_ok h
      obtain ⟨us, hus, ha⟩ := argument_sound hs h₁
      obtain ⟨_, s₂, h₂, h⟩ := of_bind_ok h
      rcases takeMark?_sound hus.ready_behind h₂ with ⟨rfl, c, hc, kc⟩ | ⟨rfl, rfl, _⟩
      · rw [if_pos rfl] at h
        obtain ⟨e, s₃, h₃, h⟩ := of_bind_ok h
        obtain ⟨vs, hvs, he⟩ := errorClause_sound hc.ready_behind h₃
        cases h
        exact ⟨_, hus.append (hc.append hvs), .both ha kc he⟩
      · cases h
        exact ⟨us, hus, .argument ha⟩

lemma ruleUse_sound {u : RuleUse} (hs : Ready s) (h : ruleUse s = .ok u s') :
    ∃ ws, Took s ws s' ∧ ws ≠ [] ∧ UseOf ws u := by
  rw [ruleUse] at h
  obtain ⟨_, s₁, h₁, h⟩ := of_bind_ok h
  obtain ⟨m, hm, km, rfl⟩ := expectMark_sound hs h₁
  obtain ⟨_, s₂, h₂, h⟩ := of_bind_ok h
  obtain ⟨n, hn, kn, rfl⟩ := identifier_sound hm.ready_behind h₂
  obtain ⟨_, s₃, h₃, h⟩ := of_bind_ok h
  rcases takeMark?_sound hn.ready_behind h₃ with ⟨rfl, l, hl, kl⟩ | ⟨rfl, rfl, _⟩
  · rw [if_pos rfl] at h
    obtain ⟨⟨a, e⟩, s₄, h₄, h⟩ := of_bind_ok h
    obtain ⟨ws, hws, hargs⟩ := useArguments_sound hl.ready_behind h₄
    obtain ⟨_, s₅, h₅, h⟩ := of_bind_ok h
    obtain ⟨r, hr, kr, _⟩ := expectMark_sound hws.ready_behind h₅
    have ht : Took s (m :: n :: l :: ws ++ [r]) s₅ :=
      hm.append (hn.append (hl.append (hws.append hr)))
    cases h
    refine ⟨_, ht, nofun, ?_⟩
    rw [ht.stretch_cons]
    exact .given km kn kl hargs kr
  · have ht : Took s [m, n] s₂ := hm.append hn
    cases h
    refine ⟨_, ht, nofun, ?_⟩
    rw [ht.stretch_cons]
    exact .bare km kn

lemma ruleUse?_some {u : RuleUse} (hs : Ready s) (h : ruleUse? s = .ok (some u) s') :
    ∃ ws, Took s ws s' ∧ ws ≠ [] ∧ UseOf ws u := by
  rw [ruleUse?, kind_bind] at h
  split at h
  · obtain ⟨_, h₁, hu⟩ := of_map_ok h
    cases hu
    exact ruleUse_sound hs h₁
  · cases h

/-! ## Fields -/

lemma isName_cases {k : Kind} (h : k.isName) : k = .identifier ∨ ∃ w, k = .keyword w := by
  cases k with
  | identifier => exact Or.inl rfl
  | keyword w => exact Or.inr ⟨w, rfl⟩
  | _ => cases h

lemma isName_ne_end {k : Kind} (h : k.isName) : k ≠ .endOfFile := by
  rintro rfl
  cases h

lemma isTypeName_ne_end {k : Kind} (h : k.isTypeName) : k ≠ .endOfFile := by
  rintro rfl
  cases h

lemma isComment_ne_end {k : Kind} (h : k.isComment) : k ≠ .endOfFile := by
  rintro rfl
  cases h

/-- What a reader sees of a docstring that belongs to what is next. -/
lemma follows_of_attaches {starts : Kind → Bool} {ws : List Word} (ha : Attaches starts ws) (h : Took s ws s') :
    (starts (next s) && decide ((peek s 0).breaks < 2)) = true := by
  obtain ⟨w, vs, rfl, hstarts, hbreaks⟩ := ha
  rw [h.next_eq, h.peek_eq, hstarts, decide_eq_true hbreaks]
  rfl

/-- What a reader sees in front of words tells whether a docstring belongs to them. -/
lemma attaches_of_follows {starts : Kind → Bool} {ws : List Word} (h : Took s ws s') (hne : ws ≠ [])
    (hfollows : (starts (next s) && decide ((peek s 0).breaks < 2)) = true) : Attaches starts ws := by
  obtain ⟨us, rfl⟩ := h.eq_cons hne
  rw [Bool.and_eq_true, decide_eq_true_eq] at hfollows
  exact ⟨_, us, rfl, hfollows⟩

/-- What is known of the reader for inner lists of fields. -/
def InlineSound (inline : Reader σ (List FieldItem)) : Prop :=
  ∀ {s items s'}, Ready s → inline s = .ok items s' → ∃ ws, Took s ws s' ∧ Fields ws items

variable {inline : Reader σ (List FieldItem)}

lemma fieldType_sound {t : FieldType} (hinline : InlineSound inline) (hs : Ready s)
    (h : fieldType inline s = .ok t s') : ∃ bs ks base isArray, Took s (bs ++ ks) s'
      ∧ BaseOf bs base ∧ Brackets ks isArray ∧ t = ⟨Word.stretch (bs ++ ks), base, isArray⟩ := by
  rw [fieldType, here_bind, kind_bind] at h
  -- the base, and what is read behind it
  have key : ∃ bs base s₁, Took s bs s₁ ∧ bs ≠ [] ∧ BaseOf bs base
      ∧ (do let isArray ← arraySuffix
            pure ⟨← spanFrom (peek s 0).span, base, isArray⟩ : Reader σ FieldType) s₁
        = .ok t s' := by
    split at h
    · next hk =>
        obtain ⟨_, _, h₀, h⟩ := of_bind_ok h
        cases h₀
        have hl : Took s [peek s 0] (advance s) := .one hs (by simp [hk])
        obtain ⟨items, s₂, h₂, h⟩ := of_bind_ok h
        obtain ⟨ws, hws, hitems⟩ := hinline hl.ready_behind h₂
        obtain ⟨_, s₃, h₃, h⟩ := of_bind_ok h
        obtain ⟨r, hr, kr, _⟩ := expectMark_sound hws.ready_behind h₃
        exact ⟨_, _, s₃, (hl.append hws).append hr, nofun, .object hk hitems kr, h⟩
    · split at h
      · next hk =>
          obtain ⟨_, s₁, h₁, h⟩ := of_bind_ok h
          obtain ⟨_, h₁, rfl⟩ := of_map_ok h₁
          cases h₁
          exact ⟨_, _, _, .one hs (isTypeName_ne_end hk), nofun, .named hk, h⟩
      · obtain ⟨_, _, h₁, _⟩ := of_bind_ok h
        exact absurd h₁ unexpected_ne_ok
  obtain ⟨bs, base, s₁, hbs, hne, hbase, h⟩ := key
  obtain ⟨isArray, s₂, h₂, h⟩ := of_bind_ok h
  obtain ⟨ks, hks, hbrackets⟩ := arraySuffix_sound hbs.ready_behind h₂
  have ht : Took s (bs ++ ks) s₂ := hbs.append hks
  cases h
  refine ⟨bs, ks, base, isArray, ht, hbase, hbrackets, ?_⟩
  rw [ht.stretch_eq (by simp [hne])]

lemma field_sound {docstring : Option Docstring} {f : Field} (hinline : InlineSound inline)
    (hs : Ready s) (hk : (next s).isName) (h : field inline docstring s = .ok f s') :
    ∃ bs base ws, Took s ws s' ∧ ws ≠ [] ∧ BaseOf bs base
      ∧ FieldOf bs base docstring ws f := by
  rw [field, bind_of_ok name_run] at h
  have hn : Took s [peek s 0] (advance s) := .one hs (isName_ne_end hk)
  obtain ⟨byName, s₂, h₂, h⟩ := of_bind_ok h
  obtain ⟨ms, hms, hbyName⟩ := mark_sound hn.ready_behind h₂
  obtain ⟨_, s₃, h₃, h⟩ := of_bind_ok h
  obtain ⟨c, hc, kc, _⟩ := expectMark_sound hms.ready_behind h₃
  obtain ⟨_, s₄, h₄, h⟩ := of_bind_ok h
  obtain ⟨bs, ks, base, isArray, htype, hbase, hbrackets, rfl⟩ :=
    fieldType_sound hinline hc.ready_behind h₄
  obtain ⟨byType, s₅, h₅, h⟩ := of_bind_ok h
  obtain ⟨ns, hns, hbyType⟩ := mark_sound htype.ready_behind h₅
  obtain ⟨rules, s₆, h₆, h⟩ := of_bind_ok h
  obtain ⟨us, hus, hrules⟩ := star_sound ruleUse?_some ruleUse?_none hns.ready_behind h₆
  have ht : Took s (peek s 0 :: (ms ++ c :: (bs ++ ks ++ ns ++ us))) s₆ :=
    hn.append (hms.append (hc.append ((htype.append hns).append hus)))
  cases h
  refine ⟨bs, base, _, ht, nofun, hbase, ?_⟩
  rw [show (peek s 0).name.span = (peek s 0).span from rfl, ht.stretch_cons]
  exact .mk hk hbyName kc hbrackets hbyType hrules

lemma fieldItem_some {item : FieldItem} (hinline : InlineSound inline) (hs : Ready s)
    (h : fieldItem inline s = .ok (some item) s') : ∃ ws, Took s ws s' ∧ ws ≠ []
      ∧ ∀ {behind s₂}, Took s' behind s₂ → EntryOf behind ws item := by
  rw [fieldItem, kind_bind] at h
  split at h
  · cases h
  · split at h
    · next hk =>
        cases h
        exact ⟨_, .one hs (isComment_ne_end hk), nofun, fun _ => .comment hk⟩
    · split at h
      · next hk =>
          obtain ⟨_, s₁, h₁, h⟩ := of_bind_ok h
          cases h₁
          have hw : Took s [peek s 0] (advance s) := .one hs (by simp [hk])
          rw [bind_of_ok fieldFollows_run] at h
          split at h
          · next hfollows =>
              obtain ⟨f, s₃, h₃, h⟩ := of_bind_ok h
              have hname := (Bool.and_eq_true_iff.1 hfollows).1
              obtain ⟨bs, base, ws, hws, hne, hbase, hf⟩ :=
                field_sound hinline hw.ready_behind hname h₃
              have hattached := attaches_of_follows hws hne hfollows
              cases h
              exact ⟨_, hw.append hws, nofun, fun _ => .documented hk hattached hbase hf⟩
          · next hfollows =>
              cases h
              exact ⟨_, hw, nofun, fun hbehind =>
                .docstring hk fun ha => hfollows (follows_of_attaches ha hbehind)⟩
      · split at h
        · next hk =>
            obtain ⟨f, s₁, h₁, h⟩ := of_bind_ok h
            obtain ⟨bs, base, ws, hws, hne, hbase, hf⟩ := field_sound hinline hs hk h₁
            cases h
            exact ⟨ws, hws, hne, fun _ => .field hbase hf⟩
        · exact absurd h unexpected_ne_ok

lemma fieldItems_sound {s s' : σ} {items : List FieldItem} (hs : Ready s)
    (h : fieldItems s = .ok items s') : ∃ ws, Took s ws s' ∧ Fields ws items := by
  have hinline : InlineSound (innerFields (σ := σ) (remaining s)) := by
    intro s₁ items s₂ hs₁ h
    obtain ⟨hlt, h⟩ := of_innerFields_ok h
    exact fieldItems_sound hs₁ h
  rw [fieldItems_eq] at h
  obtain ⟨ws, hws, hitems⟩ := sequence_sound (fieldItem_some hinline) fieldItem_none hs h
  exact ⟨ws, hws, fields_iff.2 hitems⟩
termination_by remaining s

end

end RpcSchema.Reader
