import RpcSchema.Proofs.Grammar.FieldSoundness

/-!
# Derived fields are read

Where words are next that the grammar derives a part from, the reader of that part takes them all and
answers it: completeness, from the leaves up to lists of fields.

**What follows.**  Several parts end in something that may be left out, so that the reader must look at
the next word to see whether it is there.  A reader would then take what does not belong to the part,
were it next.  The lemmas say which words must not be; in a whole file none of them ever is, because a
part is always followed by a closing mark or by a word that begins another one.
-/

namespace RpcSchema.Reader

open Grammar TokenSupply LawfulSupply

lemma natural_of_lt {σ : Type} {s : σ} {t : Token}
    (h : Decimal.naturalOfDigits t.literal.toList < Decimal.integerBound) :
    natural t s = .ok (Decimal.naturalOfDigits t.literal.toList) s := by
  rw [natural, if_pos h]
  rfl

lemma natural_of_not_lt {σ : Type} {s : σ} {t : Token}
    (h : ¬ Decimal.naturalOfDigits t.literal.toList < Decimal.integerBound) :
    natural t s = .error ⟨t.span, .integerOutOfRange⟩ s := by
  rw [natural, if_neg h]
  rfl

variable {σ : Type} [TokenSupply σ] [LawfulSupply σ] {s s' s₁ s₂ s₃ : σ} {w : Word}
  {ws : List Word}

/-! ## Leaves -/

lemma name_complete (h : Took s [w] s') : name s = .ok w.name s' := by
  rw [name_run, h.peek_eq, h.advance_eq]

lemma comment_complete (h : Took s [w] s') : comment s = .ok w.comment s' := by
  rw [comment_run, h.peek_eq, h.advance_eq]

lemma docstring_complete (h : Took s [w] s') : docstring s = .ok w.docstring s' := by
  rw [docstring_run, h.peek_eq, h.advance_eq]

lemma take_complete (h : Took s [w] s') : take s = .ok w.token s' := by
  rw [← h.peek_eq, ← h.advance_eq]
  rfl

lemma identifier_complete {role : String} (h : Took s [w] s') (hk : w.kind = .identifier) :
    identifier role s = .ok w.name s' := by
  rw [identifier, bind_of_ok (expect_complete h hk)]
  rfl

lemma typeName_complete (h : Took s [w] s') (hk : w.kind.isTypeName) :
    typeName s = .ok w.name s' := by
  rw [typeName, kind_bind, h.next_eq, if_pos hk, name_complete h]

lemma mark_complete {d : Delimiter} {b : Bool} (hm : Mark d ws b) (h : Took s ws s')
    (hnext : next s' ≠ .delimiter d) : takeMark? d s = .ok b s' := by
  cases hm with
  | absent =>
      cases h
      exact takeMark?_of_not_next hnext
  | present hk => exact takeMark?_of_next h hk

lemma arraySuffix_complete {b : Bool} (hb : Brackets ws b) (h : Took s ws s')
    (hnext : next s' ≠ .delimiter .leftBracket) : arraySuffix s = .ok b s' := by
  cases hb with
  | absent =>
      cases h
      rw [arraySuffix, bind_of_ok (takeMark?_of_not_next hnext)]
      rfl
  | present kl kr =>
      obtain ⟨s₁, hl, hr⟩ := h.of_cons
      rw [arraySuffix, bind_of_ok (takeMark?_of_next hl kl), if_pos rfl,
        bind_of_ok (expectMark_complete hr kr)]
      rfl

lemma stringLiteral_complete {role : String} (h : Took s [w] s') (hk : w.kind = .string) :
    stringLiteral role s = .ok w.value s' := by
  rw [stringLiteral, bind_of_ok (expect_complete h hk)]
  rfl

lemma literal_complete {l : Literal} (hl : LiteralOf w l) (h : Took s [w] s') :
    literal s = .ok l s' := by
  have htoken : (peek s 0).token = w.token := congrArg Word.token h.peek_eq
  rw [literal, get_bind, htoken, ← h.advance_eq]
  cases hl with
  | string hk =>
      rw [show w.token.kind = _ from hk]
      rfl
  | integer hk hlt =>
      rw [show w.token.kind = _ from hk]
      exact (bind_of_ok (map_of_ok (natural_of_lt hlt))).trans rfl
  | float hk =>
      rw [show w.token.kind = _ from hk]
      rfl
  | boolean hk =>
      rw [show w.token.kind = _ from hk]
      rfl

/-! ## Repetition -/

/-- A sequence of parts is read by repetition, if the reader of one part reads it wherever another part
or the end of the sequence follows.  The bound is for readers that only work where little remains. -/
lemma many_complete {α : Type} {item : Reader σ (Option α)}
    {part : List Word → List Word → α → Prop} {bound : Nat} {as : List α} (follow : Kind → Prop)
    (hitem : ∀ {behind us a s s₁}, remaining s ≤ bound → part behind us a → Took s us s₁ →
      Took s₁ behind s₂ → follow (next s₁) → item s = .ok (some a) s₁)
    (hstart : ∀ {behind us a}, part behind us a → ∃ w vs, us = w :: vs ∧ follow w.kind)
    (hend : item s₂ = .ok none s₃) (hfollow : follow (next s₂))
    (h : Sequence part ws as) (hs : Took s ws s₂) (hbound : remaining s ≤ bound) :
    many item s = .ok as s₃ := by
  induction h generalizing s with
  | nil =>
      cases hs
      exact many_of_none hend
  | @cons us behind a as ha has ih =>
      obtain ⟨s₁, hus, hbehind⟩ := hs.of_append
      have hnext : follow (next s₁) := by
        cases has with
        | nil =>
            cases hbehind
            exact hfollow
        | cons hb _ =>
            obtain ⟨w, vs, rfl, hw⟩ := hstart hb
            rw [hbehind.next_eq]
            exact hw
      obtain ⟨w, vs, rfl, _⟩ := hstart ha
      have hless := hus.remaining_lt (List.cons_ne_nil w vs)
      exact many_of_some (hitem hbound ha hus hbehind hnext) hless (ih hbehind (by omega))

/-- A sequence of parts that do not depend on what is behind them. -/
lemma star_complete {α : Type} {item : Reader σ (Option α)} {part : List Word → α → Prop}
    {as : List α} (follow : Kind → Prop)
    (hitem : ∀ {us a s s₁}, part us a → Took s us s₁ → follow (next s₁) →
      item s = .ok (some a) s₁)
    (hstart : ∀ {us a}, part us a → ∃ w vs, us = w :: vs ∧ follow w.kind)
    (hend : item s₂ = .ok none s₃) (hfollow : follow (next s₂))
    (h : Star part ws as) (hs : Took s ws s₂) : many item s = .ok as s₃ :=
  many_complete follow (fun _ ha hus _ hnext => hitem ha hus hnext) hstart hend hfollow h hs
    (Nat.le_refl _)

/-! ## Uses of rules -/

lemma errorClause_complete {e : ErrorClause} (he : ErrorOf ws e) (h : Took s ws s') :
    errorClause s = .ok e s' := by
  cases he with
  | mk kk kc km =>
      obtain ⟨s₁, hk, h₁⟩ := h.of_cons
      obtain ⟨s₂, hc, hm⟩ := h₁.of_cons
      rw [errorClause, bind_of_ok (expect_complete hk kk), bind_of_ok (expectMark_complete hc kc),
        bind_of_ok (stringLiteral_complete hm km), spanFrom_bind, h.stretch_cons]
      rfl

lemma arrayItem_complete {first : ValueKind} {l : Literal} (hl : NextItem first ws l)
    (h : Took s ws s') : arrayItem first s = .ok (some l) s' := by
  cases hl with
  | @mk c w _ kc hl hkind =>
      obtain ⟨s₁, hc, hw⟩ := h.of_cons
      have hnext : next s₁ ≠ .delimiter .rightBracket := by
        rw [hw.next_eq]
        exact hl.kind_ne.2.1 _
      rw [arrayItem, bind_of_ok (takeMark?_of_next hc kc), if_pos rfl, kind_bind, if_neg hnext,
        bind_of_ok (literal_complete hl hw), if_pos hkind]
      rfl

/-- Where an array stops, with or without a comma behind its last item. -/
lemma arrayItem_stop {first : ValueKind} {trailing : Bool} (ht : Mark .comma ws trailing)
    (h : Took s ws s') (hnext : next s' = .delimiter .rightBracket) :
    arrayItem first s = .ok none s' := by
  cases ht with
  | absent =>
      cases h
      have hcomma : next s ≠ .delimiter .comma := by simp [hnext]
      rw [arrayItem, bind_of_ok (takeMark?_of_not_next hcomma)]
      rfl
  | present kc =>
      rw [arrayItem, bind_of_ok (takeMark?_of_next h kc), if_pos rfl, kind_bind, if_pos hnext]
      rfl

lemma arrayItems_complete {ls : List Literal} (hls : Items ws ls) (h : Took s ws s')
    (hnext : next s' = .delimiter .rightBracket) : arrayItems s = .ok ls s' := by
  cases hls with
  | none =>
      cases h
      rw [arrayItems, kind_bind, if_pos hnext]
      rfl
  | some hl hitems htrailing =>
      obtain ⟨s₁, hw, h₁⟩ := h.of_cons
      obtain ⟨s₂, hus, hvs⟩ := h₁.of_append
      have hfirst : next s ≠ .delimiter .rightBracket := by
        rw [hw.next_eq]
        exact hl.kind_ne.2.1 _
      have hrest := star_complete (fun _ => True) (fun ha hus _ => arrayItem_complete ha hus)
        (fun ha => by cases ha; exact ⟨_, _, rfl, trivial⟩)
        (arrayItem_stop htrailing hvs hnext) trivial hitems hus
      rw [arrayItems, kind_bind, if_neg hfirst, bind_of_ok (literal_complete hl hw),
        bind_of_ok hrest]
      rfl

lemma argument_complete {a : Argument} (ha : ArgumentOf ws a) (h : Took s ws s') :
    argument s = .ok a s' := by
  cases ha with
  | single hl =>
      have hnext : next s ≠ .delimiter .leftBracket := by
        rw [h.next_eq]
        exact hl.kind_ne.2.1 _
      rw [argument, kind_bind, if_neg hnext, bind_of_ok (literal_complete hl h)]
      rfl
  | array kl hitems kr =>
      obtain ⟨s₁, hl, h₁⟩ := h.of_cons
      obtain ⟨s₂, hws, hr⟩ := h₁.of_append
      rw [argument, kind_bind, if_pos (hl.next_eq.trans kl), bind_of_ok (take_complete hl),
        bind_of_ok (arrayItems_complete hitems hws (hr.next_eq.trans kr)),
        bind_of_ok (expectMark_complete hr kr), spanFrom_bind, h.stretch_cons]
      rfl

/-- An argument begins neither with a keyword nor with a closing parenthesis. -/
lemma argument_starts {a : Argument} (ha : ArgumentOf ws a) : ∃ w vs, ws = w :: vs
    ∧ (∀ k, w.kind ≠ .keyword k) ∧ w.kind ≠ .delimiter .rightParen := by
  cases ha with
  | single hl => exact ⟨_, [], rfl, hl.kind_ne.2.2, hl.kind_ne.2.1 _⟩
  | array kl _ _ => exact ⟨_, _, rfl, by simp [kl], by simp [kl]⟩

lemma useArguments_complete {p : Option Argument × Option ErrorClause} (hp : Arguments ws p)
    (h : Took s ws s') (hnext : next s' = .delimiter .rightParen) :
    useArguments s = .ok p s' := by
  rw [useArguments, kind_bind, kindAhead_bind]
  cases hp with
  | empty =>
      cases h
      rw [if_neg (by simp [hnext]), kind_bind, if_pos hnext]
      rfl
  | error he =>
      cases he with
      | mk kk kc km =>
          obtain ⟨s₁, hk, h₁⟩ := h.of_cons
          have hcolon : (peek s 1).kind = .delimiter .colon := by
            rw [hk.peek_one_eq, h₁.peek_eq, kc]
          rw [if_pos ⟨hk.next_eq.trans kk, hcolon⟩,
            bind_of_ok (errorClause_complete (.mk kk kc km) h)]
          rfl
  | argument ha =>
      obtain ⟨w, vs, rfl, hkeyword, hparen⟩ := argument_starts ha
      rw [if_neg (fun hc => hkeyword _ (h.next_eq.symm.trans hc.1)), kind_bind,
        if_neg (fun hc => hparen (h.next_eq.symm.trans hc)), bind_of_ok (argument_complete ha h),
        bind_of_ok (takeMark?_of_not_next (by simp [hnext]))]
      rfl
  | both ha kc he =>
      obtain ⟨s₁, hus, h₁⟩ := h.of_append
      obtain ⟨s₂, hc, hvs⟩ := h₁.of_cons
      obtain ⟨w, vs, rfl, hkeyword, hparen⟩ := argument_starts ha
      rw [if_neg (fun hc => hkeyword _ (hus.next_eq.symm.trans hc.1)), kind_bind,
        if_neg (fun hc => hparen (hus.next_eq.symm.trans hc)),
        bind_of_ok (argument_complete ha hus), bind_of_ok (takeMark?_of_next hc kc), if_pos rfl,
        bind_of_ok (errorClause_complete he hvs)]
      rfl

lemma ruleUse_complete {u : RuleUse} (hu : UseOf ws u) (h : Took s ws s')
    (hnext : next s' ≠ .delimiter .leftParen) : ruleUse s = .ok u s' := by
  cases hu with
  | bare km kn =>
      obtain ⟨s₁, hm, hn⟩ := h.of_cons
      rw [ruleUse, bind_of_ok (expectMark_complete hm km), bind_of_ok (identifier_complete hn kn),
        bind_of_ok (takeMark?_of_not_next hnext), if_neg Bool.false_ne_true, spanFrom_bind,
        h.stretch_cons]
      rfl
  | given km kn kl hargs kr =>
      obtain ⟨s₁, hm, h₁⟩ := h.of_cons
      obtain ⟨s₂, hn, h₂⟩ := h₁.of_cons
      obtain ⟨s₃, hl, h₃⟩ := h₂.of_cons
      obtain ⟨s₄, hws, hr⟩ := h₃.of_append
      rw [ruleUse, bind_of_ok (expectMark_complete hm km), bind_of_ok (identifier_complete hn kn),
        bind_of_ok (takeMark?_of_next hl kl), if_pos rfl,
        bind_of_ok (useArguments_complete hargs hws (hr.next_eq.trans kr))]
      refine (bind_of_ok (expectMark_complete hr kr)).trans ?_
      rw [spanFrom_bind, h.stretch_cons]
      rfl

/-- Uses of rules are read up to a word that neither begins nor continues one. -/
lemma ruleUses_complete {us : List RuleUse} (hus : Star UseOf ws us) (h : Took s ws s')
    (hat : next s' ≠ .delimiter .atSign) (hparen : next s' ≠ .delimiter .leftParen) :
    many ruleUse? s = .ok us s' := by
  refine star_complete (· ≠ .delimiter .leftParen) ?_ ?_ ?_ hparen hus h
  · intro us u s s₁ hu hs hnext
    have hat : next s = .delimiter .atSign := by
      cases hu with
      | bare km _ => exact hs.next_eq.trans km
      | given km _ _ _ _ => exact hs.next_eq.trans km
    rw [ruleUse?, kind_bind, if_pos hat, map_of_ok (ruleUse_complete hu hs hnext)]
  · intro us u hu
    cases hu with
    | bare km _ => exact ⟨_, _, rfl, by simp [km]⟩
    | given km _ _ _ _ => exact ⟨_, _, rfl, by simp [km]⟩
  · rw [ruleUse?, kind_bind, if_neg hat]
    rfl

/-! ## Fields -/

/-- A kind that continues no field: none of what may be left out at its end. -/
def EndsField (k : Kind) : Prop :=
  k ≠ .delimiter .leftBracket ∧ k ≠ .delimiter .questionMark ∧ k ≠ .delimiter .atSign
    ∧ k ≠ .delimiter .leftParen

lemma EndsField.of_isName {k : Kind} (h : k.isName) : EndsField k := by
  rcases isName_cases h with rfl | ⟨_, rfl⟩ <;> simp [EndsField]

lemma EndsField.of_isComment {k : Kind} (h : k.isComment) : EndsField k := by
  refine ⟨?_, ?_, ?_, ?_⟩ <;> rintro rfl <;> cases h

/-- What is known of the reader for inner lists of fields: it reads them where less remains than the
bound. -/
def InlineComplete (inline : Reader σ (List FieldItem)) (bound : Nat) : Prop :=
  ∀ {s ws items s'}, remaining s < bound → Fields ws items → Took s ws s' →
    next s' = .delimiter .rightBrace → inline s = .ok items s'

variable {inline : Reader σ (List FieldItem)} {bound : Nat}

lemma fieldType_complete {bs ks : List Word} {base : FieldBase} {isArray : Bool}
    (hinline : InlineComplete inline bound) (hbound : remaining s ≤ bound) (hbase : BaseOf bs base)
    (hbrackets : Brackets ks isArray) (h : Took s (bs ++ ks) s')
    (hnext : next s' ≠ .delimiter .leftBracket) :
    fieldType inline s = .ok ⟨Word.stretch (bs ++ ks), base, isArray⟩ s' := by
  obtain ⟨s₁, hbs, hks⟩ := h.of_append
  have hne : bs ++ ks ≠ [] := by cases hbase <;> simp
  have htail : (do let isArray ← arraySuffix
                   pure ⟨← spanFrom (peek s 0).span, base, isArray⟩ : Reader σ FieldType) s₁
      = .ok ⟨Word.stretch (bs ++ ks), base, isArray⟩ s' := by
    rw [bind_of_ok (arraySuffix_complete hbrackets hks hnext), spanFrom_bind, h.stretch_eq hne]
    rfl
  rw [fieldType, here_bind, kind_bind]
  cases hbase with
  | named hk =>
      have hbrace : next s ≠ .delimiter .leftBrace := by
        rw [hbs.next_eq]
        rintro hc
        rw [hc] at hk
        cases hk
      rw [if_neg hbrace, if_pos (by rw [hbs.next_eq]; exact hk),
        bind_of_ok (map_of_ok (name_complete hbs))]
      exact htail
  | object kl hitems kr =>
      obtain ⟨s₂, hl, h₂⟩ := hbs.of_cons
      obtain ⟨s₃, hws, hr⟩ := h₂.of_append
      have hless := hl.remaining_lt (List.cons_ne_nil _ _)
      rw [if_pos (hl.next_eq.trans kl), bind_of_ok (take_complete hl),
        bind_of_ok (hinline (by omega) hitems hws (hr.next_eq.trans kr)),
        bind_of_ok (expectMark_complete hr kr)]
      exact htail

lemma field_complete {docstring : Option Docstring} {bs : List Word} {base : FieldBase} {f : Field}
    (hinline : InlineComplete inline bound) (hbound : remaining s ≤ bound) (hbase : BaseOf bs base)
    (hf : FieldOf bs base docstring ws f) (h : Took s ws s') (hnext : EndsField (next s')) :
    field inline docstring s = .ok f s' := by
  obtain ⟨hbracket, hmark, hat, hparen⟩ := hnext
  cases hf with
  | @mk n c ms ns ks us byName byType isArray rules kn hbyName kc hbrackets hbyType hrules =>
      obtain ⟨s₁, hn, h₁⟩ := h.of_cons
      obtain ⟨s₂, hms, h₂⟩ := h₁.of_append
      obtain ⟨s₃, hc, h₃⟩ := h₂.of_cons
      obtain ⟨s₅, h₅, hus⟩ := h₃.of_append
      obtain ⟨s₄, htype, hns⟩ := h₅.of_append
      -- what follows the type is the mark, a use, or what follows the field
      have hnext₅ : next s₅ ≠ .delimiter .questionMark ∧ next s₅ ≠ .delimiter .leftBracket := by
        cases hrules with
        | nil =>
            cases hus
            exact ⟨hmark, hbracket⟩
        | cons hu _ =>
            cases hu with
            | bare km _ => simp [hus.next_eq, km]
            | given km _ _ _ _ => simp [hus.next_eq, km]
      have hnext₄ : next s₄ ≠ .delimiter .leftBracket := by
        cases hbyType with
        | absent =>
            cases hns
            exact hnext₅.2
        | present km => simp [hns.next_eq, km]
      have hcolon : next s₂ ≠ .delimiter .questionMark := by simp [hc.next_eq, kc]
      have hless := hn.remaining_le
      have hless₂ := hms.remaining_le
      have hless₃ := hc.remaining_le
      rw [field, bind_of_ok (name_complete hn), bind_of_ok (mark_complete hbyName hms hcolon),
        bind_of_ok (expectMark_complete hc kc),
        bind_of_ok (fieldType_complete hinline (by omega) hbase hbrackets htype hnext₄),
        bind_of_ok (mark_complete hbyType hns hnext₅.1),
        bind_of_ok (ruleUses_complete hrules hus hat hparen), spanFrom_bind,
        show n.name.span = n.span from rfl, h.stretch_cons]
      rfl

/-! ## Lists of fields -/

/-- What a reader sees of a docstring that stands by itself, if what ends the list cannot be
documented. -/
lemma not_follows_of_not_attaches {starts : Kind → Bool} (ha : ¬ Attaches starts ws)
    (h : Took s ws s') (hend : starts (next s') = false) :
    (starts (next s) && decide ((peek s 0).breaks < 2)) = false := by
  cases ws with
  | nil =>
      cases h
      rw [hend]
      rfl
  | cons w vs =>
      rw [Bool.eq_false_iff]
      exact fun hc => ha (attaches_of_follows h (List.cons_ne_nil w vs) hc)

lemma FieldOf.starts {bs : List Word} {base : FieldBase} {docstring : Option Docstring} {f : Field}
    (h : FieldOf bs base docstring ws f) : ∃ w vs, ws = w :: vs ∧ w.kind.isName := by
  cases h with
  | mk kn _ _ _ _ _ => exact ⟨_, _, rfl, kn⟩

lemma fieldItem_complete {behind : List Word} {item : FieldItem}
    (hinline : InlineComplete inline bound) (hbound : remaining s ≤ bound)
    (hitem : EntryOf behind ws item) (h : Took s ws s₁) (hbehind : Took s₁ behind s₂)
    (hend : next s₂ = .delimiter .rightBrace) (hnext : EndsField (next s₁)) :
    fieldItem inline s = .ok (some item) s₁ := by
  rw [fieldItem, kind_bind]
  cases hitem with
  | comment hk =>
      have hbrace : next s ≠ .delimiter .rightBrace := by
        rw [h.next_eq]
        intro hc
        rw [hc] at hk
        cases hk
      rw [if_neg hbrace, if_pos (by rw [h.next_eq]; exact hk), bind_of_ok (comment_complete h)]
      rfl
  | docstring hk hattached =>
      have hfollows := not_follows_of_not_attaches hattached hbehind (by rw [hend]; rfl)
      rw [h.next_eq, hk, if_neg (by simp), if_neg (by simp [Kind.isComment]), if_pos rfl,
        bind_of_ok (docstring_complete h), bind_of_ok fieldFollows_run, hfollows]
      rfl
  | field hbase hf =>
      obtain ⟨w, vs, rfl, hk⟩ := FieldOf.starts hf
      rw [← h.next_eq] at hk
      have hfirst : next s ≠ .delimiter .rightBrace ∧ ¬ (next s).isComment
          ∧ next s ≠ .docstring := by
        rcases isName_cases hk with hc | ⟨k, hc⟩ <;> simp [hc, Kind.isComment]
      rw [if_neg hfirst.1, if_neg hfirst.2.1, if_neg hfirst.2.2, if_pos hk,
        bind_of_ok (field_complete hinline hbound hbase hf h hnext)]
      rfl
  | documented hk hattached hbase hf =>
      obtain ⟨s₃, hw, hus⟩ := h.of_cons
      have hfollows := follows_of_attaches hattached hus
      have hless := hw.remaining_le
      rw [h.next_eq, hk, if_neg (by simp), if_neg (by simp [Kind.isComment]), if_pos rfl,
        bind_of_ok (docstring_complete hw), bind_of_ok fieldFollows_run, hfollows, if_pos rfl,
        bind_of_ok (field_complete hinline (by omega) hbase hf hus hnext)]
      rfl

lemma EntryOf.starts {behind : List Word} {item : FieldItem} (h : EntryOf behind ws item) :
    ∃ w vs, ws = w :: vs ∧ EndsField w.kind := by
  cases h with
  | comment hk => exact ⟨_, _, rfl, .of_isComment hk⟩
  | docstring hk _ => exact ⟨_, _, rfl, by simp [EndsField, hk]⟩
  | field _ hf =>
      obtain ⟨w, vs, rfl, hk⟩ := FieldOf.starts hf
      exact ⟨w, vs, rfl, .of_isName hk⟩
  | documented hk _ _ _ => exact ⟨_, _, rfl, by simp [EndsField, hk]⟩

lemma fieldItems_complete {s s' : σ} {ws : List Word} {items : List FieldItem}
    (hitems : Fields ws items) (h : Took s ws s') (hnext : next s' = .delimiter .rightBrace) :
    fieldItems s = .ok items s' := by
  have hinline : InlineComplete (σ := σ) (innerFields (remaining s)) (remaining s) := by
    intro s₁ ws items s₂ hless hitems h hnext
    rw [innerFields_of_lt hless]
    exact fieldItems_complete hitems h hnext
  rw [fieldItems_eq]
  refine many_complete EndsField ?_ EntryOf.starts (fieldItem_stop hnext) ?_ (fields_iff.1 hitems) h
    (Nat.le_refl _)
  · intro behind us item s₁ s₂ hbound hitem hus hbehind hends
    exact fieldItem_complete hinline hbound hitem hus hbehind hnext hends
  · simp [EndsField, hnext]
termination_by remaining s

end RpcSchema.Reader
