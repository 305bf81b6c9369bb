import RpcSchema.Proofs.Grammar.Simulation

/-!
# Fields on two supplies

What is read of leaves, uses of rules and fields is alike on supplies that tell the same, from the
leaves up to lists of fields (`fieldItems_alike`).  A lemma of a reader that takes a word answers
for the states behind it, so that the span can be stretched to there.
-/

namespace RpcSchema.Simulation

open TokenSupply LawfulSupply Reader

variable {C : Correspondence} {σ τ : Type} [TokenSupply σ] [LawfulSupply σ] [TokenSupply τ]
  [LawfulSupply τ] {S : Simulation C σ τ} {s : σ} {t : τ} {α β γ : Type}

/-! ## Leaves -/

lemma name_alike (h : S.Rel s t) : S.behind.Alike C.SameName (name s) (name t) :=
  (take_alike h).bind fun hab h => .pure ⟨hab.literal, hab.2⟩ h

lemma identifier_alike (h : S.Rel s t) (role : String) :
    S.behind.Alike C.SameName (identifier role s) (identifier role t) :=
  (expect_alike h _ _).bind fun hab h => .pure ⟨hab.literal, hab.2⟩ h

lemma typeName_alike (h : S.Rel s t) :
    S.behind.Alike C.SameName (typeName s) (typeName t) := by
  rw [typeName, typeName, kind_bind, kind_bind, next_eq h]
  split
  · exact name_alike h
  · exact errorAtNext_alike h _

lemma arraySuffix_alike (h : S.Rel s t) : S.Alike Eq (arraySuffix s) (arraySuffix t) := by
  refine (takeMark?_alike h _).bind ?_
  rintro isOpen _ s t rfl h
  cases isOpen
  · exact .pure rfl h
  · exact (expectMark_alike h _ _).weaken.bind fun _ h => .pure rfl h

lemma stringLiteral_alike (h : S.Rel s t) (role : String) :
    S.behind.Alike Eq (stringLiteral role s) (stringLiteral role t) := by
  refine (expect_alike h _ _).bind fun hab h => .pure ?_ h
  rw [stringValue, stringValue, hab.literal]

lemma natural_alike {a b : Token} (hab : C.SameToken a b) (h : S.Rel s t) :
    S.Alike Eq (natural a s) (natural b t) := by
  rw [natural, natural, hab.literal]
  split
  · exact .pure rfl h
  · exact ⟨rfl, hab.2⟩

lemma comment_alike (h : S.Rel s t) : S.behind.Alike
    (fun a b => C.editLeft.comment a = C.editRight.comment b) (comment s) (comment t) := by
  refine (take_alike h).bind fun {a b _ _} hab h => .pure ?_ h
  rw [Edit.comment, Edit.comment, hab.literal, hab.kind, C.edit_span hab.2]

lemma docstring_alike (h : S.Rel s t) : S.behind.Alike
    (fun a b => C.editLeft.docstring a = C.editRight.docstring b) (docstring s) (docstring t) := by
  refine (take_alike h).bind fun {a b _ _} hab h => .pure ?_ h
  rw [Edit.docstring, Edit.docstring, hab.literal, C.edit_span hab.2]
  rfl

lemma docstring_bind {ρ : Type} [TokenSupply ρ] {f : Docstring → Reader ρ α} {r : ρ} :
    (docstring >>= f) r = f (peek r 0).docstring (TokenSupply.advance r) := rfl

lemma literal_alike (h : S.Rel s t) : S.behind.Alike C.SameLiteral (literal s) (literal t) := by
  have htoken := S.token h
  -- whatever the kind, the value is found first and the word is taken then
  have hvalue : ∀ {v v' : Value} {s : σ} {t : τ} {a b : Span}, v = v' → S.Rel s t → C.Place a b →
      S.behind.Alike C.SameLiteral ((do let _ ← take; pure ⟨a, v⟩ : Reader σ Literal) s)
        ((do let _ ← take; pure ⟨b, v'⟩ : Reader τ Literal) t) :=
    fun hv h hplace => (take_alike h).bind fun _ h => .pure ⟨hv, hplace⟩ h
  rw [literal, literal, get_bind, get_bind]
  dsimp only
  rw [htoken.kind]
  cases (peek t 0).token.kind with
  | string =>
      refine hvalue ?_ h htoken.2
      rw [stringValue, stringValue, htoken.literal]
  | integer =>
      have hnatural := (natural_alike htoken h).map (p := Value.int) (q := Value.int)
        (Q := Eq) fun hab => congrArg _ hab
      exact hnatural.bind_behind fun hv h => hvalue hv h htoken.2
  | float =>
      refine hvalue ?_ h htoken.2
      rw [htoken.literal]
  | boolean b => exact hvalue rfl h htoken.2
  | _ => exact errorAtNext_alike h _

/-! ## Uses of rules -/

/-- Where two edits of the parts agree, those of lists agree. -/
lemma map_eq_map {p : α → γ} {q : β → γ} {as : List α} {bs : List β}
    (h : List.Forall₂ (fun a b => p a = q b) as bs) : as.map p = bs.map q := by
  induction h with
  | nil => rfl
  | cons hab _ ih => rw [List.map_cons, List.map_cons, hab, ih]

lemma errorClause_alike (h : S.Rel s t) : S.behind.Alike
    (fun a b => C.editLeft.errorClause a = C.editRight.errorClause b)
    (errorClause s) (errorClause t) := by
  refine (expect_alike h _ _).bind fun hkeyword h => ?_
  refine (expectMark_alike h _ _).weaken.bind fun _ h => ?_
  refine (stringLiteral_alike h _).weaken.bind fun {message _ s t} hmessage h => ?_
  subst hmessage
  rw [spanFrom_bind, spanFrom_bind]
  refine .pure ?_ h
  rw [Edit.errorClause, Edit.errorClause, stretch h hkeyword.2]

lemma arrayItem_alike (h : S.Rel s t) (first : ValueKind) :
    S.Alike (Option.Rel C.SameLiteral) (arrayItem first s) (arrayItem first t) := by
  rw [arrayItem, arrayItem]
  refine (takeMark?_alike h _).bind ?_
  rintro comma _ s t rfl h
  cases comma
  · exact .pure .none h
  · simp only [if_true]
    rw [kind_bind, kind_bind, next_eq h]
    split
    · exact .pure .none h
    · refine (literal_alike h).weaken.bind fun {item item' s t} hitem h => ?_
      rw [hitem.1]
      split
      · exact .pure (.some hitem) h
      · exact ⟨rfl, hitem.2⟩

lemma arrayItems_alike (h : S.Rel s t) :
    S.Alike (List.Forall₂ C.SameLiteral) (arrayItems s) (arrayItems t) := by
  rw [arrayItems, arrayItems, kind_bind, kind_bind, next_eq h]
  split
  · exact .pure .nil h
  · refine (literal_alike h).weaken.bind fun {first first' s t} hfirst h => ?_
    rw [hfirst.1]
    exact (many_alike (fun h => arrayItem_alike h _) h).bind fun hrest h => .pure (.cons hfirst hrest) h

lemma argument_alike (h : S.Rel s t) : S.behind.Alike
    (fun a b => C.editLeft.argument a = C.editRight.argument b) (argument s) (argument t) := by
  rw [argument, argument, kind_bind, kind_bind, next_eq h]
  split
  · refine (take_alike h).bind fun hopening h => ?_
    refine (arrayItems_alike h).bind fun hitems h => ?_
    refine (expectMark_alike h _ _).weaken.bind fun _ h => ?_
    rw [spanFrom_bind, spanFrom_bind]
    refine .pure ?_ h
    rw [Edit.argument, Edit.argument, stretch h hopening.2,
      map_eq_map (hitems.imp fun _ _ => Correspondence.SameLiteral.edit)]
  · refine (literal_alike h).bind fun hitem h => .pure ?_ h
    rw [Edit.argument, Edit.argument, hitem.edit]

lemma useArguments_alike (h : S.Rel s t) : S.Alike
    (fun a b => a.1.map C.editLeft.argument = b.1.map C.editRight.argument
      ∧ a.2.map C.editLeft.errorClause = b.2.map C.editRight.errorClause)
    (useArguments s) (useArguments t) := by
  rw [useArguments, useArguments, kind_bind, kind_bind, next_eq h, kindAhead_bind, kindAhead_bind,
    next_ahead_eq h]
  split
  · refine (errorClause_alike h).weaken.bind fun herror h => .pure ⟨rfl, ?_⟩ h
    rw [Option.map_some, Option.map_some, herror]
  rw [kind_bind, kind_bind, next_eq h]
  split
  · exact .pure ⟨rfl, rfl⟩ h
  refine (argument_alike h).weaken.bind fun {a b s t} hargument h => ?_
  have hsome : (some a).map C.editLeft.argument = (some b).map C.editRight.argument :=
    congrArg some hargument
  refine (takeMark?_alike h _).bind ?_
  rintro comma _ s t rfl h
  cases comma
  · exact .pure ⟨hsome, rfl⟩ h
  · exact (errorClause_alike h).weaken.bind fun herror h => .pure ⟨hsome, congrArg some herror⟩ h

lemma ruleUse_alike (h : S.Rel s t) : S.behind.Alike
    (fun a b => C.editLeft.ruleUse a = C.editRight.ruleUse b) (ruleUse s) (ruleUse t) := by
  refine (expectMark_alike h _ _).bind fun hmark h => ?_
  refine (identifier_alike h _).weaken.bind fun hname h => ?_
  refine (takeMark?_alike h _).bind ?_
  rintro given _ s t rfl h
  cases given
  · simp only [Bool.false_eq_true, if_false]
    rw [spanFrom_bind, spanFrom_bind]
    refine .pure ?_ h
    rw [Edit.ruleUse, Edit.ruleUse, hname.edit, stretch h hmark.2]
    rfl
  · simp only [if_true]
    refine (useArguments_alike h).bind fun {a b s t} hab h => ?_
    obtain ⟨argument, error⟩ := a
    obtain ⟨argument', error'⟩ := b
    refine (expectMark_alike h _ _).weaken.bind fun _ h => ?_
    rw [spanFrom_bind, spanFrom_bind]
    refine .pure ?_ h
    rw [Edit.ruleUse, Edit.ruleUse, hname.edit, stretch h hmark.2, hab.1, hab.2]

lemma ruleUse?_alike (h : S.Rel s t) : S.Alike
    (Option.Rel fun a b => C.editLeft.ruleUse a = C.editRight.ruleUse b) (ruleUse? s)
    (ruleUse? t) := by
  rw [ruleUse?, ruleUse?, kind_bind, kind_bind, next_eq h]
  split
  · exact (ruleUse_alike h).weaken.map .some
  · exact .pure .none h

/-! ## Fields and their types -/

section

variable {inline : Reader σ (List FieldItem)} {inline' : Reader τ (List FieldItem)}

variable (S) in
/-- Readers of inline objects that read the same. -/
def SameFields (inline : Reader σ (List FieldItem)) (inline' : Reader τ (List FieldItem)) : Prop :=
  ∀ {s t}, S.Rel s t → S.Alike (fun a b => C.editLeft.fieldItems a = C.editRight.fieldItems b)
    (inline s) (inline' t)

/-- What follows the base of a type. -/
lemma typed_alike {base base' : FieldBase} {start start' : Span} {s : σ} {t : τ}
    (h : S.behind.Rel s t) (hbase : C.editLeft.fieldBase base = C.editRight.fieldBase base')
    (hstart : C.Place start start') :
    S.behind.Alike (fun a b => C.editLeft.fieldType a = C.editRight.fieldType b)
      ((do let isArray ← arraySuffix; pure ⟨← spanFrom start, base, isArray⟩ :
        Reader σ FieldType) s)
      ((do let isArray ← arraySuffix; pure ⟨← spanFrom start', base', isArray⟩ :
        Reader τ FieldType) t) := by
  refine (arraySuffix_alike h).bind ?_
  rintro isArray _ s t rfl h
  rw [spanFrom_bind, spanFrom_bind]
  refine .pure ?_ h
  simp only [Edit.fieldType, hbase]
  rw [stretch h hstart]

lemma fieldType_alike (hinline : S.SameFields inline inline') (h : S.Rel s t) : S.behind.Alike
    (fun a b => C.editLeft.fieldType a = C.editRight.fieldType b)
    (fieldType inline s) (fieldType inline' t) := by
  have hstart := (S.token h).2
  rw [fieldType, fieldType, here_bind, here_bind, kind_bind, kind_bind, next_eq h]
  split
  · refine (take_alike h).weaken.bind_behind fun _ h => ?_
    refine (hinline h).bind_behind fun hitems h => ?_
    refine (expectMark_alike h _ _).bind fun _ h => typed_alike h ?_ hstart
    rw [Edit.fieldBase, Edit.fieldBase, hitems]
  split
  · have hnamed := (name_alike h).map (p := FieldBase.named) (q := FieldBase.named)
      (Q := fun a b => C.editLeft.fieldBase a = C.editRight.fieldBase b) fun hname => by
        rw [Edit.fieldBase, Edit.fieldBase, hname.edit]
    exact hnamed.bind fun hbase h => typed_alike h hbase hstart
  · exact errorAtNext_alike h _

lemma field_alike {d : Option Docstring} {d' : Option Docstring}
    (hinline : S.SameFields inline inline')
    (hd : d.map C.editLeft.docstring = d'.map C.editRight.docstring) (h : S.Rel s t) :
    S.behind.Alike (fun a b => C.editLeft.field a = C.editRight.field b)
      (field inline d s) (field inline' d' t) := by
  rw [field, field]
  refine (name_alike h).weaken.bind_behind fun hname h => ?_
  refine (takeMark?_alike h _).bind_behind ?_
  rintro byName _ s t rfl h
  refine (expectMark_alike h _ _).weaken.bind_behind fun _ h => ?_
  refine (fieldType_alike hinline h).bind fun htype h => ?_
  refine (takeMark?_alike h _).bind ?_
  rintro byType _ s t rfl h
  refine (many_alike ruleUse?_alike h).bind fun hrules h => ?_
  rw [spanFrom_bind, spanFrom_bind]
  refine .pure ?_ h
  simp only [Edit.field, hd, hname.edit, htype, map_eq_map hrules]
  rw [stretch h hname.2]

lemma fieldFollows_alike (h : S.Rel s t) (hd : next s = .docstring) :
    S.Alike Eq (fieldFollows (TokenSupply.advance s)) (fieldFollows (TokenSupply.advance t)) := by
  have hbreaks := S.attached h hd
  rw [peek_one (S.ready h).1, peek_one (S.ready h).2] at hbreaks
  rw [fieldFollows, fieldFollows, kind_bind, kind_bind, breaksAhead_bind, breaksAhead_bind,
    next_eq (S.advance h), decide_eq_decide.2 hbreaks]
  exact .pure rfl (S.advance h)

lemma fieldItem_alike (hinline : S.SameFields inline inline') (h : S.Rel s t) : S.Alike
    (Option.Rel fun a b => C.editLeft.fieldItem a = C.editRight.fieldItem b)
    (fieldItem inline s) (fieldItem inline' t) := by
  rw [fieldItem, fieldItem, kind_bind, kind_bind, next_eq h]
  split
  · exact .pure .none h
  split
  · refine (comment_alike h).weaken.bind fun hcomment h => .pure (.some ?_) h
    rw [Edit.fieldItem, Edit.fieldItem, hcomment]
  split
  · next hd =>
      -- the docstring is taken first, and then the word behind it is looked at
      have hdocstring : C.editLeft.docstring (peek s 0).docstring
          = C.editRight.docstring (peek t 0).docstring := (docstring_alike h).1
      have hsome : (some (peek s 0).docstring).map C.editLeft.docstring
          = (some (peek t 0).docstring).map C.editRight.docstring := congrArg some hdocstring
      rw [docstring_bind, docstring_bind]
      refine (fieldFollows_alike h ((next_eq h).trans hd)).bind ?_
      rintro follows _ s t rfl h
      cases follows
      · exact .pure (.some (congrArg FieldItem.docstring hdocstring)) h
      · refine (field_alike hinline hsome h).weaken.bind
          fun hfield h => .pure (.some ?_) h
        rw [Edit.fieldItem, Edit.fieldItem, hfield]
  split
  · refine (field_alike hinline rfl h).weaken.bind fun hfield h => .pure (.some ?_) h
    rw [Edit.fieldItem, Edit.fieldItem, hfield]
  · exact errorAtNext_alike h _

lemma fieldItems_alike (h : S.Rel s t) : S.Alike
    (fun a b => C.editLeft.fieldItems a = C.editRight.fieldItems b) (fieldItems s) (fieldItems t) := by
  refine nest_alike (fun {inline inline'} hinline {s t} h => ?_) h
  refine (many_alike (fieldItem_alike (S := S) hinline) h).imp fun hitems => ?_
  rw [Edit.fieldItems_eq_map, Edit.fieldItems_eq_map, map_eq_map hitems]

end

end RpcSchema.Simulation
