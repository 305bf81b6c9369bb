import RpcSchema.Proofs.Grammar.Acceptance
import RpcSchema.Proofs.Schema.Remarks

/-!
# Where comments and docstrings end up

Every comment and every docstring of an accepted text is in its schema, once, in its place
(`Schema.ofSource_keeps_remarks`).

A derivation covers its words one after the other, so the remarks among the words of a part are
those of its first piece, then those of the next.  Most pieces have none: a comment or docstring is
no punctuation, name, keyword or literal.  What is left are the words that a rule takes as a comment
or docstring, and the docstring in front of a declaration or field, which the rule puts before
everything inside.
-/

namespace RpcSchema

/-- The comment or docstring that a token is. -/
def Token.remark? (t : Token) : Option Remark :=
  match t.kind with
  | .lineComment => some (.comment ⟨t.span, t.literal, false⟩)
  | .blockComment => some (.comment ⟨t.span, t.literal, true⟩)
  | .docstring => some (.docstring ⟨t.span, t.literal⟩)
  | _ => none

/-- The docstring that a token is. -/
def Token.docstring? (t : Token) : Option Docstring := t.remark?.bind Remark.docstring?

namespace Word

/-- The comments and docstrings among words. -/
def remarks (ws : List Word) : List Remark := ws.filterMap (·.token.remark?)

variable {w : Word} {ws us : List Word}

@[simp] lemma remarks_nil : remarks [] = [] := rfl

@[simp] lemma remarks_append : remarks (ws ++ us) = remarks ws ++ remarks us :=
  List.filterMap_append

lemma remarks_cons_comment (h : w.kind.isComment) :
    remarks (w :: ws) = .comment w.comment :: remarks ws := by
  have hremark : w.token.remark? = some (.comment w.comment) := by
    cases hk : w.token.kind <;> simp_all [Token.remark?, Word.comment, Kind.isComment]
  exact List.filterMap_cons_some hremark

lemma remarks_cons_docstring (h : w.kind = .docstring) :
    remarks (w :: ws) = .docstring w.docstring :: remarks ws := by
  refine List.filterMap_cons_some ?_
  simp [Token.remark?, h, Word.docstring]

/-- A word of another kind is no remark. -/
lemma remarks_cons_other (hc : w.kind.isComment = false) (hd : w.kind ≠ .docstring) :
    remarks (w :: ws) = remarks ws := by
  have hremark : w.token.remark? = none := by
    cases hk : w.token.kind <;> simp_all [Token.remark?, Kind.isComment]
  exact List.filterMap_cons_none hremark

@[simp] lemma remarks_cons_delimiter {d : Delimiter} (h : w.kind = .delimiter d) :
    remarks (w :: ws) = remarks ws := remarks_cons_other (by simp [h, Kind.isComment]) (by simp [h])

@[simp] lemma remarks_cons_keyword {k : Keyword} (h : w.kind = .keyword k) :
    remarks (w :: ws) = remarks ws := remarks_cons_other (by simp [h, Kind.isComment]) (by simp [h])

@[simp] lemma remarks_cons_identifier (h : w.kind = .identifier) :
    remarks (w :: ws) = remarks ws := remarks_cons_other (by simp [h, Kind.isComment]) (by simp [h])

@[simp] lemma remarks_cons_string (h : w.kind = .string) :
    remarks (w :: ws) = remarks ws := remarks_cons_other (by simp [h, Kind.isComment]) (by simp [h])

@[simp] lemma remarks_cons_integer (h : w.kind = .integer) :
    remarks (w :: ws) = remarks ws := remarks_cons_other (by simp [h, Kind.isComment]) (by simp [h])

@[simp] lemma remarks_cons_name (h : w.kind.isName) : remarks (w :: ws) = remarks ws := by
  refine remarks_cons_other ?_ ?_ <;>
    cases hk : w.token.kind <;> simp_all [Kind.isName, Kind.isComment, Kind.isKeyword]

@[simp] lemma remarks_cons_typeName (h : w.kind.isTypeName) : remarks (w :: ws) = remarks ws := by
  refine remarks_cons_other ?_ ?_ <;>
    cases hk : w.token.kind <;> simp_all [Kind.isTypeName, Kind.isComment, Kind.isPrimitive]

end Word

namespace Grammar

open Word (remarks)

variable {ws us behind : List Word}

/-! ## Pieces without remarks -/

lemma LiteralOf.remarks_cons {w : Word} {l : Literal} (h : LiteralOf w l) :
    remarks (w :: ws) = remarks ws := by
  cases h with
  | string hk => simp [hk]
  | integer hk _ => simp [hk]
  | float hk => exact Word.remarks_cons_other (by simp [hk, Kind.isComment]) (by simp [hk])
  | boolean hk => exact Word.remarks_cons_other (by simp [hk, Kind.isComment]) (by simp [hk])

/-- The remarks of a sequence are those of its parts. -/
lemma Sequence.remarks {α : Type} {part : List Word → List Word → α → Prop} {as : List α}
    (h : Sequence part ws as) (inside : α → List Remark)
    (hpart : ∀ {us behind a}, part behind us a → remarks us = inside a) :
    remarks ws = as.flatMap inside := by
  induction h with
  | nil => rfl
  | cons ha _ ih => rw [Word.remarks_append, hpart ha, ih, List.flatMap_cons]

/-- A sequence of parts without remarks has none. -/
lemma Sequence.remarks_eq_nil {α : Type} {part : List Word → List Word → α → Prop} {as : List α}
    (h : Sequence part ws as) (hpart : ∀ {us behind a}, part behind us a → Word.remarks us = []) :
    Word.remarks ws = [] := by
  rw [h.remarks (fun _ => []) hpart]
  simp

lemma Mark.remarks {d : Delimiter} {b : Bool} (h : Mark d ws b) : remarks ws = [] := by
  cases h with
  | absent => rfl
  | present hk => simp [hk]

lemma Brackets.remarks {b : Bool} (h : Brackets ws b) : remarks ws = [] := by
  cases h with
  | absent => rfl
  | present hl hr => simp [hl, hr]

lemma ErrorOf.remarks {e : ErrorClause} (h : ErrorOf ws e) : remarks ws = [] := by
  cases h with
  | mk he hc hm => simp [he, hc, hm]

lemma NextItem.remarks {k : ValueKind} {l : Literal} (h : NextItem k ws l) : remarks ws = [] := by
  cases h with
  | mk hc hl _ => simp [hc, hl.remarks_cons]

lemma Items.remarks {ls : List Literal} (h : Items ws ls) : remarks ws = [] := by
  cases h with
  | none => rfl
  | some hl hrest htrailing =>
      simp [hl.remarks_cons, hrest.remarks_eq_nil NextItem.remarks, htrailing.remarks]

lemma ArgumentOf.remarks {a : Argument} (h : ArgumentOf ws a) : remarks ws = [] := by
  cases h with
  | single hl => simp [hl.remarks_cons]
  | array hl hitems hr => simp [hl, hitems.remarks, hr]

lemma Arguments.remarks {p : Option Argument × Option ErrorClause} (h : Arguments ws p) :
    remarks ws = [] := by
  cases h with
  | empty => rfl
  | error he => exact he.remarks
  | argument ha => exact ha.remarks
  | both ha hc he => simp [ha.remarks, hc, he.remarks]

lemma UseOf.remarks {u : RuleUse} (h : UseOf ws u) : remarks ws = [] := by
  cases h with
  | bare hm hn => simp [hm, hn]
  | given hm hn hl ha hr => simp [hm, hn, hl, ha.remarks, hr]

lemma ClauseOf.remarks {k : Keyword} {c : TypeClause} (h : ClauseOf k ws c) : remarks ws = [] := by
  cases h with
  | mk hk hc ht hb => simp [hk, hc, ht, hb.remarks]

lemma DeprecationOf.remarks {d : Option Deprecation} (h : DeprecationOf ws d) : remarks ws = [] := by
  cases h with
  | absent => rfl
  | bare hk => simp [hk]
  | reason hk hl hm hr => simp [hk, hl, hm, hr]

/-! ## Fields -/

/-- The remarks of a field behind its docstring are those of its type. -/
lemma FieldOf.remarks {bs : List Word} {base : FieldBase} {docstring : Option Docstring} {f : Field}
    (h : FieldOf bs base docstring ws f) (hbase : remarks bs = base.remarks) :
    Remark.ofDocstring? docstring ++ remarks ws = FieldItem.remarks [.field f] := by
  cases h with
  | mk hn hms hc hks hns hus =>
      simp [FieldItem.remarks, hn, hms.remarks, hc, hbase, hks.remarks, hns.remarks,
        hus.remarks_eq_nil UseOf.remarks]

mutual

lemma BaseOf.remarks : ∀ {ws : List Word} {base : FieldBase}, BaseOf ws base →
    Word.remarks ws = base.remarks
  | _, _, .named ht => by simp [ht, FieldBase.remarks]
  | _, _, .object hl hitems hr => by
      have hinside := hitems.remarks
      simp [hl, hinside, hr, FieldBase.remarks]

lemma EntryOf.remarks : ∀ {behind ws : List Word} {item : FieldItem}, EntryOf behind ws item →
    Word.remarks ws = FieldItem.remarks [item]
  | _, _, _, .comment hk => Word.remarks_cons_comment hk
  | _, _, _, .docstring hk _ => Word.remarks_cons_docstring hk
  | _, _, _, .field hbase hf => hf.remarks hbase.remarks
  | _, _, _, .documented hk _ hbase hf => by
      rw [Word.remarks_cons_docstring hk, ← hf.remarks hbase.remarks]
      rfl

lemma Fields.remarks : ∀ {ws : List Word} {items : List FieldItem}, Fields ws items →
    Word.remarks ws = FieldItem.remarks items
  | _, _, .nil => rfl
  | _, _, .cons hitem hitems => by
      rw [Word.remarks_append, hitem.remarks, hitems.remarks, ← FieldItem.remarks_cons]

end

/-! ## Declarations and statements -/

lemma RuleItemOf.remarks {item : RuleItem} (h : RuleItemOf ws item) : remarks ws = item.remarks := by
  cases h with
  | comment hk => exact Word.remarks_cons_comment hk
  | target hc => exact hc.remarks
  | param hc => exact hc.remarks
  | error he => exact he.remarks

lemma MetaItemOf.remarks {item : MetaItem} (h : MetaItemOf ws item) : remarks ws = item.remarks := by
  cases h with
  | comment hk => exact Word.remarks_cons_comment hk
  | entry hk hc hl => simp [hk, hc, hl.remarks_cons, MetaItem.remarks]

lemma Braced.remarks {α : Type} {inner : List Word → α → Prop} {a : α} {inside : α → List Remark}
    (h : Braced inner ws a) (hinner : ∀ {us a}, inner us a → remarks us = inside a) :
    remarks ws = inside a := by
  cases h with
  | mk hl ha hr => simp [hl, hinner ha, hr]

lemma BlockOf.remarks {ι : Type} {keyword : Keyword} {items : List Word → List ι → Prop}
    {b : Span × List ι} {inside : List ι → List Remark} (h : BlockOf keyword items ws b)
    (hitems : ∀ {us is}, items us is → remarks us = inside is) : remarks ws = inside b.2 := by
  cases h with
  | mk hk hbody => rw [Word.remarks_cons_keyword hk, hbody.remarks hitems]

lemma ProcItemOf.remarks {item : ProcItem} (h : ProcItemOf ws item) : remarks ws = item.remarks := by
  cases h with
  | comment hk => exact Word.remarks_cons_comment hk
  | input hb => exact hb.remarks Fields.remarks
  | output hb => exact hb.remarks Fields.remarks
  | metadata hb => exact hb.remarks fun his => his.remarks MetaItem.remarks MetaItemOf.remarks

/-- The remarks of a declaration behind its docstring are those of its body. -/
lemma DeclOf.remarks {ι : Type} {ks : List Word} {docstring : Option Docstring}
    {body : List Word → List ι → Prop} {d : Declaration ι} {inside : List ι → List Remark}
    (h : DeclOf ks docstring body ws d) (hks : remarks ks = [])
    (hbody : ∀ {us is}, body us is → remarks us = inside is) :
    Remark.ofDocstring? docstring ++ remarks ws = d.remarks inside := by
  cases h with
  | mk hdeprecation hn hbraced =>
      simp [Declaration.remarks, hdeprecation.remarks, hks, hn, hbraced.remarks hbody]

lemma DeclarationOf.remarks {docstring : Option Docstring} {s : Statement}
    (h : DeclarationOf docstring ws s) :
    Remark.ofDocstring? docstring ++ remarks ws = s.remarks := by
  cases h with
  | rule hk hm hd =>
      exact hd.remarks (by simp [hk, hm]) fun his => his.remarks RuleItem.remarks RuleItemOf.remarks
  | type hk hd => exact hd.remarks (by simp [hk]) Fields.remarks
  | proc hk hd =>
      exact hd.remarks (by simp [hk]) fun his => his.remarks ProcItem.remarks ProcItemOf.remarks
  | stream hk hd =>
      exact hd.remarks (by simp [hk]) fun his => his.remarks ProcItem.remarks ProcItemOf.remarks

lemma StatementOf.remarks {s : Statement} (h : StatementOf behind ws s) : remarks ws = s.remarks := by
  cases h with
  | version hk hn _ => simp [hk, hn, Statement.remarks]
  | imports hk hp => simp [hk, hp, Statement.remarks]
  | comment hk => exact Word.remarks_cons_comment hk
  | docstring hk _ => exact Word.remarks_cons_docstring hk
  | declaration hd => exact hd.remarks
  | documented hk _ hd =>
      rw [Word.remarks_cons_docstring hk, ← hd.remarks]
      rfl

end Grammar

/-! ## Sources -/

/-- The remarks of a text's words are those of its tokens. -/
lemma Source.remarks_words (source : Source) :
    Word.remarks source.words = source.tokens.filterMap Token.remark? := by
  have hwords : Word.remarks source.words
      = (source.words.map (·.token)).filterMap Token.remark? := by
    rw [List.filterMap_map]
    rfl
  rw [hwords, source.map_token_words, List.filterMap_filter]
  congr
  funext t
  split_ifs with h
  · rfl
  · have hkind : t.kind = .newline ∨ t.kind = .endOfFile := by
      simpa [Decidable.imp_iff_not_or] using h
    rcases hkind with hk | hk <;> simp [Token.remark?, hk]

lemma Schema.remarks_of_ofSource {source : Source} {schema : Schema}
    (h : Schema.ofSource source = .ok schema) :
    schema.remarks = source.tokens.filterMap Token.remark? := by
  have hstatements := (Schema.ofSource_eq_ok_iff source schema).1 h
  rw [← source.remarks_words]
  exact (Grammar.Sequence.remarks hstatements Statement.remarks Grammar.StatementOf.remarks).symm

lemma Schema.docstrings_of_ofSource {source : Source} {schema : Schema}
    (h : Schema.ofSource source = .ok schema) :
    schema.docstrings = source.tokens.filterMap Token.docstring? := by
  rw [← schema.filterMap_remarks, Schema.remarks_of_ofSource h, List.filterMap_filterMap]
  rfl

/-- The comments and docstrings of an accepted text's schema, from front to back, are the comment
and docstring tokens of the text.  New texts for the docstrings, whatever effect they are computed
with, are computed once for each docstring token, in the order of the text; the schema that comes
out has these docstrings, and apart from their texts it is as before. -/
theorem Schema.ofSource_keeps_remarks {source : Source} {schema : Schema}
    (h : Schema.ofSource source = .ok schema) :
    schema.remarks = source.tokens.filterMap Token.remark?
      ∧ schema.docstrings = source.tokens.filterMap Token.docstring?
      ∧ ∀ (m : Type → Type) [Monad m] [LawfulMonad m] (f : Docstring → m String),
        (fun t => (t.docstrings, Edit.withoutText.schema t)) <$> schema.mapDocstringsM f
          = (fun ds => (ds, Edit.withoutText.schema schema))
              <$> (source.tokens.filterMap Token.docstring?).mapM (Docstring.mapM f) := by
  have hdocstrings := Schema.docstrings_of_ofSource h
  refine ⟨Schema.remarks_of_ofSource h, hdocstrings, fun m _ _ f => ?_⟩
  rw [← hdocstrings]
  exact schema.revises_mapDocstringsM

/-- A docstring of a type, one of a field inside a field, one by itself, and a comment of each form. -/
def remarked : Source where
  file := "remarked"
  contents := "\"\"\"outer\"\"\" type A \x7b b: \x7b\n\"\"\"inner\"\"\"\nc: int // line\n\x7d /* block */ \x7d\n"
    ++ "\"\"\"alone\"\"\"\n\n proc P \x7b\x7d"

/-- Empties a docstring and notes down what its text was. -/
def noteText (d : Docstring) : StateM (List String) String :=
  modifyGet fun seen => ("", seen ++ [d.text])

/-- All five are found in their order, and a visit meets the three docstrings one by one. -/
theorem remarked_kept : ∃ schema, Schema.ofSource remarked = .ok schema
    ∧ schema.remarks.map (fun | .comment c => c.text | .docstring d => d.text)
      = ["outer", "inner", "line", "block", "alone"]
    ∧ ((schema.mapDocstringsM noteText).run []).2 = ["outer", "inner", "alone"] := by
  have haccepted : (Schema.ofSource remarked).toOption.isSome = true := by decide +kernel
  cases h : Schema.ofSource remarked with
  | error e =>
      rw [h] at haccepted
      cases haccepted
  | ok schema =>
      obtain ⟨hremarks, -, hvisit⟩ := Schema.ofSource_keeps_remarks h
      refine ⟨schema, rfl, ?_, ?_⟩
      · rw [hremarks]
        decide +kernel
      · have hnoted := congrArg (fun x => (StateT.run x []).2) (hvisit (StateM (List String)) noteText)
        refine Eq.trans hnoted ?_
        change (((remarked.tokens.filterMap Token.docstring?).mapM (Docstring.mapM noteText)).run []).2
          = _
        decide +kernel

end RpcSchema
