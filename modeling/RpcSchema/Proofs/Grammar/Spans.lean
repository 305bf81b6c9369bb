import RpcSchema.Proofs.Grammar.Acceptance
import RpcSchema.Schema.Docstrings

/-!
# Where statements are from

A derivation from words of one source yields statements of that source, because a span is stretched over
words and a stretch is of the source of its first word.  The docstrings inside a statement are words
themselves, and of that source too, however deep they stand.
-/

namespace RpcSchema

variable {source : Source} {ws us vs : List Word}

/-- Whether words are all of one source. -/
def Word.AreOf (source : Source) (ws : List Word) : Prop := ∀ w ∈ ws, w.span.source = source

lemma Word.AreOf.of_append_left (h : AreOf source (us ++ vs)) : AreOf source us :=
  fun w hw => h w (List.mem_append_left vs hw)

lemma Word.AreOf.of_append_right (h : AreOf source (us ++ vs)) : AreOf source vs :=
  fun w hw => h w (List.mem_append_right us hw)

lemma Word.AreOf.stretch (h : AreOf source ws) (hne : ws ≠ []) :
    (stretch ws).source = source := by
  cases ws with
  | nil => exact absurd rfl hne
  | cons w ws => exact h w List.mem_cons_self

lemma FieldItem.docstrings_cons (item : FieldItem) (items : List FieldItem) :
    FieldItem.docstrings (item :: items)
      = FieldItem.docstrings [item] ++ FieldItem.docstrings items := by
  cases item with
  | field f =>
      obtain ⟨_, _, _, _, ⟨_, _, _⟩, _⟩ := f
      simp [FieldItem.docstrings]
  | _ => rfl

namespace Grammar

/-- What holds of every part with words of the source holds of all parts of a sequence. -/
lemma Sequence.forall_mem {α : Type} {part : List Word → List Word → α → Prop} {P : α → Prop}
    {as : List α} (hpart : ∀ {us behind a}, part behind us a → Word.AreOf source us → P a)
    (h : Sequence part ws as) (hws : Word.AreOf source ws) : ∀ a ∈ as, P a := by
  induction h with
  | nil => exact nofun
  | cons ha _ ih =>
      intro b hmem
      rcases List.mem_cons.1 hmem with rfl | hmem
      · exact hpart ha hws.of_append_left
      · exact ih hws.of_append_right b hmem

/-! ## Statements -/

lemma DeclOf.source_span {ι : Type} {ks : List Word} {docstring : Option Docstring}
    {body : List Word → List ι → Prop} {d : Declaration ι} (h : DeclOf ks docstring body ws d)
    (hws : Word.AreOf source ws) : d.span.source = source := by
  have hne := h.ne_nil
  cases h
  exact hws.stretch hne

lemma DeclarationOf.source_span {docstring : Option Docstring} {s : Statement}
    (h : DeclarationOf docstring ws s) (hws : Word.AreOf source ws) : s.span.source = source := by
  cases h with
  | rule _ _ hd => exact hd.source_span hws
  | type _ hd => exact hd.source_span hws
  | proc _ hd => exact hd.source_span hws
  | stream _ hd => exact hd.source_span hws

lemma StatementOf.source_span {behind : List Word} {s : Statement} (h : StatementOf behind ws s)
    (hws : Word.AreOf source ws) : s.span.source = source := by
  cases h with
  | version => exact hws.stretch nofun
  | imports => exact hws.stretch nofun
  | comment => exact hws _ List.mem_cons_self
  | docstring => exact hws _ List.mem_cons_self
  | declaration hd => exact hd.source_span hws
  | documented _ _ hd => exact hd.source_span fun w hw => hws w (List.mem_cons_of_mem _ hw)

lemma Statements.source_span {ss : List Statement} (h : Statements ws ss)
    (hws : Word.AreOf source ws) : ∀ s ∈ ss, s.span.source = source :=
  h.forall_mem StatementOf.source_span hws

/-! ## Docstrings -/

lemma Braced.inner {α : Type} {inner : List Word → α → Prop} {a : α} (h : Braced inner ws a)
    (hws : Word.AreOf source ws) : ∃ us, Word.AreOf source us ∧ inner us a := by
  cases h with
  | mk _ hinner _ => exact ⟨_, fun w hw => hws w (by simp [hw]), hinner⟩

lemma FieldOf.docstrings {bs : List Word} {base : FieldBase} {docstring : Option Docstring}
    {f : Field} (h : FieldOf bs base docstring ws f) :
    FieldItem.docstrings [.field f] = docstring.toList ++ base.docstrings ∧ bs ⊆ ws := by
  cases h
  refine ⟨by simp [FieldItem.docstrings], ?_⟩
  intro w hw
  simp [hw]

mutual

lemma BaseOf.source_docstrings : ∀ {ws : List Word} {base : FieldBase}, BaseOf ws base →
    Word.AreOf source ws → ∀ d ∈ base.docstrings, d.span.source = source
  | _, _, .named _ => fun _ _ hd => by cases hd
  | _, _, .object _ hitems _ => fun hws => hitems.source_docstrings fun w hw => hws w (by simp [hw])

lemma EntryOf.source_docstrings : ∀ {behind ws : List Word} {item : FieldItem},
    EntryOf behind ws item → Word.AreOf source ws →
      ∀ d ∈ FieldItem.docstrings [item], d.span.source = source
  | _, _, _, .comment _ => fun _ _ hd => by cases hd
  | _, _, _, .docstring _ _ => by
      intro hws d hd
      cases List.mem_singleton.1 hd
      exact hws _ List.mem_cons_self
  | _, _, _, .field hbase hf => by
      intro hws d hd
      obtain ⟨hdocstrings, hsub⟩ := hf.docstrings
      rw [hdocstrings] at hd
      exact hbase.source_docstrings (fun w hw => hws w (hsub hw)) d hd
  | _, _, _, .documented _ _ hbase hf => by
      intro hws d hd
      obtain ⟨hdocstrings, hsub⟩ := hf.docstrings
      rw [hdocstrings] at hd
      rcases List.mem_append.1 hd with hd | hd
      · cases List.mem_singleton.1 hd
        exact hws _ List.mem_cons_self
      · exact hbase.source_docstrings (fun w hw => hws w (List.mem_cons_of_mem _ (hsub hw))) d hd

lemma Fields.source_docstrings : ∀ {ws : List Word} {items : List FieldItem}, Fields ws items →
    Word.AreOf source ws → ∀ d ∈ FieldItem.docstrings items, d.span.source = source
  | _, _, .nil => fun _ _ hd => by cases hd
  | _, _, .cons hitem hitems => by
      intro hws d hd
      rw [FieldItem.docstrings_cons] at hd
      rcases List.mem_append.1 hd with hd | hd
      · exact hitem.source_docstrings hws.of_append_left d hd
      · exact hitems.source_docstrings hws.of_append_right d hd

end

lemma ProcItemOf.source_docstrings {item : ProcItem} (h : ProcItemOf ws item)
    (hws : Word.AreOf source ws) : ∀ d ∈ item.docstrings, d.span.source = source := by
  have hblock : ∀ {k : Keyword} {b : FieldBlock}, BlockOf k Fields ws (b.span, b.items) →
      ∀ d ∈ FieldItem.docstrings b.items, d.span.source = source := by
    rintro k ⟨_, _⟩ ⟨_, hbody⟩
    obtain ⟨_, hus, hitems⟩ := hbody.inner fun w hw => hws w (List.mem_cons_of_mem _ hw)
    exact hitems.source_docstrings hus
  cases h with
  | input hb => exact hblock hb
  | output hb => exact hblock hb
  | _ => exact nofun

/-- The docstrings of a declaration are of the source if its own one is and those of its body are. -/
lemma DeclOf.source_docstrings {ι : Type} {ks : List Word} {docstring : Option Docstring}
    {body : List Word → List ι → Prop} {d : Declaration ι} (h : DeclOf ks docstring body ws d)
    (inside : List ι → List Docstring) (hws : Word.AreOf source ws)
    (hown : ∀ e ∈ docstring.toList, e.span.source = source)
    (hbody : ∀ {us items}, body us items → Word.AreOf source us →
      ∀ e ∈ inside items, e.span.source = source) :
    ∀ e ∈ d.docstring.toList ++ inside d.items, e.span.source = source := by
  obtain ⟨_, _, hbraced⟩ := h
  obtain ⟨_, hus, hitems⟩ := hbraced.inner fun w hw => hws w (by simp [hw])
  intro e he
  rcases List.mem_append.1 he with he | he
  · exact hown e he
  · exact hbody hitems hus e he

lemma DeclarationOf.source_docstrings {docstring : Option Docstring} {s : Statement}
    (h : DeclarationOf docstring ws s) (hws : Word.AreOf source ws)
    (hown : ∀ e ∈ docstring.toList, e.span.source = source) :
    ∀ e ∈ s.docstrings, e.span.source = source := by
  have hprocs : ∀ {us : List Word} {items : List ProcItem}, Star ProcItemOf us items →
      Word.AreOf source us → ∀ e ∈ items.flatMap ProcItem.docstrings, e.span.source = source := by
    intro us items hitems hus e he
    have hall : ∀ item ∈ items, ∀ e ∈ item.docstrings, e.span.source = source :=
      hitems.forall_mem ProcItemOf.source_docstrings hus
    obtain ⟨item, hitem, he⟩ := List.mem_flatMap.1 he
    exact hall item hitem e he
  cases h with
  | rule _ _ hd =>
      intro e he
      exact hd.source_docstrings (fun _ => []) hws hown (fun _ _ _ => nofun) e
        (List.mem_append_left [] he)
  | type _ hd => exact hd.source_docstrings FieldItem.docstrings hws hown Fields.source_docstrings
  | proc _ hd =>
      exact hd.source_docstrings (List.flatMap ProcItem.docstrings) hws hown hprocs
  | stream _ hd =>
      exact hd.source_docstrings (List.flatMap ProcItem.docstrings) hws hown hprocs

lemma StatementOf.source_docstrings {behind : List Word} {s : Statement}
    (h : StatementOf behind ws s) (hws : Word.AreOf source ws) :
    ∀ d ∈ s.docstrings, d.span.source = source := by
  cases h with
  | docstring =>
      intro d hd
      cases List.mem_singleton.1 hd
      exact hws _ List.mem_cons_self
  | declaration hd => exact hd.source_docstrings hws nofun
  | documented _ _ hd =>
      refine hd.source_docstrings (fun w hw => hws w (List.mem_cons_of_mem _ hw)) ?_
      intro e he
      cases List.mem_singleton.1 he
      exact hws _ List.mem_cons_self
  | _ => exact nofun

end Grammar

/-- The statements that are read from a source are of that source. -/
theorem Schema.source_of_ofSource {schema : Schema} (h : Schema.ofSource source = .ok schema) :
    ∀ s ∈ schema.statements, s.span.source = source :=
  ((Schema.ofSource_eq_ok_iff source schema).1 h).source_span
    fun _ hw => Source.source_of_mem_words hw

/-- The docstrings that are read from a source are of that source. -/
theorem Schema.source_docstrings_of_ofSource {schema : Schema}
    (h : Schema.ofSource source = .ok schema) :
    ∀ s ∈ schema.statements, ∀ d ∈ s.docstrings, d.span.source = source :=
  ((Schema.ofSource_eq_ok_iff source schema).1 h).forall_mem Grammar.StatementOf.source_docstrings
    fun _ hw => Source.source_of_mem_words hw

end RpcSchema
