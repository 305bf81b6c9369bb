import RpcSchema.Proofs.Schema.Edits

/-!
# Comments and docstrings in their order

Comments and docstrings are the remarks of a schema.  `Schema.remarks` meets them from front to
back: the docstring of a declaration or field comes before what is inside it.

**Visiting.**  Whatever effect new texts for docstrings are computed with, the computation is run
once for each docstring among the remarks, in their order; the schema that comes out has the
docstrings with their new texts, and is the same schema where the texts of docstrings are left out
(`Schema.revises_mapDocstringsM`).
-/

namespace RpcSchema

/-- A comment or a docstring. -/
inductive Remark where
  | comment (comment : Comment)
  | docstring (docstring : Docstring)
deriving DecidableEq, Repr

namespace Remark

/-- The docstring that a remark is. -/
def docstring? : Remark → Option Docstring
  | .docstring d => some d
  | .comment _ => none

/-- The remark that a docstring is, where there is one. -/
def ofDocstring? (d : Option Docstring) : List Remark := d.toList.map .docstring

lemma filterMap_ofDocstring? (d : Option Docstring) :
    (ofDocstring? d).filterMap docstring? = d.toList := by cases d <;> rfl

end Remark

/-! ## The remarks of a tree -/

mutual

/-- The remarks inside the type of a field. -/
def FieldBase.remarks : FieldBase → List Remark
  | .named _ => []
  | .object items => FieldItem.remarks items

/-- The remarks of a list of fields. -/
def FieldItem.remarks : List FieldItem → List Remark
  | [] => []
  | .field ⟨_, docstring, _, _, ⟨_, base, _⟩, _⟩ :: rest =>
    Remark.ofDocstring? docstring ++ base.remarks ++ FieldItem.remarks rest
  | .comment c :: rest => .comment c :: FieldItem.remarks rest
  | .docstring d :: rest => .docstring d :: FieldItem.remarks rest

end

/-- The remarks in an entry of a rule's body. -/
def RuleItem.remarks : RuleItem → List Remark
  | .comment c => [.comment c]
  | _ => []

/-- The remarks in an entry of a block of metadata. -/
def MetaItem.remarks : MetaItem → List Remark
  | .comment c => [.comment c]
  | .entry _ => []

/-- The remarks in an entry of a procedure's body. -/
def ProcItem.remarks : ProcItem → List Remark
  | .input b | .output b => FieldItem.remarks b.items
  | .metadata b => b.items.flatMap MetaItem.remarks
  | .comment c => [.comment c]

/-- The remarks of a declaration, whose body has the remarks that `inside` lists. -/
def Declaration.remarks {ι : Type} (inside : List ι → List Remark) (d : Declaration ι) : List Remark :=
  Remark.ofDocstring? d.docstring ++ inside d.items

/-- The remarks of a statement. -/
def Statement.remarks : Statement → List Remark
  | .comment c => [.comment c]
  | .docstring d => [.docstring d]
  | .rule d => d.remarks (List.flatMap RuleItem.remarks)
  | .type d => d.remarks FieldItem.remarks
  | .proc d | .stream d => d.remarks (List.flatMap ProcItem.remarks)
  | .version _ | .imports _ => []

/-- The remarks of a schema, in the order of its text. -/
def Schema.remarks (s : Schema) : List Remark := s.statements.flatMap Statement.remarks

lemma FieldItem.remarks_cons (item : FieldItem) (items : List FieldItem) :
    FieldItem.remarks (item :: items) = FieldItem.remarks [item] ++ FieldItem.remarks items := by
  cases item with
  | field f =>
      obtain ⟨_, _, _, _, ⟨_, _, _⟩, _⟩ := f
      simp [FieldItem.remarks]
  | _ => rfl

/-! ## The docstrings among them -/

mutual

lemma FieldBase.filterMap_remarks : ∀ base : FieldBase,
    base.remarks.filterMap Remark.docstring? = base.docstrings
  | .named _ => rfl
  | .object items => FieldItem.filterMap_remarks items

lemma FieldItem.filterMap_remarks : ∀ items : List FieldItem,
    (FieldItem.remarks items).filterMap Remark.docstring? = FieldItem.docstrings items
  | [] => rfl
  | .field ⟨_, docstring, _, _, ⟨_, base, _⟩, _⟩ :: rest => by
      rw [FieldItem.remarks, FieldItem.docstrings, List.filterMap_append, List.filterMap_append,
        Remark.filterMap_ofDocstring?, FieldBase.filterMap_remarks base,
        FieldItem.filterMap_remarks rest]
  | .comment _ :: rest => FieldItem.filterMap_remarks rest
  | .docstring d :: rest => congrArg (d :: ·) (FieldItem.filterMap_remarks rest)

end

lemma ProcItem.filterMap_remarks (item : ProcItem) :
    item.remarks.filterMap Remark.docstring? = item.docstrings := by
  cases item with
  | input b => exact FieldItem.filterMap_remarks b.items
  | output b => exact FieldItem.filterMap_remarks b.items
  | metadata b =>
      have hnone : ∀ item : MetaItem, item.remarks.filterMap Remark.docstring? = [] := by
        intro item
        cases item <;> rfl
      simp [ProcItem.remarks, ProcItem.docstrings, List.filterMap_flatMap, hnone]
  | comment _ => rfl

lemma Statement.filterMap_remarks (s : Statement) :
    s.remarks.filterMap Remark.docstring? = s.docstrings := by
  have hrules : ∀ item : RuleItem, item.remarks.filterMap Remark.docstring? = [] := by
    intro item
    cases item <;> rfl
  cases s with
  | rule d =>
      simp [Statement.remarks, Statement.docstrings, Declaration.remarks, List.filterMap_flatMap,
        Remark.filterMap_ofDocstring?, hrules]
  | type d =>
      simp [Statement.remarks, Statement.docstrings, Declaration.remarks,
        Remark.filterMap_ofDocstring?, FieldItem.filterMap_remarks]
  | proc d =>
      simp [Statement.remarks, Statement.docstrings, Declaration.remarks, List.filterMap_flatMap,
        Remark.filterMap_ofDocstring?, ProcItem.filterMap_remarks]
  | stream d =>
      simp [Statement.remarks, Statement.docstrings, Declaration.remarks, List.filterMap_flatMap,
        Remark.filterMap_ofDocstring?, ProcItem.filterMap_remarks]
  | _ => rfl

/-- The docstrings of a schema are those among its remarks. -/
lemma Schema.filterMap_remarks (s : Schema) :
    s.remarks.filterMap Remark.docstring? = s.docstrings := by
  simp [Schema.remarks, Schema.docstrings, List.filterMap_flatMap, Statement.filterMap_remarks]

/-! ## What visiting does -/

section

variable {m : Type → Type} [Monad m] {f : Docstring → m String}

/-- What `view` sees of the result is put together by `put` from the docstrings, each with the text
that `f` gives it.  The texts are asked for one after the other, and nothing else is done. -/
def Revises (f : Docstring → m String) {α β : Type} (view : α → β) (x : m α) (ds : List Docstring)
    (put : List Docstring → β) : Prop :=
  view <$> x = put <$> ds.mapM (Docstring.mapM f)

variable [LawfulMonad m] {α β γ δ : Type}

namespace Revises

lemma pure {view : α → β} {a : α} {put : List Docstring → β} (h : view a = put []) :
    Revises f view (Pure.pure a) [] put := by
  rw [Revises, List.mapM_nil, map_pure, map_pure, h]

/-- The second part may use of the result of the first what is seen of it, and no more. -/
lemma bind {x : m α} {next : α → m γ} {view : α → β} {view' : γ → δ} {ds es : List Docstring}
    {put : List Docstring → β} {both : List Docstring → δ} (hx : Revises f view x ds put)
    (put' : β → List Docstring → δ) (hnext : ∀ a, Revises f view' (next a) es (put' (view a)))
    (hboth : ∀ us vs, both (us ++ vs) = put' (put us) vs) :
    Revises f view' (x >>= next) (ds ++ es) both := by
  calc view' <$> (x >>= next)
      = x >>= fun a => view' <$> next a := map_bind ..
    _ = x >>= fun a => put' (view a) <$> es.mapM (Docstring.mapM f) := by
        congr
        funext a
        exact hnext a
    _ = (view <$> x) >>= fun b => put' b <$> es.mapM (Docstring.mapM f) := by
        simp only [map_eq_pure_bind, bind_assoc, pure_bind]
    _ = (put <$> ds.mapM (Docstring.mapM f)) >>= fun b => put' b <$> es.mapM (Docstring.mapM f) := by
        rw [hx]
    _ = both <$> (ds ++ es).mapM (Docstring.mapM f) := by
        simp only [List.mapM_append, map_eq_pure_bind, bind_assoc, pure_bind, hboth]

/-- What is made of the result without another text. -/
lemma map {x : m α} {g : α → γ} {view : α → β} {view' : γ → δ} {ds : List Docstring}
    {put : List Docstring → β} {put' : List Docstring → δ} (h : β → δ)
    (hx : Revises f view x ds put) (hview : ∀ a, view' (g a) = h (view a))
    (hput : ∀ es, put' es = h (put es)) : Revises f view' (g <$> x) ds put' := by
  have hseen : view' ∘ g = h ∘ view := funext hview
  rw [Revises] at hx ⊢
  rw [funext hput, ← comp_map, hseen, comp_map, hx, ← comp_map]
  rfl

lemma bind_pure {x : m α} {g : α → γ} {view : α → β} {view' : γ → δ} {ds : List Docstring}
    {put : List Docstring → β} {put' : List Docstring → δ} (h : β → δ)
    (hx : Revises f view x ds put) (hview : ∀ a, view' (g a) = h (view a))
    (hput : ∀ es, put' es = h (put es)) :
    Revises f view' (x >>= fun a => Pure.pure (g a)) ds put' := by
  rw [← map_eq_pure_bind]
  exact hx.map h hview hput

/-- Parts that are revised one after the other. -/
lemma mapM {g : α → m α} {docs : α → List Docstring} {rest : α → β}
    (hg : ∀ a, Revises f (fun b => (docs b, rest b)) (g a) (docs a) fun es => (es, rest a))
    (as : List α) : Revises f (fun bs => (bs.flatMap docs, bs.map rest)) (as.mapM g)
      (as.flatMap docs) fun es => (es, as.map rest) := by
  induction as with
  | nil => exact .pure rfl
  | cons a as ih =>
      rw [List.mapM_cons, List.flatMap_cons]
      refine (hg a).bind (fun v vs => (v.1 ++ vs, v.2 :: as.map rest)) (fun b => ?_)
        fun _ _ => rfl
      exact ih.bind_pure (fun v => (docs b ++ v.1, rest b :: v.2)) (fun _ => rfl) fun _ => rfl

end Revises

open Edit (withoutText)

lemma Docstring.revises_mapM (d : Docstring) : Revises f (fun e => ([e], withoutText.docstring e))
    (d.mapM f) [d] fun es => (es, withoutText.docstring d) := by
  simp only [Revises, List.mapM_cons, List.mapM_nil, Docstring.mapM, map_eq_pure_bind, bind_assoc,
    pure_bind]
  rfl

lemma Docstring.revises_mapOptionM (d : Option Docstring) :
    Revises f (fun e => (e.toList, e.map withoutText.docstring)) (mapOptionM f d) d.toList
      fun es => (es, d.map withoutText.docstring) := by
  cases d with
  | none => exact .pure rfl
  | some d =>
      exact (Docstring.revises_mapM d).bind_pure (fun v => (v.1, some v.2)) (fun _ => rfl)
        fun _ => rfl

mutual

lemma FieldBase.revises_mapDocstringsM : ∀ base : FieldBase,
    Revises f (fun b => (b.docstrings, withoutText.fieldBase b)) (base.mapDocstringsM f)
      base.docstrings fun es => (es, withoutText.fieldBase base)
  | .named _ => .pure rfl
  | .object items =>
      (FieldItem.revises_mapDocstringsM items).bind_pure (fun v => (v.1, .object v.2))
        (fun _ => rfl) fun _ => rfl

lemma FieldItem.revises_mapDocstringsM : ∀ items : List FieldItem,
    Revises f (fun is => (FieldItem.docstrings is, withoutText.fieldItems is))
      (FieldItem.mapDocstringsM f items) (FieldItem.docstrings items)
      fun es => (es, withoutText.fieldItems items)
  | [] => .pure rfl
  | .field ⟨span, docstring, name, optional, ⟨typeSpan, base, isArray⟩, rules⟩ :: rest => by
      have hbase := FieldBase.revises_mapDocstringsM base
      have hrest := FieldItem.revises_mapDocstringsM rest
      -- The field with what is seen of its docstring and of its type.
      let seen (d : Option Docstring) (b : FieldBase) : FieldItem :=
        .field ⟨span, d, name, optional, ⟨typeSpan, b, isArray⟩, rules.map withoutText.ruleUse⟩
      rw [FieldItem.docstrings, List.append_assoc]
      refine (Docstring.revises_mapOptionM docstring).bind
        (fun v vs =>
          (v.1 ++ vs, seen v.2 (withoutText.fieldBase base) :: withoutText.fieldItems rest))
        (fun d => ?_) fun _ _ => rfl
      refine hbase.bind
        (fun v vs => (d.toList ++ (v.1 ++ vs),
          seen (d.map withoutText.docstring) v.2 :: withoutText.fieldItems rest))
        (fun b => ?_) fun _ _ => rfl
      exact hrest.bind_pure
        (fun v => (d.toList ++ (b.docstrings ++ v.1),
          seen (d.map withoutText.docstring) (withoutText.fieldBase b) :: v.2))
        (fun _ => by rw [FieldItem.docstrings, List.append_assoc]; rfl) fun _ => rfl
  | .comment c :: rest =>
      (FieldItem.revises_mapDocstringsM rest).bind_pure
        (fun v => (v.1, .comment (withoutText.comment c) :: v.2)) (fun _ => rfl) fun _ => rfl
  | .docstring d :: rest =>
      (Docstring.revises_mapM d).bind
        (fun v vs => (v.1 ++ vs, .docstring v.2 :: withoutText.fieldItems rest))
        (fun d' => (FieldItem.revises_mapDocstringsM rest).bind_pure
          (fun v => (d' :: v.1, .docstring (withoutText.docstring d') :: v.2)) (fun _ => rfl)
          fun _ => rfl)
        fun _ _ => rfl

end

lemma ProcItem.revises_mapDocstringsM (item : ProcItem) :
    Revises f (fun i => (i.docstrings, withoutText.procItem i)) (item.mapDocstringsM f)
      item.docstrings fun es => (es, withoutText.procItem item) := by
  have hblock : ∀ b : FieldBlock,
      Revises f (fun c => (FieldItem.docstrings c.items, withoutText.fieldBlock c))
        (b.mapDocstringsM f) (FieldItem.docstrings b.items)
        fun es => (es, withoutText.fieldBlock b) :=
    fun b => (FieldItem.revises_mapDocstringsM b.items).bind_pure (fun v => (v.1, ⟨b.span, v.2⟩))
      (fun _ => rfl) fun _ => rfl
  cases item with
  | input b =>
      exact (hblock b).map (fun v => (v.1, .input v.2)) (fun _ => rfl) fun _ => rfl
  | output b =>
      exact (hblock b).map (fun v => (v.1, .output v.2)) (fun _ => rfl) fun _ => rfl
  | _ => exact .pure rfl

/-- A declaration is revised if its body is; the docstrings of the body are those that `inside` lists,
and `rest` leaves their texts out. -/
lemma Declaration.revises_mapDocstringsM {ι : Type} {body : List ι → m (List ι)}
    (inside : List ι → List Docstring) {rest : List ι → List ι}
    (hbody : ∀ items, Revises f (fun is => (inside is, rest is)) (body items) (inside items)
      fun es => (es, rest items))
    (d : Declaration ι) :
    Revises f (fun e => (e.docstring.toList ++ inside e.items, withoutText.declaration rest e))
      (d.mapDocstringsM f body) (d.docstring.toList ++ inside d.items)
      fun es => (es, withoutText.declaration rest d) := by
  refine (Docstring.revises_mapOptionM d.docstring).bind
    (fun v vs => (v.1 ++ vs, { withoutText.declaration rest d with docstring := v.2 }))
    (fun docstring => ?_) fun _ _ => rfl
  exact (hbody d.items).bind_pure
    (fun v => (docstring.toList ++ v.1,
      { withoutText.declaration rest d with
        docstring := docstring.map withoutText.docstring, items := v.2 }))
    (fun _ => rfl) fun _ => rfl

lemma Statement.revises_mapDocstringsM (s : Statement) :
    Revises f (fun t => (t.docstrings, withoutText.statement t)) (s.mapDocstringsM f) s.docstrings
      fun es => (es, withoutText.statement s) := by
  have hprocs : ∀ items : List ProcItem,
      Revises f (fun is => (is.flatMap ProcItem.docstrings, is.map withoutText.procItem))
        (items.mapM (ProcItem.mapDocstringsM f)) (items.flatMap ProcItem.docstrings)
        fun es => (es, items.map withoutText.procItem) :=
    Revises.mapM ProcItem.revises_mapDocstringsM
  cases s with
  | docstring d =>
      exact (Docstring.revises_mapM d).map (fun v => (v.1, .docstring v.2)) (fun _ => rfl)
        fun _ => rfl
  | rule d =>
      have hbody : ∀ items : List RuleItem,
          Revises f (fun is : List RuleItem => (([] : List Docstring), is.map withoutText.ruleItem))
            (Pure.pure items) [] fun es => (es, items.map withoutText.ruleItem) := fun _ => .pure rfl
      have hrule := Declaration.revises_mapDocstringsM (fun _ => []) hbody d
      simp only [List.append_nil] at hrule
      exact hrule.map (fun v => (v.1, .rule v.2)) (fun _ => rfl) fun _ => rfl
  | type d =>
      exact (Declaration.revises_mapDocstringsM FieldItem.docstrings
          FieldItem.revises_mapDocstringsM d).map
        (fun v => (v.1, .type v.2)) (fun _ => rfl) fun _ => rfl
  | proc d =>
      exact (Declaration.revises_mapDocstringsM (List.flatMap ProcItem.docstrings) hprocs d).map
        (fun v => (v.1, .proc v.2))
        (fun _ => rfl) fun _ => rfl
  | stream d =>
      exact (Declaration.revises_mapDocstringsM (List.flatMap ProcItem.docstrings) hprocs d).map
        (fun v => (v.1, .stream v.2))
        (fun _ => rfl) fun _ => rfl
  | _ => exact .pure rfl

/-- Each docstring of a schema gets its new text in its turn, and nothing else is changed. -/
lemma Schema.revises_mapDocstringsM (s : Schema) :
    Revises f (fun t => (t.docstrings, withoutText.schema t)) (s.mapDocstringsM f) s.docstrings
      fun es => (es, withoutText.schema s) :=
  (Revises.mapM Statement.revises_mapDocstringsM s.statements).bind_pure (fun v => (v.1, ⟨v.2⟩))
    (fun _ => rfl) fun _ => rfl

end

end RpcSchema
