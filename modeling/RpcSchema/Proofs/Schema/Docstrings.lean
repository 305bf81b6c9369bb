import Mathlib.Tactic.Lemma
import RpcSchema.Schema.Docstrings

/-!
# New texts for docstrings

The texts of docstrings are computed with an effect, one after another.  If what is computed for a
docstring never depends on the state, then neither does the schema with the new texts, and it can be
written down without the effect (`Statement.withTexts`).

**Yielding.**  A computation yields a value if it answers that value in every state, whatever it does to
the state.  That passes through sequencing, so it passes through all that visits docstrings.

**Agreeing.**  Two ways to compute texts that agree on the docstrings of a schema do the same to it
(`Schema.mapDocstringsM_congr`).
-/

namespace RpcSchema

variable {σ : Type}

/-- In every state, the computation answers the value. -/
def Yields {α : Type} (x : StateM σ α) (a : α) : Prop := ∀ s, (x.run s).1 = a

namespace Yields

variable {α β : Type}

lemma pure (a : α) : Yields (Pure.pure a : StateM σ α) a := fun _ => rfl

lemma bind {x : StateM σ α} {f : α → StateM σ β} {a : α} {b : β} (hx : Yields x a)
    (hf : Yields (f a) b) : Yields (x >>= f) b := by
  intro s
  have ha := hx s
  have hb := hf (x.run s).2
  rw [← ha] at hb
  exact hb

lemma map {x : StateM σ α} {a : α} (f : α → β) (hx : Yields x a) : Yields (f <$> x) (f a) :=
  fun s => congrArg f (hx s)

lemma mapM {f : α → StateM σ β} {g : α → β} (h : ∀ a, Yields (f a) (g a)) (as : List α) :
    Yields (as.mapM f) (as.map g) := by
  induction as with
  | nil => exact .pure []
  | cons a as ih =>
      rw [List.mapM_cons]
      exact (h a).bind (ih.bind (.pure _))

end Yields

/-- A statement with the texts that `text` gives its docstrings. -/
def Statement.withTexts (text : Docstring → String) (s : Statement) : Statement :=
  Id.run (s.mapDocstringsM fun d => pure (text d))

namespace Statement

variable (text : Docstring → String) (s : Statement)

/-- New texts leave a statement in its place. -/
lemma span_withTexts : (s.withTexts text).span = s.span := by cases s <;> rfl

lemma import?_withTexts : (s.withTexts text).import? = s.import? := by cases s <;> rfl

end Statement

/-! ## Visiting without an effect -/

variable {text : Docstring → String} {load : Docstring → StateM σ String}

lemma Docstring.yields_mapM (h : ∀ d, Yields (load d) (text d)) (d : Docstring) :
    Yields (d.mapM load) { d with text := text d } :=
  (h d).bind (.pure { d with text := text d })

lemma Docstring.yields_mapOptionM (h : ∀ d, Yields (load d) (text d)) (d : Option Docstring) :
    Yields (mapOptionM load d) (Id.run (mapOptionM (fun d => pure (text d)) d)) := by
  cases d with
  | none => exact .pure none
  | some d => exact (Docstring.yields_mapM h d).bind (.pure (some _))

mutual

lemma FieldBase.yields_mapDocstringsM (h : ∀ d, Yields (load d) (text d)) : ∀ base : FieldBase,
    Yields (base.mapDocstringsM load) (Id.run (base.mapDocstringsM fun d => pure (text d)))
  | .named _ => .pure _
  | .object items => (FieldItem.yields_mapDocstringsM h items).bind (.pure _)

lemma FieldItem.yields_mapDocstringsM (h : ∀ d, Yields (load d) (text d)) :
    ∀ items : List FieldItem, Yields (FieldItem.mapDocstringsM load items)
      (Id.run (FieldItem.mapDocstringsM (fun d => pure (text d)) items))
  | [] => .pure []
  | .field ⟨_, docstring, _, _, ⟨_, base, _⟩, _⟩ :: rest => by
      have hdocstring := Docstring.yields_mapOptionM h docstring
      have hbase := FieldBase.yields_mapDocstringsM h base
      have hrest := FieldItem.yields_mapDocstringsM h rest
      exact hdocstring.bind (hbase.bind (hrest.bind (.pure _)))
  | .comment _ :: rest => (FieldItem.yields_mapDocstringsM h rest).bind (.pure _)
  | .docstring d :: rest =>
      (Docstring.yields_mapM h d).bind ((FieldItem.yields_mapDocstringsM h rest).bind (.pure _))

end

lemma ProcItem.yields_mapDocstringsM (h : ∀ d, Yields (load d) (text d)) (item : ProcItem) :
    Yields (item.mapDocstringsM load) (Id.run (item.mapDocstringsM fun d => pure (text d))) := by
  have hblock : ∀ b : FieldBlock, Yields (b.mapDocstringsM load)
      (Id.run (b.mapDocstringsM fun d => pure (text d))) :=
    fun b => (FieldItem.yields_mapDocstringsM h b.items).bind (.pure _)
  cases item with
  | input b => exact (hblock b).map _
  | output b => exact (hblock b).map _
  | _ => exact .pure _

lemma Declaration.yields_mapDocstringsM {ι : Type} (h : ∀ d, Yields (load d) (text d))
    {body : List ι → StateM σ (List ι)} {body' : List ι → List ι}
    (hbody : ∀ items, Yields (body items) (body' items)) (d : Declaration ι) :
    Yields (d.mapDocstringsM load body)
      (Id.run (d.mapDocstringsM (fun d => pure (text d)) fun items => pure (body' items))) :=
  (Docstring.yields_mapOptionM h d.docstring).bind ((hbody d.items).bind (.pure _))

lemma Statement.yields_mapDocstringsM (h : ∀ d, Yields (load d) (text d)) (s : Statement) :
    Yields (s.mapDocstringsM load) (s.withTexts text) := by
  have hprocs : ∀ items : List ProcItem, Yields (items.mapM (ProcItem.mapDocstringsM load))
      (Id.run (items.mapM (ProcItem.mapDocstringsM fun d => pure (text d)))) := by
    intro items
    have hitems := Yields.mapM (ProcItem.yields_mapDocstringsM h) items
    rw [← List.idRun_mapM] at hitems
    exact hitems
  cases s with
  | docstring d => exact (Docstring.yields_mapM h d).map _
  | rule d => exact (Declaration.yields_mapDocstringsM h .pure d).map _
  | type d => exact (Declaration.yields_mapDocstringsM h (FieldItem.yields_mapDocstringsM h) d).map _
  | proc d => exact (Declaration.yields_mapDocstringsM h hprocs d).map _
  | stream d => exact (Declaration.yields_mapDocstringsM h hprocs d).map _
  | _ => exact .pure _

/-- If the texts do not depend on the state, then a schema gets new texts statement by statement. -/
lemma Schema.yields_mapDocstringsM (h : ∀ d, Yields (load d) (text d)) (schema : Schema) :
    Yields (schema.mapDocstringsM load) ⟨schema.statements.map (Statement.withTexts text)⟩ :=
  (Yields.mapM (Statement.yields_mapDocstringsM h) schema.statements).bind (.pure _)

/-! ## The docstrings that are asked about -/

section

variable {m : Type → Type} [Monad m] {f g : Docstring → m String}

lemma Docstring.mapM_congr {d : Docstring} (h : f d = g d) : d.mapM f = d.mapM g := by
  rw [Docstring.mapM, Docstring.mapM, h]

lemma Docstring.mapOptionM_congr {d : Option Docstring} (h : ∀ e ∈ d.toList, f e = g e) :
    mapOptionM f d = mapOptionM g d := by
  cases d with
  | none => rfl
  | some d => rw [mapOptionM, mapOptionM, Docstring.mapM_congr (h d List.mem_cons_self)]

mutual

lemma FieldBase.mapDocstringsM_congr : ∀ base : FieldBase, (∀ d ∈ base.docstrings, f d = g d) →
    base.mapDocstringsM f = base.mapDocstringsM g
  | .named _ => fun _ => rfl
  | .object items => fun h => by
      rw [FieldBase.mapDocstringsM, FieldBase.mapDocstringsM,
        FieldItem.mapDocstringsM_congr items h]

lemma FieldItem.mapDocstringsM_congr : ∀ items : List FieldItem,
    (∀ d ∈ FieldItem.docstrings items, f d = g d) →
      FieldItem.mapDocstringsM f items = FieldItem.mapDocstringsM g items
  | [] => fun _ => rfl
  | .field ⟨_, docstring, _, _, ⟨_, base, _⟩, _⟩ :: rest => by
      intro h
      rw [FieldItem.docstrings] at h
      have hdocstring := Docstring.mapOptionM_congr fun d hd =>
        h d (List.mem_append_left _ (List.mem_append_left _ hd))
      have hbase := FieldBase.mapDocstringsM_congr base fun d hd =>
        h d (List.mem_append_left _ (List.mem_append_right _ hd))
      have hrest := FieldItem.mapDocstringsM_congr rest fun d hd => h d (List.mem_append_right _ hd)
      rw [FieldItem.mapDocstringsM, FieldItem.mapDocstringsM, hdocstring, hbase, hrest]
  | .comment _ :: rest => fun h => by
      rw [FieldItem.mapDocstringsM, FieldItem.mapDocstringsM, FieldItem.mapDocstringsM_congr rest h]
  | .docstring d :: rest => fun h => by
      rw [FieldItem.mapDocstringsM, FieldItem.mapDocstringsM,
        Docstring.mapM_congr (h d List.mem_cons_self),
        FieldItem.mapDocstringsM_congr rest fun e he => h e (List.mem_cons_of_mem d he)]

end

lemma mapM_congr [LawfulMonad m] {α β : Type} {x y : α → m β} {as : List α} (h : ∀ a ∈ as, x a = y a) :
    as.mapM x = as.mapM y := by
  induction as with
  | nil => rw [List.mapM_nil, List.mapM_nil]
  | cons a as ih =>
      rw [List.mapM_cons, List.mapM_cons, h a List.mem_cons_self,
        ih fun b hb => h b (List.mem_cons_of_mem a hb)]

lemma ProcItem.mapDocstringsM_congr {item : ProcItem} (h : ∀ d ∈ item.docstrings, f d = g d) :
    item.mapDocstringsM f = item.mapDocstringsM g := by
  have hblock : ∀ b : FieldBlock, (∀ d ∈ FieldItem.docstrings b.items, f d = g d) →
      b.mapDocstringsM f = b.mapDocstringsM g := by
    intro b hb
    rw [FieldBlock.mapDocstringsM, FieldBlock.mapDocstringsM,
      FieldItem.mapDocstringsM_congr b.items hb]
  cases item with
  | input b => exact congrArg _ (hblock b h)
  | output b => exact congrArg _ (hblock b h)
  | _ => rfl

lemma Declaration.mapDocstringsM_congr {ι : Type} {body body' : List ι → m (List ι)}
    {d : Declaration ι} (h : ∀ e ∈ d.docstring.toList, f e = g e) (hbody : body d.items = body' d.items) :
    d.mapDocstringsM f body = d.mapDocstringsM g body' := by
  rw [Declaration.mapDocstringsM, Declaration.mapDocstringsM, Docstring.mapOptionM_congr h, hbody]

lemma Statement.mapDocstringsM_congr [LawfulMonad m] {s : Statement} (h : ∀ d ∈ s.docstrings, f d = g d) :
    s.mapDocstringsM f = s.mapDocstringsM g := by
  have hprocs : ∀ items : List ProcItem, (∀ d ∈ items.flatMap ProcItem.docstrings, f d = g d) →
      items.mapM (ProcItem.mapDocstringsM f) = items.mapM (ProcItem.mapDocstringsM g) :=
    fun items hitems => mapM_congr fun item hitem => ProcItem.mapDocstringsM_congr fun d hd =>
      hitems d (List.mem_flatMap.2 ⟨item, hitem, hd⟩)
  cases s with
  | docstring d => exact congrArg _ (Docstring.mapM_congr (h d List.mem_cons_self))
  | rule d => exact congrArg _ (Declaration.mapDocstringsM_congr h rfl)
  | type d =>
      exact congrArg _ (Declaration.mapDocstringsM_congr
        (fun e he => h e (List.mem_append_left _ he))
        (FieldItem.mapDocstringsM_congr d.items fun e he => h e (List.mem_append_right _ he)))
  | proc d =>
      exact congrArg _ (Declaration.mapDocstringsM_congr
        (fun e he => h e (List.mem_append_left _ he))
        (hprocs d.items fun e he => h e (List.mem_append_right _ he)))
  | stream d =>
      exact congrArg _ (Declaration.mapDocstringsM_congr
        (fun e he => h e (List.mem_append_left _ he))
        (hprocs d.items fun e he => h e (List.mem_append_right _ he)))
  | _ => rfl

/-- Only what is computed for the docstrings of a schema matters. -/
lemma Schema.mapDocstringsM_congr [LawfulMonad m] {s : Schema} (h : ∀ d ∈ s.docstrings, f d = g d) :
    s.mapDocstringsM f = s.mapDocstringsM g := by
  rw [Schema.mapDocstringsM, Schema.mapDocstringsM]
  refine congrArg (· >>= _) (mapM_congr fun t ht => ?_)
  exact Statement.mapDocstringsM_congr fun d hd => h d (List.mem_flatMap.2 ⟨t, ht, hd⟩)

end

end RpcSchema
