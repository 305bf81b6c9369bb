import Mathlib.Tactic.Lemma
import RpcSchema.Schema.Docstrings

/-!
# The order in which docstrings are visited

Whatever is done to give docstrings new texts is done once for each docstring of the schema, in the order
of the text, and nothing else is done (`Schema.visits_mapDocstringsM`).

**Visiting.**  A computation visits docstrings if it leaves each state as it is left by loading them one
after the other.  What two computations visit in sequence is what they visit, one list after the other.
-/

namespace RpcSchema

variable {σ : Type} {load : Docstring → StateM σ String}

/-- The computation does to every state what loading the docstrings, one after the other, does. -/
def Visits (load : Docstring → StateM σ String) {α : Type} (x : StateM σ α) (ds : List Docstring) :
    Prop :=
  ∀ s, (x.run s).2 = ds.foldl (fun s d => ((load d).run s).2) s

namespace Visits

variable {α β : Type} {x : StateM σ α} {f : α → StateM σ β} {ds es : List Docstring}

lemma pure (a : α) : Visits load (Pure.pure a) [] := fun _ => rfl

lemma bind (hx : Visits load x ds) (hf : ∀ a, Visits load (f a) es) :
    Visits load (x >>= f) (ds ++ es) := by
  intro s
  rw [List.foldl_append, ← hx s]
  exact hf (x.run s).1 (x.run s).2

/-- What comes behind may visit nothing. -/
lemma bind_nil (hx : Visits load x ds) (hf : ∀ a, Visits load (f a) []) :
    Visits load (x >>= f) ds := by
  have hboth := hx.bind hf
  rwa [List.append_nil] at hboth

lemma map (g : α → β) (hx : Visits load x ds) : Visits load (g <$> x) ds := hx

lemma mapM {ds : α → List Docstring} (h : ∀ a, Visits load (f a) (ds a)) (as : List α) :
    Visits load (as.mapM f) (as.flatMap ds) := by
  induction as with
  | nil => exact .pure []
  | cons a as ih =>
      rw [List.mapM_cons, List.flatMap_cons]
      exact (h a).bind fun _ => ih.bind_nil fun _ => .pure _

end Visits

lemma Docstring.visits_mapM (d : Docstring) : Visits load (d.mapM load) [d] := fun _ => rfl

lemma Docstring.visits_mapOptionM (d : Option Docstring) :
    Visits load (mapOptionM load d) d.toList := by
  cases d with
  | none => exact .pure none
  | some d => exact (Docstring.visits_mapM d).bind_nil fun _ => .pure _

mutual

lemma FieldBase.visits_mapDocstringsM : ∀ base : FieldBase,
    Visits load (base.mapDocstringsM load) base.docstrings
  | .named _ => .pure _
  | .object items => (FieldItem.visits_mapDocstringsM items).bind_nil fun _ => .pure _

lemma FieldItem.visits_mapDocstringsM : ∀ items : List FieldItem,
    Visits load (FieldItem.mapDocstringsM load items) (FieldItem.docstrings items)
  | [] => .pure []
  | .field ⟨_, docstring, _, _, ⟨_, base, _⟩, _⟩ :: rest => by
      have hbase := FieldBase.visits_mapDocstringsM base
      have hrest := FieldItem.visits_mapDocstringsM rest
      rw [FieldItem.docstrings, List.append_assoc]
      exact (Docstring.visits_mapOptionM docstring).bind fun _ =>
        hbase.bind fun _ => hrest.bind_nil fun _ => .pure _
  | .comment _ :: rest => (FieldItem.visits_mapDocstringsM rest).bind_nil fun _ => .pure _
  | .docstring d :: rest =>
      (Docstring.visits_mapM d).bind fun _ =>
        (FieldItem.visits_mapDocstringsM rest).bind_nil fun _ => .pure _

end

lemma ProcItem.visits_mapDocstringsM (item : ProcItem) :
    Visits load (item.mapDocstringsM load) item.docstrings := by
  have hblock : ∀ b : FieldBlock, Visits load (b.mapDocstringsM load) (FieldItem.docstrings b.items) :=
    fun b => (FieldItem.visits_mapDocstringsM b.items).bind_nil fun _ => .pure _
  cases item with
  | input b => exact (hblock b).map _
  | output b => exact (hblock b).map _
  | _ => exact .pure _

lemma Declaration.visits_mapDocstringsM {ι : Type} {body : List ι → StateM σ (List ι)}
    {inside : List ι → List Docstring} (hbody : ∀ items, Visits load (body items) (inside items))
    (d : Declaration ι) :
    Visits load (d.mapDocstringsM load body) (d.docstring.toList ++ inside d.items) :=
  (Docstring.visits_mapOptionM d.docstring).bind fun _ =>
    (hbody d.items).bind_nil fun _ => .pure _

lemma Statement.visits_mapDocstringsM (s : Statement) :
    Visits load (s.mapDocstringsM load) s.docstrings := by
  have hprocs : ∀ items : List ProcItem, Visits load (items.mapM (ProcItem.mapDocstringsM load))
      (items.flatMap ProcItem.docstrings) := Visits.mapM ProcItem.visits_mapDocstringsM
  cases s with
  | docstring d => exact (Docstring.visits_mapM d).map _
  | rule d =>
      have hrule : Visits load (d.mapDocstringsM load Pure.pure) (d.docstring.toList ++ []) :=
        Declaration.visits_mapDocstringsM Visits.pure d
      rw [List.append_nil] at hrule
      exact hrule.map _
  | type d => exact (Declaration.visits_mapDocstringsM FieldItem.visits_mapDocstringsM d).map _
  | proc d => exact (Declaration.visits_mapDocstringsM hprocs d).map _
  | stream d => exact (Declaration.visits_mapDocstringsM hprocs d).map _
  | _ => exact .pure _

/-- Giving the docstrings of a schema new texts visits each of them once, in the order of the text. -/
lemma Schema.visits_mapDocstringsM (schema : Schema) :
    Visits load (schema.mapDocstringsM load) schema.docstrings :=
  (Visits.mapM Statement.visits_mapDocstringsM schema.statements).bind_nil fun _ => .pure _

end RpcSchema
