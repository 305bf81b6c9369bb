import RpcSchema.Proofs.Bundle.Merging
import RpcSchema.Proofs.Schema.Visits

/-!
# What loading leaves

Loading a bundle ends in a state of `Loading`, from which the files and the findings of the bundle are
taken.  It is the state that `enter` leaves, and then each docstring of the merged statements is loaded,
one after the other in the order of the text (`FileStore.loaded_resolve`).
-/

namespace RpcSchema

namespace FileStore

variable (store : FileStore) (settings : Settings)

/-- What is wrong with the file that a docstring names, if it names one. -/
def docstringFailure? (d : Docstring) : Option Finding :=
  match d.reference? settings.docstringSuffix with
  | none => none
  | some path =>
    match store.fetch d.span.file path with
    | .ok _ => none
    | .error e => some ⟨d.span, docstringFault e⟩

/-- What is known when a docstring was loaded: the file that it names is recorded, or what is wrong with
it is reported. -/
def consult (l : Loading) (d : Docstring) : Loading where
  entered := l.entered
  files :=
    match d.reference? settings.docstringSuffix with
    | none => l.files
    | some path =>
      match store.fetch d.span.file path with
      | .ok contents => l.files.insert (Path.resolve d.span.file path) (Sha256.ofText contents)
      | .error _ => l.files
  findings := l.findings ++ (store.docstringFailure? settings d).toList

lemma run_docstringText (l : Loading) (d : Docstring) :
    ((docstringText store settings d).run l).2 = store.consult settings l d := by
  rw [docstringText, consult, docstringFailure?]
  cases d.reference? settings.docstringSuffix with
  | none =>
      simp only [Option.toList_none, List.append_nil]
      rfl
  | some path =>
      cases hfetch : store.fetch d.span.file path with
      | ok contents =>
          simp only [hfetch, Option.toList_none, List.append_nil]
          rfl
      | error e =>
          simp only [hfetch]
          rfl

/-- The state that loading ends in, from what `enter` answers and leaves. -/
def loaded (entered : List Statement × Loading) : Loading :=
  (Schema.docstrings ⟨entered.1⟩).foldl (store.consult settings) entered.2

/-- The findings and the files of a bundle are those of the state that loading ends in. -/
lemma loaded_resolve (entry : String) :
    let entered := (enter store settings store.nesting (Path.absolute entry) none).run .start
    (store.resolve settings entry).findings = (store.loaded settings entered).findings
      ∧ (store.resolve settings entry).bundle.files = (store.loaded settings entered).files := by
  intro entered
  have hstep : (fun l d => ((docstringText store settings d).run l).2) = store.consult settings :=
    funext fun l => funext fun d => store.run_docstringText settings l d
  have hvisits : Visits (docstringText store settings) _ (Schema.docstrings ⟨entered.1⟩) :=
    Schema.visits_mapDocstringsM ⟨entered.1⟩
  replace hvisits := hvisits entered.2
  rw [hstep] at hvisits
  exact ⟨congrArg Loading.findings hvisits, congrArg Loading.files hvisits⟩

end FileStore

end RpcSchema
