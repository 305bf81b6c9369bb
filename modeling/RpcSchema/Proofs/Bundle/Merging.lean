import RpcSchema.Bundle.Load
import RpcSchema.Proofs.Bundle.Following
import RpcSchema.Proofs.Schema.Docstrings

/-!
# The merged schema

The schema of a bundle is made of the files that its first file reaches, and of nothing else
(`FileStore.resolve_merges_reached`).  Files may import each other in any way; some may be missing, or
not follow the grammar.

Merging is done in two passes.  `enter` puts the statements of the files in place of their imports, which
is a traversal; then docstrings get their texts.  What text a docstring gets depends on the store and not
on what was loaded before, so the second pass changes each statement by itself and leaves it in its
place.
-/

namespace RpcSchema

namespace FileStore

variable (store : FileStore) (settings : Settings)

/-- The text that a docstring has when everything is loaded: that of the file it names, if there is
one. -/
def textOf (d : Docstring) : String :=
  match d.reference? settings.docstringSuffix with
  | none => d.text
  | some path =>
    match store.fetch d.span.file path with
    | .ok contents => contents
    | .error _ => d.text

lemma yields_docstringText (d : Docstring) :
    Yields (docstringText store settings d) (store.textOf settings d) := by
  rw [docstringText, textOf]
  cases d.reference? settings.docstringSuffix with
  | none => exact .pure d.text
  | some path =>
      cases hfetch : store.fetch d.span.file path with
      | ok contents =>
          simp only [hfetch]
          exact fun _ => rfl
      | error e =>
          simp only [hfetch]
          exact fun _ => rfl

/-- The statements of a bundle: what `enter` answers, with new texts for the docstrings. -/
lemma statements_resolve (entry : String) : (store.resolve settings entry).bundle.schema.statements
    = ((enter store settings store.nesting (Path.absolute entry) none).run .start).1.map
      (Statement.withTexts (store.textOf settings)) := by
  have htexts := Schema.yields_mapDocstringsM (store.yields_docstringText settings)
  exact congrArg Schema.statements (htexts _ _)

variable {store settings}

lemma ofFile_map_withTexts {text : Docstring → String} (file : String) (statements : List Statement) :
    Library.ofFile file (statements.map (Statement.withTexts text))
      = (Library.ofFile file statements).map (Statement.withTexts text) := by
  rw [Library.ofFile, List.filter_map]
  simp only [Function.comp_def, Statement.span_withTexts]
  rfl

/-- **Merging.**  If there is no file at the root, then the statements of a bundle are as follows.

* No import is left.
* Each file that is reached from the first one contributes its own statements, each once and in order.
* No other file contributes any.
* They are the block of the one traversal there is, depth first and in the order of the imports.
* Wherever a traversal meets an import, it puts a block between what comes before and behind the import,
  and that block consists of what the import's target reaches without passing through a path that was
  entered by then. -/
theorem resolve_merges_reached (hroot : store.RootIsFree) (entry : String) :
    let library := store.library settings
    let first := Path.absolute entry
    let merged := (store.resolve settings entry).bundle.schema.statements
    let text := Statement.withTexts (store.textOf settings)
    (∀ s ∈ merged, s.import? = none)
      ∧ (∀ file, library.Reaches [] first file →
          Library.ofFile file merged = (library.own file).map text)
      ∧ (∀ file, ¬ library.Reaches [] first file → Library.ofFile file merged = [])
      ∧ (∃ block entered, merged = block.map text ∧ ∀ block' entered',
          library.Enters [] first block' entered' ↔ block' = block ∧ entered' = entered)
      ∧ (∀ entered file block entered' us i vs, library.Enters entered file block entered' →
          file ∉ entered → library file = some (us ++ .imports i :: vs) →
          ∃ front middle back before behind, block = front ++ middle ++ back
            ∧ library.Splices (entered ++ [file]) file us front before
            ∧ library.Splices behind file vs back entered'
            ∧ library.Enters before (Path.resolve file i.path) middle behind
            ∧ Library.ofFile file front = us.filter (·.import?.isNone)
            ∧ Library.ofFile file back = vs.filter (·.import?.isNone)
            ∧ ∀ f, (library.Reaches before (Path.resolve file i.path) f →
                  Library.ofFile f middle = library.own f)
                ∧ (¬ library.Reaches before (Path.resolve file i.path) f →
                  Library.ofFile f middle = [])) := by
  intro library first merged text
  have hplaced : library.Placed := placed_library store settings
  have hrooted : Path.IsRooted first := Path.isRooted_absolute entry
  have henters : library.Enters [] first _ _ :=
    enters_of_enter hroot none (l := .start) hrooted (store.unentered_lt_nesting [])
  have hmerged : merged = List.map text _ := store.statements_resolve settings entry
  rw [hmerged]
  refine ⟨?_, ?_, ?_, ?_, ?_⟩
  · intro s hs
    obtain ⟨original, horiginal, rfl⟩ := List.mem_map.1 hs
    rw [Statement.import?_withTexts]
    exact henters.import?_block original horiginal
  · intro file hreached
    rw [ofFile_map_withTexts, (henters.block_spec hplaced file).1 hreached]
  · intro file hunreached
    rw [ofFile_map_withTexts, (henters.block_spec hplaced file).2 hunreached, List.map_nil]
  · refine ⟨_, _, rfl, fun block' entered' => ⟨fun h => h.unique henters, ?_⟩⟩
    rintro ⟨rfl, rfl⟩
    exact henters
  · intro entered file block entered' us i vs h hnew hfile
    exact h.around_import hplaced hnew hfile

/-- Two files that import each other. -/
def circle : FileStore :=
  (empty.insert "/a" "import \"b\"\ntype A \x7b\x7d").insert "/b" "import \"a\"\ntype B \x7b\x7d"

/-- The file behind the import is merged, although it imports the first file again. -/
theorem circle_merged : circle.RootIsFree
    ∧ Library.ofFile "/b" (circle.resolve {} "/a").bundle.schema.statements
      = ((circle.library {}).own "/b").map (Statement.withTexts (circle.textOf {})) := by
  have hroot : circle.RootIsFree := by
    intro contents hread
    have hmissing : circle.read "/" = .error (.notFound "/") := by decide +kernel
    rw [hmissing] at hread
    cases hread
  have himports : (circle.library {}).Imports "/a" "/b" := by
    have hany : (circle.library {} "/a").any (·.any fun s =>
        s.import?.any fun i => "/b" = Path.resolve "/a" i.path) = true := by decide +kernel
    obtain ⟨statements, hfile, hany⟩ := (Option.any_eq_true _ _).1 hany
    obtain ⟨s, hs, hany⟩ := List.any_eq_true.1 hany
    obtain ⟨i, himport, htarget⟩ := (Option.any_eq_true _ _).1 hany
    have hi : s = .imports i := by
      cases s <;> cases himport
      rfl
    exact ⟨statements, i, hfile, hi ▸ hs, of_decide_eq_true htarget⟩
  have hreached : (circle.library {}).Reaches [] "/a" "/b" :=
    .step (.start List.not_mem_nil) himports List.not_mem_nil
  exact ⟨hroot, (resolve_merges_reached hroot "/a").2.1 "/b" hreached⟩

example : (circle.resolve {} "/a").bundle.schema.types.map (·.name.text) = ["B", "A"] := by
  decide +kernel

end FileStore

end RpcSchema
