import RpcSchema.Bundle.Basic
import RpcSchema.Bundle.Import
import RpcSchema.Schema.Docstrings

/-!
# Loading a bundle

Loading starts from one file.  Its imports are followed first; then the docstrings that name a file are
replaced by the text of that file, each looked up from the file that the docstring stands in.  The text
that is loaded is taken as it is, even if it looks like the name of a file itself.  Last, the
declarations are indexed, so that they are found with their texts loaded.

* `docstringText` is the text of one docstring.
* `FileStore.resolve` loads a bundle.
-/

namespace RpcSchema

/-- A bundle, and what was found wrong while loading or checking it. -/
structure Resolved where
  bundle : Bundle
  findings : List Finding

/-- What is wrong when the file of a docstring could not be had. -/
def docstringFault : FileError → Fault
  | .notFound path => .docstringMissing path
  | e => .docstringUnreadable e

/-- The text of a docstring: that of the file that it names, if it names one that can be had, or else
its own. -/
def docstringText (store : FileStore) (settings : Settings) (d : Docstring) :
    StateM Loading String :=
  match d.reference? settings.docstringSuffix with
  | none => pure d.text
  | some path => do
    match store.fetch d.span.file path with
    | .ok contents =>
      modify (·.record (Path.resolve d.span.file path) contents)
      pure contents
    | .error e =>
      modify (·.report ⟨d.span, docstringFault e⟩)
      pure d.text

/-- The schema of a file with its imports and docstrings. -/
def loadSchema (store : FileStore) (settings : Settings) (path : String) : StateM Loading Schema := do
  let statements ← enter store settings store.nesting path none
  Schema.mapDocstringsM (docstringText store settings) ⟨statements⟩

/-- The bundle of the file at a path, which is taken from the root if it is relative. -/
def FileStore.resolve (store : FileStore) (settings : Settings) (path : String) : Resolved :=
  let (schema, loaded) := (loadSchema store settings (Path.absolute path)).run .start
  ⟨{ Bundle.ofSchema schema with files := loaded.files }, loaded.findings⟩

end RpcSchema
