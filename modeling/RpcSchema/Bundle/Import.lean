import RpcSchema.Bundle.Version
import RpcSchema.Grammar.File
import RpcSchema.Settings.Basic

/-!
# Following imports

The statements of a file stand in place of the statement that imports it.  Files are entered depth
first, in the order of the imports, and every path is entered once: a second import of a path adds
nothing, and neither does one that leads back to a file that is still being read.  A file that cannot
be had, read or accepted adds a finding and no statements, and loading goes on with the next statement.

* `Loading` is what is known while loading.
* `enter` loads a file and what it imports.
* `FileStore.nesting` bounds how deep imports can nest, so that loading ends.
-/

namespace RpcSchema

/-- What is known while loading: the paths that were entered, the digests of the files that were had,
and what was found wrong, each in the order of loading. -/
structure Loading where
  entered : List String
  files : NameMap String
  findings : List Finding

namespace Loading

/-- Nothing is known before loading. -/
def start : Loading := ⟨[], ∅, []⟩

/-- Records that a path was entered. -/
def enter (l : Loading) (path : String) : Loading := { l with entered := l.entered ++ [path] }

/-- Records the contents of a file. -/
def record (l : Loading) (path contents : String) : Loading :=
  { l with files := l.files.insert path (Sha256.ofText contents) }

/-- Records what was found wrong. -/
def report (l : Loading) (f : Finding) : Loading := { l with findings := l.findings ++ [f] }

end Loading

/-- A source's schema, if it follows the grammar and the version rule. -/
def Source.accepted (source : Source) (settings : Settings) : Except Finding Schema :=
  match Schema.ofSource source with
  | .error e => .error (.ofSyntaxError e)
  | .ok schema =>
    match schema.versionFinding? settings.supportedVersion with
    | some f => .error f
    | none => .ok schema

/-- Statements with every import replaced by the statements that `load` answers for it. -/
def splice (load : ImportStatement → StateM Loading (List Statement)) :
    List Statement → StateM Loading (List Statement)
  | [] => pure []
  | .imports i :: rest => do
    let block ← load i
    let rest ← splice load rest
    pure (block ++ rest)
  | s :: rest => do
    let rest ← splice load rest
    pure (s :: rest)

/-- Where a file that could not be had is reported: at the import that asked for it, or at the start of
the file itself. -/
def requestSpan (path : String) (importer : Option ImportStatement) : Span :=
  match importer with
  | some i => i.span
  | none => .startOf ⟨path, ""⟩

/-- The statements of the file at a path and of all that it imports, except what was entered before.
Imports are followed to the given depth. -/
def enter (store : FileStore) (settings : Settings) :
    Nat → String → Option ImportStatement → StateM Loading (List Statement)
  | 0, _, _ => pure []
  | depth + 1, path, importer => do
    if (← get).entered.contains path then pure []
    else
      modify (·.enter path)
      let relativeTo := (importer.map (·.span.file)).getD ""
      match store.fetch relativeTo path with
      | .error e =>
        modify (·.report ⟨requestSpan path importer, .file e⟩)
        pure []
      | .ok contents =>
        modify (·.record path contents)
        match Source.accepted ⟨path, contents⟩ settings with
        | .error f =>
          modify (·.report f)
          pure []
        | .ok schema =>
          splice (fun i => enter store settings depth (Path.resolve path i.path) (some i))
            schema.statements

/-- The amount of text in a store, paths and contents. -/
def FileStore.weight (store : FileStore) : Nat :=
  store.texts.foldl (fun n path contents => n + path.length + contents.length + 1) 0

/-- A bound for the depth to which imports can nest.  The files on the way to an import have distinct
paths, and each was found in the store; where all paths are absolute there are no more of them than the
store has files.  A path that stays relative is the end of a path of the store behind some steps up, and
of these there are no more than an importing and an imported path have steps down.  The weight bounds the
number of such ends, and twice the weight that of the steps up. -/
def FileStore.nesting (store : FileStore) : Nat := 2 * store.weight * (store.weight + 1) + 1

end RpcSchema
