import RpcSchema.Bundle.Load
import RpcSchema.Check.Bundle

/-!
# Workspaces

A workspace is a store of files with the settings under which they are read.

* `Workspace.resolve` loads a bundle, `Workspace.check` also checks it.
* `Workspace.checkFile` answers the bundle only if nothing is wrong.
-/

namespace RpcSchema

/-- A store of files and the settings for it. -/
structure Workspace where
  store : FileStore
  settings : Settings

namespace Workspace

/-- The bundle of the file at a path, with what was found wrong while loading. -/
def resolve (w : Workspace) (path : String) : Resolved := w.store.resolve w.settings path

/-- The bundle of the file at a path, with what was found wrong while loading and then while
checking. -/
def check (w : Workspace) (path : String) : Resolved :=
  let resolved := w.resolve path
  { resolved with findings := resolved.findings ++ resolved.bundle.findings w.settings }

/-- The bundle of the file at a path if nothing is wrong with it, or else the first finding. -/
def checkFile (w : Workspace) (path : String) : Except Finding Bundle :=
  let checked := w.check path
  match checked.findings with
  | [] => .ok checked.bundle
  | f :: _ => .error f

end Workspace

end RpcSchema
