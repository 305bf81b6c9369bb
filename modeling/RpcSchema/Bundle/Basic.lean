import RpcSchema.Files.Store
import RpcSchema.Schema.Basic

/-!
# Bundles

A bundle is one schema with an index of its declarations.  Rules, types, procedures and streams have a
namespace each, and where a name is declared twice in one of them the first declaration is the one that
the name means.  A bundle that was loaded also knows the files it was made from.

* `firstByName` indexes declarations.
* `Bundle.ofSchema` is the bundle of a schema.
-/

namespace RpcSchema

/-- Declarations by name; the first of a name is kept. -/
def firstByName {ι : Type} (decls : List (Declaration ι)) : NameMap (Declaration ι) :=
  decls.foldl (fun index d => index.insertIfNew d.name.text d) ∅

/-- A schema, its declarations by name, and the digests of the files it was made from by path. -/
structure Bundle where
  schema : Schema
  rules : NameMap RuleDecl
  types : NameMap TypeDecl
  procs : NameMap ProcDecl
  streams : NameMap ProcDecl
  files : NameMap String

namespace Bundle

/-- A schema with its declarations indexed, and no files. -/
def ofSchema (schema : Schema) : Bundle where
  schema := schema
  rules := firstByName schema.rules
  types := firstByName schema.types
  procs := firstByName schema.procs
  streams := firstByName schema.streams
  files := ∅

end Bundle

end RpcSchema
