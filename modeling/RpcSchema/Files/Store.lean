import RpcSchema.Digest.Sha256
import RpcSchema.Files.Path
import Std.Data.ExtTreeMap

/-!
# Stores of files

Schemas are read from a store: a finite map from paths in normal form to texts.  However a path is
spelled, it leads to the same entry.  Some paths may be known to the store as unreadable; asking for
one is an error of its own kind, whatever text is stored under it.

* `FileStore.insert`, `extract` and `size` change and count the texts.
* `FileStore.fetch` is the text that one file finds under a path, `FileStore.fetchDigested` that text with
  its digest.
-/

namespace RpcSchema

/-- Finite maps from texts. -/
abbrev NameMap (α : Type) := Std.ExtTreeMap String α compare

/-- Why a file could not be had. -/
inductive FileError where
  | notFound (path : String)
  | unreadable (path reason : String)
deriving DecidableEq, Repr

namespace FileError

/-- The wording of the error. -/
def message : FileError → String
  | .notFound path => "file \"" ++ path ++ "\" not found"
  | .unreadable path reason => "failed to read \"" ++ path ++ "\": " ++ reason

/-- Whether the file is missing, rather than unreadable. -/
def isNotFound : FileError → Bool
  | .notFound _ => true
  | .unreadable .. => false

end FileError

/-- Texts by path, and the paths that cannot be read. -/
structure FileStore where
  texts : NameMap String
  unreadable : NameMap String

namespace FileStore

/-- The store without files. -/
def empty : FileStore := ⟨∅, ∅⟩

/-- Stores a text in place of any that was under the path. -/
def insert (store : FileStore) (path contents : String) : FileStore :=
  { store with texts := store.texts.insert (Path.cleanText path) contents }

/-- Marks a path as unreadable. -/
def deny (store : FileStore) (path reason : String) : FileStore :=
  { store with unreadable := store.unreadable.insert (Path.cleanText path) reason }

/-- The text under a path. -/
def get? (store : FileStore) (path : String) : Option String := store.texts[Path.cleanText path]?

/-- The store without the text under a path. -/
def remove (store : FileStore) (path : String) : FileStore :=
  { store with texts := store.texts.erase (Path.cleanText path) }

/-- Takes the text under a path out of the store: the text that was there, and the store without it. -/
def extract (store : FileStore) (path : String) : Option String × FileStore :=
  (store.get? path, store.remove path)

/-- The number of texts. -/
def size (store : FileStore) : Nat := store.texts.size

/-- What is under a path in normal form. -/
def read (store : FileStore) (path : String) : Except FileError String :=
  match store.unreadable[path]? with
  | some reason => .error (.unreadable path reason)
  | none =>
    match store.texts[path]? with
    | some contents => .ok contents
    | none => .error (.notFound path)

/-- What the file `relativeTo` finds under a path. -/
def fetch (store : FileStore) (relativeTo path : String) : Except FileError String :=
  store.read (Path.resolve relativeTo path)

/-- What the file `relativeTo` finds under a path, and its digest. -/
def fetchDigested (store : FileStore) (relativeTo path : String) :
    Except FileError (String × String) :=
  (store.fetch relativeTo path).map fun contents => (contents, Sha256.ofText contents)

end FileStore

end RpcSchema
