/-!
# Paths

Files name each other by path.  One file can be named in many ways, and is to be read only once, so
paths are brought to a normal form: without steps that stay where they are, and without steps up that
take back a step down.  The file system is not asked; a step up from a name is taken to lead back.

A relative path is read from the directory of the file that mentions it.

* `Path.parse` and `Path.toText` go between texts and paths.
* `Path.clean` is the normal form.
* `Path.resolve` is the normal form of a path that a file mentions, `Path.absolute` that of a path that
  is given from outside.
-/

namespace RpcSchema

/-- One step of a path. -/
inductive Segment where
  /-- Stays in the directory. -/
  | here
  /-- Goes up to the directory that holds this one. -/
  | up
  /-- Goes down to a file or directory. -/
  | name (s : String)
deriving DecidableEq, Repr

/-- Steps from the root of the file system, or from some directory. -/
structure Path where
  isAbsolute : Bool
  segments : List Segment
deriving DecidableEq, Repr

/-! ## Texts -/

/-- The text of one step. -/
def Segment.toText : Segment → String
  | .here => "."
  | .up => ".."
  | .name s => s

namespace Path

/-- The step that a text between slashes stands for; slashes beside each other stand for none. -/
def segment? (piece : List Char) : Option Segment :=
  if piece = [] then none
  else if piece = ['.'] then some .here
  else if piece = ['.', '.'] then some .up
  else some (.name (String.ofList piece))

/-- The path that a text names. -/
def parse (s : String) : Path where
  isAbsolute := s.toList.head? = some '/'
  segments := (s.toList.splitOn '/').filterMap segment?

/-- The text of a path. -/
def toText (p : Path) : String :=
  (if p.isAbsolute then "/" else "") ++ "/".intercalate (p.segments.map Segment.toText)

/-! ## The normal form -/

/-- Adds a step to steps that are in normal form.  The latest step is the first of the list. -/
def cleanStep (isAbsolute : Bool) : List Segment → Segment → List Segment
  | done, .here => done
  | .name _ :: done, .up => done
  | [], .up => if isAbsolute then [] else [.up]
  | done, s => s :: done

/-- The normal form: steps up stand only at the front, and not there if the path is absolute, since
nothing is above the root. -/
def clean (p : Path) : Path :=
  { p with segments := (p.segments.foldl (cleanStep p.isAbsolute) []).reverse }

/-- The path `q` taken from the directory `p`. -/
def join (p q : Path) : Path :=
  if q.isAbsolute then q else { p with segments := p.segments ++ q.segments }

/-- The directory that a file is in: the path without its last step that goes anywhere.  The root and
the empty path lead from no directory, and what is taken from them is taken as it stands. -/
def parent (p : Path) : Path :=
  match p.segments.reverse.dropWhile (· = .here) with
  | [] => ⟨false, []⟩
  | _ :: before => { p with segments := before.reverse }

/-- The text of the normal form of the path that a text names. -/
def cleanText (s : String) : String := (parse s).clean.toText

/-- The path that the file `relativeTo` calls `path`, in normal form. -/
def resolve (relativeTo path : String) : String :=
  if (parse path).isAbsolute then cleanText path
  else ((parse relativeTo).parent.join (parse path)).clean.toText

/-- The path that is called `path` at the root of the file system, in normal form. -/
def absolute (path : String) : String := (join ⟨true, []⟩ (parse path)).clean.toText

end Path

end RpcSchema
