import RpcSchema.Files.Store
import RpcSchema.Source.Basic

/-!
# Disks

A disk is a tree of directories with files at its leaves.  Unlike a store it knows directories, and it
walks a path one step at a time: a step up from a directory leads to the one that holds it, and it
leads nowhere if the directory does not exist, although the normal form of the path would drop both
steps.

* `Disk.read` walks a path and reads the file at its end.
* `Disk.fetch` reads what one file finds under a path, `Disk.source` a source that keeps the spelling
  of its path.
* `Disk.toStore` is the part of the disk that one path leads to, as a store.
-/

namespace RpcSchema

/-- What stands in a directory under a name. -/
inductive Disk where
  | file (contents : String)
  | directory (entries : List (String × Disk))

/-- Why a file on a disk could not be read. -/
inductive ReadFault where
  | missing
  | notDirectory
  | isDirectory
  | nameTooLong
  | nulInPath
deriving DecidableEq, Repr

/-- The wording of an operating system. -/
def ReadFault.message : ReadFault → String
  | .missing => "No such file or directory (os error 2)"
  | .notDirectory => "Not a directory (os error 20)"
  | .isDirectory => "Is a directory (os error 21)"
  | .nameTooLong => "File name too long (os error 36)"
  | .nulInPath => "file name contained an unexpected NUL byte"

/-- The same fault as an error about a path. -/
def ReadFault.toFileError (path : String) : ReadFault → FileError
  | .missing => .notFound path
  | fault => .unreadable path fault.message

namespace Disk

/-- A name takes this many bytes at most. -/
def nameLimit : Nat := 255

/-- A path takes fewer bytes than this. -/
def pathLimit : Nat := 4096

/-- Walks from a place that lies in the directories `above`, the nearest first.  Nothing is above the
root, and a step up from there stays there. -/
def walk (place : Disk) (above : List Disk) : List Segment → Except ReadFault Disk
  | [] => .ok place
  | step :: steps =>
    match place with
    | .file _ => .error .notDirectory
    | .directory entries =>
      match step with
      | .here => walk place above steps
      | .up =>
        match above with
        | [] => walk place [] steps
        | next :: further => walk next further steps
      | .name s =>
        if nameLimit < s.utf8ByteSize then .error .nameTooLong
        else
          match entries.lookup s with
          | none => .error .missing
          | some found => walk found (place :: above) steps

/-- The steps that a text asks for from the root.  A slash at its end asks for a directory. -/
def stepsOf (path : String) : List Segment :=
  (Path.parse path).segments ++ (if path.toList.getLast? = some '/' then [.here] else [])

/-- The text of the file at the end of a path.  A relative path is walked from the root. -/
def read (disk : Disk) (path : String) : Except ReadFault String :=
  if path.toList.contains '\x00' then .error .nulInPath
  else if path = "" then .error .missing
  else if pathLimit ≤ path.utf8ByteSize then .error .nameTooLong
  else
    match disk.walk [] (stepsOf path) with
    | .error fault => .error fault
    | .ok (.directory _) => .error .isDirectory
    | .ok (.file contents) => .ok contents

/-- What the file `relativeTo` finds under a path. -/
def fetch (disk : Disk) (relativeTo path : String) : Except FileError String :=
  let full := Path.resolve relativeTo path
  (disk.read full).mapError (ReadFault.toFileError full)

/-- The source under a path, which keeps the spelling of the path as its name. -/
def source (disk : Disk) (path : String) : Except ReadFault Source :=
  (disk.read path).map fun contents => ⟨path, contents⟩

/-- The store that answers for one path as the disk does, and holds nothing else. -/
def toStore (disk : Disk) (path : String) : FileStore :=
  match disk.read path with
  | .ok contents => FileStore.empty.insert path contents
  | .error .missing => FileStore.empty
  | .error fault => FileStore.empty.deny path fault.message

end Disk

end RpcSchema
