/-!
# Settings

What a project may choose: the version of the language that its files may state, the suffix by which
a docstring is known to name a file, and whether the casing of names is checked.
-/

namespace RpcSchema

/-- The choices of a project. -/
structure Settings where
  /-- The one version that a file may state. -/
  supportedVersion : Int := 1
  /-- A docstring of one line with this suffix names the file that holds its text. -/
  docstringSuffix : String := ".md"
  /-- Whether names must be in their casing. -/
  checkCasing : Bool := true
deriving DecidableEq, Repr, Inhabited

end RpcSchema
