import RpcSchema.Decimal.Basic
import RpcSchema.Settings.Basic
import RpcSchema.Yaml.Mapping

/-!
# Reading settings

Settings are written as a YAML mapping.  Each key is given once at most, and an absent one keeps its
standard value.

* `Settings.ofYaml?` reads them.  What is wrong with a text that is refused is not told.
-/

namespace RpcSchema

namespace Yaml.Scalar

/-- Whether the scalar can be a value of a standard type other than text: it is plain, or a block that
the tag of that type marks as one. -/
def mayMean (s : Scalar) (type : String) : Bool :=
  s.style = .plain || (s.style = .literal && s.tag = some (standardTags ++ type))

/-- The truth value that a scalar means. -/
def bool? (s : Scalar) : Option Bool :=
  if !s.mayMean "bool" then none
  else if s.text ∈ ["true", "True", "TRUE"] then some true
  else if s.text ∈ ["false", "False", "FALSE"] then some false
  else none

/-- The value of digits in the given base, if there are any and they are digits of that base. -/
def digits? (base : Nat) (cs : List Char) : Option Nat :=
  if cs = [] then none
  else cs.foldlM (fun n c => (hexValue? c).bind fun d => if d < base then some (base * n + d) else none) 0

/-- The size of an integer without its sign: in base sixteen, eight or two after a mark of the base,
otherwise in base ten without zeros in front. -/
def magnitude? (cs : List Char) : Option Nat :=
  match cs with
  | '0' :: 'x' :: rest => digits? 16 rest
  | '0' :: 'o' :: rest => digits? 8 rest
  | '0' :: 'b' :: rest => digits? 2 rest
  | '0' :: _ :: _ => none
  | _ => digits? 10 cs

/-- The integer that a scalar means, if it fits into 64 bits with a sign. -/
def int? (s : Scalar) : Option Int := do
  if !s.mayMean "int" then none
  else
    let n ← match s.text.toList with
      | '-' :: rest => (magnitude? rest).map fun n => -(n : Int)
      | '+' :: rest => (magnitude? rest).map Int.ofNat
      | cs => (magnitude? cs).map Int.ofNat
    if -(Decimal.integerBound : Int) ≤ n ∧ n < (Decimal.integerBound : Int) then some n else none

end Yaml.Scalar

namespace Settings

/-- The names of the settings. -/
inductive Key where
  | supportedVersion | docstringSuffix | checkCasing
deriving DecidableEq, Repr

/-- The name of a setting in a file. -/
def Key.text : Key → String
  | .supportedVersion => "supported_version"
  | .docstringSuffix => "external_docstring_suffix"
  | .checkCasing => "check_casing"

/-- The setting that a name in a file is for. -/
def Key.ofText? (s : String) : Option Key :=
  [supportedVersion, docstringSuffix, checkCasing].find? (·.text = s)

/-- The settings with one of them changed.  Any scalar is a text. -/
def set? (settings : Settings) (key : Key) (value : Yaml.Scalar) : Option Settings :=
  match key with
  | .supportedVersion => value.int?.map fun n => { settings with supportedVersion := n }
  | .docstringSuffix => some { settings with docstringSuffix := value.text }
  | .checkCasing => value.bool?.map fun b => { settings with checkCasing := b }

/-- The settings that entries change from the given ones; no key may be among the earlier ones. -/
def ofEntries? (earlier : List Key) (settings : Settings) :
    List (Yaml.Scalar × Yaml.Scalar) → Option Settings
  | [] => some settings
  | (name, value) :: rest => do
    let key ← Key.ofText? name.text
    if earlier.contains key then none
    else ofEntries? (key :: earlier) (← settings.set? key value) rest

/-- The settings that a YAML text holds. -/
def ofYaml? (text : String) : Option Settings := do
  ofEntries? [] {} (← Yaml.mapping? text)

end Settings

end RpcSchema
