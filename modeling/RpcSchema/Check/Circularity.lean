import RpcSchema.Bundle.Basic
import RpcSchema.Finding

/-!
# Types that require each other

A value of a type must hold a value for each of its fields that is not optional.  If types require each
other in a circle through such fields, none of them has a finite value.  Optional fields, and whatever
is nested under them, break a circle; an array does not.

The search goes depth first from each declared type, along the fields in their order, and enters every
type once.  When it meets a type that it is still inside of, it reports the chain from that type back to
itself.

* `Bundle.requires` are the types that a type requires.
* `Bundle.circles` are the chains that the search reports, `Bundle.circularityFindings` the findings.
-/

namespace RpcSchema

mutual

/-- The named types that a value of the type of a field must hold. -/
def FieldBase.required : FieldBase → List String
  | .named n => [n.text]
  | .object items => FieldItem.required items

/-- The named types of which values with these fields must hold one, in the order of the fields. -/
def FieldItem.required : List FieldItem → List String
  | [] => []
  | .field ⟨_, _, _, optional, ⟨_, base, _⟩, _⟩ :: rest =>
    (if optional then [] else base.required) ++ FieldItem.required rest
  | .comment _ :: rest => FieldItem.required rest
  | .docstring _ :: rest => FieldItem.required rest

end

/-- The declared types that the type of a name requires, each once. -/
def Bundle.requires (b : Bundle) (name : String) : List String :=
  match b.types[name]? with
  | none => []
  | some decl => ((FieldItem.required decl.items).filter (b.types.contains ·)).eraseDups

/-- What a search has done: the types that it has entered, and the chains that it has found. -/
structure Search where
  entered : List String
  chains : List (List String)

/-- Searches on from a type; `path` holds the types that the search is inside of, the outermost first.
A path repeats no type, so `depth` may start from any number above that of the types. -/
def explore (requires : String → List String) :
    (depth : Nat) → (path : List String) → Search → String → Search
  | 0, _, s, _ => s
  | depth + 1, path, s, node =>
    if path.contains node then
      { s with chains := s.chains ++ [path.dropWhile (· ≠ node) ++ [node]] }
    else if s.entered.contains node then s
    else
      (requires node).foldl (explore requires depth (path ++ [node]))
        { s with entered := s.entered ++ [node] }

/-- The chains of types that require each other in a circle. -/
def Bundle.circles (b : Bundle) : List (List String) :=
  let names := b.schema.types.map (·.name.text)
  (names.foldl (explore b.requires (names.length + 1) []) ⟨[], []⟩).chains

/-- The finding for a chain, at the declaration of the type that it begins with. -/
def Bundle.circleFinding? (b : Bundle) (chain : List String) : Option Finding := do
  let decl ← b.types[← chain.head?]?
  pure ⟨decl.name.span, .circular chain⟩

/-- What is wrong with how types require each other. -/
def Bundle.circularityFindings (b : Bundle) : List Finding := b.circles.filterMap b.circleFinding?

end RpcSchema
