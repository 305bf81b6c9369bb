import RpcSchema.Yaml.Scalar

/-!
# Anchors

A node may be given a name, an anchor, by which later nodes refer to it.  A name may be given again.
Nodes with a name are numbered: the number of a node is the number of different names that were given
before it.  A reference means the number that its name has at that place, and a number means, all over
the document, the last node that has it.

* `Node` is a node of a flat mapping, before references are followed.
* `resolve?` are the scalars that nodes mean.
-/

namespace RpcSchema.Yaml

/-- A node of a flat mapping. -/
inductive Node where
  | scalar (anchor : Option String) (s : Scalar)
  | reference (name : String)
deriving DecidableEq, Repr

/-- The node that stands where nothing is written. -/
def Node.absent : Node := .scalar none (.absent none)

/-- The names that were given up to some place, and what the numbers mean; the latest first.  The mapping
itself is no scalar. -/
structure Anchors where
  numbers : List (String × Nat) := []
  meanings : List (Nat × Option Scalar) := []
deriving Repr

namespace Anchors

/-- The number that a node would have here. -/
def next (a : Anchors) : Nat := (a.numbers.map (·.1)).eraseDups.length

/-- Gives a name to a node, if it is to have one. -/
def give (a : Anchors) (anchor : Option String) (meaning : Option Scalar) : Anchors :=
  match anchor with
  | none => a
  | some name =>
    { numbers := (name, a.next) :: a.numbers, meanings := (a.next, meaning) :: a.meanings }

/-- What a node is in place of its name: a scalar, or the number of one. -/
def number (node : Node) : StateT Anchors Option (Scalar ⊕ Nat) := do
  match node with
  | .scalar anchor s =>
    modify (·.give anchor (some s))
    pure (.inl s)
  | .reference name =>
    let n ← ((← get).numbers.lookup name : Option Nat)
    pure (.inr n)

/-- The scalar that is meant. -/
def follow? (a : Anchors) : Scalar ⊕ Nat → Option Scalar
  | .inl s => some s
  | .inr n => (a.meanings.lookup n).join

end Anchors

/-- The scalars that the nodes of a mapping mean.  The mapping may have a name itself. -/
def resolve? (anchor : Option String) (entries : List (Node × Node)) :
    Option (List (Scalar × Scalar)) := do
  let numbered : StateT Anchors Option _ := entries.mapM fun (key, value) => do
    pure (← Anchors.number key, ← Anchors.number value)
  let (entries, anchors) ← numbered.run (Anchors.give {} anchor none)
  entries.mapM fun (key, value) => do
    pure (← anchors.follow? key, ← anchors.follow? value)

end RpcSchema.Yaml
