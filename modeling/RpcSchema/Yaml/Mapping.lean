import RpcSchema.Yaml.Anchor
import RpcSchema.Yaml.Token

/-!
# Flat mappings

A YAML document that says what a few keys mean is a mapping from scalars to scalars, written one entry a
line or between braces.  Documents of any other shape are refused: lists, nested mappings, and texts
that hold several documents.  A text without a document, or with an empty one, is the mapping without
entries.

* `blockEntries` and `braceEntries` read the two forms.
* `mapping?` is the mapping that a text holds.
-/

namespace RpcSchema.Yaml

/-- A computation that takes tokens from the front, and may refuse them. -/
abbrev Reader := StateT (List Token) Option

namespace Reader

/-- Whether a token is next, which is taken then. -/
def takes (t : Token) : Reader Bool := do
  if (← get).head? = some t then
    modify (·.drop 1)
    pure true
  else pure false

/-- Whether one of some tokens is next. -/
def isAt (ts : List Token) : Reader Bool := return (← get).head?.any ts.contains

end Reader

/-! ## Nodes -/

/-- What is written before a node. -/
structure Properties where
  anchor : Option String := none
  tag : Option String := none
deriving DecidableEq, Repr

/-- The properties of a node with one more of them, if one is next that is not yet there. -/
def property (handles : Handles) (p : Properties) : Reader Properties := do
  match (← get).head?, p with
  | some (.anchor name), ⟨none, tag⟩ =>
    modify (·.drop 1)
    pure ⟨some name, tag⟩
  | some (.tag t), ⟨anchor, none⟩ =>
    modify (·.drop 1)
    let tag ← (handles.resolve? t : Option String)
    pure ⟨anchor, some tag⟩
  | _, _ => pure p

/-- The properties before a node, in either order. -/
def properties (handles : Handles) : Reader Properties := do
  property handles (← property handles {})

/-- A node.  Where properties stand alone, they are those of a scalar that is not written. -/
def node (handles : Handles) : Reader Node := do
  match (← get).head? with
  | some (.reference name) =>
    modify (·.drop 1)
    pure (.reference name)
  | _ =>
    let p ← properties handles
    match (← get).head? with
    | some (.scalar style text) =>
      modify (·.drop 1)
      pure (.scalar p.anchor ⟨style, text, p.tag⟩)
    | _ =>
      guard (p ≠ {})
      pure (.scalar p.anchor (.absent p.tag))

/-- A node, which is absent if one of the given tokens is next. -/
def nodeBefore (ends : List Token) (handles : Handles) : Reader Node := do
  if ← Reader.isAt ends then pure .absent else node handles

/-! ## Entries -/

/-- An entry after the token of its key. -/
def entry (ends : List Token) (handles : Handles) : Reader (Node × Node) := do
  let key ← nodeBefore (.value :: ends) handles
  if ← Reader.takes .value then pure (key, ← nodeBefore ends handles)
  else pure (key, .absent)

/-- The entries of a mapping without braces up to its end, which is taken. -/
def blockEntries (handles : Handles) : List Token → Option (List (Node × Node) × List Token)
  | .mappingEnd :: rest => some ([], rest)
  | .key :: rest =>
    match (entry [.key, .mappingEnd] handles).run rest with
    | none => none
    | some (e, after) =>
      if after.length ≤ rest.length then
        (blockEntries handles after).map fun (es, left) => (e :: es, left)
      else none
  | _ => none
termination_by ts => ts.length

/-- An entry between braces; what is not marked as a key is one without a value. -/
def braceEntry (handles : Handles) : Reader (Node × Node) := do
  if ← Reader.takes .key then entry [.comma, .braceClose] handles
  else pure (← node handles, .absent)

/-- The entries up to a closing brace, which is taken.  Commas stand between entries, and one may stand
after the last. -/
def braceEntries (handles : Handles) : List Token → Option (List (Node × Node) × List Token)
  | .braceClose :: rest => some ([], rest)
  | ts =>
    match (braceEntry handles).run ts with
    | some (e, .braceClose :: after) => some ([e], after)
    | some (e, .comma :: after) =>
      if after.length < ts.length then
        (braceEntries handles after).map fun (es, left) => (e :: es, left)
      else none
    | _ => none
termination_by ts => ts.length

/-! ## Documents -/

/-- A flat mapping in either form, with the name that it is given.  Properties that stand alone are those
of a mapping that is not written. -/
def root (handles : Handles) : Reader (Option String × List (Node × Node)) := do
  let p ← properties handles
  if ← Reader.takes .mappingStart then pure (p.anchor, ← blockEntries handles)
  else if ← Reader.takes .braceOpen then pure (p.anchor, ← braceEntries handles)
  else
    guard (p ≠ {})
    pure (p.anchor, [])

/-- The mapping that a document holds.  Where a mark stands before the document, nothing need follow;
directives need the mark. -/
def document : Reader (Option String × List (Node × Node)) := do
  let said := (← get).takeWhile (·.directive?.isSome)
  let handles ← (Handles.ofDirectives? (said.filterMap (·.directive?)) : Option Handles)
  modify (·.drop said.length)
  if ← Reader.takes .documentStart then
    if (← get).isEmpty || (← Reader.isAt [.documentEnd]) then pure (none, []) else root handles
  else
    guard said.isEmpty
    root handles

/-- The mapping that a text holds, its entries in their order.  Nothing may follow the document but marks
of its end. -/
def mapping? (text : String) : Option (List (Scalar × Scalar)) := do
  let ts ← tokens? text
  if ts = [] then some []
  else
    let ((anchor, entries), left) ← document.run ts
    guard (left.all (· = .documentEnd))
    resolve? anchor entries

end RpcSchema.Yaml
