/-!
# Tables of character ranges

Character properties that a standard fixes by enumeration are kept as lists of closed ranges of
code points.  A list, and not a function with many branches, because a list can be counted, compared
and searched by one definition, and the tables below stay data.

* `RangeTable` is a list of pairs of first and last code point.
* `RangeTable.contains` asks whether a character lies in one of the ranges.
-/

namespace RpcSchema.Text

/-- Closed ranges of code points, each given by its first and its last. -/
abbrev RangeTable := List (Nat × Nat)

namespace RangeTable

/-- Whether one of the ranges holds the character. -/
def contains (table : RangeTable) (c : Char) : Bool :=
  table.any fun (first, last) => first ≤ c.toNat && c.toNat ≤ last

theorem contains_iff {table : RangeTable} {c : Char} :
    table.contains c = true ↔ ∃ r ∈ table, r.1 ≤ c.toNat ∧ c.toNat ≤ r.2 := by
  simp [contains]

@[simp] theorem contains_nil (c : Char) : contains [] c = false := rfl

theorem contains_append (s t : RangeTable) (c : Char) :
    contains (s ++ t) c = (contains s c || contains t c) := by
  simp [contains]

end RangeTable

end RpcSchema.Text
