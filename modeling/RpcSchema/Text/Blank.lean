import RpcSchema.Text.RangeTable

/-!
# Blank characters

The text of a comment or docstring is kept without the blanks around it.  A blank is a character with
the Unicode property White_Space: the tab, the line ends, the space, and the spaces of other scripts.
The zero-width space, the zero-width no-break space and the Mongolian vowel separator lack the
property and are kept.

* `isBlank` decides the property.
* `trim` drops the blanks at both ends.
-/

namespace RpcSchema.Text

/-- The 25 code points with the property White_Space. -/
def blanks : RangeTable :=
  [(0x9, 0xD), (0x20, 0x20), (0x85, 0x85), (0xA0, 0xA0), (0x1680, 0x1680), (0x2000, 0x200A),
   (0x2028, 0x2029), (0x202F, 0x202F), (0x205F, 0x205F), (0x3000, 0x3000)]

/-- Whether a character is blank. -/
def isBlank (c : Char) : Bool := blanks.contains c

/-- The text from its first character that is not blank. -/
def trimLeft (cs : List Char) : List Char := cs.dropWhile isBlank

/-- The text up to its last character that is not blank. -/
def trimRight (cs : List Char) : List Char := (cs.reverse.dropWhile isBlank).reverse

/-- The text without the blanks at its two ends. -/
def trim (cs : List Char) : List Char := trimRight (trimLeft cs)

example : blanks.foldl (fun n r => n + (r.2 - r.1 + 1)) 0 = 25 := by decide

/-- Every character that core counts as white space is blank. -/
theorem isBlank_of_isWhitespace {c : Char} (h : c.isWhitespace = true) : isBlank c = true := by
  simp only [Char.isWhitespace, Bool.or_eq_true, decide_eq_true_eq] at h
  rcases h with ((rfl | rfl) | rfl) | rfl <;> decide

@[simp] theorem trim_nil : trim [] = [] := rfl

end RpcSchema.Text
