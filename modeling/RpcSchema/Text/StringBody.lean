/-!
# The body of a string literal

Between its quotes a string literal may hold any character.  Two pairs stand for one character: a
backslash before a double quote is that quote, and a backslash before a backslash is one backslash.
A backslash before anything else is itself.

* `closeString` finds the closing quote, passing over the two pairs.
* `unescape` undoes the two pairs.

Both read the body from the left and take the same pairs together, so that `unescape` never sees a
quote or backslash that `closeString` had paired otherwise.
-/

namespace RpcSchema.Text

/-- Splits a text at the first double quote that no backslash pairs with: what stands before the
quote, and what follows it.  Nothing if there is no such quote. -/
def closeString : List Char → Option (List Char × List Char)
  | [] => none
  | '"' :: rest => some ([], rest)
  | '\\' :: '"' :: rest => (closeString rest).map fun (body, after) => ('\\' :: '"' :: body, after)
  | '\\' :: '\\' :: rest => (closeString rest).map fun (body, after) => ('\\' :: '\\' :: body, after)
  | c :: rest => (closeString rest).map fun (body, after) => (c :: body, after)

/-- A body with its two escapes undone. -/
def unescape : List Char → List Char
  | [] => []
  | '\\' :: '"' :: rest => '"' :: unescape rest
  | '\\' :: '\\' :: rest => '\\' :: unescape rest
  | c :: rest => c :: unescape rest

/-- The pieces and the quote between them are the text. -/
theorem closeString_append {cs body after : List Char} (h : closeString cs = some (body, after)) :
    body ++ '"' :: after = cs := by
  fun_induction closeString cs generalizing body after with
  | case1 => simp at h
  | case2 rest => simp_all
  | case3 rest ih =>
    obtain ⟨⟨b, a⟩, hb, h⟩ := Option.map_eq_some_iff.1 h
    obtain ⟨rfl, rfl⟩ := Prod.mk.inj h
    simp [ih hb]
  | case4 rest ih =>
    obtain ⟨⟨b, a⟩, hb, h⟩ := Option.map_eq_some_iff.1 h
    obtain ⟨rfl, rfl⟩ := Prod.mk.inj h
    simp [ih hb]
  | case5 c rest _ _ _ ih =>
    obtain ⟨⟨b, a⟩, hb, h⟩ := Option.map_eq_some_iff.1 h
    obtain ⟨rfl, rfl⟩ := Prod.mk.inj h
    simp [ih hb]

end RpcSchema.Text
