import RpcSchema.Token.Scan

/-!
# What the grammar reads from

The grammar reads significant tokens: line feeds are left out, but their number before each token is
kept, because a blank line separates a docstring from what follows.  A token with that number is a
`Word`.

The grammar takes words one by one and looks at most a few ahead, so it is written against a class of
supplies and not against a list.  `Lookahead` is the supply that reads a source as it goes: a scanner
with a short window of words in front of it.

* `TokenSupply` is what the grammar asks of a supply.
* `Scanner.nextWord` is the next word of a scanner.
* `Lookahead.ofSource` is the supply of a source.
-/

namespace RpcSchema

/-- A significant token, and the number of line feeds between it and the significant token before. -/
structure Word where
  token : Token
  breaks : Nat
deriving DecidableEq, Repr, Inhabited

/-- Something that words can be taken from.

The count of what remains is an upper bound for the number of words before the end of the file.  Only
loops use it, to see that they come nearer to their end. -/
class TokenSupply (σ : Type) where
  /-- The word that stands the given number of words ahead; past the end, the end of the file. -/
  peek : σ → Nat → Word
  /-- The supply behind its first word. -/
  advance : σ → σ
  /-- Where the word that was taken last stops. -/
  last : σ → Position
  /-- A bound for the number of words before the end. -/
  remaining : σ → Nat

/-! ## Words of a scanner -/

/-- The next word, and the scanner behind it; `breaks` line feeds were passed before. -/
def Scanner.nextWord (s : Scanner) (breaks : Nat) : Word × Scanner :=
  match _hs : s.next with
  | (token, behind) =>
    if _ht : token.kind = .newline then behind.nextWord (breaks + 1) else (⟨token, breaks⟩, behind)
termination_by s.rest.length
decreasing_by
  have := Scanner.length_rest_next (s := s) (by rw [_hs]; simp [_ht])
  rwa [_hs] at this

/-! ## A window in front of a scanner -/

/-- The number of words that a window holds. -/
def lookahead : Nat := 4

/-- A scanner with a window of words that were read but not yet taken. -/
structure Lookahead where
  last : Position
  window : List Word
  scanner : Scanner

namespace Lookahead

/-- Reads `n` more words into the window. -/
def fill (w : Lookahead) : Nat → Lookahead
  | 0 => w
  | n + 1 =>
    let (word, scanner) := w.scanner.nextWord 0
    fill { w with window := w.window ++ [word], scanner } n

/-- The supply of a source. -/
def ofSource (source : Source) : Lookahead :=
  fill ⟨.origin, [], .ofSource source⟩ lookahead

/-- The word that stands the given number of words ahead.  Past the window nothing is known, and the
next word of the scanner stands in. -/
def peek (w : Lookahead) (ahead : Nat) : Word := w.window.getD ahead (w.scanner.nextWord 0).1

/-- The supply behind its first word; the window is filled again. -/
def advance (w : Lookahead) : Lookahead :=
  fill { w with last := (w.peek 0).token.span.stop, window := w.window.drop 1 } 1

/-- The words of the window before the end of the file, and the characters that are left, of which
every further word takes one at least. -/
def remaining (w : Lookahead) : Nat :=
  w.window.countP (·.token.kind ≠ .endOfFile) + w.scanner.rest.length

instance : TokenSupply Lookahead where
  peek := peek
  advance := advance
  last := last
  remaining := remaining

end Lookahead

end RpcSchema
