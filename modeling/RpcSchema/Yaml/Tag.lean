import RpcSchema.Decimal.Basic
import RpcSchema.Yaml.Cursor

/-!
# Tags

A tag names the type of a scalar.  It is written in full between angle brackets, or in short: a handle
stands for the first part of the tag.  Two handles are known to every text, and a text may say with a
directive what others stand for.  An octet of a tag may be written in hexadecimal.

* `Tag.read` reads a tag as it is written, `Directive.read` a directive.
* `Handles.resolve?` is the tag that is meant.
-/

namespace RpcSchema.Yaml

/-! ## Names and octets -/

/-- Whether a character can be part of a name. -/
def isNameChar (c : Char) : Bool := c.isAlphanum || c = '_' || c = '-'

/-- Whether a character can be part of a tag. -/
def isTagChar (c : Char) : Bool :=
  isNameChar c
    || [';', '/', '?', ':', '@', '&', '=', '+', '$', '.', '!', '~', '*', '\'', '(', ')', '%'].contains c

/-- Whether a character can be part of a tag that is written in full. -/
def isFullTagChar (c : Char) : Bool := isTagChar c || c = ',' || c = '[' || c = ']'

/-- The number of octets that a character takes if it begins with the given octet. -/
def octetsOfCharacter? (octet : Nat) : Option Nat :=
  if octet < 0x80 then some 1
  else if octet < 0xC0 then none
  else if octet < 0xE0 then some 2
  else if octet < 0xF0 then some 3
  else if octet < 0xF8 then some 4
  else none

/-- Whether an octet continues a character. -/
def continues (octet : Nat) : Bool := 0x80 ≤ octet && octet < 0xC0

/-- The characters of the class from here on, with an octet for each that is written in hexadecimal, and
what they leave.  The last character still lacks `missing` octets. -/
def tagChars (allowed : Char → Bool) (missing : Nat) : List Char → Option (List Char × List Char)
  | [] => if missing = 0 then some ([], []) else none
  | '%' :: a :: b :: rest => do
    let octet ← hexNumber? [a, b]
    let lacks ←
      if missing = 0 then (octetsOfCharacter? octet).map (· - 1)
      else if continues octet then some (missing - 1)
      else none
    let (text, after) ← tagChars allowed lacks rest
    pure (Char.ofNat octet :: text, after)
  | '%' :: _ => none
  | c :: rest =>
    if missing ≠ 0 then none
    else if allowed c then do
      let (text, after) ← tagChars allowed 0 rest
      pure (c :: text, after)
    else some ([], c :: rest)

/-- A text of octets, which ends before the first that is zero. -/
def textOfOctets (cs : List Char) : String := String.ofList (cs.takeWhile (· ≠ '\x00'))

/-! ## Tags as they are written -/

/-- A handle, and what follows it.  The empty handle stands for nothing. -/
structure Tag where
  handle : List Char
  suffix : String
deriving DecidableEq, Repr

namespace Tag

/-- What may be a handle: a mark, with a name and a second mark behind it or without.  Without the second
mark a name is no part of the handle. -/
def marked : Move (List Char) := do
  Move.take '!'
  let name ← Move.takeWhile isNameChar
  if (← get).isAt '!' then
    Move.pass 1
    pure ('!' :: name ++ ['!'])
  else pure ('!' :: name)

/-- A tag between angle brackets. -/
def full : Move Tag := do
  Move.pass 2
  let suffix ← Move.ofReader (tagChars isFullTagChar 0)
  guard (suffix ≠ [])
  Move.take '>'
  pure ⟨[], textOfOctets suffix⟩

/-- A tag with a handle.  If nothing follows the mark, the mark itself is the tag. -/
def short : Move Tag := do
  let handle ← marked
  let text ← Move.ofReader (tagChars isTagChar 0)
  if handle.length ≠ 1 ∧ handle.getLast? = some '!' then
    guard (text ≠ [])
    pure ⟨handle, textOfOctets text⟩
  else
    let suffix := textOfOctets (handle.drop 1 ++ text)
    pure (if suffix = "" then ⟨[], "!"⟩ else ⟨['!'], suffix⟩)

/-- A tag, behind which a blank or a line end stands, or between braces a comma. -/
def read (inBraces : Bool) : Move Tag := do
  let tag ← if ((← get).rest.drop 1).head? = some '<' then full else short
  let c ← get
  guard (blankNext c.rest || (inBraces && c.isAt ','))
  pure tag

end Tag

/-! ## Directives -/

/-- What a text says about how it is to be read. -/
inductive Directive where
  /-- The version of YAML that it is written in. -/
  | version (major minor : Nat)
  /-- What a handle stands for. -/
  | handle (handle : List Char) (stem : String)
deriving DecidableEq, Repr

namespace Directive

/-- A part of a version: at most nine digits. -/
def number : Move Nat := do
  let digits ← Move.takeWhile Char.isDigit
  guard (digits ≠ [] ∧ digits.length ≤ 9)
  pure (Decimal.naturalOfDigits digits)

/-- The version of a text. -/
def readVersion : Move Directive := do
  let major ← number
  Move.take '.'
  pure (.version major (← number))

/-- A handle and what it stands for. -/
def readHandle : Move Directive := do
  let handle ← Tag.marked
  guard (handle.getLast? = some '!')
  guard ((← get).rest.head?.any isBlank)
  let _ ← Move.takeWhile isBlank
  let stem ← Move.ofReader (tagChars isFullTagChar 0)
  guard (stem ≠ [] && blankNext (← get).rest)
  pure (.handle handle (textOfOctets stem))

/-- A directive with its line, on which only a remark may follow. -/
def read : Move Directive := do
  Move.pass 1
  let name ← Move.takeWhile isNameChar
  guard (blankNext (← get).rest)
  let _ ← Move.takeWhile isBlank
  let directive ←
    if name = ['Y', 'A', 'M', 'L'] then readVersion
    else if name = ['T', 'A', 'G'] then readHandle
    else failure
  Move.restOfLine
  pure directive

end Directive

/-! ## The meaning of handles -/

/-- What each handle stands for. -/
abbrev Handles := List (List Char × String)

/-- The tags of the standard types begin with this text. -/
def standardTags : String := "tag:yaml.org,2002:"

namespace Handles

/-- The handles that every text knows. -/
def standard : Handles := [(['!'], "!"), (['!', '!'], standardTags)]

/-- The tag that is meant. -/
def resolve? (handles : Handles) (tag : Tag) : Option String :=
  if tag.handle = [] then some tag.suffix
  else (handles.lookup tag.handle).map (· ++ tag.suffix)

/-- The handles that directives speak of, each of them once. -/
def declared? : List Directive → Option Handles
  | [] => some []
  | .version .. :: rest => declared? rest
  | .handle handle stem :: rest => do
    let handles ← declared? rest
    guard (handles.lookup handle = none)
    pure ((handle, stem) :: handles)

/-- The handles that a text knows after directives.  They give its version once at most, and it is one
whose rules these are. -/
def ofDirectives? (directives : List Directive) : Option Handles := do
  let versions := directives.filterMap fun
    | .version major minor => some (major, minor)
    | .handle .. => none
  guard (versions.length ≤ 1 && versions.all [(1, 1), (1, 2)].contains)
  pure ((← declared? directives) ++ standard)

end Handles

end RpcSchema.Yaml
