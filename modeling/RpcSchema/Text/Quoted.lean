import RpcSchema.Text.Extender
import RpcSchema.Text.Printable

/-!
# Text quoted for a reader

Messages and listings show text that may hold controls, quotes and invisible characters.  Such text is
escaped: the null character, tab, carriage return, line feed, backslash and quotes by a letter of their
own, every character that cannot be seen by its number in hexadecimal.

There are two uses, and they differ in two decisions only, so both are one function of an `Escaping`.

* `quoted` writes the value of a string literal between double quotes.  An apostrophe needs no escape
  there, and every combining mark is written by number, since the value is to be read exactly.
* `shown` writes a piece of source text without quotes around it.  Both quotes are escaped, and a
  combining mark is written by number only at the front, where it has nothing to combine with.
-/

namespace RpcSchema.Text

/-- The decisions in which the two ways of escaping differ. -/
structure Escaping where
  /-- Whether an apostrophe is escaped. -/
  apostrophe : Bool
  /-- Whether a combining mark is written by number. -/
  extender : Bool

/-- The character by its number: `\u`, and the hexadecimal digits between braces. -/
def byNumber (c : Char) : List Char :=
  ['\\', 'u', '\x7b'] ++ Nat.toDigits 16 c.toNat ++ ['\x7d']

/-- One character, escaped. -/
def escapeChar (e : Escaping) (c : Char) : List Char :=
  if c = '\x00' then ['\\', '0']
  else if c = '\t' then ['\\', 't']
  else if c = '\r' then ['\\', 'r']
  else if c = '\n' then ['\\', 'n']
  else if c = '\\' then ['\\', '\\']
  else if c = '"' then ['\\', '"']
  else if c = '\'' ∧ e.apostrophe then ['\\', '\'']
  else if e.extender && isExtender c then byNumber c
  else if isPrintable c then [c]
  else byNumber c

/-- A literal's value leaves apostrophes alone and spells combining marks out. -/
def Escaping.value : Escaping := { apostrophe := false, extender := true }

/-- The first character of a piece of source text has nothing before it to combine with. -/
def Escaping.front : Escaping := { apostrophe := true, extender := true }

/-- Later characters of a piece of source text combine with the one before. -/
def Escaping.inner : Escaping := { apostrophe := true, extender := false }

/-- A string between double quotes, every character of it escaped as a value. -/
def quoted (s : String) : String :=
  String.ofList (['"'] ++ s.toList.flatMap (escapeChar .value) ++ ['"'])

/-- A piece of source text, escaped for a message or a listing. -/
def shown (cs : List Char) : List Char :=
  match cs with
  | [] => []
  | c :: rest => escapeChar .front c ++ rest.flatMap (escapeChar .inner)

example : shown ['a', '\'', '\n'] = ['a', '\\', '\'', '\\', 'n'] := by decide +kernel

/-- An escape is never empty, so that quoting loses no character. -/
theorem escapeChar_ne_nil (e : Escaping) (c : Char) : escapeChar e c ≠ [] := by
  unfold escapeChar byNumber
  repeat' split
  all_goals simp

end RpcSchema.Text
