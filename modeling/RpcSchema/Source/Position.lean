/-!
# Positions in a text

A place in a text is counted in three ways at once.  Lines and columns are for readers: both start at
one, and a column counts characters.  The offset is for cutting text out: it counts UTF-8 bytes from
zero.  The three are carried together and advance together, so that none is recomputed from another.

* `Position.advance` is the place after one character.
* `Position.after` is the place after a text.
* `utf8Length`, `dropBytes` and `takeBytes` measure and cut texts in bytes.
-/

namespace RpcSchema

/-- A place in a text: line and column from one, in characters, and offset from zero, in bytes.
Places are ordered line first, then column, then offset. -/
structure Position where
  line : Nat := 1
  column : Nat := 1
  offset : Nat := 0
deriving DecidableEq, Ord, Repr, Inhabited

namespace Position

/-- The place before the first character. -/
def origin : Position := {}

/-- The place after one more character.  Only a line feed ends a line. -/
def advance (p : Position) (c : Char) : Position :=
  if c = '\n' then { line := p.line + 1, column := 1, offset := p.offset + c.utf8Size }
  else { p with column := p.column + 1, offset := p.offset + c.utf8Size }

/-- The place after a text that begins at `p`. -/
def after (p : Position) (cs : List Char) : Position := cs.foldl advance p

/-- Line and column, for a reader. -/
def toText (p : Position) : String := toString p.line ++ ":" ++ toString p.column

@[simp] theorem after_nil (p : Position) : p.after [] = p := rfl

@[simp] theorem after_cons (p : Position) (c : Char) (cs : List Char) :
    p.after (c :: cs) = (p.advance c).after cs := rfl

/-- A text may be measured in pieces. -/
theorem after_append (p : Position) (cs ds : List Char) :
    p.after (cs ++ ds) = (p.after cs).after ds := List.foldl_append ..

@[simp] theorem offset_advance (p : Position) (c : Char) :
    (p.advance c).offset = p.offset + c.utf8Size := by
  unfold advance; split <;> rfl

end Position

namespace Text

/-! ## Cutting by bytes -/

/-- The length of a text in bytes. -/
def utf8Length : List Char → Nat
  | [] => 0
  | c :: cs => c.utf8Size + utf8Length cs

/-- The text from the first character that begins at or after the given offset. -/
def dropBytes : List Char → Nat → List Char
  | [], _ => []
  | c :: cs, n => if n = 0 then c :: cs else dropBytes cs (n - c.utf8Size)

/-- The characters that begin before the given offset. -/
def takeBytes : List Char → Nat → List Char
  | [], _ => []
  | c :: cs, n => if n = 0 then [] else c :: takeBytes cs (n - c.utf8Size)

@[simp] theorem utf8Length_nil : utf8Length [] = 0 := rfl

@[simp] theorem utf8Length_cons (c : Char) (cs : List Char) :
    utf8Length (c :: cs) = c.utf8Size + utf8Length cs := rfl

@[simp] theorem utf8Length_append (cs ds : List Char) :
    utf8Length (cs ++ ds) = utf8Length cs + utf8Length ds := by
  induction cs with
  | nil => simp
  | cons c cs ih => simp [ih, Nat.add_assoc]

/-- The length in bytes is the one that texts have by themselves. -/
theorem utf8Length_toList (s : String) : utf8Length s.toList = s.utf8ByteSize := by
  have key : ∀ cs : List Char, utf8Length cs = (String.ofList cs).utf8ByteSize := by
    intro cs
    induction cs with
    | nil => rfl
    | cons c cs ih =>
      have hcs : String.ofList (c :: cs) = String.singleton c ++ String.ofList cs := by
        rw [String.singleton_eq_ofList, ← String.ofList_append]; rfl
      rw [hcs, String.utf8ByteSize_append, String.utf8ByteSize_singleton, utf8Length_cons, ih]
  rw [key, String.ofList_toList]

/-- The two parts at an offset are the text. -/
theorem takeBytes_append_dropBytes (cs : List Char) (n : Nat) :
    takeBytes cs n ++ dropBytes cs n = cs := by
  induction cs generalizing n with
  | nil => rfl
  | cons c cs ih => by_cases h : n = 0 <;> simp [takeBytes, dropBytes, h, ih]

@[simp] theorem dropBytes_zero (cs : List Char) : dropBytes cs 0 = cs := by
  cases cs <;> simp [dropBytes]

@[simp] theorem takeBytes_zero (cs : List Char) : takeBytes cs 0 = [] := by
  cases cs <;> simp [takeBytes]

end Text

theorem Position.offset_after (p : Position) (cs : List Char) :
    (p.after cs).offset = p.offset + Text.utf8Length cs := by
  induction cs generalizing p with
  | nil => rfl
  | cons c cs ih => simp [ih, Nat.add_assoc]

end RpcSchema
