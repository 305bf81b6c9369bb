import Mathlib.Tactic.Lemma
import Mathlib.Tactic.SplitIfs
import RpcSchema.Grammar.Literal

/-!
# What may come next

A text is read from left to right, and at any place the grammar tells what may come next.  Here that
is a machine of its own, without a reader and without a tree: a stack of goals, which stands for all
that is still to come of the statement that was begun.  Between statements the stack is empty.

* `step` is what one lexeme does to a stack: the goal on top takes it and leaves other goals behind,
  or nothing takes it.
* `pending` is the stack behind some lexemes from the start of a file, if they may all come.

**Nothing is a dead end.**  Every goal can be closed: `Goal.closing` are lexemes that take it off the
stack, and with it what lies on it.  So what is pending can always be completed (`foldlM_closing`),
whatever the stack.  This is why a goal takes one lexeme at least.  Where the grammar leaves something
out, as the brackets behind a type, the goal for it goes on to what comes behind (`onUses`,
`onType`, …) and is not taken off for nothing.

**Docstrings** do not matter here: a docstring that belongs to a declaration or field may come where
one by itself may.
-/

namespace RpcSchema

/-! ## Literals -/

/-- The number that the literal of an integer is. -/
def Lexeme.number (l : Lexeme) : Nat := Decimal.naturalOfDigits l.literal.toList

/-- The kind of the value of a literal.  An integer that is out of range has no value. -/
def Lexeme.valueKind? (l : Lexeme) : Option ValueKind :=
  match l.kind with
  | .string => some .string
  | .integer => if l.number < Decimal.integerBound then some .int else none
  | .float => some .float
  | .boolean _ => some .bool
  | _ => none

/-! ## Goals -/

/-- What is still to come. -/
inductive Goal where
  | delimiter (d : Delimiter)
  | keyword (k : Keyword)
  | identifier
  | string
  /-- An integer that is in range. -/
  | number
  | literal
  | typeName
  /-- The entries of a list of fields, and its closing brace. -/
  | fields
  /-- The rest of a field behind its name, and of the list. -/
  | afterName
  /-- The rest of a field from its type on, and of the list. -/
  | fieldType
  /-- The rest of a field behind its type without brackets, and of the list. -/
  | afterBase
  /-- The rest of a field behind its type, and of the list. -/
  | afterType
  /-- The uses of rules that a field still has, and the rest of the list. -/
  | uses
  /-- The rest of a use from its name on; and so are `afterUse`, `arguments` and the like. -/
  | useName
  | afterUse
  | arguments
  | moreArguments
  /-- The items of an array, and its closing bracket. -/
  | items
  /-- The items of an array behind one, and its closing bracket. -/
  | moreItems (first : ValueKind)
  /-- The items of an array behind a comma, and its closing bracket. -/
  | nextItem (first : ValueKind)
  | ruleItems
  | afterClauseType
  | metaItems
  | procItems
  | declaration
  | afterDeprecated

namespace Goal

/-! ## What takes a lexeme -/

section

variable (l : Lexeme) (rest : List Goal)

/-- What is pending behind a lexeme that a list of fields goes on with. -/
def onFields : Option (List Goal) :=
  if l.kind = .delimiter .rightBrace then some rest
  else if l.kind.isComment ∨ l.kind = .docstring then some (.fields :: rest)
  else if l.kind.isName then some (.afterName :: rest)
  else none

/-- What is pending behind a lexeme that comes behind a use or a type. -/
def onUses : Option (List Goal) :=
  if l.kind = .delimiter .atSign then some (.useName :: rest) else onFields l rest

/-- What is pending behind a lexeme that comes behind a type and its brackets. -/
def onType : Option (List Goal) :=
  if l.kind = .delimiter .questionMark then some (.uses :: rest) else onUses l rest

/-- What is pending behind a lexeme that the body of a rule goes on with. -/
def onRuleItems : Option (List Goal) :=
  match l.kind with
  | .delimiter .rightBrace => some rest
  | .lineComment | .blockComment => some (.ruleItems :: rest)
  | .keyword .target | .keyword .param =>
    some (.delimiter .colon :: .typeName :: .afterClauseType :: rest)
  | .keyword .error => some (.delimiter .colon :: .string :: .ruleItems :: rest)
  | _ => none

/-- What is pending behind a lexeme that the body of a procedure or stream goes on with. -/
def onProcItems : Option (List Goal) :=
  match l.kind with
  | .delimiter .rightBrace => some rest
  | .lineComment | .blockComment => some (.procItems :: rest)
  | .keyword .input | .keyword .output =>
    some (.delimiter .leftBrace :: .fields :: .procItems :: rest)
  | .keyword .metadata => some (.delimiter .leftBrace :: .metaItems :: .procItems :: rest)
  | _ => none

/-- What is pending behind the keyword of a declaration. -/
def onDeclaration : Option (List Goal) :=
  match l.kind with
  | .keyword .rule =>
    some (.delimiter .atSign :: .identifier :: .delimiter .leftBrace :: .ruleItems :: rest)
  | .keyword .type => some (.identifier :: .delimiter .leftBrace :: .fields :: rest)
  | .keyword .proc | .keyword .stream =>
    some (.identifier :: .delimiter .leftBrace :: .procItems :: rest)
  | _ => none

/-- What is pending when a goal took a lexeme, if it takes it, with other goals behind. -/
def on : Goal → Option (List Goal)
  | delimiter d => if l.kind = .delimiter d then some rest else none
  | keyword k => if l.kind = .keyword k then some rest else none
  | identifier => if l.kind = .identifier then some rest else none
  | string => if l.kind = .string then some rest else none
  | number => if l.kind = .integer ∧ l.number < Decimal.integerBound then some rest else none
  | literal => l.valueKind?.map fun _ => rest
  | typeName => if l.kind.isTypeName then some rest else none
  | fields => onFields l rest
  | afterName =>
    if l.kind = .delimiter .questionMark then some (.delimiter .colon :: .fieldType :: rest)
    else if l.kind = .delimiter .colon then some (.fieldType :: rest)
    else none
  | fieldType =>
    if l.kind = .delimiter .leftBrace then some (.fields :: .afterBase :: rest)
    else if l.kind.isTypeName then some (.afterBase :: rest)
    else none
  | afterBase =>
    if l.kind = .delimiter .leftBracket then some (.delimiter .rightBracket :: .afterType :: rest)
    else onType l rest
  | afterType => onType l rest
  | uses => onUses l rest
  | useName => if l.kind = .identifier then some (.afterUse :: rest) else none
  | afterUse =>
    if l.kind = .delimiter .leftParen then some (.arguments :: .uses :: rest) else onUses l rest
  | arguments =>
    if l.kind = .keyword .error then
      some (.delimiter .colon :: .string :: .delimiter .rightParen :: rest)
    else if l.kind = .delimiter .rightParen then some rest
    else if l.kind = .delimiter .leftBracket then some (.items :: .moreArguments :: rest)
    else l.valueKind?.map fun _ => .moreArguments :: rest
  | moreArguments =>
    if l.kind = .delimiter .comma then
      some (.keyword .error :: .delimiter .colon :: .string :: .delimiter .rightParen :: rest)
    else if l.kind = .delimiter .rightParen then some rest
    else none
  | items =>
    if l.kind = .delimiter .rightBracket then some rest
    else l.valueKind?.map fun first => .moreItems first :: rest
  | moreItems first =>
    if l.kind = .delimiter .comma then some (.nextItem first :: rest)
    else if l.kind = .delimiter .rightBracket then some rest
    else none
  | nextItem first =>
    if l.kind = .delimiter .rightBracket then some rest
    else if l.valueKind? = some first then some (.moreItems first :: rest)
    else none
  | ruleItems => onRuleItems l rest
  | afterClauseType =>
    if l.kind = .delimiter .leftBracket then some (.delimiter .rightBracket :: .ruleItems :: rest)
    else onRuleItems l rest
  | metaItems =>
    if l.kind = .delimiter .rightBrace then some rest
    else if l.kind.isComment then some (.metaItems :: rest)
    else if l.kind.isName then some (.delimiter .colon :: .literal :: .metaItems :: rest)
    else none
  | procItems => onProcItems l rest
  | declaration => onDeclaration l rest
  | afterDeprecated =>
    if l.kind = .delimiter .leftParen then
      some (.string :: .delimiter .rightParen :: .declaration :: rest)
    else onDeclaration l rest

/-- What is pending behind a lexeme between statements. -/
def onStatement : Option (List Goal) :=
  if l.kind = .endOfFile ∨ l.kind.isComment ∨ l.kind = .docstring then some rest
  else if l.kind = .keyword .version then some (.number :: rest)
  else if l.kind = .keyword .imports then some (.string :: rest)
  else if l.kind = .keyword .deprecated then some (.afterDeprecated :: rest)
  else onDeclaration l rest

variable {l}

lemma onDeclaration_of_not_starts (h : ¬ l.kind.startsDeclaration) : onDeclaration l rest = none := by
  rw [onDeclaration]
  split <;> simp_all [Kind.startsDeclaration]

lemma onStatement_of_starts (h : l.kind.startsDeclaration) (hbare : l.kind ≠ .keyword .deprecated) :
    onStatement l rest = onDeclaration l rest := by
  rw [onStatement]
  split_ifs with hapart hversion himport
  · rcases hapart with hk | hk | hk <;> revert h hk <;> cases l.kind <;>
      simp [Kind.startsDeclaration, Kind.isComment]
  · simp [hversion, Kind.startsDeclaration] at h
  · simp [himport, Kind.startsDeclaration] at h
  · rfl

end

end Goal

/-! ## Stacks of goals -/

/-- What is pending behind a lexeme. -/
def step : List Goal → Lexeme → Option (List Goal)
  | [], l => Goal.onStatement l []
  | g :: rest, l => g.on l rest

/-- What is pending behind some lexemes from the start of a file. -/
def pending (ls : List Lexeme) : Option (List Goal) := ls.foldlM step []

variable {ls ls' : List Lexeme} {l : Lexeme} {goals : List Goal}

lemma pending_append : pending (ls ++ ls') = (pending ls).bind fun goals => ls'.foldlM step goals :=
  List.foldlM_append

lemma pending_concat : pending (ls ++ [l]) = (pending ls).bind fun goals => step goals l := by
  simp [pending_append]

/-- What is in front of lexemes that may come may come. -/
lemma isSome_pending_of_prefix (h : (pending ls').isSome) (hbegins : ls <+: ls') :
    (pending ls).isSome := by
  obtain ⟨behind, rfl⟩ := hbegins
  rw [pending_append] at h
  exact Option.isSome_of_isSome_bind h

lemma Goal.onFields_illegal (h : l.kind = .illegal) (rest : List Goal) : onFields l rest = none := by
  simp [onFields, h, Kind.isComment, Kind.isName, Kind.isKeyword]

/-- What belongs to no token cannot come. -/
lemma step_illegal (h : l.kind = .illegal) (goals : List Goal) : step goals l = none := by
  cases goals with
  | nil => simp [step, Goal.onStatement, Goal.onDeclaration, h, Kind.isComment]
  | cons g rest =>
      cases g <;> simp [step, Goal.on, Goal.onUses, Goal.onType, Goal.onRuleItems,
        Goal.onProcItems, Goal.onDeclaration, Goal.onFields_illegal, Lexeme.valueKind?, h,
        Kind.isComment, Kind.isName, Kind.isKeyword, Kind.isTypeName, Kind.isPrimitive]

/-! ## Closing what is pending -/

/-- The lexeme of a punctuation mark. -/
def Lexeme.mark (d : Delimiter) : Lexeme := ⟨.delimiter d, String.singleton d.char⟩

/-- The lexeme of a keyword. -/
def Lexeme.word (k : Keyword) : Lexeme := ⟨.keyword k, k.word⟩

/-- A name. -/
def Lexeme.someName : Lexeme := ⟨.identifier, "x"⟩

/-- A string. -/
def Lexeme.someString : Lexeme := ⟨.string, ""⟩

/-- A number. -/
def Lexeme.someNumber : Lexeme := ⟨.integer, "0"⟩

open Lexeme in
/-- Lexemes that take a goal off the stack, and all that comes of it. -/
def Goal.closing : Goal → List Lexeme
  | delimiter d => [mark d]
  | keyword k => [word k]
  | identifier | typeName => [someName]
  | string | literal => [someString]
  | number => [someNumber]
  | fields | afterBase | afterType | uses | afterUse => [mark .rightBrace]
  | ruleItems | afterClauseType | metaItems | procItems => [mark .rightBrace]
  | afterName => [mark .colon, someName, mark .rightBrace]
  | fieldType | useName => [someName, mark .rightBrace]
  | arguments | moreArguments => [mark .rightParen]
  | items | moreItems _ | nextItem _ => [mark .rightBracket]
  | declaration | afterDeprecated => [word .type, someName, mark .leftBrace, mark .rightBrace]

lemma Goal.foldlM_closing (g : Goal) (rest : List Goal) :
    g.closing.foldlM step (g :: rest) = some rest := by
  cases g with
  | delimiter d => simp [closing, step, on, Lexeme.mark]
  | keyword k => simp [closing, step, on, Lexeme.word]
  | _ => rfl

/-- **Whatever is pending can be closed.** -/
lemma foldlM_closing (goals : List Goal) : (goals.flatMap Goal.closing).foldlM step goals = some [] := by
  induction goals with
  | nil => rfl
  | cons g rest ih =>
      rw [List.flatMap_cons, List.foldlM_append, g.foldlM_closing]
      exact ih

end RpcSchema
