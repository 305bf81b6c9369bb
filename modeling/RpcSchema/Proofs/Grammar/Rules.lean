import Mathlib.Tactic.Lemma
import RpcSchema.Grammar.File

/-!
# The grammar

The rules of the schema language, without a reader: which words make up which part of a schema.  Each
rule relates a list of words to the part that they are written for, spans included, so that a
derivation says both that a text may be written and what it means.

```
schema      = (version | import | comment | docstring | [docstring] declaration)*
declaration = ["deprecated" [ "(" string ")" ]] (rule | type | proc)
rule        = "rule" "@" identifier "{" (comment | clause)* "}"
clause      = ("for" | "param") ":" type name [ "[" "]" ] | error
type        = "type" identifier "{" fields "}"
proc        = ("proc" | "stream") identifier "{" (comment | block | metadata)* "}"
block       = ("input" | "output") "{" fields "}"
metadata    = "meta" "{" (comment | name ":" literal)* "}"
fields      = (comment | docstring | [docstring] field)*
field       = name [ "?" ] ":" base [ "[" "]" ] [ "?" ] use*
base        = type name | "{" fields "}"
use         = "@" identifier [ "(" [error | argument [ "," error ]] ")" ]
argument    = literal | "[" [literal ("," literal)* [","]] "]"
error       = "error" ":" string
```

**Docstrings.**  The rules above leave open whether a docstring in front of a declaration or field
belongs to it.  It does unless a blank line stands between: `Attaches` is that condition, and the rules
for a docstring by itself and for one with what it documents exclude each other by it.

**Numbers and arrays.**  An integer must fit into 64 bits with a sign, and the items of an array must be
of one kind.  Both are conditions of the rules.
-/

namespace RpcSchema

namespace Word

/-- What a word is. -/
abbrev kind (w : Word) : Kind := w.token.kind

/-- Where a word stands. -/
abbrev span (w : Word) : Span := w.token.span

/-- A word as a name. -/
def name (w : Word) : Name := ⟨w.span, w.token.literal⟩

/-- A word as a comment. -/
def comment (w : Word) : Comment := ⟨w.span, w.token.literal, w.kind = .blockComment⟩

/-- A word as a docstring. -/
def docstring (w : Word) : Docstring := ⟨w.span, w.token.literal⟩

/-- A word as the value of a string. -/
def value (w : Word) : String := Reader.stringValue w.token

/-- A word as a number. -/
def number (w : Word) : Nat := Decimal.naturalOfDigits w.token.literal.toList

/-- The stretch from the first of some words to the last.  It is only asked for where there are
words. -/
def stretch (ws : List Word) : Span := (ws.headD default).span.through (ws.getLastD default).span

end Word

namespace Grammar

open Word (stretch)

/-! ## Forms that recur -/

/-- Any number of parts, one after the other.  Whether words make up a part may depend on the words of
the parts behind it. -/
inductive Sequence {α : Type} (part : List Word → List Word → α → Prop) :
    List Word → List α → Prop where
  | nil : Sequence part [] []
  | cons {us behind : List Word} {a : α} {as : List α} : part behind us a →
      Sequence part behind as → Sequence part (us ++ behind) (a :: as)

/-- Any number of parts that do not depend on what is behind them. -/
abbrev Star {α : Type} (part : List Word → α → Prop) : List Word → List α → Prop :=
  Sequence fun _ => part

/-- A punctuation mark, or nothing. -/
inductive Mark (d : Delimiter) : List Word → Bool → Prop where
  | absent : Mark d [] false
  | present {w : Word} : w.kind = .delimiter d → Mark d [w] true

/-- The brackets of an array type, or nothing. -/
inductive Brackets : List Word → Bool → Prop where
  | absent : Brackets [] false
  | present {l r : Word} : l.kind = .delimiter .leftBracket → r.kind = .delimiter .rightBracket →
      Brackets [l, r] true

/-- Words between braces. -/
inductive Braced {α : Type} (inner : List Word → α → Prop) : List Word → α → Prop where
  | mk {l r : Word} {ws : List Word} {a : α} : l.kind = .delimiter .leftBrace → inner ws a →
      r.kind = .delimiter .rightBrace → Braced inner (l :: ws ++ [r]) a

/-- A docstring belongs to what begins with the next word, if that begins something that may be
documented and no blank line stands before it. -/
def Attaches (starts : Kind → Bool) (behind : List Word) : Prop :=
  ∃ w ws, behind = w :: ws ∧ starts w.kind ∧ w.breaks < 2

/-! ## Literals and uses of rules -/

/-- A literal. -/
inductive LiteralOf : Word → Literal → Prop where
  | string {w : Word} : w.kind = .string → LiteralOf w ⟨w.span, .string w.value⟩
  | integer {w : Word} : w.kind = .integer → w.number < Decimal.integerBound →
      LiteralOf w ⟨w.span, .int w.number⟩
  | float {w : Word} : w.kind = .float →
      LiteralOf w ⟨w.span, .float (Decimal.ofLiteral w.token.literal.toList).toFloat⟩
  | boolean {w : Word} {b : Bool} : w.kind = .boolean b → LiteralOf w ⟨w.span, .bool b⟩

/-- No literal is the end of the file, a punctuation mark or a keyword. -/
lemma LiteralOf.kind_ne {w : Word} {l : Literal} (h : LiteralOf w l) :
    w.kind ≠ .endOfFile ∧ (∀ d, w.kind ≠ .delimiter d) ∧ ∀ k, w.kind ≠ .keyword k := by
  cases h with
  | string hk => simp [hk]
  | integer hk _ => simp [hk]
  | float hk => simp [hk]
  | boolean hk => simp [hk]

/-- The message of a rule. -/
inductive ErrorOf : List Word → ErrorClause → Prop where
  | mk {e c m : Word} : e.kind = .keyword .error → c.kind = .delimiter .colon → m.kind = .string →
      ErrorOf [e, c, m] ⟨stretch [e, c, m], m.value⟩

/-- An item of an array behind the first, which is of the given kind. -/
inductive NextItem (first : ValueKind) : List Word → Literal → Prop where
  | mk {c w : Word} {l : Literal} : c.kind = .delimiter .comma → LiteralOf w l →
      l.value.kind = first → NextItem first [c, w] l

/-- The items of an array. -/
inductive Items : List Word → List Literal → Prop where
  | none : Items [] []
  | some {w : Word} {l : Literal} {ws vs : List Word} {ls : List Literal} {trailing : Bool} :
      LiteralOf w l → Star (NextItem l.value.kind) ws ls → Mark .comma vs trailing →
      Items (w :: (ws ++ vs)) (l :: ls)

/-- What a rule is given. -/
inductive ArgumentOf : List Word → Argument → Prop where
  | single {w : Word} {l : Literal} : LiteralOf w l → ArgumentOf [w] (.single l)
  | array {l r : Word} {ws : List Word} {items : List Literal} :
      l.kind = .delimiter .leftBracket → Items ws items → r.kind = .delimiter .rightBracket →
      ArgumentOf (l :: ws ++ [r]) (.array (stretch (l :: ws ++ [r])) items)

/-- What stands between the parentheses of a use. -/
inductive Arguments : List Word → Option Argument × Option ErrorClause → Prop where
  | empty : Arguments [] (none, none)
  | error {ws : List Word} {e : ErrorClause} : ErrorOf ws e → Arguments ws (none, some e)
  | argument {ws : List Word} {a : Argument} : ArgumentOf ws a → Arguments ws (some a, none)
  | both {c : Word} {us vs : List Word} {a : Argument} {e : ErrorClause} :
      ArgumentOf us a → c.kind = .delimiter .comma → ErrorOf vs e →
      Arguments (us ++ c :: vs) (some a, some e)

/-- The use of a rule. -/
inductive UseOf : List Word → RuleUse → Prop where
  | bare {m n : Word} : m.kind = .delimiter .atSign → n.kind = .identifier →
      UseOf [m, n] ⟨stretch [m, n], n.name, none, none⟩
  | given {m n l r : Word} {ws : List Word} {a : Option Argument} {e : Option ErrorClause} :
      m.kind = .delimiter .atSign → n.kind = .identifier → l.kind = .delimiter .leftParen →
      Arguments ws (a, e) → r.kind = .delimiter .rightParen →
      UseOf (m :: n :: l :: ws ++ [r]) ⟨stretch (m :: n :: l :: ws ++ [r]), n.name, a, e⟩

/-! ## Fields -/

/-- A field whose type is written with the words `bs` and is `base`, apart from brackets. -/
inductive FieldOf (bs : List Word) (base : FieldBase) (docstring : Option Docstring) :
    List Word → Field → Prop where
  | mk {n c : Word} {ms ns ks us : List Word} {byName byType isArray : Bool}
      {rules : List RuleUse} :
      n.kind.isName → Mark .questionMark ms byName → c.kind = .delimiter .colon →
      Brackets ks isArray → Mark .questionMark ns byType → Star UseOf us rules →
      FieldOf bs base docstring (n :: (ms ++ c :: (bs ++ ks ++ ns ++ us)))
        ⟨stretch (n :: (ms ++ c :: (bs ++ ks ++ ns ++ us))), docstring, n.name,
          byName || byType, ⟨stretch (bs ++ ks), base, isArray⟩, rules⟩

mutual

/-- The type of a field, apart from brackets. -/
inductive BaseOf : List Word → FieldBase → Prop where
  | named {w : Word} : w.kind.isTypeName → BaseOf [w] (.named w.name)
  | object {l r : Word} {ws : List Word} {items : List FieldItem} :
      l.kind = .delimiter .leftBrace → Fields ws items → r.kind = .delimiter .rightBrace →
      BaseOf (l :: ws ++ [r]) (.object items)

/-- An entry of a list of fields, in front of the words of the entries behind. -/
inductive EntryOf : List Word → List Word → FieldItem → Prop where
  | comment {w : Word} {behind : List Word} : w.kind.isComment →
      EntryOf behind [w] (.comment w.comment)
  | docstring {w : Word} {behind : List Word} : w.kind = .docstring →
      ¬ Attaches Kind.isName behind → EntryOf behind [w] (.docstring w.docstring)
  | field {bs ws behind : List Word} {base : FieldBase} {f : Field} :
      BaseOf bs base → FieldOf bs base none ws f → EntryOf behind ws (.field f)
  | documented {w : Word} {bs ws behind : List Word} {base : FieldBase} {f : Field} :
      w.kind = .docstring → Attaches Kind.isName ws → BaseOf bs base →
      FieldOf bs base (some w.docstring) ws f → EntryOf behind (w :: ws) (.field f)

/-- A list of fields: a sequence of entries. -/
inductive Fields : List Word → List FieldItem → Prop where
  | nil : Fields [] []
  | cons {us behind : List Word} {item : FieldItem} {items : List FieldItem} :
      EntryOf behind us item → Fields behind items → Fields (us ++ behind) (item :: items)

end

lemma fields_iff {ws : List Word} {items : List FieldItem} :
    Fields ws items ↔ Sequence EntryOf ws items := by
  constructor
  · intro h
    induction items generalizing ws with
    | nil => cases h; exact .nil
    | cons item items ih =>
        cases h with
        | cons hitem hitems => exact .cons hitem (ih hitems)
  · intro h
    induction h with
    | nil => exact .nil
    | cons hitem _ ih => exact .cons hitem ih

/-! ## Declarations -/

/-- A clause of a rule that names a type, under the given keyword. -/
inductive ClauseOf (keyword : Keyword) : List Word → TypeClause → Prop where
  | mk {k c t : Word} {ws : List Word} {isArray : Bool} :
      k.kind = .keyword keyword → c.kind = .delimiter .colon → t.kind.isTypeName →
      Brackets ws isArray →
      ClauseOf keyword (k :: c :: t :: ws) ⟨stretch (k :: c :: t :: ws), t.name, isArray⟩

/-- An entry of a rule's body. -/
inductive RuleItemOf : List Word → RuleItem → Prop where
  | comment {w : Word} : w.kind.isComment → RuleItemOf [w] (.comment w.comment)
  | target {ws : List Word} {c : TypeClause} : ClauseOf .target ws c → RuleItemOf ws (.target c)
  | param {ws : List Word} {c : TypeClause} : ClauseOf .param ws c → RuleItemOf ws (.param c)
  | error {ws : List Word} {e : ErrorClause} : ErrorOf ws e → RuleItemOf ws (.error e)

/-- An entry of a block of metadata. -/
inductive MetaItemOf : List Word → MetaItem → Prop where
  | comment {w : Word} : w.kind.isComment → MetaItemOf [w] (.comment w.comment)
  | entry {k c v : Word} {l : Literal} : k.kind.isName → c.kind = .delimiter .colon →
      LiteralOf v l → MetaItemOf [k, c, v] (.entry ⟨stretch [k, c, v], k.name, l⟩)

/-- A block of the body of a procedure, under the given keyword. -/
inductive BlockOf {ι : Type} (keyword : Keyword) (items : List Word → List ι → Prop) :
    List Word → Span × List ι → Prop where
  | mk {k : Word} {ws : List Word} {is : List ι} : k.kind = .keyword keyword →
      Braced items ws is → BlockOf keyword items (k :: ws) (stretch (k :: ws), is)

/-- An entry of the body of a procedure or stream. -/
inductive ProcItemOf : List Word → ProcItem → Prop where
  | comment {w : Word} : w.kind.isComment → ProcItemOf [w] (.comment w.comment)
  | input {ws : List Word} {b : FieldBlock} : BlockOf .input Fields ws (b.span, b.items) →
      ProcItemOf ws (.input b)
  | output {ws : List Word} {b : FieldBlock} : BlockOf .output Fields ws (b.span, b.items) →
      ProcItemOf ws (.output b)
  | metadata {ws : List Word} {b : MetaBlock} :
      BlockOf .metadata (Star MetaItemOf) ws (b.span, b.items) → ProcItemOf ws (.metadata b)

/-- What may stand in front of a declaration's keyword. -/
inductive DeprecationOf : List Word → Option Deprecation → Prop where
  | absent : DeprecationOf [] none
  | bare {w : Word} : w.kind = .keyword .deprecated →
      DeprecationOf [w] (some ⟨stretch [w], none⟩)
  | reason {w l m r : Word} : w.kind = .keyword .deprecated → l.kind = .delimiter .leftParen →
      m.kind = .string → r.kind = .delimiter .rightParen →
      DeprecationOf [w, l, m, r] (some ⟨stretch [w, l, m, r], some m.value⟩)

/-- A declaration whose name stands behind the words `ks`, and whose body is `body`. -/
inductive DeclOf {ι : Type} (ks : List Word) (docstring : Option Docstring)
    (body : List Word → List ι → Prop) : List Word → Declaration ι → Prop where
  | mk {n : Word} {ds ws : List Word} {deprecation : Option Deprecation} {items : List ι} :
      DeprecationOf ds deprecation → n.kind = .identifier → Braced body ws items →
      DeclOf ks docstring body (ds ++ ks ++ n :: ws)
        ⟨stretch (ds ++ ks ++ n :: ws), n.name, docstring, deprecation, items⟩

/-- A declaration with the docstring that belongs to it. -/
inductive DeclarationOf (docstring : Option Docstring) : List Word → Statement → Prop where
  | rule {k m : Word} {ws : List Word} {d : RuleDecl} : k.kind = .keyword .rule →
      m.kind = .delimiter .atSign → DeclOf [k, m] docstring (Star RuleItemOf) ws d →
      DeclarationOf docstring ws (.rule d)
  | type {k : Word} {ws : List Word} {d : TypeDecl} : k.kind = .keyword .type →
      DeclOf [k] docstring Fields ws d → DeclarationOf docstring ws (.type d)
  | proc {k : Word} {ws : List Word} {d : ProcDecl} : k.kind = .keyword .proc →
      DeclOf [k] docstring (Star ProcItemOf) ws d → DeclarationOf docstring ws (.proc d)
  | stream {k : Word} {ws : List Word} {d : ProcDecl} : k.kind = .keyword .stream →
      DeclOf [k] docstring (Star ProcItemOf) ws d → DeclarationOf docstring ws (.stream d)

lemma DeclOf.ne_nil {ι : Type} {ks ws : List Word} {docstring : Option Docstring}
    {body : List Word → List ι → Prop} {d : Declaration ι} (h : DeclOf ks docstring body ws d) :
    ws ≠ [] := by
  cases h
  simp

lemma DeclarationOf.ne_nil {docstring : Option Docstring} {ws : List Word} {s : Statement}
    (h : DeclarationOf docstring ws s) : ws ≠ [] := by
  cases h with
  | rule _ _ hd => exact hd.ne_nil
  | type _ hd => exact hd.ne_nil
  | proc _ hd => exact hd.ne_nil
  | stream _ hd => exact hd.ne_nil

/-! ## Files -/

/-- A statement, in front of the words of the statements behind. -/
inductive StatementOf (behind : List Word) : List Word → Statement → Prop where
  | version {k n : Word} : k.kind = .keyword .version → n.kind = .integer →
      n.number < Decimal.integerBound →
      StatementOf behind [k, n] (.version ⟨stretch [k, n], n.number⟩)
  | imports {k p : Word} : k.kind = .keyword .imports → p.kind = .string →
      StatementOf behind [k, p] (.imports ⟨stretch [k, p], p.value⟩)
  | comment {w : Word} : w.kind.isComment → StatementOf behind [w] (.comment w.comment)
  | docstring {w : Word} : w.kind = .docstring → ¬ Attaches Kind.startsDeclaration behind →
      StatementOf behind [w] (.docstring w.docstring)
  | declaration {ws : List Word} {s : Statement} : DeclarationOf none ws s →
      StatementOf behind ws s
  | documented {w : Word} {ws : List Word} {s : Statement} : w.kind = .docstring →
      Attaches Kind.startsDeclaration ws → DeclarationOf (some w.docstring) ws s →
      StatementOf behind (w :: ws) s

/-- The statements of a file. -/
def Statements : List Word → List Statement → Prop := Sequence StatementOf

end Grammar

end RpcSchema
