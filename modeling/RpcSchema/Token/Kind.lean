/-!
# Kinds of tokens

The schema language has words, literals, comments, line feeds and a handful of delimiters.  A word
that is reserved is a keyword of its own kind, and the two truth values are literals although they are
spelled as words.

Keywords are a type of their own, and so are the primitive types among them, because the grammar asks
for "any keyword" and "any primitive type" and never lists them.

* `Kind.ofDelimiter?` and `Kind.ofWord?` are the tables of what is reserved.
* `Kind.describe` names a kind in a message.
* `Kind.all` lists the kinds in the order in which listings show them.
-/

namespace RpcSchema

/-- The built-in scalar types. -/
inductive Primitive where
  | string | int | float | bool | datetime
deriving DecidableEq, Repr, Inhabited

namespace Primitive

/-- The primitive types in the order in which they are reported. -/
def all : List Primitive := [.string, .int, .float, .bool, .datetime]

/-- The word for a primitive type. -/
def word : Primitive → String
  | .string => "string"
  | .int => "int"
  | .float => "float"
  | .bool => "bool"
  | .datetime => "datetime"

/-- The primitive type that a word names. -/
def ofWord? (w : String) : Option Primitive := all.find? (·.word = w)

theorem ofWord?_word (p : Primitive) : ofWord? p.word = some p := by
  cases p <;> decide +kernel

theorem word_of_ofWord? {w : String} {p : Primitive} (h : ofWord? w = some p) : p.word = w := by
  simpa using List.find?_some h

end Primitive

/-- Whether a name is that of a primitive type. -/
def isPrimitiveName (name : String) : Bool := (Primitive.ofWord? name).isSome

/-- The reserved words. -/
inductive Keyword where
  | version | imports | deprecated | rule | type | extending | proc | input | output | metadata
  | error | target | param
  | primitive (p : Primitive)
  | stream
deriving DecidableEq, Repr, Inhabited

namespace Keyword

/-- The keywords, in the order of their kinds. -/
def all : List Keyword :=
  [.version, .imports, .deprecated, .rule, .type, .extending, .proc, .input, .output, .metadata,
   .error, .target, .param]
    ++ Primitive.all.map .primitive ++ [.stream]

/-- The spelling of a keyword. -/
def word : Keyword → String
  | .version => "version"
  | .imports => "import"
  | .deprecated => "deprecated"
  | .rule => "rule"
  | .type => "type"
  | .extending => "extends"
  | .proc => "proc"
  | .input => "input"
  | .output => "output"
  | .metadata => "meta"
  | .error => "error"
  | .target => "for"
  | .param => "param"
  | .primitive p => p.word
  | .stream => "stream"

theorem mem_all (k : Keyword) : k ∈ all := by
  cases k with
  | primitive p => cases p <;> decide
  | _ => decide

end Keyword

/-- The punctuation marks. -/
inductive Delimiter where
  | colon | comma | leftParen | rightParen | leftBrace | rightBrace | leftBracket | rightBracket
  | atSign | questionMark
deriving DecidableEq, Repr, Inhabited

namespace Delimiter

/-- The punctuation marks, in the order of their kinds. -/
def all : List Delimiter :=
  [.colon, .comma, .leftParen, .rightParen, .leftBrace, .rightBrace, .leftBracket, .rightBracket,
   .atSign, .questionMark]

/-- The character of a punctuation mark. -/
def char : Delimiter → Char
  | .colon => ':'
  | .comma => ','
  | .leftParen => '('
  | .rightParen => ')'
  | .leftBrace => '{'
  | .rightBrace => '}'
  | .leftBracket => '['
  | .rightBracket => ']'
  | .atSign => '@'
  | .questionMark => '?'

theorem mem_all (d : Delimiter) : d ∈ all := by cases d <;> decide

end Delimiter

/-- The kinds of tokens. -/
inductive Kind where
  /-- Where the text is at its end. -/
  | endOfFile
  /-- Text that belongs to no token. -/
  | illegal
  | identifier
  | string
  | integer
  | float
  /-- One of the two truth values. -/
  | boolean (value : Bool)
  | docstring
  | lineComment
  | blockComment
  | newline
  | delimiter (d : Delimiter)
  | keyword (k : Keyword)
deriving DecidableEq, Repr, Inhabited

namespace Kind

/-- Every kind, in the order of listings. -/
def all : List Kind :=
  [.endOfFile, .illegal, .identifier, .string, .integer, .float, .boolean true, .boolean false,
   .docstring, .lineComment, .blockComment, .newline]
    ++ Delimiter.all.map .delimiter ++ Keyword.all.map .keyword

theorem mem_all (k : Kind) : k ∈ all := by
  cases k with
  | boolean b => cases b <;> decide
  | delimiter d => cases d <;> decide
  | keyword k =>
    cases k with
    | primitive p => cases p <;> decide
    | _ => decide
  | _ => decide

/-- The kind of a character that is a token by itself wherever it stands: a punctuation mark or a
line feed. -/
def ofDelimiter? (c : Char) : Option Kind :=
  if c = '\n' then some .newline else (Delimiter.all.find? (·.char = c)).map .delimiter

/-- The kind of a reserved word. -/
def ofWord? (w : String) : Option Kind :=
  if w = "true" then some (.boolean true)
  else if w = "false" then some (.boolean false)
  else (Keyword.all.find? (·.word = w)).map .keyword

/-- The kind of a word: an identifier unless it is reserved. -/
def ofWord (w : String) : Kind := (ofWord? w).getD .identifier

/-! ## Classes of kinds -/

/-- Whether the kind is a keyword.  The two truth values are not. -/
def isKeyword : Kind → Bool
  | .keyword _ => true
  | _ => false

/-- Whether the kind is the name of a primitive type. -/
def isPrimitive : Kind → Bool
  | .keyword (.primitive _) => true
  | _ => false

/-- Whether the kind is a comment of either form. -/
def isComment : Kind → Bool
  | .lineComment | .blockComment => true
  | _ => false

/-- Whether a declaration that can carry a docstring begins with the kind. -/
def startsDeclaration : Kind → Bool
  | .keyword .deprecated | .keyword .rule | .keyword .type | .keyword .proc | .keyword .stream =>
    true
  | _ => false

/-- Whether the kind can name a field or a metadata key: an identifier or any keyword. -/
def isName (k : Kind) : Bool := k = .identifier || k.isKeyword

/-- Whether the kind can name a type: an identifier or a primitive type. -/
def isTypeName (k : Kind) : Bool := k = .identifier || k.isPrimitive

/-! ## Descriptions -/

/-- Text between backticks, as messages show what is literally written. -/
def ticked (s : String) : String := "`" ++ s ++ "`"

/-- The name of a kind in a message. -/
def describe : Kind → String
  | .endOfFile => "end of file"
  | .illegal => "illegal token"
  | .identifier => "identifier"
  | .string => "string literal"
  | .integer => "integer literal"
  | .float => "float literal"
  | .boolean b => ticked (toString b)
  | .docstring => "docstring"
  | .lineComment | .blockComment => "comment"
  | .newline => "newline"
  | .delimiter d => ticked (String.singleton d.char)
  | .keyword k => ticked k.word

theorem ofDelimiter?_char (d : Delimiter) : ofDelimiter? d.char = some (.delimiter d) := by
  cases d <;> decide

theorem ofWord?_word (k : Keyword) : ofWord? k.word = some (.keyword k) := by
  cases k with
  | primitive p => cases p <;> decide +kernel
  | _ => decide +kernel

end Kind

end RpcSchema
