import RpcSchema.Source.Span

/-!
# Excerpts

A message about a place is shown with the line it is about and a caret below the column.  The margin
is one wider than the line's number, so that the bars of its rows stand below each other:

```
--> main:12:3
   |
12 | the line
   |   ^
error: what is wrong
```

The excerpt begins with a line feed, so that it can follow other output on a line.
-/

namespace RpcSchema

/-- The message at a line and column of the source, both from one, with the line and a caret.  A line
that the source does not have is named in place of the excerpt. -/
def Source.excerpt (s : Source) (line column : Nat) (kind message : String) : String :=
  if line = 0 ∨ s.lines.length < line then
    s.file ++ ": invalid line " ++ toString line ++ " specified"
  else
    let number := toString line
    let margin := String.ofList (List.replicate (number.length + 1) ' ')
    let indent := String.ofList (List.replicate (column - 1) ' ')
    "\n--> " ++ s.file ++ ":" ++ number ++ ":" ++ toString column ++ "\n"
      ++ margin ++ "|\n"
      ++ number ++ " | " ++ s.line (line - 1) ++ "\n"
      ++ margin ++ "| " ++ indent ++ "^\n"
      ++ kind ++ ": " ++ message

/-- The message at the start of the span. -/
def Span.excerpt (s : Span) (kind message : String) : String :=
  s.source.excerpt s.start.line s.start.column kind message

end RpcSchema
