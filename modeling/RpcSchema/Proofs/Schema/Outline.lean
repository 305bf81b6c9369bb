import RpcSchema.Proofs.Token.Stretches
import RpcSchema.Schema.Basic

/-!
# Outlines

What a schema says is left out of its outline: there remain only where its nodes are written, and which
node is a part of which.  So all nodes are of one form, and what holds of their places can be said of all
of them at once.

A docstring that belongs to a declaration or field is no part of it, but stands in front of it; and an
argument that is one literal is that literal.  A named type is part of the type of a field, and so are the
entries of an inline object.

* `Schema.outlines` is the outline of a schema, and there is one for every kind of node.
* `Outline.Nested` says that the places of a node and of its parts, at every depth, are as they should be.
-/

namespace RpcSchema

/-- Where a node is written, and its parts in their order. -/
inductive Outline where
  | node (span : Span) (parts : List Outline)

namespace Outline

/-- Where a node is written. -/
def span : Outline → Span
  | node span _ => span

/-- A node without parts. -/
abbrev leaf (span : Span) : Outline := .node span []

/-- A node ends before another begins. -/
def Before (o p : Outline) : Prop := o.span.range.2 ≤ p.span.range.1

end Outline

/-- A node is written in a stretch of the source; its parts lie inside of it, each before those behind it;
and so do the parts of its parts. -/
inductive Outline.Nested (source : Source) : Outline → Prop where
  | node {span : Span} {parts : List Outline} : span.IsStretch source →
      (∀ p ∈ parts, span.range.1 ≤ p.span.range.1 ∧ p.span.range.2 ≤ span.range.2) →
      parts.Pairwise Before → (∀ p ∈ parts, Nested source p) → Nested source (.node span parts)

/-! ## The outlines of leaves -/

/-- The outline of a name. -/
def Name.outline (n : Name) : Outline := .leaf n.span

/-- The outline of a literal. -/
def Literal.outline (l : Literal) : Outline := .leaf l.span

/-- The outline of a comment. -/
def Comment.outline (c : Comment) : Outline := .leaf c.span

/-- The outline of a docstring. -/
def Docstring.outline (d : Docstring) : Outline := .leaf d.span

/-- The outline of a deprecation. -/
def Deprecation.outline (d : Deprecation) : Outline := .leaf d.span

/-- The outline of a message. -/
def ErrorClause.outline (c : ErrorClause) : Outline := .leaf c.span

/-! ## The outlines of fields -/

/-- The outline of what a rule is given. -/
def Argument.outline : Argument → Outline
  | .single l => l.outline
  | .array span items => .node span (items.map Literal.outline)

/-- The outline of the use of a rule. -/
def RuleUse.outline (u : RuleUse) : Outline :=
  .node u.span (u.name.outline :: (u.argument.toList.map Argument.outline
    ++ u.error.toList.map ErrorClause.outline))

mutual

/-- The outlines of what the values of a field are. -/
def FieldBase.outlines : FieldBase → List Outline
  | .named n => [n.outline]
  | .object items => FieldItem.outlines items

/-- The outlines of a list of fields. -/
def FieldItem.outlines : List FieldItem → List Outline
  | [] => []
  | .field ⟨span, docstring, name, _, ⟨typeSpan, base, _⟩, rules⟩ :: rest =>
    docstring.toList.map Docstring.outline
      ++ .node span (name.outline :: .node typeSpan base.outlines :: rules.map RuleUse.outline)
      :: FieldItem.outlines rest
  | .comment c :: rest => c.outline :: FieldItem.outlines rest
  | .docstring d :: rest => d.outline :: FieldItem.outlines rest

end

lemma FieldItem.outlines_cons (item : FieldItem) (items : List FieldItem) :
    FieldItem.outlines (item :: items) = FieldItem.outlines [item] ++ FieldItem.outlines items := by
  cases item with
  | field f =>
      obtain ⟨_, _, _, _, ⟨_, _, _⟩, _⟩ := f
      simp [FieldItem.outlines]
  | _ => rfl

/-! ## The outlines of declarations -/

/-- The outline of a clause that names a type. -/
def TypeClause.outline (c : TypeClause) : Outline := .node c.span [c.type.outline]

/-- The outline of an entry of a rule's body. -/
def RuleItem.outline : RuleItem → Outline
  | .target c | .param c => c.outline
  | .error c => c.outline
  | .comment c => c.outline

/-- The outline of an entry of a block of metadata. -/
def MetaItem.outline : MetaItem → Outline
  | .entry m => .node m.span [m.key.outline, m.value.outline]
  | .comment c => c.outline

/-- The outline of an entry of a procedure's body. -/
def ProcItem.outline : ProcItem → Outline
  | .input b | .output b => .node b.span (FieldItem.outlines b.items)
  | .metadata b => .node b.span (b.items.map MetaItem.outline)
  | .comment c => c.outline

/-- The outlines of a declaration whose body has the given ones, and of its docstring before. -/
def Declaration.outlines {ι : Type} (body : List ι → List Outline) (d : Declaration ι) : List Outline :=
  d.docstring.toList.map Docstring.outline
    ++ [.node d.span (d.deprecation.toList.map Deprecation.outline ++ d.name.outline :: body d.items)]

/-- The outlines of a statement. -/
def Statement.outlines : Statement → List Outline
  | .version s => [.leaf s.span]
  | .imports s => [.leaf s.span]
  | .comment c => [c.outline]
  | .docstring d => [d.outline]
  | .rule d => d.outlines (List.map RuleItem.outline)
  | .type d => d.outlines FieldItem.outlines
  | .proc d | .stream d => d.outlines (List.map ProcItem.outline)

/-- The outlines of a schema's statements. -/
def Schema.outlines (s : Schema) : List Outline := s.statements.flatMap Statement.outlines

end RpcSchema
