import RpcSchema.Check.Names
import RpcSchema.Check.Use

/-!
# Checking bodies

What stands between the braces of declarations: the clauses of rules, the fields of types and of
blocks, at every depth, and the blocks and metadata of procedures and streams.

A type is known if it is primitive or declared.  A list of fields names each field once, and an inline
object is a list of its own.

* `Bundle.typeFindings` checks the mention of a type.
* `Bundle.fieldFindings`, `Bundle.ruleFindings` and `Bundle.procFindings` check bodies.
-/

namespace RpcSchema

/-- What is wrong with the mention of a type. -/
def Bundle.typeFindings (b : Bundle) (n : Name) : List Finding :=
  if isPrimitiveName n.text || b.types.contains n.text then []
  else [⟨n.span, .typeUndeclared n.text⟩]

/-! ## Fields -/

/-- What is wrong with the name of a field after the given ones of its list. -/
def fieldNameFindings (earlier : List Name) (n : Name) : List Finding :=
  (repeatedFrom? earlier n).toList.map fun first => ⟨n.span, .fieldRepeated n.text first.span⟩

mutual

/-- What is wrong inside the type of a field. -/
def Bundle.baseFindings (b : Bundle) : FieldBase → List Finding
  | .named n => b.typeFindings n
  | .object items => b.fieldFindings [] items

/-- What is wrong with fields that come after the given names of their list. -/
def Bundle.fieldFindings (b : Bundle) (earlier : List Name) : List FieldItem → List Finding
  | [] => []
  | .field ⟨_, _, name, _, ⟨_, base, isArray⟩, rules⟩ :: rest =>
    fieldNameFindings earlier name ++ b.baseFindings base ++ b.useFindings base isArray rules
      ++ b.fieldFindings (earlier ++ [name]) rest
  | .comment _ :: rest => b.fieldFindings earlier rest
  | .docstring _ :: rest => b.fieldFindings earlier rest

end

/-! ## Rules -/

/-- The types that a rule's parameter can have. -/
def paramTypes : List String := ["string", "int", "float", "bool"]

/-- Findings that a rule has a clause too often: every one after the first. -/
def repeatedClauses (rule : Name) (clause : ClauseKind) (spans : List Span) : List Finding :=
  (spans.drop 1).map fun span => ⟨span, .clauseRepeated rule.text clause⟩

/-- What is wrong with what a rule applies to.  The bare name `array` stands for every array. -/
def Bundle.targetFindings (b : Bundle) (rule : RuleDecl) : List Finding :=
  match rule.targets.head? with
  | none => [⟨rule.name.span, .targetMissing rule.name.text⟩]
  | some c => if ¬ c.isArray ∧ c.type.text = anyArray then [] else b.typeFindings c.type

/-- What is wrong with the type of a rule's parameter. -/
def paramFindings (rule : RuleDecl) : List Finding :=
  match rule.params.head? with
  | none => []
  | some c =>
    if paramTypes.contains c.type.text then []
    else [⟨c.type.span, .paramType paramTypes c.type.text⟩]

/-- What is wrong in the body of a rule. -/
def Bundle.ruleFindings (b : Bundle) (rule : RuleDecl) : List Finding :=
  b.targetFindings rule ++ repeatedClauses rule.name .target (rule.targets.map (·.span))
    ++ paramFindings rule ++ repeatedClauses rule.name .param (rule.params.map (·.span))
    ++ repeatedClauses rule.name .error (rule.errors.map (·.span))

/-! ## Procedures and streams -/

/-- What is wrong with the keys of metadata after the given ones of their block. -/
def keyFindings (earlier : List Name) : List MetaEntry → List Finding
  | [] => []
  | e :: rest =>
    (repeatedFrom? earlier e.key).toList.map
        (fun first => ⟨e.key.span, .keyRepeated e.key.text first.span⟩)
      ++ keyFindings (earlier ++ [e.key]) rest

/-- The kind of block that an entry is, and where it is written. -/
def ProcItem.block? : ProcItem → Option (BlockKind × Span)
  | .input b => some (.input, b.span)
  | .output b => some (.output, b.span)
  | .metadata b => some (.metadata, b.span)
  | .comment _ => none

/-- What is wrong inside an entry of a procedure's body. -/
def Bundle.blockFindings (b : Bundle) : ProcItem → List Finding
  | .input block | .output block => b.fieldFindings [] block.items
  | .metadata block => keyFindings [] block.entries
  | .comment _ => []

/-- What is wrong with the entries of a procedure's body after blocks of the given kinds. -/
def Bundle.procItemFindings (b : Bundle) (kind : DeclKind) (name : Name)
    (earlier : List BlockKind) : List ProcItem → List Finding
  | [] => []
  | item :: rest =>
    let repeated := item.block?.toList.filter (earlier.contains ·.1)
    repeated.map (fun (block, span) => ⟨span, .blockRepeated kind name.text block⟩)
      ++ b.blockFindings item
      ++ b.procItemFindings kind name (earlier ++ item.block?.toList.map (·.1)) rest

/-- What is wrong in the body of a procedure or stream. -/
def Bundle.procFindings (b : Bundle) (kind : DeclKind) (p : ProcDecl) : List Finding :=
  b.procItemFindings kind p.name [] p.items

/-- What is wrong in the body of a statement, if it is a procedure or stream. -/
def Bundle.serviceFindings (b : Bundle) : Statement → List Finding
  | .proc p => b.procFindings .proc p
  | .stream p => b.procFindings .stream p
  | _ => []

end RpcSchema
