import RpcSchema.Bundle.Basic
import RpcSchema.Check.Standard
import RpcSchema.Finding

/-!
# Checking the use of rules

A rule is used on a field.  It must be a standard rule or declared, it must apply to the field's type,
and it must be given what it takes.  The three are asked in this order, and the first that fails is
reported: what a rule takes is of no interest where it does not apply.

A standard rule applies as its table says.  A declared rule applies to what its `for` clause names: to
arrays of a type, to fields of a type that are not arrays, or, for the bare name `array`, to every
array.  A rule without that clause is reported at its declaration and not at its uses.

* `Value.fits` says which literals are values of a type.
* `standardArgumentFault?` and `declaredArgumentFault?` check what a rule is given.
* `Bundle.useFindings` checks a use.
-/

namespace RpcSchema

/-- Whether a value may stand where a value of the named type is wanted.  An integer may stand for a
float. -/
def Value.fits (typeName : String) (v : Value) : Bool :=
  match v.kind with
  | .string => typeName = "string"
  | .int => typeName = "int" || typeName = "float"
  | .float => typeName = "float"
  | .bool => typeName = "bool"

/-- A fault at the argument of a use, or at its name. -/
abbrev Located := Span × Fault

/-! ## Standard rules -/

/-- What is wrong with the argument of a rule that takes one value of the named type. -/
def singleArgumentFault? (typeName : String) (u : RuleUse) : Option Located :=
  match u.argument with
  | none => some (u.name.span, .argumentMissing u.name.text)
  | some (.single l) =>
    if l.value.fits typeName then none else some (l.span, .argumentKind u.name.text typeName)
  | some a => some (a.span, .argumentKind u.name.text typeName)

/-- What is wrong with the argument of a rule that takes the values that a field may have. -/
def valuesArgumentFault? (typeName : String) (u : RuleUse) : Option Located :=
  match u.argument with
  | none => some (u.name.span, .argumentMissing u.name.text)
  | some (.array span items) =>
    if items.isEmpty then some (span, .argumentEmpty u.name.text)
    else if items.all (·.value.fits typeName) then none
    else some (span, .argumentValues u.name.text typeName)
  | some a => some (a.span, .argumentValues u.name.text typeName)

/-- What is wrong with what a standard rule is given on a field of the named type. -/
def standardArgumentFault? (parameter : Parameter) (typeName : String) (u : RuleUse) :
    Option Located :=
  match parameter with
  | .none => u.argument.map fun a => (a.span, .argumentUnwanted u.name.text)
  | .int => singleArgumentFault? "int" u
  | .string => singleArgumentFault? "string" u
  | .bound => singleArgumentFault? (if typeName = "datetime" then "string" else typeName) u
  | .values => valuesArgumentFault? typeName u

/-! ## Declared rules -/

/-- Whether the `for` clause of a rule names the type of a field. -/
def TypeClause.covers (target : TypeClause) (typeName : String) (isArray : Bool) : Bool :=
  match isArray, target.isArray with
  | true, true => target.type.text = typeName
  | true, false => target.type.text = anyArray
  | false, true => false
  | false, false => target.type.text = typeName && typeName ≠ anyArray

/-- Whether an argument is what the `param` clause of a rule names. -/
def TypeClause.takes (param : TypeClause) : Argument → Bool
  | .single l => !param.isArray && l.value.fits param.type.text
  | .array _ items => param.isArray && items.all (·.value.fits param.type.text)

/-- What is wrong with what a declared rule is given. -/
def declaredArgumentFault? (rule : RuleDecl) (u : RuleUse) : Option Located :=
  match rule.params.head?, u.argument with
  | none, none => none
  | none, some a => some (a.span, .argumentUnwanted u.name.text)
  | some _, none => some (u.name.span, .argumentMissing u.name.text)
  | some param, some a =>
    if param.takes a then none else some (a.span, .argumentType u.name.text param.toText)

/-! ## Uses -/

/-- What is wrong with the use of a rule on a field of the given type. -/
def Bundle.useFault? (b : Bundle) (base : FieldBase) (isArray : Bool) (u : RuleUse) :
    Option Located :=
  let notApplicable (targets : List String) : Option Located :=
    some (u.name.span, .notApplicable u.name.text (arrayName base.name isArray) targets)
  match StandardRule.find? u.name.text with
  | some rule =>
    if rule.appliesTo base.name isArray then standardArgumentFault? rule.parameter base.name u
    else notApplicable rule.targets
  | none =>
    match b.rules[u.name.text]? with
    | none => some (u.name.span, .ruleUndeclared u.name.text)
    | some rule =>
      match rule.targets.head? with
      | none => none
      | some target =>
        if target.covers base.name isArray then declaredArgumentFault? rule u
        else notApplicable [target.toText]

/-- What is wrong with the uses of rules on a field, in their order. -/
def Bundle.useFindings (b : Bundle) (base : FieldBase) (isArray : Bool) (uses : List RuleUse) :
    List Finding :=
  (uses.filterMap (b.useFault? base isArray)).map fun (span, fault) => ⟨span, fault⟩

end RpcSchema
