import ContentRules.Engine.Handler

/-!
# Built-in conditions

Each condition tests the node acted upon: nothing of it, an aspect, the value of a property, or its
type.
-/

namespace ContentRules.Builtin.Conditions

open Vocabulary

/-! ## Names -/

def noCondition : String := "no-condition"

def hasAspect : String := "has-aspect"

def comparePropertyValue : String := "compare-property-value"

def isSubtype : String := "is-subtype"

def aspectParameter : String := "aspect"

def propertyParameter : String := "property"

def operationParameter : String := "operation"

def valueParameter : String := "value"

def typeParameter : String := "type"

/-- The names of the conditions. -/
def names : List String :=
  [noCondition, hasAspect, comparePropertyValue, isSubtype]

/-- The names of their parameters. -/
def parameterNames : List String :=
  [aspectParameter, propertyParameter, operationParameter, valueParameter, typeParameter]

/-! ## Comparing values -/

/-- How a property is compared with a value. -/
inductive Comparison where
  | equals
  | contains
  | begins
  | ends
deriving DecidableEq, Repr

namespace Comparison

/-- The comparison that an operation names. -/
def ofOperation? : String → Option Comparison
  | "equals" => some equals
  | "contains" => some contains
  | "begins" => some begins
  | "ends" => some ends
  | _ => none

/-- Reads an operation; without one, values are compared for equality. -/
def parse (definition : String) (operation : Option String) : Except Error Comparison :=
  let operation := operation.getD "equals"
  match ofOperation? operation with
  | some comparison => .ok comparison
  | none =>
    (Cause.invalidParameter definition operationParameter (.unknownOperation operation)).raise

/-- Compares two texts. -/
def holdsOfTexts (comparison : Comparison) (actual expected : List Char) : Bool :=
  match comparison with
  | equals => decide (actual = expected)
  | contains => (Text.splitAtFirst expected actual).isSome
  | begins => expected.isPrefixOf actual
  | ends => expected.isSuffixOf actual

/-- Equal values are equal; otherwise the texts of the values are compared, and values without a
text do not match. -/
def holds (comparison : Comparison) (actual expected : Value) : Bool :=
  (comparison == equals && actual = expected) ||
    match actual.toText?, expected.toText? with
    | some actual, some expected => comparison.holdsOfTexts actual.toList expected.toList
    | _, _ => false

end Comparison

/-! ## Evaluators -/

def makeNoCondition (_ : Condition) : Except Error Evaluator :=
  .ok fun _ _ _ => .ok true

def makeHasAspect (condition : Condition) : Except Error Evaluator := do
  let aspect ← condition.parameters.requireName condition.definition.name aspectParameter
  return fun view _ node => view.work.nodes.hasAspect node aspect

/-- A node without the property does not match. -/
def makeComparePropertyValue (condition : Condition) : Except Error Evaluator := do
  let definition := condition.definition.name
  let operation ← condition.parameters.optionalText definition operationParameter
  let property ← condition.parameters.optionalName definition propertyParameter
  let comparison ← Comparison.parse definition operation
  let expected ← condition.parameters.requireValue definition valueParameter
  return fun view _ node => do
    let actual ← view.work.nodes.property? node (property.getD nameProperty)
    return actual.any fun actual => comparison.holds actual expected

def makeIsSubtype (condition : Condition) : Except Error Evaluator := do
  let nodeType ← condition.parameters.requireName condition.definition.name typeParameter
  return fun view _ node => do
    return (← view.work.nodes.typeOf node) = nodeType

/-- The registry with these evaluators. -/
def register (registry : HandlerRegistry) : HandlerRegistry :=
  registry
    |>.addEvaluator noCondition makeNoCondition
    |>.addEvaluator hasAspect makeHasAspect
    |>.addEvaluator comparePropertyValue makeComparePropertyValue
    |>.addEvaluator isSubtype makeIsSubtype

end ContentRules.Builtin.Conditions
