import ContentRules.Rule.Parameter

/-!
# Rules

A rule is of a type, which says when it is triggered, and has conditions and actions, each a
definition with values for its parameters.  Rules are told apart by their ids alone: what two rules
with one id say may differ.
-/

namespace ContentRules

/-- A type of rules; the adapter of that name triggers them. -/
structure RuleType where
  name : String
  displayLabel : String := ""
  adapter : Option String := none
deriving DecidableEq, Repr

/-- A condition that rules may have. -/
structure ConditionDefinition where
  name : String
  title : String := ""
  description : String := ""
  evaluator : String
  parameters : List ParameterDefinition := []
deriving DecidableEq, Repr

/-- An action that rules may have. -/
structure ActionDefinition where
  name : String
  title : String := ""
  description : String := ""
  executor : String
  parameters : List ParameterDefinition := []
deriving DecidableEq, Repr

/-- A condition of a rule. -/
structure Condition where
  definition : ConditionDefinition
  parameters : ParameterValues := {}

/-- An action of a rule. -/
structure Action where
  definition : ActionDefinition
  parameters : ParameterValues := {}

/-- A rule that may be attached to nodes. -/
structure Rule where
  id : String
  ruleType : String
  title : String := ""
  description : String := ""
  enabled : Bool := true
  appliesToChildren : Bool := false
  conditions : List Condition := []
  actions : List Action := []

namespace ConditionDefinition

/-- Checks parameter values against the declarations. -/
def validate (definition : ConditionDefinition) (parameters : ParameterValues) :
    Except Error Unit :=
  ParameterDefinition.checkAll definition.parameters definition.name parameters

end ConditionDefinition

namespace ActionDefinition

/-- Checks parameter values against the declarations. -/
def validate (definition : ActionDefinition) (parameters : ParameterValues) : Except Error Unit :=
  ParameterDefinition.checkAll definition.parameters definition.name parameters

end ActionDefinition

namespace Rule

def isOfType (rule : Rule) (ruleType : String) : Bool :=
  rule.ruleType = ruleType

/-- Whether two rules are the same rule. -/
def sameAs (rule other : Rule) : Bool :=
  rule.id = other.id

/-- The type, the id and, if there is one, the title. -/
def text (rule : Rule) : String :=
  rule.ruleType ++ " rule " ++ rule.id ++
    if rule.title.isEmpty then "" else " (" ++ rule.title ++ ")"

end Rule

end ContentRules
