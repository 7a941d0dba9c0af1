import ContentRules.Engine.Script
import ContentRules.Rule.Directory

/-!
# Handlers

Definitions name their handlers: an evaluator tests a condition, an executor performs an action, an
adapter binds the behaviours that trigger the rules of a type.  The registry finds by name how a
handler is made; it is made after the parameters were checked against the definition.
-/

namespace ContentRules

/-- Tests whether a rule applies, on the actionable node and the one acted upon. -/
abbrev Evaluator := View → NodeRef → NodeRef → Except Error Bool

/-- Performs an action, on the actionable node and the one acted upon. -/
abbrev Executor := NodeRef → NodeRef → Script Unit

/-- What is done about the events of a kind. -/
structure Behaviour where
  kind : EventKind
  react : NodeEvent → Script Unit

/-- The behaviours that trigger the rules of a type. -/
structure Adapter where
  ruleType : RuleType
  behaviours : List Behaviour

/-- How handlers are made, by name. -/
structure HandlerRegistry where
  evaluators : Std.ExtTreeMap String (Condition → Except Error Evaluator) := ∅
  executors : Std.ExtTreeMap String (Action → Except Error Executor) := ∅
  adapters : Std.ExtTreeMap String (RuleType → Except Error Adapter) := ∅

namespace HandlerRegistry

/-- The registry that knows no handler. -/
def empty : HandlerRegistry := {}

def addEvaluator (registry : HandlerRegistry) (name : String)
    (make : Condition → Except Error Evaluator) : HandlerRegistry :=
  { registry with evaluators := registry.evaluators.insert name make }

def addExecutor (registry : HandlerRegistry) (name : String)
    (make : Action → Except Error Executor) : HandlerRegistry :=
  { registry with executors := registry.executors.insert name make }

def addAdapter (registry : HandlerRegistry) (name : String)
    (make : RuleType → Except Error Adapter) : HandlerRegistry :=
  { registry with adapters := registry.adapters.insert name make }

/-- What is registered under a name. -/
def lookUp {α : Type} (table : Std.ExtTreeMap String α) (sought : Sought) (name : String) :
    Except Error α :=
  match table[name]? with
  | some found => .ok found
  | none => (Cause.unknownDefinition sought name).raise

/-- The evaluator of a condition. -/
def evaluator (registry : HandlerRegistry) (condition : Condition) : Except Error Evaluator := do
  let make ← lookUp registry.evaluators .evaluator condition.definition.evaluator
  condition.definition.validate condition.parameters
  make condition

/-- The executor of an action. -/
def executor (registry : HandlerRegistry) (action : Action) : Except Error Executor := do
  let make ← lookUp registry.executors .executor action.definition.executor
  action.definition.validate action.parameters
  make action

/-- The adapter of a rule type, if it has one. -/
def adapter (registry : HandlerRegistry) (ruleType : RuleType) : Except Error (Option Adapter) := do
  match ruleType.adapter with
  | none => return none
  | some name =>
    let make ← lookUp registry.adapters .adapter name
    return some (← make ruleType)

end HandlerRegistry

end ContentRules
