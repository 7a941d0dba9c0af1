import ContentRules.Engine.Drain

/-!
# Inspection texts

One-line texts that show the parts of a service and of a unit of work for diagnosis: records with
named fields, lists in brackets, tables in braces, and texts in quotes.
-/

namespace ContentRules

namespace Inspect

/-- A text in quotes. -/
def text (content : String) : String :=
  Text.quoted content

def bool (value : Bool) : String :=
  toString value

def nat (n : Nat) : String :=
  toString n

/-- A value that may be absent. -/
def option : Option String → String
  | some inspected => "Some(" ++ inspected ++ ")"
  | none => "None"

def list (items : List String) : String :=
  "[" ++ ", ".intercalate items ++ "]"

/-- A table from texts to inspected values. -/
def table (entries : List (String × String)) : String :=
  "\x7b" ++ ", ".intercalate (entries.map fun (key, value) => text key ++ ": " ++ value) ++ "\x7d"

/-- The fields of a record, separated by commas. -/
def fields (entries : List (String × String)) : String :=
  ", ".intercalate (entries.map fun (field, value) => field ++ ": " ++ value)

/-- A record whose fields are all shown. -/
def record (name : String) (entries : List (String × String)) : String :=
  name ++ " \x7b " ++ fields entries ++ " \x7d"

/-- A record that has more fields than are shown. -/
def openRecord (name : String) (entries : List (String × String)) : String :=
  name ++ " \x7b " ++ fields entries ++ ", .. \x7d"

end Inspect

def QualifiedName.inspect (name : QualifiedName) : String :=
  "QName(" ++ name.text ++ ")"

def StoreRef.inspect (store : StoreRef) : String :=
  "StoreRef(" ++ store.text ++ ")"

def NodeRef.inspect (node : NodeRef) : String :=
  "NodeRef(" ++ node.text ++ ")"

def ParameterDefinition.inspect (parameter : ParameterDefinition) : String :=
  Inspect.record "ParameterDefinition"
    [("name", Inspect.text parameter.name), ("kind", parameter.kind.inspect),
      ("mandatory", Inspect.bool parameter.mandatory),
      ("display_label", Inspect.text parameter.displayLabel)]

def RuleType.inspect (ruleType : RuleType) : String :=
  Inspect.record "RuleType"
    [("name", Inspect.text ruleType.name), ("display_label", Inspect.text ruleType.displayLabel),
      ("adapter", Inspect.option (ruleType.adapter.map Inspect.text))]

def ConditionDefinition.inspect (definition : ConditionDefinition) : String :=
  Inspect.record "ConditionDefinition"
    [("name", Inspect.text definition.name), ("title", Inspect.text definition.title),
      ("description", Inspect.text definition.description),
      ("evaluator", Inspect.text definition.evaluator),
      ("parameters", Inspect.list (definition.parameters.map ParameterDefinition.inspect))]

def ActionDefinition.inspect (definition : ActionDefinition) : String :=
  Inspect.record "ActionDefinition"
    [("name", Inspect.text definition.name), ("title", Inspect.text definition.title),
      ("description", Inspect.text definition.description),
      ("executor", Inspect.text definition.executor),
      ("parameters", Inspect.list (definition.parameters.map ParameterDefinition.inspect))]

def RuleDirectory.inspect (directory : RuleDirectory) : String :=
  Inspect.record "RuleDirectory"
    [("rule_types", Inspect.table
        (directory.ruleTypes.toList.map fun (name, ruleType) => (name, ruleType.inspect))),
      ("conditions", Inspect.table
        (directory.conditions.toList.map fun (name, definition) => (name, definition.inspect))),
      ("actions", Inspect.table
        (directory.actions.toList.map fun (name, definition) => (name, definition.inspect)))]

def EngineConfig.inspect (config : EngineConfig) : String :=
  Inspect.record "EngineConfig"
    [("max_drain_rounds", Inspect.nat config.maxDrainRounds),
      ("max_executions", Inspect.nat config.maxExecutions),
      ("fail_fast", Inspect.bool config.failFast),
      ("commit_on_rule_failure", Inspect.bool config.commitOnRuleFailure)]

/-- The names under which handlers are registered. -/
def HandlerRegistry.inspect (registry : HandlerRegistry) : String :=
  Inspect.record "HandlerRegistry"
    [("evaluators", Inspect.list (registry.evaluators.keys.map Inspect.text)),
      ("executors", Inspect.list (registry.executors.keys.map Inspect.text)),
      ("adapters", Inspect.list (registry.adapters.keys.map Inspect.text))]

namespace RuleService

/-- The kinds of events that behaviours are bound to, in the order of binding. -/
def inspectPolicies (service : RuleService) : String :=
  Inspect.record "PolicyComponent"
    [("bindings", Inspect.list (service.behaviours.map fun behaviour => behaviour.kind.text))]

def inspect (service : RuleService) : String :=
  Inspect.openRecord "RuleService"
    [("directory", service.directory.inspect), ("handlers", service.handlers.inspect),
      ("policies", service.inspectPolicies), ("adapters", Inspect.nat service.adapters.length),
      ("config", service.config.inspect)]

/-- What the makers of handlers may ask for. -/
def inspectServices (service : RuleService) : String :=
  Inspect.openRecord "ServiceRegistry" [("directory", service.directory.inspect)]

end RuleService

def UnitOfWork.inspect (work : UnitOfWork) : String :=
  Inspect.openRecord "Transaction"
    [("base_version", Inspect.nat work.baseVersion), ("pending", Inspect.nat work.pending.size),
      ("executing", Inspect.option (work.executing.map fun rule => Inspect.text rule.id)),
      ("aborted", Inspect.bool work.aborted), ("rules_disabled", Inspect.bool work.rulesDisabled)]

end ContentRules
