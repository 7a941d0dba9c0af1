import ContentRules.Engine.Actionable
import ContentRules.Engine.Config
import ContentRules.Engine.Handler

/-!
# The rule service

A service knows the rule directory, the handlers and the configuration, and the behaviours that are
bound to events.  The behaviour that copies rules with a node comes first, then those of the
adapters in the order of the rule types' names.
-/

namespace ContentRules

/-- Directory, handlers, bound behaviours and configuration. -/
structure RuleService where
  directory : RuleDirectory
  handlers : HandlerRegistry
  config : EngineConfig
  behaviours : List Behaviour
  adapters : List Adapter

namespace RuleService

/-- The adapters of rule types in their order.  An adapter that cannot be made is an error of its
rule type. -/
def makeAdapters (handlers : HandlerRegistry) : List RuleType → Except Error (List Adapter)
  | [] => .ok []
  | ruleType :: rest =>
    match handlers.adapter ruleType with
    | .error error => (Cause.adapterInitialization ruleType.name error.message).raise
    | .ok adapter => return adapter.toList ++ (← makeAdapters handlers rest)

/-- A service with the adapters of all rule types of the directory. -/
def create (directory : RuleDirectory) (handlers : HandlerRegistry) (config : EngineConfig) :
    Except Error RuleService := do
  let adapters ← makeAdapters handlers directory.ruleTypes.values
  return {
    directory, handlers, config, adapters
    behaviours :=
      { kind := .nodeCopied, react := Actionable.copyRulesWithNode } ::
        adapters.flatMap Adapter.behaviours }

/-- The service with a further behaviour, after all others. -/
def bind (service : RuleService) (behaviour : Behaviour) : RuleService :=
  { service with behaviours := service.behaviours ++ [behaviour] }

/-- The behaviours that are told of events of a kind, in the order in which they were bound. -/
def boundTo (service : RuleService) (kind : EventKind) : List Behaviour :=
  service.behaviours.filter (·.kind = kind)

end RuleService

end ContentRules
