import ContentRules.Builtin.Actions
import ContentRules.Builtin.Conditions
import ContentRules.Builtin.Triggers
import ContentRules.Engine.Service

/-!
# The built-in directory and handlers

What a service knows without further configuration: the rule types, conditions and actions that are
built in, and their handlers.
-/

namespace ContentRules.Builtin

/-- A parameter that must be given. -/
private def mandatory (name : String) (kind : ParameterKind) : ParameterDefinition :=
  { name, kind, mandatory := true }

/-- A parameter that may be left out. -/
private def optional (name : String) (kind : ParameterKind) : ParameterDefinition :=
  { name, kind }

/-- A condition whose evaluator goes by its name. -/
private def condition (name title : String) (parameters : List ParameterDefinition) :
    ConditionDefinition :=
  { name, title, evaluator := name, parameters }

/-- An action whose executor goes by its name. -/
private def action (name title : String) (parameters : List ParameterDefinition) :
    ActionDefinition :=
  { name, title, executor := name, parameters }

/-- A rule type whose adapter goes by its name. -/
private def triggered (name label : String) : RuleType :=
  { name, displayLabel := label, adapter := some name }

/-- All that is built in. -/
def config : DirectoryConfig where
  ruleTypes :=
    [triggered Triggers.inbound "Items are created or enter this folder",
      triggered Triggers.outbound "Items leave this folder",
      triggered Triggers.update "Items in this folder are updated"]
  conditions :=
    [condition Conditions.noCondition "All items" [],
      condition Conditions.hasAspect "Items with a specific aspect"
        [mandatory Conditions.aspectParameter .name],
      condition Conditions.comparePropertyValue "Items whose property matches a value"
        [optional Conditions.propertyParameter .name, optional Conditions.operationParameter .text,
          mandatory Conditions.valueParameter .any],
      condition Conditions.isSubtype "Items of a specific type"
        [mandatory Conditions.typeParameter .name]]
  actions :=
    [action Actions.addFeatures "Add aspect" [mandatory Actions.aspectNameParameter .name],
      action Actions.removeFeatures "Remove aspect" [mandatory Actions.aspectNameParameter .name],
      action Actions.setPropertyValue "Set property value"
        [mandatory Actions.propertyParameter .name, mandatory Actions.valueParameter .any],
      action Actions.copy "Copy item to a folder"
        [mandatory Actions.destinationFolderParameter .node,
          optional Actions.deepCopyParameter .bool],
      action Actions.move "Move item to a folder"
        [mandatory Actions.destinationFolderParameter .node]]

/-- The directory of all that is built in.  No name in it comes twice. -/
def directory : RuleDirectory :=
  match RuleDirectory.ofConfig config with
  | .ok directory => directory
  | .error _ => {}

/-- The handlers of all that is built in. -/
def handlers : HandlerRegistry :=
  Triggers.register (Actions.register (Conditions.register HandlerRegistry.empty))

/-- The service that knows all that is built in and nothing else. -/
def service (config : EngineConfig) : Except Error RuleService :=
  RuleService.create directory handlers config

end ContentRules.Builtin
