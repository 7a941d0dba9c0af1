import ContentRules.Json.Decoder
import ContentRules.Json.Writer
import ContentRules.Rule.Basic

/-!
# Definitions in JSON

How rule types and the definitions of conditions and actions are written in a rule directory.  Texts
and lists that are missing are empty.
-/

namespace ContentRules

open Decoder (fields? required optional)

def ParameterKind.decoder : Decoder ParameterKind :=
  Decoder.choice ParameterKind.ofWord?

namespace ParameterDefinition

def toJson (parameter : ParameterDefinition) : Json :=
  .ofMembers
    [("name", .ofString parameter.name), ("kind", .ofString parameter.kind.word),
      ("mandatory", .bool parameter.mandatory),
      ("display_label", .ofString parameter.displayLabel)]

def decoder : Decoder ParameterDefinition
  | depth + 1, json =>
    match fields? ["name", "kind", "mandatory", "display_label"] json with
    | some [name, kind, mandatory, label] => do
      let name ← required Decoder.string depth name
      let kind ← required ParameterKind.decoder depth kind
      let mandatory ← optional Decoder.bool false depth mandatory
      let displayLabel ← optional Decoder.string "" depth label
      return { name, kind, mandatory, displayLabel }
    | _ => none
  | 0, _ => none

end ParameterDefinition

namespace RuleType

def toJson (ruleType : RuleType) : Json :=
  .ofMembers
    [("name", .ofString ruleType.name), ("display_label", .ofString ruleType.displayLabel),
      ("adapter", match ruleType.adapter with
        | some adapter => .ofString adapter
        | none => .null)]

def decoder : Decoder RuleType
  | depth + 1, json =>
    match fields? ["name", "display_label", "adapter"] json with
    | some [name, label, adapter] => do
      let name ← required Decoder.string depth name
      let displayLabel ← optional Decoder.string "" depth label
      let adapter ← optional (Decoder.option Decoder.string) none depth adapter
      return { name, displayLabel, adapter }
    | _ => none
  | 0, _ => none

end RuleType

/-- What a condition's and an action's definition have in common; `handler` names the evaluator or
the executor. -/
structure DefinitionFields where
  name : String
  title : String
  description : String
  handler : String
  parameters : List ParameterDefinition

namespace DefinitionFields

/-- The fields as a record, in which `role` is the key of the handler. -/
def toJson (definition : DefinitionFields) (role : String) : Json :=
  .ofMembers
    [("name", .ofString definition.name), ("title", .ofString definition.title),
      ("description", .ofString definition.description), (role, .ofString definition.handler),
      ("parameters", .arr (definition.parameters.map ParameterDefinition.toJson))]

def decoder (role : String) : Decoder DefinitionFields
  | depth + 1, json =>
    match fields? ["name", "title", "description", role, "parameters"] json with
    | some [name, title, description, handler, parameters] => do
      let name ← required Decoder.string depth name
      let title ← optional Decoder.string "" depth title
      let description ← optional Decoder.string "" depth description
      let handler ← required Decoder.string depth handler
      let parameters ← optional (Decoder.list ParameterDefinition.decoder) [] depth parameters
      return { name, title, description, handler, parameters }
    | _ => none
  | 0, _ => none

end DefinitionFields

namespace ConditionDefinition

def fields (definition : ConditionDefinition) : DefinitionFields where
  name := definition.name
  title := definition.title
  description := definition.description
  handler := definition.evaluator
  parameters := definition.parameters

def ofFields (fields : DefinitionFields) : ConditionDefinition where
  name := fields.name
  title := fields.title
  description := fields.description
  evaluator := fields.handler
  parameters := fields.parameters

def toJson (definition : ConditionDefinition) : Json :=
  definition.fields.toJson "evaluator"

def decoder : Decoder ConditionDefinition := fun depth json =>
  (DefinitionFields.decoder "evaluator" depth json).map ofFields

end ConditionDefinition

namespace ActionDefinition

def fields (definition : ActionDefinition) : DefinitionFields where
  name := definition.name
  title := definition.title
  description := definition.description
  handler := definition.executor
  parameters := definition.parameters

def ofFields (fields : DefinitionFields) : ActionDefinition where
  name := fields.name
  title := fields.title
  description := fields.description
  executor := fields.handler
  parameters := fields.parameters

def toJson (definition : ActionDefinition) : Json :=
  definition.fields.toJson "executor"

def decoder : Decoder ActionDefinition := fun depth json =>
  (DefinitionFields.decoder "executor" depth json).map ofFields

end ActionDefinition

end ContentRules
