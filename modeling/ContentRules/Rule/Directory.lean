import ContentRules.Rule.Definition

/-!
# Rule directories

A directory finds rule types, conditions and actions by name.  It is made from a configuration,
which lists them and is read from JSON; a name that is listed twice is refused.
-/

namespace ContentRules

/-- The contents of a directory, as they are listed. -/
structure DirectoryConfig where
  ruleTypes : List RuleType := []
  conditions : List ConditionDefinition := []
  actions : List ActionDefinition := []
deriving DecidableEq, Repr

/-- Rule types and definitions by name. -/
structure RuleDirectory where
  ruleTypes : Std.ExtTreeMap String RuleType := ∅
  conditions : Std.ExtTreeMap String ConditionDefinition := ∅
  actions : Std.ExtTreeMap String ActionDefinition := ∅

namespace DirectoryConfig

open Decoder (fields? required optional)

def toJson (config : DirectoryConfig) : Json :=
  .ofMembers
    [("rule-types", .arr (config.ruleTypes.map RuleType.toJson)),
      ("conditions", .arr (config.conditions.map ConditionDefinition.toJson)),
      ("actions", .arr (config.actions.map ActionDefinition.toJson))]

def decoder : Decoder DirectoryConfig
  | depth + 1, json =>
    match fields? ["rule-types", "conditions", "actions"] json with
    | some [ruleTypes, conditions, actions] => do
      let ruleTypes ← optional (Decoder.list RuleType.decoder) [] depth ruleTypes
      let conditions ← optional (Decoder.list ConditionDefinition.decoder) [] depth conditions
      let actions ← optional (Decoder.list ActionDefinition.decoder) [] depth actions
      return { ruleTypes, conditions, actions }
    | _ => none
  | 0, _ => none

/-- Reads a configuration from JSON text. -/
def ofJsonText (text : String) : Except Error DirectoryConfig :=
  match Json.decode? decoder text with
  | some config => .ok config
  | none => (Cause.config "invalid rule directory").raise

end DirectoryConfig

namespace RuleDirectory

/-- Entries by name; the first name that comes a second time is refused. -/
def index {α : Type} (what : String) (nameOf : α → String) (entries : List α) :
    Except Error (Std.ExtTreeMap String α) :=
  entries.foldlM (fun table entry =>
    if table.contains (nameOf entry) then
      (Cause.config ("duplicate " ++ what ++ " '" ++ nameOf entry ++ "'")).raise
    else return table.insert (nameOf entry) entry) ∅

/-- The directory of what a configuration lists. -/
def ofConfig (config : DirectoryConfig) : Except Error RuleDirectory := do
  let ruleTypes ← index "rule type" RuleType.name config.ruleTypes
  let conditions ← index "condition" ConditionDefinition.name config.conditions
  let actions ← index "action" ActionDefinition.name config.actions
  return { ruleTypes, conditions, actions }

end RuleDirectory

end ContentRules
