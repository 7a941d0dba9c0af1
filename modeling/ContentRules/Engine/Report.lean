import ContentRules.Engine.Script
import ContentRules.Json.Writer

/-!
# Errors and reports in JSON

How an error and the report of a drain are handed on.  An error is written with its code, by which
its cause can be told from others without reading the message.
-/

namespace ContentRules

/-- The code of a cause. -/
def Cause.code : Cause → String
  | nodeNotFound _ => "NodeNotFound"
  | storeNotFound _ => "StoreNotFound"
  | invalidReference _ => "InvalidReference"
  | associationNotFound .. => "AssociationNotFound"
  | invalidOperation _ => "InvalidOperation"
  | ruleConfiguration .. => "RuleConfiguration"
  | adapterInitialization .. => "AdapterInitialization"
  | unknownDefinition .. => "UnknownDefinition"
  | invalidParameter .. => "InvalidParameter"
  | limitExceeded _ => "LimitExceeded"
  | ruleExecutionFailed _ => "RuleExecutionFailed"
  | concurrentModification .. => "ConcurrentModification"
  | config _ => "Config"
  | internal _ => "Internal"

/-- A text that may be absent. -/
def Json.ofString? : Option String → Json
  | some content => .ofString content
  | none => .null

/-- The error with the rule that it arose in, and the node of a malformed rule. -/
def Error.toJson (error : Error) : Json :=
  .ofMembers
    ([("error", .ofString error.cause.code), ("message", .ofString error.message),
      ("configuration", .bool error.isConfiguration), ("rule", .ofString? error.rule?),
      ("context", .ofString? (error.context.map ErrorContext.message))] ++
      match error.cause with
      | .ruleConfiguration _ node _ => [("node", .ofString? (node.map NodeRef.text))]
      | _ => [])

def RuleFailure.toJson (failure : RuleFailure) : Json :=
  .ofMembers [("entry", .ofString failure.entry.text), ("error", failure.error.toJson)]

def DrainReport.toJson (report : DrainReport) : Json :=
  .ofMembers
    [("rounds", .ofInt report.rounds), ("executed", .ofInt report.executed),
      ("not_matched", .ofInt report.notMatched), ("skipped", .ofInt report.skipped),
      ("failures", .arr (report.failures.map RuleFailure.toJson)),
      ("processed", .ofInt report.processed), ("clean", .bool report.isClean),
      ("empty", .bool report.isEmpty)]

end ContentRules
