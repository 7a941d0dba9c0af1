import ContentRules.Json.Decoder
import ContentRules.Json.Writer

/-!
# Configuration of the engine

The two ceilings of a drain, and what a failing rule does to it and to the commit.
-/

namespace ContentRules

/-- How pending rules are run. -/
structure EngineConfig where
  /-- How many rounds a drain may take. -/
  maxDrainRounds : Nat := 64
  /-- How many entries a drain may process. -/
  maxExecutions : Nat := 10000
  /-- A drain ends at the first entry that fails. -/
  failFast : Bool := false
  /-- A unit of work may be committed although entries failed. -/
  commitOnRuleFailure : Bool := false
deriving DecidableEq, Repr

namespace EngineConfig

open Decoder (fields? optional)

/-- Ends a drain at the first failure. -/
def strict : EngineConfig :=
  { failFast := true }

/-- Commits in spite of failures. -/
def lenient : EngineConfig :=
  { commitOnRuleFailure := true }

/-- The configuration of a name, the default one for a name that stands for no other. -/
def ofPreset (name : String) : EngineConfig :=
  match name with
  | "strict" => strict
  | "lenient" => lenient
  | _ => {}

def toJson (config : EngineConfig) : Json :=
  .ofMembers
    [("max_drain_rounds", .ofInt config.maxDrainRounds),
      ("max_executions", .ofInt config.maxExecutions), ("fail_fast", .bool config.failFast),
      ("commit_on_rule_failure", .bool config.commitOnRuleFailure)]

/-- A setting that is missing has its usual value; the ceilings are 32-bit words. -/
def decoder : Decoder EngineConfig
  | depth + 1, json =>
    match fields?
      ["max_drain_rounds", "max_executions", "fail_fast", "commit_on_rule_failure"] json with
    | some [rounds, executions, failFast, commit] => do
      let usual : EngineConfig := {}
      let maxDrainRounds ← optional Decoder.word32 usual.maxDrainRounds depth rounds
      let maxExecutions ← optional Decoder.word32 usual.maxExecutions depth executions
      let failFast ← optional Decoder.bool usual.failFast depth failFast
      let commitOnRuleFailure ← optional Decoder.bool usual.commitOnRuleFailure depth commit
      return { maxDrainRounds, maxExecutions, failFast, commitOnRuleFailure }
    | _ => none
  | 0, _ => none

end EngineConfig

end ContentRules
