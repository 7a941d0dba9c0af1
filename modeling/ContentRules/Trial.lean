import ContentRules.Builtin.Definitions

/-!
# Trial rules

Conditions, actions and behaviours with which the engine can be tried out: they leave traces, fail
where a real one would only now and then, drain in the middle of a rule, or turn rules off.  They
come on top of what is built in, with a rule type that nothing triggers.
-/

namespace ContentRules.Trial

open Vocabulary

/-- The property of a trace. -/
def traceProperty (localName : String) : QualifiedName :=
  ⟨"urn:test", localName⟩

/-- Leaves a trace on a node. -/
def leaveTrace (node : NodeRef) (localName : String) (value : Value) : Script Unit :=
  Script.apply (.setProperties node [(traceProperty localName, value)])

/-- The error of what was told to fail. -/
def failure (reason : String) : Error :=
  { cause := .invalidOperation (.stated reason) }

/-! ## Evaluators -/

/-- Holds of nodes with a title. -/
def hasTitle : Evaluator := fun view _ node => do
  return (← view.work.nodes.property? node titleProperty).isSome

/-- Fails when it is asked. -/
def failingEvaluator : Evaluator := fun _ _ _ =>
  .error (failure "condition failure")

/-! ## Executors

Their parameters are read when they are run. -/

/-- Appends its tag to the log of the actionable node; then queues the next rule, if one is given,
and notes if it was refused. -/
def log (parameters : ParameterValues) : Executor := fun actionable actionedUpon => do
  let lines ← (← Script.nodes).property? actionable (traceProperty "log")
  let tag ← parameters.optionalText "log" "tag"
  leaveTrace actionable "log"
    (.list ((lines.bind Value.asList).getD [] ++ [.text (tag.getD "")]))
  match ← parameters.optionalText "log" "next" with
  | none => return ()
  | some next =>
    let view ← Script.view
    match view.rules.getById? view.work.nodes actionable next with
    | none => .fail (failure ("no rule " ++ next))
    | some rule =>
      unless ← Script.queue actionable actionedUpon rule do
        leaveTrace actionable "refused" (.text next)

/-- Touches the node acted upon, may disable the rules of the actionable node, and fails. -/
def fail (parameters : ParameterValues) : Executor := fun actionable actionedUpon => do
  leaveTrace actionedUpon "touched" (.bool true)
  if (← parameters.optionalBool "fail" "disable") = some true then
    Script.setSwitch (.disable actionable)
  .fail (failure "deliberate failure")

/-- Copies the node acted upon, has everybody told of it, and fails. -/
def copyAndFail : Executor := fun actionable actionedUpon => do
  discard <| Script.apply (.copyNode actionedUpon actionable containsRelation ⟨"", "copy"⟩ false)
  Script.flush
  .fail (failure "failed after copying")

/-- Makes a node beneath the actionable node. -/
def create (parameters : ParameterValues) : Executor := fun actionable _ => do
  let name ← parameters.optionalText "create" "name"
  discard <| Script.apply
    (.createNode actionable containsRelation ⟨"", name.getD ""⟩ contentType [])

/-- Deletes the node acted upon. -/
def delete : Executor := fun _ actionedUpon =>
  Script.apply (.deleteNode actionedUpon)

/-- Runs the pending rules in the middle of a rule. -/
def drain : Executor := fun _ _ =>
  discard Script.drain

/-- Disables the rules of the actionable node. -/
def disable : Executor := fun actionable _ =>
  Script.setSwitch (.disable actionable)

/-! ## Behaviours -/

/-- Writes its tag, the kind of the event, its node and the rule being run into the journal. -/
def recording (tag : String) (kind : EventKind) : Behaviour where
  kind
  react event := do
    let rule := (← Script.view).work.executing.map fun rule => Value.text rule.id
    Script.write
      (.list [.text tag, .text event.kind.text, .text event.node.text, rule.getD .null])

/-- Fails, for the reason given. -/
def failing (reason : String) (kind : EventKind) : Behaviour where
  kind
  react _ := .fail (failure reason)

/-- Leaves a trace on the node of the event. -/
def stamping (localName : String) (kind : EventKind) : Behaviour where
  kind
  react event := leaveTrace event.node localName (.bool true)

/-- The behaviour that a word names. -/
def behaviour? (word tag : String) (kind : EventKind) : Option Behaviour :=
  match word with
  | "record" => some (recording tag kind)
  | "fail" => some (failing tag kind)
  | "stamp" => some (stamping tag kind)
  | _ => none

/-! ## Directory and handlers -/

/-- A condition whose evaluator goes by its name. -/
def conditionNamed (name : String) : ConditionDefinition :=
  { name, evaluator := name }

/-- An action whose executor goes by its name. -/
def actionNamed (name : String) (parameters : List ParameterDefinition) : ActionDefinition :=
  { name, executor := name, parameters }

/-- What is built in and what is there to be tried.  The handlers of `ghost` do not exist. -/
def config : DirectoryConfig where
  ruleTypes := Builtin.config.ruleTypes ++ [{ name := "manual", displayLabel := "Manual" }]
  conditions := Builtin.config.conditions ++
    [conditionNamed "has-title", conditionNamed "eval-fail", conditionNamed "factory-fail",
      { name := "ghost", evaluator := "nowhere" }]
  actions := Builtin.config.actions ++
    [actionNamed "log"
        [{ name := "tag", kind := .text, mandatory := true }, { name := "next", kind := .text }],
      actionNamed "fail" [{ name := "disable", kind := .bool }],
      actionNamed "create" [{ name := "name", kind := .text }], actionNamed "copy-and-fail" [],
      actionNamed "delete" [], actionNamed "drain" [], actionNamed "disable" [],
      { name := "ghost", executor := "nowhere" }]

/-- The handlers of all that, and those that cannot be made. -/
def handlers : HandlerRegistry :=
  Builtin.handlers
    |>.addEvaluator "has-title" (fun _ => .ok hasTitle)
    |>.addEvaluator "eval-fail" (fun _ => .ok failingEvaluator)
    |>.addEvaluator "factory-fail" (fun _ => (Cause.internal "factory failure").raise)
    |>.addExecutor "log" (fun action => .ok (log action.parameters))
    |>.addExecutor "fail" (fun action => .ok (fail action.parameters))
    |>.addExecutor "create" (fun action => .ok (create action.parameters))
    |>.addExecutor "copy-and-fail" (fun _ => .ok copyAndFail)
    |>.addExecutor "delete" (fun _ => .ok delete)
    |>.addExecutor "drain" (fun _ => .ok drain)
    |>.addExecutor "disable" (fun _ => .ok disable)
    |>.addAdapter "refuse" (fun _ => (Cause.config "adapter refused").raise)

end ContentRules.Trial
