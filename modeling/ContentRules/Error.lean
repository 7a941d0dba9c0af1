import ContentRules.Value.Basic

/-!
# Errors

An error is a cause with an optional context.  The cause says what went wrong, with the names and
nodes that it went wrong with; its wording is in `Cause.message` alone.  The context says which rule
was being run, on which node and for which, and is put on once, where a pending rule fails.
-/

namespace ContentRules

/-- Why an operation on nodes is refused although its nodes exist. -/
inductive Refusal where
  | storeExists (store : StoreRef)
  | deletesRoot (root : NodeRef)
  | movesBeneathItself (node : NodeRef)
  | movesRoot (root : NodeRef)
  | copiesBeneathItself (source : NodeRef)
  /-- A reason that a handler gives. -/
  | stated (reason : String)
deriving DecidableEq, Repr

/-- What is wrong with the value of a parameter. -/
inductive ParameterFault where
  | missing
  | unexpected (expected : String) (value : Value)
  | unknownOperation (operation : String)
  /-- A reason that a handler gives. -/
  | stated (reason : String)
deriving DecidableEq, Repr

/-- What is wrong with a rule as a whole. -/
inductive RuleFault where
  | conditionsAndActions (conditions actions : Nat)
  /-- A reason that a handler gives. -/
  | stated (reason : String)
deriving DecidableEq, Repr

/-- What is looked up by name. -/
inductive Sought where
  | ruleType
  | evaluator
  | executor
  | adapter
deriving DecidableEq, Repr

/-- A ceiling of one drain. -/
inductive Ceiling where
  | rounds (limit : Nat) (stillPending : Option String)
  | executions (limit : Nat)
deriving DecidableEq, Repr

/-- What went wrong. -/
inductive Cause where
  | nodeNotFound (node : NodeRef)
  | storeNotFound (store : StoreRef)
  | invalidReference (message : String)
  | associationNotFound (source : NodeRef) (kind : String) (target : NodeRef)
  | invalidOperation (refusal : Refusal)
  | ruleConfiguration (rule : String) (node : Option NodeRef) (fault : RuleFault)
  | adapterInitialization (ruleType : String) (reason : String)
  | unknownDefinition (sought : Sought) (name : String)
  | invalidParameter (definition parameter : String) (fault : ParameterFault)
  | limitExceeded (ceiling : Ceiling)
  | ruleExecutionFailed (count : Nat)
  | concurrentModification (expected actual : Nat)
  | config (message : String)
  | internal (message : String)
deriving DecidableEq, Repr

/-- Where an error occurred. -/
structure ErrorContext where
  rule : Option String := none
  actionable : Option NodeRef := none
  actionedUpon : Option NodeRef := none
  frames : List String := []
deriving DecidableEq, Repr

/-- A cause, and where it arose if that is known. -/
structure Error where
  cause : Cause
  context : Option ErrorContext := none
deriving DecidableEq, Repr

/-- Fails with a cause, without a context. -/
abbrev Cause.raise {m : Type → Type} [MonadExceptOf Error m] {α : Type} (cause : Cause) : m α :=
  throw { cause }

/-- The error for a text that could not be read. -/
def ReferenceError.toError (error : ReferenceError) : Error :=
  { cause := .invalidReference error.message }

/-! ## Wording -/

def Refusal.message : Refusal → String
  | storeExists store => "store already exists: " ++ store.text
  | deletesRoot root => "cannot delete store root " ++ root.text
  | movesBeneathItself node => "cannot move " ++ node.text ++ " beneath itself"
  | movesRoot root => "cannot move store root " ++ root.text
  | copiesBeneathItself source => "cannot deep copy " ++ source.text ++ " into its own subtree"
  | stated reason => reason

def ParameterFault.message : ParameterFault → String
  | missing => "mandatory parameter missing"
  | unexpected expected value => "expected " ++ expected ++ ", got " ++ value.inspect
  | unknownOperation operation => "unknown operation '" ++ operation ++ "'"
  | stated reason => reason

def RuleFault.message : RuleFault → String
  | conditionsAndActions conditions actions =>
    "expected exactly one condition and one action, found " ++ toString conditions ++ " and " ++
      toString actions
  | stated reason => reason

def Sought.text : Sought → String
  | ruleType => "rule type"
  | evaluator => "evaluator"
  | executor => "executor"
  | adapter => "adapter"

def Ceiling.message : Ceiling → String
  | rounds limit none => "max drain rounds (" ++ toString limit ++ ") exceeded"
  | rounds limit (some rule) =>
    "max drain rounds (" ++ toString limit ++ ") exceeded: rule " ++ rule ++ " still pending"
  | executions limit => "max rule executions (" ++ toString limit ++ ") exceeded"

def Cause.message : Cause → String
  | nodeNotFound node => "node not found: " ++ node.text
  | storeNotFound store => "store not found: " ++ store.text
  | invalidReference message => "invalid reference: " ++ message
  | associationNotFound source kind target =>
    "association not found: " ++ source.text ++ " -[" ++ kind ++ "]-> " ++ target.text
  | invalidOperation refusal => "invalid operation: " ++ refusal.message
  | ruleConfiguration rule _ fault =>
    "rule configuration error in rule " ++ rule ++ ": " ++ fault.message
  | adapterInitialization ruleType reason =>
    "unable to initialise the adapter for rule type " ++ ruleType ++ ": " ++ reason
  | unknownDefinition sought name => "unknown " ++ sought.text ++ ": " ++ name
  | invalidParameter definition parameter fault =>
    "invalid parameter " ++ parameter ++ " for " ++ definition ++ ": " ++ fault.message
  | limitExceeded ceiling => "limit exceeded: " ++ ceiling.message
  | ruleExecutionFailed count =>
    toString count ++ " pending rule(s) failed; unit of work rolled back"
  | concurrentModification expected actual =>
    "concurrent modification: expected version " ++ toString expected ++ ", found " ++
      toString actual
  | config message => "configuration error: " ++ message
  | internal message => "internal error: " ++ message

/-- The rule, the two nodes if both are known, and one line for each frame. -/
def ErrorContext.message (context : ErrorContext) : String :=
  let rule := match context.rule with
    | some rule => "in rule " ++ rule
    | none => ""
  let nodes := match context.actionable, context.actionedUpon with
    | some actionable, some actionedUpon =>
      " on " ++ actionable.text ++ " for " ++ actionedUpon.text
    | _, _ => ""
  let frames := match context.frames with
    | [] => ""
    | frames => "\n" ++ String.join (frames.map fun frame => "  in " ++ frame ++ "\n")
  rule ++ nodes ++ frames

namespace Error

/-- The message of an error is that of its cause. -/
def message (error : Error) : String :=
  error.cause.message

/-- The error with this context instead of any other. -/
def withContext (error : Error) (context : ErrorContext) : Error :=
  { error with context := some context }

/-- Whether the cause is a malformed rule, or a definition whose handler cannot be found or made. -/
def isConfiguration (error : Error) : Bool :=
  match error.cause with
  | .ruleConfiguration .. | .adapterInitialization .. | .unknownDefinition ..
  | .invalidParameter .. => true
  | _ => false

/-- The rule that the context names, else the one that the cause names. -/
def rule? (error : Error) : Option String :=
  match error.context.bind ErrorContext.rule, error.cause with
  | some rule, _ => some rule
  | none, .ruleConfiguration rule _ _ => some rule
  | none, _ => none

end Error

end ContentRules
