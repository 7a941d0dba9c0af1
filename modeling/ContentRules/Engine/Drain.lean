import ContentRules.Engine.Service

/-!
# Delivering events and running pending rules

`flush` delivers the recorded events to the bound behaviours until none is left.  `drain` delivers
events and then runs the pending rules in rounds: a round takes the whole queue and runs its entries
in order, and what is queued meanwhile waits for the next round.  An entry that fails leaves nothing
behind but its failure.

A script may flush and drain in its turn, and behaviours may record new events for ever, so both
count down a budget, which bounds how deep they are nested and how often a flush goes on.  A result
`none` says that the budget did not suffice; it is not an error of the program.
-/

namespace ContentRules

/-- A line of the journal: one that a handler wrote, or one on an entry or a drain that failed. -/
inductive JournalLine where
  | written (line : Value)
  | entryFailed (failure : RuleFailure)
  | drainFailed (error : Error)

/-- What a handler wrote. -/
def JournalLine.written? : JournalLine → Option Value
  | written line => some line
  | _ => none

/-- What a routine changes: the unit of work, the supply of ids and the journal. -/
structure WorkState where
  ids : IdSupply
  work : UnitOfWork
  journal : List JournalLine := []

/-- Work on a unit of work that may fail with an error, or use up its budget. -/
abbrev Routine (α : Type) := ExceptT Error (StateT WorkState Option) α

namespace Routine

variable {α : Type}

/-- The budget did not suffice. -/
def exhausted : Routine α :=
  ExceptT.mk fun _ => none

/-- The unit of work as it is now. -/
def work : Routine UnitOfWork := do
  return (← get).work

def update (f : UnitOfWork → UnitOfWork) : Routine Unit :=
  modify fun state => { state with work := f state.work }

/-- Writes a line into the journal. -/
def write (line : JournalLine) : Routine Unit :=
  modify fun state => { state with journal := state.journal ++ [line] }

/-- Runs a routine and answers its error instead of failing with it. -/
def attempt (routine : Routine α) : Routine (Except Error α) :=
  ExceptT.mk do
    return .ok (← routine.run)

/-- Performs an edit on the working nodes. -/
def performEdit (edit : Edit) : Routine (Except Error edit.Answer) := do
  let state ← get
  let (answer, { ids, nodes }) := edit.run { ids := state.ids, nodes := state.work.nodes }
  set { state with ids, work := { state.work with nodes } }
  return answer

/-- Queues an entry; says whether it was queued. -/
def enqueue (entry : PendingEntry) : Routine Bool := do
  let (queued, work) := (← Routine.work).enqueue entry
  update fun _ => work
  return queued

end Routine

/-- The two routines that a script may call on. -/
structure Engine where
  flush : Routine Unit
  drain : Routine DrainReport

/-- Runs a script. -/
def Script.run {α : Type} (rules : RuleStore) (engine : Engine) : Script α → Routine α
  | done result => return result
  | fail error => throw error
  | look next => do
    let work ← Routine.work
    (next { rules, work }).run rules engine
  | edit change next => do
    let answer ← Routine.performEdit change
    (next answer).run rules engine
  | enqueue entry next => do
    let queued ← Routine.enqueue entry
    (next queued).run rules engine
  | deliver next => do
    let outcome ← engine.flush.attempt
    (next outcome).run rules engine
  | runPending next => do
    let outcome ← engine.drain.attempt
    (next outcome).run rules engine
  | turn switch next => do
    Routine.update fun work => work.turn switch
    next.run rules engine
  | deferCopy source copy next => do
    Routine.update fun work => work.deferCopy source copy
    next.run rules engine
  | note line next => do
    Routine.write (.written line)
    next.run rules engine

namespace RuleService

/-! ## Events -/

/-- Tells the behaviours bound to the event's kind of it, until one fails. -/
def dispatch (service : RuleService) (rules : RuleStore) (engine : Engine) (event : NodeEvent) :
    Routine Unit :=
  (service.boundTo event.kind).forM fun behaviour => (behaviour.react event).run rules engine

/-- Delivers events in their order.  If a behaviour fails, those not yet delivered are lost. -/
def deliverAll (service : RuleService) (rules : RuleStore) (engine : Engine)
    (events : List NodeEvent) : Routine Unit :=
  events.forM fun event => do
    Routine.update fun work => work.noteNew event
    service.dispatch rules engine event

/-- Takes the events recorded. -/
def takeEvents : Routine (List NodeEvent) := do
  let (events, nodes) := (← Routine.work).nodes.takeEvents
  Routine.update fun work => { work with nodes }
  return events

/-! ## Entries -/

/-- What became of an entry that did not fail. -/
inductive Outcome where
  | executed
  | notMatched
  | skipped
deriving DecidableEq, Repr

/-- Runs a routine with a rule marked as being run; the former mark is put back in any case. -/
def whileExecuting {α : Type} (rule : Rule) (routine : Routine α) : Routine α := do
  let previous := (← Routine.work).executing
  Routine.update fun work => { work with executing := some rule }
  let outcome ← routine.attempt
  Routine.update fun work => { work with executing := previous }
  outcome

/-- The one condition and the one action of a rule. -/
def soleConditionAndAction (entry : PendingEntry) : Except Error (Condition × Action) :=
  match entry.rule.conditions, entry.rule.actions with
  | [condition], [action] => .ok (condition, action)
  | conditions, actions =>
    (Cause.ruleConfiguration entry.rule.id (some entry.actionable)
      (.conditionsAndActions conditions.length actions.length)).raise

/-- Tests the condition of an entry's rule and, if it holds, performs the action and delivers its
events. -/
def runRule (service : RuleService) (rules : RuleStore) (engine : Engine) (entry : PendingEntry) :
    Routine Outcome := do
  let (condition, action) ← soleConditionAndAction entry
  let evaluator ← service.handlers.evaluator condition
  let executor ← service.handlers.executor action
  let work ← Routine.work
  if ← evaluator { rules, work } entry.actionable entry.actionedUpon then
    (executor entry.actionable entry.actionedUpon).run rules engine
    engine.flush
    return .executed
  else
    return .notMatched

/-- Where the error of an entry occurred. -/
def contextOf (entry : PendingEntry) : ErrorContext where
  rule := some entry.rule.id
  actionable := some entry.actionable
  actionedUpon := some entry.actionedUpon
  frames := ["executing " ++ entry.rule.text]

/-- Whether an entry is passed over: its rule is disabled, or a node is gone. -/
def isSkipped (work : UnitOfWork) (entry : PendingEntry) : Bool :=
  !entry.rule.enabled || !work.rulesEnabled entry.actionable ||
    !work.nodes.hasNode entry.actionable || !work.nodes.hasNode entry.actionedUpon

/-- Runs an entry.  If it fails, the unit of work is restored to what it was before. -/
def runEntry (service : RuleService) (rules : RuleStore) (engine : Engine) (entry : PendingEntry) :
    Routine Outcome := do
  let work ← Routine.work
  if isSkipped work entry then
    return .skipped
  let outcome ← (whileExecuting entry.rule (service.runRule rules engine entry)).attempt
  match outcome with
  | .ok outcome => return outcome
  | .error error =>
    Routine.update fun failed => failed.restore work.checkpoint
    throw (error.withContext (contextOf entry))

/-! ## Rounds -/

/-- Counts an outcome. -/
def count (report : DrainReport) : Outcome → DrainReport
  | .executed => { report with executed := report.executed + 1 }
  | .notMatched => { report with notMatched := report.notMatched + 1 }
  | .skipped => { report with skipped := report.skipped + 1 }

/-- Runs one entry of a drain and adds it to the report. -/
def processEntry (service : RuleService) (rules : RuleStore) (engine : Engine)
    (report : DrainReport) (entry : PendingEntry) : Routine DrainReport := do
  if service.config.maxExecutions ≤ report.processed then
    (Cause.limitExceeded (.executions service.config.maxExecutions)).raise
  match ← (service.runEntry rules engine entry).attempt with
  | .ok outcome => return count report outcome
  | .error error =>
    Routine.update fun work => { work with failedEntries := work.failedEntries + 1 }
    Routine.write (.entryFailed { entry, error })
    if service.config.failFast then
      throw error
    return { report with failures := report.failures ++ [{ entry, error }] }

/-- Takes the whole queue. -/
def takePending : Routine (List PendingEntry) := do
  let (batch, pending) := (← Routine.work).pending.take
  Routine.update fun work => { work with pending }
  return batch

/-- Takes rounds until the queue is empty, at most `remaining` of them. -/
def drainRounds (service : RuleService) (rules : RuleStore) (engine : Engine) :
    Nat → DrainReport → Routine DrainReport
  | remaining, report => do
    match ← takePending with
    | [] => return report
    | entry :: batch =>
      match remaining with
      | 0 =>
        (Cause.limitExceeded
          (.rounds service.config.maxDrainRounds (some entry.rule.id))).raise
      | remaining + 1 =>
        let report ← (entry :: batch).foldlM (service.processEntry rules engine)
          { report with rounds := report.rounds + 1 }
        drainRounds service rules engine remaining report

/-- Marks the unit of work as aborted if the drain fails. -/
def abortingOnError (drain : Routine DrainReport) : Routine DrainReport := do
  match ← drain.attempt with
  | .ok report => return report
  | .error error =>
    Routine.update fun work => { work with aborted := true }
    Routine.write (.drainFailed error)
    throw error

/-! ## The engine -/

mutual

/-- Delivers the recorded events until there are none. -/
def flush (service : RuleService) (rules : RuleStore) : Nat → Routine Unit
  | 0 => Routine.exhausted
  | budget + 1 => do
    match ← takeEvents with
    | [] => return ()
    | events =>
      service.deliverAll rules
        { flush := fun state => flush service rules budget state
          drain := fun state => drain service rules budget state } events
      flush service rules budget

/-- Delivers the recorded events and runs the pending rules until none waits. -/
def drain (service : RuleService) (rules : RuleStore) : Nat → Routine DrainReport
  | 0 => Routine.exhausted
  | budget + 1 =>
    abortingOnError do
      flush service rules budget
      service.drainRounds rules
        { flush := fun state => flush service rules budget state
          drain := fun state => drain service rules budget state }
        service.config.maxDrainRounds {}

end

/-- The engine with a budget. -/
def engine (service : RuleService) (rules : RuleStore) (budget : Nat) : Engine where
  flush := flush service rules budget
  drain := drain service rules budget

end RuleService

end ContentRules
