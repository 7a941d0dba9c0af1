import ContentRules.Engine.UnitOfWork
import ContentRules.NodeStore.Edit
import ContentRules.Rule.Store

/-!
# Scripts

What a handler does to a unit of work is written as a script: a tree of steps, each with the scripts
that follow its possible answers.  A script always ends, but it may deliver events and run pending
rules, and those run further scripts.

Errors are answers, so a script may go on after one.  The combinators `apply`, `flush` and `drain`
pass an error on.
-/

namespace ContentRules

/-- An entry that failed. -/
structure RuleFailure where
  entry : PendingEntry
  error : Error

/-- What a drain did. -/
structure DrainReport where
  rounds : Nat := 0
  executed : Nat := 0
  notMatched : Nat := 0
  skipped : Nat := 0
  failures : List RuleFailure := []

namespace DrainReport

instance : Inhabited DrainReport := ⟨{}⟩

/-- How many entries were processed. -/
def processed (report : DrainReport) : Nat :=
  report.executed + report.notMatched + report.skipped + report.failures.length

/-- No entry failed. -/
def isClean (report : DrainReport) : Bool :=
  report.failures.isEmpty

/-- No entry was processed. -/
def isEmpty (report : DrainReport) : Bool :=
  report.processed == 0

end DrainReport

/-- What a handler sees: the unit of work, and the rules attached to nodes. -/
structure View where
  rules : RuleStore
  work : UnitOfWork

/-- What a handler does. -/
inductive Script (α : Type) where
  | done (result : α)
  | fail (error : Error)
  | look (next : View → Script α)
  | edit (edit : Edit) (next : Except Error edit.Answer → Script α)
  | enqueue (entry : PendingEntry) (next : Bool → Script α)
  /-- Delivers the events recorded. -/
  | deliver (next : Except Error Unit → Script α)
  /-- Runs the pending rules. -/
  | runPending (next : Except Error DrainReport → Script α)
  | turn (switch : Switch) (next : Script α)
  | deferCopy (source copy : NodeRef) (next : Script α)
  /-- Writes a line into the journal, which outlives the failure of an entry. -/
  | note (line : Value) (next : Script α)

namespace Script

variable {α β : Type}

/-- One script after the other; the second is not run if the first fails. -/
def bind : Script α → (α → Script β) → Script β
  | done result, f => f result
  | fail error, _ => .fail error
  | look next, f => .look fun view => (next view).bind f
  | edit change next, f => .edit change fun answer => (next answer).bind f
  | enqueue entry next, f => .enqueue entry fun queued => (next queued).bind f
  | deliver next, f => .deliver fun outcome => (next outcome).bind f
  | runPending next, f => .runPending fun outcome => (next outcome).bind f
  | turn switch next, f => .turn switch (next.bind f)
  | deferCopy source copy next, f => .deferCopy source copy (next.bind f)
  | note line next, f => .note line (next.bind f)

instance : Monad Script where
  pure := done
  bind := bind

/-- The result, or a failure with the error. -/
def ofExcept : Except Error α → Script α
  | .ok result => done result
  | .error error => fail error

instance : MonadLift (Except Error) Script := ⟨ofExcept⟩

/-! ## Steps -/

/-- What is the case now. -/
def view : Script View :=
  look done

/-- The nodes as they are now. -/
def nodes : Script NodeStore :=
  look fun view => done view.work.nodes

/-- Performs an edit, whose error is passed on. -/
def apply (change : Edit) : Script change.Answer :=
  edit change ofExcept

/-- Queues a rule for two nodes; says whether it was queued. -/
def queue (actionable actionedUpon : NodeRef) (rule : Rule) : Script Bool :=
  enqueue { actionable, actionedUpon, rule } done

/-- Delivers the events recorded, passing an error on. -/
def flush : Script Unit :=
  deliver ofExcept

/-- Runs the pending rules, passing an error on. -/
def drain : Script DrainReport :=
  runPending ofExcept

/-- Turns a switch for rules. -/
def setSwitch (switch : Switch) : Script Unit :=
  turn switch (done ())

/-- Has the rules of a node copied to its copy at the commit. -/
def copyRulesAtCommit (source copy : NodeRef) : Script Unit :=
  deferCopy source copy (done ())

/-- Writes a line into the journal. -/
def write (line : Value) : Script Unit :=
  note line (done ())

end Script

end ContentRules
