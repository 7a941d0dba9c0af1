import ContentRules.NodeStore.Basic
import ContentRules.Repository
import ContentRules.Rule.PendingQueue

/-!
# Units of work

A unit of work owns a working copy of the nodes and all that is known of the rules triggered in it:
the queue of pending rules, the rule being run, the nodes that are new, the rules to be copied once
it has committed, and the switches that keep rules from being triggered or run.

A checkpoint remembers what a failed entry must not leave behind.  The queue, the new nodes and the
rule copies only grow while an entry is run, so their lengths are enough to undo it.
-/

namespace ContentRules

/-- The work of one party between a checkout and a commit. -/
structure UnitOfWork where
  nodes : NodeStore
  baseVersion : Nat
  pending : PendingQueue := .empty
  /-- The rule being run. -/
  executing : Option Rule := none
  /-- How many entries failed in all drains. -/
  failedEntries : Nat := 0
  /-- Whether a drain ended in an error. -/
  aborted : Bool := false
  /-- The nodes that were created or copied, as far as their events were delivered. -/
  newNodes : OrderedSet (id : NodeRef → NodeRef) := .empty
  /-- Source and copy of the nodes whose rules are to be copied. -/
  ruleCopies : List (NodeRef × NodeRef) := []
  disabledNodes : Std.ExtTreeSet NodeRef := ∅
  rulesDisabled : Bool := false

/-- A turn of the switches for rules: those of one node, or all. -/
inductive Switch where
  | enable (node : NodeRef)
  | disable (node : NodeRef)
  | enableAll
  | disableAll
deriving DecidableEq, Repr

/-- What is restored when an entry fails. -/
structure Checkpoint where
  nodes : NodeStore
  pending : Nat
  newNodes : Nat
  ruleCopies : Nat

namespace UnitOfWork

/-- A unit of work on what is committed. -/
def begin (repository : Repository) : UnitOfWork :=
  { nodes := repository.nodes, baseVersion := repository.version }

def isNew (work : UnitOfWork) (node : NodeRef) : Bool :=
  work.newNodes.contains node

/-- Whether the rules of a node may be triggered and run. -/
def rulesEnabled (work : UnitOfWork) (node : NodeRef) : Bool :=
  !work.rulesDisabled && !work.disabledNodes.contains node

def turn (work : UnitOfWork) : Switch → UnitOfWork
  | .enable node => { work with disabledNodes := work.disabledNodes.erase node }
  | .disable node => { work with disabledNodes := work.disabledNodes.insert node }
  | .enableAll => { work with rulesDisabled := false }
  | .disableAll => { work with rulesDisabled := true }

/-- Queues an entry, unless its rule is the one being run or an equal entry waits. -/
def enqueue (work : UnitOfWork) (entry : PendingEntry) : Bool × UnitOfWork :=
  if work.executing.any (·.sameAs entry.rule) then (false, work)
  else
    let (queued, pending) := work.pending.push entry
    (queued, { work with pending })

/-- Remembers a node that an event brings into being. -/
def noteNew (work : UnitOfWork) (event : NodeEvent) : UnitOfWork :=
  match event.newNode? with
  | some node => { work with newNodes := (work.newNodes.push node).2 }
  | none => work

/-- Remembers that the rules of a node are to be copied to its copy. -/
def deferCopy (work : UnitOfWork) (source copy : NodeRef) : UnitOfWork :=
  { work with ruleCopies := work.ruleCopies ++ [(source, copy)] }

/-! ## Checkpoints -/

def checkpoint (work : UnitOfWork) : Checkpoint where
  nodes := work.nodes
  pending := work.pending.size
  newNodes := work.newNodes.size
  ruleCopies := work.ruleCopies.length

/-- Undoes what was done since the checkpoint.  The switches keep their positions. -/
def restore (work : UnitOfWork) (checkpoint : Checkpoint) : UnitOfWork :=
  { work with
    nodes := checkpoint.nodes
    pending := work.pending.truncate checkpoint.pending
    newNodes := work.newNodes.truncate checkpoint.newNodes
    ruleCopies := work.ruleCopies.take checkpoint.ruleCopies }

end UnitOfWork

end ContentRules
