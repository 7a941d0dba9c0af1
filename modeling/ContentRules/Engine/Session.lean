import ContentRules.Engine.Drain

/-!
# Sessions

A session is what all units of work share: the repository, the rules attached to nodes, the supply
of ids and the journal.  A unit of work reads the rules and changes neither them nor the repository
before it is committed.
-/

namespace ContentRules

/-- What units of work share. -/
structure Session where
  repository : Repository := {}
  rules : RuleStore := {}
  ids : IdSupply := {}
  journal : List Value := []

/-- What a commit answers. -/
structure CommitReceipt where
  version : Nat
  report : DrainReport

namespace Session

instance : Inhabited Session := ⟨{}⟩

/-! ## Rules -/

/-- A new rule of a type, under an id of its own.  It is not attached to any node. -/
def newRule (session : Session) (ruleType : String) : Rule × Session :=
  let (id, ids) := session.ids.draw
  ({ id, ruleType }, { session with ids })

/-- Attaches a rule to a node, in place of the one with its id. -/
def attachRule (session : Session) (node : NodeRef) (rule : Rule) : Session :=
  { session with rules := session.rules.put node rule }

/-- Detaches the rule with this id from a node; says whether there was one. -/
def detachRule (session : Session) (node : NodeRef) (id : String) : Bool × Session :=
  let (detached, rules) := session.rules.detach node id
  (detached, { session with rules })

/-- Attaches the rules of a node to another one. -/
def copyRules (session : Session) (source target : NodeRef) : Session :=
  { session with rules := session.rules.copyRules source target }

/-! ## Units of work -/

/-- A unit of work on what is committed now. -/
def begin (session : Session) : UnitOfWork :=
  UnitOfWork.begin session.repository

/-- Runs a routine on a unit of work; `none` if its budget did not suffice. -/
def within {α : Type} (session : Session) (work : UnitOfWork) (routine : Routine α) :
    Option (Except Error α × UnitOfWork × Session) :=
  (routine.run.run { ids := session.ids, work }).map fun (outcome, state) =>
    (outcome, state.work,
      { session with
        ids := state.ids
        journal := session.journal ++ state.journal.filterMap JournalLine.written? })

/-- Why a unit of work whose drain succeeded is rolled back all the same. -/
def refusal? (config : EngineConfig) (work : UnitOfWork) : Option Cause :=
  if work.aborted then some (.ruleExecutionFailed (max work.failedEntries 1))
  else if 0 < work.failedEntries ∧ ¬ config.commitOnRuleFailure then
    some (.ruleExecutionFailed work.failedEntries)
  else none

/-- Installs the nodes of a drained unit of work and then copies the rules of copied nodes, in the
order in which the nodes were copied. -/
def install (session : Session) (work : UnitOfWork) (report : DrainReport) :
    Except Error (CommitReceipt × Session) := do
  let repository ← session.repository.commit work.baseVersion work.nodes
  let rules := work.ruleCopies.foldl
    (fun rules (source, copy) => rules.copyRules source copy) session.rules
  return ({ version := repository.version, report }, { session with repository, rules })

/-- Installs the nodes of a unit of work after its last drain, unless the drain or an entry failed,
or somebody committed in between. -/
def conclude (session : Session) (config : EngineConfig) (work : UnitOfWork) :
    Except Error DrainReport → Except Error CommitReceipt × Session
  | .error error => (.error error, session)
  | .ok report =>
    match refusal? config work with
    | some cause => (.error { cause }, session)
    | none =>
      match session.install work report with
      | .error error => (.error error, session)
      | .ok (receipt, session) => (.ok receipt, session)

/-- Commits a unit of work: runs its pending rules, and then concludes it.  The unit of work is gone
in any case. -/
def commit (session : Session) (service : RuleService) (budget : Nat) (work : UnitOfWork) :
    Option (Except Error CommitReceipt × Session) :=
  (session.within work (service.engine session.rules budget).drain).map
    fun (outcome, work, session) => session.conclude service.config work outcome

end Session

end ContentRules
