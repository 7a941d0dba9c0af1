import ContentRules.Proofs.Engine.Keeps
import ContentRules.Trial

/-!
# What a failed entry leaves behind

An entry that fails is undone from a checkpoint, which holds the nodes but only the lengths of the
queue, of the new nodes and of the rule copies.

**Strategy.**  As long as no handler starts a drain, scripts and flushes only add to these three
(`UnitOfWork.Extends`), whatever they do and wherever they stop: an entry that is not taken into the
queue changes nothing, and one that is taken comes last.  What an entry added is then all that comes
after the recorded lengths, and cutting it off gives back the former unit of work, the sets of keys
included (`UnitOfWork.Extends.restore_eq`).
-/

namespace ContentRules

namespace UnitOfWork

/-- What scripts and flushes may have done to a unit of work, its nodes and switches apart. -/
structure Extends (before after : UnitOfWork) : Prop where
  pending : before.pending.entries <+: after.pending.entries
  newNodes : before.newNodes.entries <+: after.newNodes.entries
  ruleCopies : before.ruleCopies <+: after.ruleCopies
  baseVersion : after.baseVersion = before.baseVersion
  executing : after.executing = before.executing
  failedEntries : after.failedEntries = before.failedEntries
  aborted : after.aborted = before.aborted

namespace Extends

variable {before after later : UnitOfWork}

theorem refl (work : UnitOfWork) : work.Extends work :=
  ⟨List.prefix_rfl, List.prefix_rfl, List.prefix_rfl, rfl, rfl, rfl, rfl⟩

theorem trans (hafter : before.Extends after) (hlater : after.Extends later) :
    before.Extends later where
  pending := hafter.pending.trans hlater.pending
  newNodes := hafter.newNodes.trans hlater.newNodes
  ruleCopies := hafter.ruleCopies.trans hlater.ruleCopies
  baseVersion := hlater.baseVersion.trans hafter.baseVersion
  executing := hlater.executing.trans hafter.executing
  failedEntries := hlater.failedEntries.trans hafter.failedEntries
  aborted := hlater.aborted.trans hafter.aborted

/-- An entry is taken into the queue last or not at all. -/
theorem enqueue (work : UnitOfWork) (entry : PendingEntry) :
    work.Extends (work.enqueue entry).2 := by
  unfold UnitOfWork.enqueue
  split
  · exact refl work
  · exact { refl work with pending := work.pending.entries_push_prefix entry }

theorem noteNew (work : UnitOfWork) (event : NodeEvent) : work.Extends (work.noteNew event) := by
  unfold UnitOfWork.noteNew
  split
  · rename_i node _
    exact { refl work with newNodes := work.newNodes.entries_push_prefix node }
  · exact refl work

theorem turn (work : UnitOfWork) (switch : Switch) : work.Extends (work.turn switch) := by
  obtain ⟨disabledNodes, rulesDisabled, hturned⟩ := work.exists_turn_eq switch
  rw [hturned]
  exact { refl work with }

/-- Restoring a unit of work undoes all but the turns of the switches. -/
theorem restore_eq (hextends : before.Extends after) :
    after.restore before.checkpoint =
      { before with
        disabledNodes := after.disabledNodes
        rulesDisabled := after.rulesDisabled } := by
  have hpending := OrderedSet.truncate_eq_of_prefix hextends.pending
  have hnewNodes := OrderedSet.truncate_eq_of_prefix hextends.newNodes
  have hruleCopies := List.prefix_iff_eq_take.mp hextends.ruleCopies
  unfold restore checkpoint
  rw [hpending, hnewNodes, ← hruleCopies, hextends.baseVersion, hextends.executing,
    hextends.failedEntries, hextends.aborted]

end Extends

end UnitOfWork

theorem keptByScripts_extends :
    KeptByScripts fun state after => state.work.Extends after.work where
  refl state := .refl state.work
  trans hfirst hsecond := hfirst.trans hsecond
  step {state after} hstep := by
    cases hstep with
    | edit change => exact { UnitOfWork.Extends.refl state.work with }
    | enqueue entry => exact .enqueue state.work entry
    | turn switch => exact .turn state.work switch
    | deferCopy source copy =>
        exact { UnitOfWork.Extends.refl state.work with ruleCopies := List.prefix_append _ _ }
    | note line => exact .refl state.work
    | takeEvents => exact { UnitOfWork.Extends.refl state.work with }
    | noteNew event => exact .noteNew state.work event

namespace RuleService

open Routine

variable {service : RuleService} {rules : RuleStore} {budget : Nat} {entry : PendingEntry}
  {state after : WorkState}

/-- However the rule of an entry ends, the unit of work is an extension of the one before, and the
mark is what it was. -/
theorem NeverDrains.extends_whileExecuting (hservice : service.NeverDrains)
    {answer : Except Error Outcome}
    (hruns : (whileExecuting entry.rule
      (service.runRule rules (service.engine rules budget) entry)).Runs state answer after) :
    state.work.Extends after.work := by
  obtain ⟨inner, hinner, rfl⟩ := runs_whileExecuting.mp hruns
  have hextends := runRule_keeps hservice (hservice.flush_keeps keptByScripts_extends budget)
    False.elim keptByScripts_extends entry hinner
  exact { hextends with executing := rfl }

/-- **A failed entry leaves nothing behind but its failure.**  Let no handler start a drain.  An
entry that is skipped or does not match leaves everything as it was, and one that fails, wherever it
does, leaves the unit of work as it was but for the switches that handlers turned: the nodes with
their events, the queue, the new nodes, the rule copies and the mark.  The error says which rule
failed, on which node and for which. -/
theorem runEntry_undone (hservice : service.NeverDrains) {answer : Except Error Outcome}
    (hruns : (service.runEntry rules (service.engine rules budget) entry).Runs state answer after) :
    (∀ outcome, answer = .ok outcome → outcome ≠ .executed → after = state) ∧
    ∀ error, answer = .error error →
      after.work =
          { state.work with
            disabledNodes := after.work.disabledNodes
            rulesDisabled := after.work.rulesDisabled } ∧
        ∃ context, error.context = some context ∧ context.rule = some entry.rule.id ∧
          context.actionable = some entry.actionable ∧
          context.actionedUpon = some entry.actionedUpon := by
  by_cases hskipped : isSkipped state.work entry
  · obtain ⟨rfl, rfl⟩ := (runs_runEntry_of_skipped hskipped).mp hruns
    refine ⟨fun _ _ _ => rfl, ?_⟩
    intro error herror
    cases herror
  · rcases (runs_runEntry hskipped).mp hruns with
      ⟨outcome, hrule, rfl⟩ | ⟨error, failed, hrule, rfl, rfl⟩
    · constructor
      · intro other hother hexecuted
        obtain rfl := Except.ok.inj hother
        obtain ⟨inner, hinner, rfl⟩ := runs_whileExecuting.mp hrule
        rcases runs_runRule_ok hinner with ⟨-, rfl⟩ | ⟨rfl, -⟩
        -- Nothing was done but to set the mark and to put it back.
        · rfl
        · exact absurd rfl hexecuted
      · intro error herror
        cases herror
    · constructor
      · intro outcome houtcome
        cases houtcome
      · intro other hother
        obtain rfl := Except.error.inj hother
        exact ⟨(hservice.extends_whileExecuting hrule).restore_eq, _, rfl, rfl, rfl, rfl⟩

end RuleService

/-! ## Two rules that trigger each other -/

/-- A rule that applies to every node and performs one action. -/
def Rule.performing (id executor : String) : Rule where
  id
  ruleType := "manual"
  conditions := [{ definition := { name := "always", evaluator := "always" } }]
  actions := [{ definition := { name := executor, executor } }]

namespace Echo

/-- Makes a node beneath the one that triggered the rule. -/
def add : Executor := fun _ actionedUpon => do
  let name : QualifiedName := { space := "model", localName := "echo" }
  discard <| Script.apply (.createNode actionedUpon name name name [])

/-- Makes a node, has the rules triggered for it, and then fails. -/
def spoil : Executor := fun actionable actionedUpon => do
  add actionable actionedUpon
  Script.flush
  Script.apply (.deleteNode { actionable with id := "missing" })

/-- Queues both rules for a new node. -/
def answer (event : NodeEvent) : Script Unit := do
  discard <| Script.queue event.node event.node (.performing "ping" "add")
  discard <| Script.queue event.node event.node (.performing "pong" "add")

/-- The service of two rules, each of which triggers the other by the node that it makes. -/
def service (config : EngineConfig) : RuleService where
  directory := {}
  handlers :=
    HandlerRegistry.empty
      |>.addEvaluator "always" (fun _ => .ok fun _ _ _ => .ok true)
      |>.addExecutor "add" (fun _ => .ok add)
      |>.addExecutor "spoil" (fun _ => .ok spoil)
  config
  behaviours := [{ kind := .nodeCreated, react := answer }]
  adapters := []

/-- A unit of work on a store that has a root only. -/
def start : WorkState :=
  let (_, state) := (Edit.createStore "workspace" "main").run {}
  { ids := state.ids, work := { nodes := state.nodes, baseVersion := 0 } }

/-- A rule that waits to be run on the root. -/
def entry (id executor : String) : PendingEntry :=
  let root : NodeRef := { store := { protocol := "workspace", identifier := "main" }, id := "u1" }
  { actionable := root, actionedUpon := root, rule := .performing id executor }

/-- Two executors are registered and no other. -/
theorem registered_of_getElem?_executors {config : EngineConfig} {name : String}
    {make : Action → Except Error Executor}
    (hfound : (service config).handlers.executors[name]? = some make) :
    make = (fun _ => .ok spoil) ∨ make = fun _ => .ok add := by
  simp only [service, HandlerRegistry.executors_addExecutor] at hfound
  split at hfound
  · exact .inl (Option.some.inj hfound).symm
  · split at hfound
    · exact .inr (Option.some.inj hfound).symm
    · simp [HandlerRegistry.empty, HandlerRegistry.addEvaluator] at hfound

theorem eq_of_executor {config : EngineConfig} {action : Action} {executor : Executor}
    (hmade : (service config).handlers.executor action = .ok executor) :
    executor = spoil ∨ executor = add := by
  obtain ⟨make, hfound, hmake⟩ := HandlerRegistry.exists_make_of_executor hmade
  rcases registered_of_getElem?_executors hfound with rfl | rfl
  · exact .inl (Except.ok.inj hmake).symm
  · exact .inr (Except.ok.inj hmake).symm

theorem neverDrains_service (config : EngineConfig) : (service config).NeverDrains := by
  have hadd : ∀ actionable actionedUpon, (add actionable actionedUpon).DrainsOnlyIf False :=
    fun _ _ => (Script.drainsOnlyIf_apply _).bind fun _ => trivial
  have hspoil : ∀ actionable actionedUpon, (spoil actionable actionedUpon).DrainsOnlyIf False := by
    intro actionable actionedUpon
    refine (hadd actionable actionedUpon).bind fun _ => Script.DrainsOnlyIf.bind ?_ fun _ => ?_
    · exact fun outcome => Script.drainsOnlyIf_ofExcept outcome
    · exact Script.drainsOnlyIf_apply _
  constructor
  · intro behaviour hbehaviour event
    obtain rfl := List.mem_singleton.mp hbehaviour
    exact fun _ _ => trivial
  · intro action executor hmade
    rcases eq_of_executor hmade with rfl | rfl
    · exact hspoil
    · exact hadd

end Echo

theorem RuleService.runEntry_undone_spoil :
    let service := Echo.service {}
    service.NeverDrains ∧
      ∃ error after, (service.runEntry {} (service.engine {} 5) (Echo.entry "bad" "spoil")).Runs
          Echo.start (.error error) after ∧
        after.work =
          { Echo.start.work with
            disabledNodes := after.work.disabledNodes
            rulesDisabled := after.work.rulesDisabled } ∧
        ∃ context, error.context = some context ∧ context.rule = some "bad" := by
  intro service
  have hservice : service.NeverDrains := Echo.neverDrains_service {}
  have hfails : (((service.runEntry {} (service.engine {} 5)
      (Echo.entry "bad" "spoil")).run.run Echo.start).any fun result => !result.1.isOk) = true := by
    decide +kernel
  obtain ⟨error | _, after, hruns, herror⟩ := Routine.exists_runs_of_any hfails
  case ok => cases herror
  obtain ⟨hwork, context, hcontext, hrule, -⟩ :=
    (RuleService.runEntry_undone hservice hruns).2 error rfl
  exact ⟨hservice, error, after, hruns, hwork, context, hcontext, hrule⟩

/-! ## Trial rules on a root -/

namespace Trial

/-- A service of the trial handlers, which ends a drain at the first failure. -/
def service : RuleService where
  directory := {}
  handlers
  config := .strict
  behaviours := []
  adapters := []

/-- A rule that applies to every node and performs one action, to be run on the root. -/
def entry (id executor : String) (parameters : List (String × Value)) : PendingEntry :=
  let rule : Rule := {
    id
    ruleType := "manual"
    conditions := [{
      definition := { name := "all", evaluator := Builtin.Conditions.noCondition } }]
    actions := [{
      definition := { name := executor, executor }
      parameters := .ofList parameters }] }
  { Echo.entry id executor with rule }

end Trial

end ContentRules
