import ContentRules.Proofs.Engine.Budget
import ContentRules.Proofs.Engine.Undo

/-!
# Entries that wait while another one fails

Of the queue, a checkpoint holds only how long it is.  As long as no drain is started, the entries
that waited stay where they were, and an entry that fails gives back the queue that it found.  A
drain takes them all, and then they are gone for good: what they did is undone with the entry, and
no length brings them back.

**Strategy.**  That a run starts a drain is said with an engine on which no drain ever ends
(`RuleService.undrained`): what runs on it runs on the usual engine too, with the same outcome
(`runs_of_undrained`), and on it all that is kept by scripts is kept (`undrained_keeps`).  What is
put back whether or not drains were started is what they only add to (`UnitOfWork.Accumulates`).
-/

namespace ContentRules

/-! ## What drains only add to -/

namespace UnitOfWork

/-- What drains may have done to a unit of work, its nodes, queue, counts and switches apart. -/
structure Accumulates (before after : UnitOfWork) : Prop where
  newNodes : before.newNodes.entries <+: after.newNodes.entries
  ruleCopies : before.ruleCopies <+: after.ruleCopies
  baseVersion : after.baseVersion = before.baseVersion
  executing : after.executing = before.executing

namespace Accumulates

variable {before after later : UnitOfWork}

theorem refl (work : UnitOfWork) : work.Accumulates work :=
  ⟨List.prefix_rfl, List.prefix_rfl, rfl, rfl⟩

theorem of_extends (hextends : before.Extends after) : before.Accumulates after :=
  ⟨hextends.newNodes, hextends.ruleCopies, hextends.baseVersion, hextends.executing⟩

theorem trans (hafter : before.Accumulates after) (hlater : after.Accumulates later) :
    before.Accumulates later where
  newNodes := hafter.newNodes.trans hlater.newNodes
  ruleCopies := hafter.ruleCopies.trans hlater.ruleCopies
  baseVersion := hlater.baseVersion.trans hafter.baseVersion
  executing := hlater.executing.trans hafter.executing

/-- Restoring a unit of work undoes all but what drains do to the queue and count, and the turns of
the switches. -/
theorem restore_eq (haccumulates : before.Accumulates after) :
    after.restore before.checkpoint =
      { before with
        pending := after.pending.truncate before.pending.size
        failedEntries := after.failedEntries
        aborted := after.aborted
        disabledNodes := after.disabledNodes
        rulesDisabled := after.rulesDisabled } := by
  have hnewNodes := OrderedSet.truncate_eq_of_prefix haccumulates.newNodes
  have hruleCopies := List.prefix_iff_eq_take.mp haccumulates.ruleCopies
  unfold restore checkpoint
  rw [hnewNodes, ← hruleCopies, haccumulates.baseVersion, haccumulates.executing]

end Accumulates

end UnitOfWork

theorem keptByDrains_accumulates :
    KeptByDrains fun state after => state.work.Accumulates after.work where
  refl state := .refl state.work
  trans hfirst hsecond := hfirst.trans hsecond
  step hstep := .of_extends (keptByScripts_extends.step hstep)
  takePending state := { UnitOfWork.Accumulates.refl state.work with }
  executing _ hinner := { hinner with executing := rfl }
  restore {state failed} hfailed := by
    rw [hfailed.restore_eq]
    exact { UnitOfWork.Accumulates.refl state.work with }
  failEntry state _ := { UnitOfWork.Accumulates.refl state.work with }
  abort state _ := { UnitOfWork.Accumulates.refl state.work with }

namespace RuleService

open Routine

variable {service : RuleService} {rules : RuleStore} {budget : Nat} {entry : PendingEntry}
  {state after : WorkState}

/-! ## Runs that start no drain -/

/-- The engine with a budget, on which no drain ever ends. -/
def undrained (service : RuleService) (rules : RuleStore) : Nat → Engine
  | 0 => { flush := exhausted, drain := exhausted }
  | budget + 1 =>
    { flush := service.flushOn rules (service.undrained rules budget), drain := exhausted }

/-- The entry is not run to its end without a drain being started.  Of an entry that has an end on
the engine, this says that its run comes to a drain. -/
def StartsDrain (service : RuleService) (rules : RuleStore) (budget : Nat) (entry : PendingEntry)
    (state : WorkState) : Prop :=
  ∀ answer after,
    ¬ (service.runEntry rules (service.undrained rules budget) entry).Runs state answer after

theorem drain_undrained (service : RuleService) (rules : RuleStore) (budget : Nat) :
    (service.undrained rules budget).drain = exhausted := by
  cases budget <;> rfl

theorem undrained_keeps {R : WorkState → WorkState → Prop} (hR : KeptByScripts R) (budget : Nat) :
    (service.undrained rules budget).flush.Keeps R := by
  induction budget with
  | zero => exact keeps_exhausted
  | succ budget ih =>
      refine service.drainsOnlyIf_true.uses.flushOn_keeps ih ?_ (hR.keptByActs _)
      rw [drain_undrained]
      exact fun _ => keeps_exhausted

/-- Two engines as a family, so that the runs of the first can be runs of the second. -/
def eitherOf (first second : Engine) : Nat → Engine
  | 0 => first
  | _ + 1 => second

theorem growsAt_drain_undrained (budget : Nat) : GrowsAt 0 DrainReport fun index =>
    (eitherOf (service.undrained rules budget) (service.engine rules budget) index).drain := by
  intro state after answer hruns
  have hexhausted : (exhausted : Routine DrainReport).Runs state answer after :=
    drain_undrained service rules budget ▸ hruns
  exact absurd hexhausted runs_exhausted

/-- A flush that starts no drain is the flush of the engine. -/
theorem growsAt_flush_undrained (budget : Nat) : GrowsAt 0 Unit fun index =>
    (eitherOf (service.undrained rules budget) (service.engine rules budget) index).flush := by
  induction budget with
  | zero => exact fun _ _ _ hruns => absurd hruns runs_exhausted
  | succ budget ih =>
      have hnext : GrowsAt 0 Unit fun index => service.flushOn rules
          (eitherOf (service.undrained rules budget) (service.engine rules budget) index) :=
        flushOn_composes service.drainsOnlyIf_true (composes_growsAt 0) ih fun _ =>
          growsAt_drain_undrained budget
      exact hnext

/-- What ends without a drain being started ends so on the engine. -/
theorem runs_of_undrained {answer : Except Error Outcome}
    (hruns : (service.runEntry rules (service.undrained rules budget) entry).Runs state answer
      after) :
    (service.runEntry rules (service.engine rules budget) entry).Runs state answer after := by
  have hgrows : GrowsAt 0 Outcome fun index => service.runEntry rules
      (eitherOf (service.undrained rules budget) (service.engine rules budget) index) entry :=
    runEntry_composes service.drainsOnlyIf_true (composes_growsAt 0)
      (growsAt_flush_undrained budget) (fun _ => growsAt_drain_undrained budget) entry
  exact hgrows hruns

/-! ## Failed entries -/

/-- An entry that fails without a drain being started leaves the queue as it was. -/
theorem pending_eq_of_undrained {error : Error}
    (hruns : (service.runEntry rules (service.undrained rules budget) entry).Runs state
      (.error error) after) : after.work.pending = state.work.pending := by
  obtain ⟨_, failed, hrule, rfl⟩ := exists_failed_of_runs hruns
  obtain ⟨inner, hinner, rfl⟩ := runs_whileExecuting.mp hrule
  have hextends := runRule_keeps service.drainsOnlyIf_true
    (undrained_keeps keptByScripts_extends budget)
    (fun _ => drain_undrained service rules budget ▸ keeps_exhausted)
    keptByScripts_extends entry hinner
  exact OrderedSet.truncate_eq_of_prefix hextends.pending

/-- **Entries that wait are lost by drains only.**  An entry that fails leaves the unit of work as
it was, but for what drains do to the queue and to the counts and for the switches that handlers
turned.  Unless the run of the entry started a drain, each entry that waited when it began waits
where it did, and none else does. -/
theorem pending_kept {error : Error}
    (hruns : (service.runEntry rules (service.engine rules budget) entry).Runs state (.error error)
      after) :
    after.work =
        { state.work with
          pending := after.work.pending
          failedEntries := after.work.failedEntries
          aborted := after.work.aborted
          disabledNodes := after.work.disabledNodes
          rulesDisabled := after.work.rulesDisabled } ∧
      (service.StartsDrain rules budget entry state ∨ after.work.pending = state.work.pending) := by
  constructor
  · obtain ⟨_, failed, hrule, rfl⟩ := exists_failed_of_runs hruns
    have hkept := keptByDrains_accumulates.keptByDrainsOf fun act => act = .runPending → True
    obtain ⟨hflush, hdrain⟩ := service.drainsOnlyIf_true.uses.drain_keeps hkept budget
    have haccumulates := service.drainsOnlyIf_true.uses.whileExecuting_keeps hflush
      (fun _ => hdrain) hkept entry hrule
    exact haccumulates.restore_eq
  · by_cases hstarts : service.StartsDrain rules budget entry state
    · exact .inl hstarts
    · simp only [StartsDrain, Classical.not_forall, Classical.not_not] at hstarts
      obtain ⟨answer, other, hundrained⟩ := hstarts
      -- The run that starts no drain is the one that was made.
      obtain ⟨rfl, rfl⟩ := (runs_of_undrained hundrained).unique hruns
      exact .inr (pending_eq_of_undrained hundrained)

end RuleService

namespace Trial

/-- A rule that leaves a trace on the root, and then queues one that fails. -/
def waiting : PendingEntry :=
  entry "x" "log" [("tag", .text "x"), ("next", .text "y")]

/-- The root has the rule that fails. -/
def rules : RuleStore :=
  ({} : RuleStore).put waiting.actionable (entry "y" "fail" []).rule

/-- Another rule is about to be run while it waits. -/
def beside : WorkState :=
  { Echo.start with work := (Echo.start.work.enqueue waiting).2 }

/-- The traces on the root. -/
def traces (state : WorkState) : Option Value :=
  ((state.work.nodes.property? waiting.actionable (traceProperty "log")).toOption).join

end Trial

open Trial

/-- A rule that waits while another one fails goes on waiting. -/
theorem RuleService.pending_kept_beside :
    beside.work.pending.entries.map PendingEntry.key = [waiting.key] ∧
      ∃ error after, (service.runEntry rules (service.engine rules 5) (entry "y" "fail" [])).Runs
          beside (.error error) after ∧
        ¬ service.StartsDrain rules 5 (entry "y" "fail" []) beside ∧
        after.work.pending = beside.work.pending := by
  have hwaits : beside.work.pending.entries.map PendingEntry.key = [waiting.key] := by
    decide +kernel
  have hundrained : ((service.runEntry rules (service.undrained rules 5)
      (entry "y" "fail" [])).run.run beside).any fun result => !result.1.isOk := by
    decide +kernel
  obtain ⟨error | _, after, hundrained, herror⟩ := Routine.exists_runs_of_any hundrained
  case ok => cases herror
  have hruns := RuleService.runs_of_undrained hundrained
  have hstarts : ¬ service.StartsDrain rules 5 (entry "y" "fail" []) beside :=
    fun hstarts => hstarts _ _ hundrained
  have hkept := (RuleService.pending_kept hruns).2.resolve_left hstarts
  exact ⟨hwaits, error, after, hruns, hstarts, hkept⟩

/-- A rule that waits is run by a drain that another rule starts, and then the latter fails: the
rule waits no more, and the trace that it leaves elsewhere is not there. -/
theorem RuleService.waiting_lost_of_drain :
    beside.work.pending.entries.map PendingEntry.key = [waiting.key] ∧
      (∃ error after, (service.runEntry rules (service.engine rules 5) (entry "b" "drain" [])).Runs
          beside (.error error) after ∧
        after.work.pending.entries = [] ∧ traces after = none) ∧
      ∃ outcome after, (service.runEntry rules (service.engine rules 5) waiting).Runs Echo.start
          (.ok outcome) after ∧
        traces after = some (.list [.text "x"]) := by
  have hwaits : beside.work.pending.entries.map PendingEntry.key = [waiting.key] := by
    decide +kernel
  have hdrains : ((service.runEntry rules (service.engine rules 5)
      (entry "b" "drain" [])).run.run beside).any fun result =>
        !result.1.isOk && result.2.work.pending.entries.isEmpty && traces result.2 = none := by
    decide +kernel
  have halone : ((service.runEntry rules (service.engine rules 5) waiting).run.run Echo.start).any
      fun result => result.1.isOk && traces result.2 = some (.list [.text "x"]) := by
    decide +kernel
  refine ⟨hwaits, ?_, ?_⟩
  · obtain ⟨error | _, after, hruns, hleft⟩ := Routine.exists_runs_of_any hdrains
    case ok => cases hleft
    simp only [Bool.and_eq_true, List.isEmpty_iff, decide_eq_true_eq] at hleft
    exact ⟨error, after, hruns, hleft.1.2, hleft.2⟩
  · obtain ⟨_ | outcome, after, hruns, hleft⟩ := Routine.exists_runs_of_any halone
    case error => cases hleft
    simp only [Bool.and_eq_true, decide_eq_true_eq] at hleft
    exact ⟨outcome, after, hruns, hleft.2⟩

end ContentRules
