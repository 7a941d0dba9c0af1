import ContentRules.Proofs.Engine.Keeps
import ContentRules.Proofs.NodeStore.Failures

/-!
# Why flushes and entries fail

A drain has ceilings, and what it runs has none.  If the handlers of a service pass on the errors of
edits and flushes and have none of their own about ceilings, no flush and no entry fails at one, so
a ceiling that a drain reports is its own.
-/

namespace ContentRules

variable {α β : Type}

open Routine

/-! ## Routines -/

namespace Routine

/-- No run of the routine fails at a ceiling. -/
def NoCeiling (routine : Routine α) : Prop :=
  ∀ ⦃state after : WorkState⦄ ⦃answer : Except Error α⦄,
    routine.Runs state answer after → ContentRules.NoCeiling answer

theorem noCeiling_exhausted : (exhausted : Routine α).NoCeiling :=
  fun _ _ _ hruns => absurd hruns runs_exhausted

theorem noCeiling_of_runs {routine : Routine α} {result : WorkState → α}
    {next : WorkState → WorkState}
    (hroutine : ∀ state, routine.Runs state (.ok (result state)) (next state)) :
    routine.NoCeiling := by
  intro state after answer hruns
  obtain ⟨rfl, -⟩ := (hroutine state).unique hruns
  trivial

theorem noCeiling_pure (result : α) : (pure result : Routine α).NoCeiling := by
  intro state after answer hruns
  rw [(runs_pure.mp hruns).1]
  trivial

/-- What comes second need not fail at a ceiling after what the first answers. -/
theorem NoCeiling.bind {routine : Routine α} {next : α → Routine β} (hroutine : routine.NoCeiling)
    (hnext : ∀ result, (∃ before after, routine.Runs before (.ok result) after) →
      (next result).NoCeiling) : (routine >>= next).NoCeiling := by
  intro state after answer hruns
  rcases runs_bind.mp hruns with ⟨result, middle, hfirst, hsecond⟩ | ⟨error, hfirst, rfl⟩
  · exact hnext result ⟨state, middle, hfirst⟩ hsecond
  · exact hroutine hfirst

theorem noCeiling_lift_bind {property : α → Prop} {outcome : Except Error α} {next : α → Routine β}
    (houtcome : NoCeilingAnd property outcome)
    (hnext : ∀ result, property result → (next result).NoCeiling) :
    (liftM outcome >>= next : Routine β).NoCeiling := by
  intro state after answer hruns
  rcases runs_lift_bind.mp hruns with ⟨result, rfl, hrest⟩ | ⟨error, rfl, rfl, -⟩
  · exact hnext result houtcome hrest
  · exact houtcome

theorem noCeiling_forM {items : List α} {body : α → Routine Unit}
    (hbody : ∀ item ∈ items, (body item).NoCeiling) : (items.forM body).NoCeiling := by
  induction items with
  | nil => exact noCeiling_pure ()
  | cons item items ih =>
      refine (hbody item List.mem_cons_self).bind fun _ _ => ih ?_
      exact fun other hother => hbody other (List.mem_cons_of_mem item hother)

end Routine

/-! ## Scripts -/

namespace Script

/-- Whatever it is answered, the script fails at no ceiling, unless a drain has answered so. -/
def NoCeiling : Script α → Prop
  | done _ => True
  | fail error => ¬ error.IsCeiling
  | look next => ∀ view, (next view).NoCeiling
  | edit _ next => ∀ answer, ContentRules.NoCeiling answer → (next answer).NoCeiling
  | enqueue _ next => ∀ queued, (next queued).NoCeiling
  | deliver next => ∀ outcome, ContentRules.NoCeiling outcome → (next outcome).NoCeiling
  | runPending next => ∀ outcome, (next outcome).NoCeiling
  | turn _ next => next.NoCeiling
  | deferCopy _ _ next => next.NoCeiling
  | note _ next => next.NoCeiling

theorem NoCeiling.bind {script : Script α} {next : α → Script β} (hscript : script.NoCeiling)
    (hnext : ∀ result, (next result).NoCeiling) : (script >>= next).NoCeiling := by
  show (script.bind next).NoCeiling
  induction script with
  | done result => exact hnext result
  | fail => exact hscript
  | look _ ih | enqueue _ _ ih | runPending _ ih => exact fun answer => ih _ (hscript answer)
  | edit _ _ ih | deliver _ ih => exact fun answer hanswer => ih _ (hscript answer hanswer)
  | turn _ _ ih | deferCopy _ _ _ ih | note _ _ ih => exact ih hscript

theorem NoCeiling.discard {script : Script α} (hscript : script.NoCeiling) :
    (discard script : Script Unit).NoCeiling :=
  hscript.bind fun _ => trivial

theorem noCeiling_ofExcept {outcome : Except Error α} (houtcome : ContentRules.NoCeiling outcome) :
    (ofExcept outcome).NoCeiling := by
  cases outcome with
  | error error => exact houtcome
  | ok result => trivial

theorem noCeiling_apply (change : Edit) : (apply change).NoCeiling :=
  fun _ hanswer => noCeiling_ofExcept hanswer

/-- Such a script may not drain, but it may go on after a flush that failed. -/
theorem NoCeiling.run {rules : RuleStore} {engine : Engine} (hflush : engine.flush.NoCeiling)
    {script : Script α} (hscript : script.NoCeiling) : (script.run rules engine).NoCeiling := by
  induction script with
  | done result => exact noCeiling_pure result
  | fail error =>
      intro state after answer hruns
      rw [(runs_throw.mp hruns).1]
      exact hscript
  | look next ih =>
      exact (noCeiling_of_runs fun _ => runs_work).bind fun work _ => ih _ (hscript _)
  | edit change next ih =>
      refine (noCeiling_of_runs fun _ => runs_performEdit change).bind fun answer hanswer => ?_
      obtain ⟨before, after, hruns⟩ := hanswer
      obtain ⟨hsame, -⟩ := (runs_performEdit change).unique hruns
      refine ih answer (hscript answer ?_)
      rw [← Except.ok.inj hsame]
      exact change.noCeiling_run _
  | enqueue entry next ih =>
      exact (noCeiling_of_runs fun _ => runs_enqueue entry).bind fun queued _ => ih _ (hscript _)
  | deliver next ih =>
      intro state after answer hruns
      rcases runs_attempt_bind.mp hruns with
        ⟨_, _, hdelivered, hrest⟩ | ⟨_, _, hdelivered, hrest⟩
      · exact ih _ (hscript _ (hflush hdelivered)) hrest
      · exact ih _ (hscript _ (hflush hdelivered)) hrest
  | runPending next ih =>
      intro state after answer hruns
      rcases runs_attempt_bind.mp hruns with ⟨_, _, -, hrest⟩ | ⟨_, _, -, hrest⟩
      · exact ih _ (hscript _) hrest
      · exact ih _ (hscript _) hrest
  | turn switch next ih =>
      exact (noCeiling_of_runs fun _ => runs_update _).bind fun _ _ => ih hscript
  | deferCopy source copy next ih =>
      exact (noCeiling_of_runs fun _ => runs_update _).bind fun _ _ => ih hscript
  | note line next ih =>
      exact (noCeiling_of_runs fun _ => runs_write _).bind fun _ _ => ih hscript

end Script

/-! ## Handlers -/

theorem ParameterDefinition.noCeiling_checkAll (declared : List ParameterDefinition)
    (definition : String) (parameters : ParameterValues) :
    NoCeiling (checkAll declared definition parameters) := by
  refine noCeiling_forM fun parameter => ?_
  unfold check
  split
  case h_1 | h_2 =>
    split
    · exact .of_cause (by nofun)
    · trivial
  case h_3 =>
    split
    · trivial
    · exact .of_cause (by nofun)

namespace HandlerRegistry

variable (registry : HandlerRegistry)

theorem noCeiling_lookUp {property : α → Prop} {table : Std.ExtTreeMap String α} {sought : Sought}
    {name : String} (hfound : ∀ found, table[name]? = some found → property found) :
    NoCeilingAnd property (lookUp table sought name) := by
  unfold lookUp
  split
  · exact hfound _ ‹_›
  · exact .of_cause (by nofun)

/-- Evaluators are made without failing at a ceiling if what is registered makes them so. -/
theorem noCeiling_evaluator {property : Evaluator → Prop} {condition : Condition}
    (hmake : ∀ make, registry.evaluators[condition.definition.evaluator]? = some make →
      NoCeilingAnd property (make condition)) :
    NoCeilingAnd property (registry.evaluator condition) :=
  (noCeiling_lookUp hmake).bind fun _ hmake =>
    (ParameterDefinition.noCeiling_checkAll _ _ _).bind fun _ _ => hmake

theorem noCeiling_executor {property : Executor → Prop} {action : Action}
    (hmake : ∀ make, registry.executors[action.definition.executor]? = some make →
      NoCeilingAnd property (make action)) :
    NoCeilingAnd property (registry.executor action) :=
  (noCeiling_lookUp hmake).bind fun _ hmake =>
    (ParameterDefinition.noCeiling_checkAll _ _ _).bind fun _ _ => hmake

theorem evaluators_addEvaluator (name other : String)
    (make : Condition → Except Error Evaluator) :
    (registry.addEvaluator name make).evaluators[other]? =
      if name = other then some make else registry.evaluators[other]? := by
  simp [addEvaluator, Std.ExtTreeMap.getElem?_insert]

end HandlerRegistry

/-! ## Services -/

namespace RuleService

/-- The handlers of the service have no errors about ceilings. -/
structure NoCeiling (service : RuleService) : Prop where
  react : ∀ behaviour ∈ service.behaviours, ∀ event : NodeEvent,
    (behaviour.react event).NoCeiling
  evaluator : ∀ condition : Condition,
    NoCeilingAnd (fun evaluator => ∀ (view : View) (actionable actionedUpon : NodeRef),
      ContentRules.NoCeiling (evaluator view actionable actionedUpon))
      (service.handlers.evaluator condition)
  executor : ∀ action : Action,
    NoCeilingAnd (fun executor => ∀ actionable actionedUpon : NodeRef,
      (executor actionable actionedUpon).NoCeiling) (service.handlers.executor action)

namespace NoCeiling

variable {service : RuleService} {rules : RuleStore} {engine : Engine}
  (hservice : service.NoCeiling)

include hservice

theorem deliverAll (hflush : engine.flush.NoCeiling) (events : List NodeEvent) :
    (service.deliverAll rules engine events).NoCeiling := by
  refine Routine.noCeiling_forM fun event _ => ?_
  refine Routine.NoCeiling.bind (noCeiling_of_runs fun _ => runs_update _) fun _ _ => ?_
  refine Routine.noCeiling_forM fun behaviour hbound => ?_
  exact (hservice.react behaviour (List.mem_filter.mp hbound).1 event).run hflush

theorem flush (budget : Nat) : (service.engine rules budget).flush.NoCeiling := by
  induction budget with
  | zero => exact noCeiling_exhausted
  | succ budget ih =>
      refine Routine.NoCeiling.bind (noCeiling_of_runs fun _ => runs_takeEvents) fun events _ => ?_
      split
      · exact noCeiling_pure ()
      · exact (hservice.deliverAll ih _).bind fun _ _ => ih

theorem runRule (hflush : engine.flush.NoCeiling) (entry : PendingEntry) :
    (service.runRule rules engine entry).NoCeiling := by
  have hparts : ContentRules.NoCeiling (soleConditionAndAction entry) := by
    unfold soleConditionAndAction
    split
    · trivial
    · exact .of_cause (by nofun)
  unfold RuleService.runRule
  refine noCeiling_lift_bind hparts fun parts _ => ?_
  obtain ⟨condition, action⟩ := parts
  refine noCeiling_lift_bind (hservice.evaluator condition) fun evaluator hevaluator => ?_
  refine noCeiling_lift_bind (hservice.executor action) fun executor hexecutor => ?_
  refine Routine.NoCeiling.bind (noCeiling_of_runs fun _ => runs_work) fun work _ => ?_
  refine noCeiling_lift_bind (hevaluator _ _ _) fun holds _ => ?_
  split
  · exact ((hexecutor _ _).run hflush).bind fun _ _ => hflush.bind fun _ _ => noCeiling_pure _
  · exact noCeiling_pure _

/-- An entry fails at no ceiling.  The context that its error is given does not matter. -/
theorem runEntry (hflush : engine.flush.NoCeiling) (entry : PendingEntry) :
    (service.runEntry rules engine entry).NoCeiling := by
  intro state after answer hruns
  by_cases hskipped : isSkipped state.work entry
  · obtain ⟨rfl, -⟩ := (runs_runEntry_of_skipped hskipped).mp hruns
    trivial
  · rcases (runs_runEntry hskipped).mp hruns with ⟨_, -, rfl⟩ | ⟨error, failed, hrule, rfl, -⟩
    · trivial
    · obtain ⟨inner, hinner, -⟩ := runs_whileExecuting.mp hrule
      have herror : ¬ error.IsCeiling := hservice.runRule hflush entry hinner
      exact herror

end NoCeiling

end RuleService

end ContentRules
