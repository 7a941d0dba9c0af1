import ContentRules.Proofs.Engine.ObservedEngine
import ContentRules.Proofs.Engine.Rounds

/-!
# What observed runs keep

A relation between states may speak of what was seen on the way from one to the other: which events
were recorded, and which behaviours were told of what.

**Strategy.**  As in the case of relations between states alone, the induction over runs is made
once.  `KeptByDrainsWithMarks` asks that the relation hold of each allowed act and of each thing
that flushes and drains do themselves.  Of a service it is asked that its executors do only what is
allowed, and that telling a behaviour of an event keep the relation (`RuleService.TellsKeeping`).
The second is not reduced to the acts of the behaviour, so that a relation may say what a behaviour
does that was told of something.
-/

namespace ContentRules

variable {α β : Type} {allowed : Act → Prop} {P : WorkState → List Mark → WorkState → Prop}

/-- A relation that also holds whatever flushes and drains do between the scripts that they run. -/
structure KeptByDrainsWithMarks (allowed : Act → Prop)
    (P : WorkState → List Mark → WorkState → Prop) : Prop
    extends KeptByActsWithMarks allowed P where
  takeEvents : ∀ state : WorkState, P state [] (RuleService.withoutEvents state)
  noteNew : ∀ (state : WorkState) (event : NodeEvent),
    P state [] { state with work := state.work.noteNew event }
  lost : ∀ (state : WorkState) (events : List NodeEvent), P state [.lost events] state
  refused : ∀ state : WorkState, P state [.refused] state
  takePending : ∀ state : WorkState, P state [] (RuleService.withoutPending state)
  /-- A rule is marked, and what was marked before is put back. -/
  executing : ∀ {state left : WorkState} {marks : List Mark} (rule : Rule),
    P { state with work := { state.work with executing := some rule } } marks left →
      P state marks { left with work := { left.work with executing := state.work.executing } }
  undo : ∀ {state failed : WorkState} {marks : List Mark}, P state marks failed →
    P state [.undone marks] { failed with work := failed.work.restore state.work.checkpoint }
  failEntry : ∀ (state : WorkState) (failure : RuleFailure), P state [] (state.failEntry failure)
  abort : ∀ (state : WorkState) (error : Error), P state [] (state.abort error)

open Observed

/-! ## Composed routines -/

namespace Composes

variable (hP : Composes P)

include hP

/-- What follows a computed outcome need be looked at for its result only. -/
theorem lift_bind {outcome : Except Error α} {next : α → Observed β}
    (hnext : ∀ result, outcome = .ok result → (next result).Keeps P) :
    ((liftM outcome : Observed α) >>= next).Keeps P := by
  intro state left answer hruns
  rcases runs_lift_bind hruns with ⟨result, hresult, hrest, hmarks⟩ | ⟨error, -, rfl, hmarks⟩
  · rw [hmarks]
    exact hnext result hresult hrest
  · rw [hmarks]
    exact hP.refl _

theorem forM {items : List α} {body : α → Observed Unit}
    (hbody : ∀ item ∈ items, (body item).Keeps P) : (items.forM body).Keeps P := by
  induction items with
  | nil => exact hP.pure ()
  | cons item items ih =>
      refine hP.bind (hbody item (by simp)) fun _ => ih ?_
      intro other hother
      exact hbody other (List.mem_cons_of_mem item hother)

/-- A rule is marked, and afterwards another one or none. -/
theorem executing (hmark : ∀ (state : WorkState) (rule? : Option Rule),
      P state [] { state with work := { state.work with executing := rule? } })
    {state left : WorkState} {marks : List Mark} {rule? other? : Option Rule}
    (hinner : P { state with work := { state.work with executing := rule? } } marks left) :
    P state marks { left with work := { left.work with executing := other? } } := by
  have hmarked := hP.trans (hP.trans (hmark state rule?) hinner) (hmark left other?)
  rwa [List.nil_append, List.append_nil] at hmarked

theorem markError {mark : Mark} (hmark : ∀ state, P state [mark] state) {observed : Observed α}
    (hobserved : observed.Keeps P) : (observed.markError mark).Keeps P := by
  intro state left answer hruns
  rw [routine_markError] at hruns
  cases answer with
  | ok result =>
      rw [marks_markError_ok hruns]
      exact hobserved hruns
  | error error =>
      rw [marks_markError_error hruns]
      exact hP.trans (hobserved hruns) (hmark left)

end Composes

/-! ## Services -/

namespace RuleService

variable {service : RuleService} {rules : RuleStore} {engine : ObservedEngine}

/-- Executors do only what is allowed, and behaviours that are told of an event keep the relation if
the engine does that they call on. -/
structure TellsKeeping (service : RuleService) (allowed : Act → Prop)
    (P : WorkState → List Mark → WorkState → Prop) : Prop where
  react : ∀ behaviour ∈ service.behaviours, ∀ {rules : RuleStore} {engine : ObservedEngine},
    (engine.flush.markError .refused).Keeps P → engine.drain.Keeps P →
      ∀ event : NodeEvent, (observeTelling rules engine event behaviour).Keeps P
  execute : ∀ {action : Action} {executor : Executor},
    service.handlers.executor action = .ok executor →
      ∀ actionable actionedUpon : NodeRef, (executor actionable actionedUpon).Uses allowed

section Entries

variable
  (hexecute : ∀ {action : Action} {executor : Executor},
    service.handlers.executor action = .ok executor → ∀ actionable actionedUpon : NodeRef,
      ((executor actionable actionedUpon).observe rules engine).Keeps P)
  (hP : KeptByDrainsWithMarks allowed P) (hflush : engine.flush.Keeps P)

include hexecute hP hflush

theorem observeRule_keeps (entry : PendingEntry) :
    (service.observeRule rules engine entry).Keeps P := by
  unfold observeRule
  refine hP.toComposes.lift_bind fun parts _ => ?_
  obtain ⟨condition, action⟩ := parts
  refine hP.toComposes.lift_bind fun evaluator _ => hP.toComposes.lift_bind fun executor hmade => ?_
  refine hP.toComposes.bind (keeps_of_runs (fun _ => Routine.runs_work) hP.refl) fun work => ?_
  refine hP.toComposes.lift_bind fun holds _ => ?_
  split
  · exact hP.toComposes.bind (hexecute hmade entry.actionable entry.actionedUpon) fun _ =>
      hP.toComposes.bind hflush fun _ => hP.toComposes.pure _
  · exact hP.toComposes.pure _

/-! ## Drains -/

theorem observeEntry_keeps (entry : PendingEntry) :
    (service.observeEntry rules engine entry).Keeps P := by
  have hrule : (observeExecuting entry.rule (service.observeRule rules engine entry)).Keeps P := by
    intro state left answer hruns
    obtain ⟨inner, hinner, rfl, hmarks⟩ := runs_observeExecuting hruns
    rw [hmarks]
    exact hP.executing entry.rule (observeRule_keeps hexecute hP hflush entry hinner)
  intro state left answer hruns
  rcases runs_observeEntry hruns with
    ⟨rfl, hmarks⟩ | ⟨_, hinner, hmarks⟩ | ⟨_, failed, hfailed, rfl, hmarks⟩
  · rw [hmarks]
    exact hP.refl _
  · rw [hmarks]
    exact hrule hinner
  · rw [hmarks]
    exact hP.undo (hrule hfailed)

theorem observeProcess_keeps (report : DrainReport) (entry : PendingEntry) :
    (service.observeProcess rules engine report entry).Keeps P := by
  intro state left answer hruns
  rcases runs_observeProcess hruns with ⟨rfl, hmarks⟩ | ⟨_, middle, hentry, hleft, hmarks⟩
  · rw [hmarks]
    exact hP.refl _
  · have hkept := observeEntry_keeps hexecute hP hflush entry hentry
    rw [hmarks]
    rcases hleft with rfl | ⟨failure, rfl⟩
    · exact hkept
    · rw [← List.append_nil ((service.observeEntry rules engine entry).marks state)]
      exact hP.trans hkept (hP.failEntry middle failure)

theorem observeRounds_keeps (remaining : Nat) (report : DrainReport) :
    (service.observeRounds rules engine remaining report).Keeps P := by
  have htake : (Observed.of takePending).Keeps P :=
    keeps_of_runs (fun _ => runs_takePending) hP.takePending
  induction remaining generalizing report with
  | zero =>
      unfold observeRounds
      refine hP.toComposes.bind htake fun batch => ?_
      split
      · exact hP.toComposes.pure _
      · exact hP.toComposes.throw _
  | succ remaining ih =>
      unfold observeRounds
      refine hP.toComposes.bind htake fun batch => ?_
      split
      · exact hP.toComposes.pure _
      · refine hP.toComposes.bind ?_ fun next => ih next
        exact hP.toComposes.foldlM (observeProcess_keeps hexecute hP hflush) _ _

theorem observeAborting_keeps :
    (observeAborting (service.observeSettling rules engine)).Keeps P := by
  have hbody : (service.observeSettling rules engine).Keeps P :=
    hP.toComposes.bind hflush fun _ => observeRounds_keeps hexecute hP hflush _ {}
  intro state left answer hruns
  rcases runs_observeAborting hruns with
    ⟨_, hinner, -, hmarks⟩ | ⟨error, failed, hfailed, -, rfl, hmarks⟩
  · rw [hmarks]
    exact hbody hinner
  · rw [hmarks, ← List.append_nil ((service.observeSettling rules engine).marks state)]
    exact hP.trans (hbody hfailed) (hP.abort failed error)

end Entries

namespace TellsKeeping

theorem observeDeliveries_keeps (hservice : service.TellsKeeping allowed P)
    (hP : KeptByDrainsWithMarks allowed P) (hflush : engine.flush.Keeps P)
    (hdrain : engine.drain.Keeps P) (events : List NodeEvent) :
    (service.observeDeliveries rules engine events).Keeps P := by
  have hrefused : (engine.flush.markError .refused).Keeps P :=
    hP.toComposes.markError hP.refused hflush
  induction events with
  | nil => exact hP.toComposes.pure ()
  | cons event events ih =>
      unfold observeDeliveries
      refine hP.toComposes.bind ?_ fun _ => hP.toComposes.bind ?_ fun _ => ih
      · exact keeps_of_runs (fun _ => Routine.runs_update (·.noteNew event))
          fun state => hP.noteNew state event
      · refine hP.toComposes.markError (fun state => hP.lost state _) (hP.toComposes.forM ?_)
        intro behaviour hbound
        exact hservice.react behaviour (List.mem_filter.mp hbound).1 hrefused hdrain event

/-! ## The engine -/

section Engine

variable (hservice : service.TellsKeeping allowed P) (hP : KeptByDrainsWithMarks allowed P)

include hservice hP

/-- Flushes and drains keep the relation, on whatever budget. -/
theorem observed_keeps (rules : RuleStore) (budget : Nat) :
    (service.observed rules budget).flush.Keeps P ∧
      (service.observed rules budget).drain.Keeps P := by
  induction budget with
  | zero =>
      exact ⟨fun _ _ _ hruns => absurd hruns Routine.runs_exhausted,
        fun _ _ _ hruns => absurd hruns Routine.runs_exhausted⟩
  | succ budget ih =>
      -- Whatever a script calls on is the engine on the budget that is left.
      obtain ⟨hflush, hdrain⟩ := ih
      refine ⟨?_, observeAborting_keeps (fun hmade actionable actionedUpon =>
        (hservice.execute hmade actionable actionedUpon).observe_keeps hP.toKeptByActsWithMarks
          (fun _ => hP.toComposes.markError hP.refused hflush) fun _ => hdrain) hP hflush⟩
      refine hP.toComposes.bind (keeps_of_runs (fun _ => runs_takeEvents) hP.takeEvents)
        fun events => ?_
      split
      · exact hP.toComposes.pure ()
      · exact hP.toComposes.bind (hservice.observeDeliveries_keeps hP hflush hdrain _)
          fun _ => hflush

/-- A script that does only what is allowed keeps the relation. -/
theorem observe_keeps (budget : Nat) {script : Script α} (hscript : script.Uses allowed) :
    (service.observe rules budget script).Keeps P := by
  obtain ⟨hflush, hdrain⟩ := hservice.observed_keeps hP rules budget
  exact hscript.observe_keeps hP.toKeptByActsWithMarks
    (fun _ => hP.toComposes.markError hP.refused hflush) fun _ => hdrain

end Engine

end TellsKeeping

end RuleService

end ContentRules
