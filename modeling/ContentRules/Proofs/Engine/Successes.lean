import ContentRules.Proofs.Engine.Keeps

/-!
# What holds as long as everything succeeds

A flush that fails loses events, so what depends on all of them being delivered is kept by routines
that succeed, and not by those that fail.

**Strategy.**  A script that passes on the error of a flush (`Script.PassesOn`) fails after it,
whatever it may still do.  So if such a script succeeds, all flushes that it started have succeeded,
and what its acts and these flushes preserve is preserved by the script, by induction on it.
-/

namespace ContentRules

variable {α β : Type} {P : WorkState → Prop}

/-! ## Routines -/

namespace Routine

/-- When the routine succeeds on a state with the property, it leaves one with the property. -/
def Preserves (routine : Routine α) (P : WorkState → Prop) : Prop :=
  ∀ ⦃state after : WorkState⦄ ⦃result : α⦄, routine.Runs state (.ok result) after →
    P state → P after

theorem preserves_pure (result : α) : (pure result : Routine α).Preserves P := by
  intro state after other hruns hstate
  obtain ⟨-, rfl⟩ := runs_pure.mp hruns
  exact hstate

/-- What always succeeds preserves what is true of the state that it leaves. -/
theorem preserves_of_runs {routine : Routine α} {result : WorkState → α}
    {next : WorkState → WorkState}
    (hroutine : ∀ state, routine.Runs state (.ok (result state)) (next state))
    (hnext : ∀ state, P state → P (next state)) : routine.Preserves P := by
  intro state after other hruns hstate
  obtain ⟨-, rfl⟩ := (hroutine state).unique hruns
  exact hnext state hstate

theorem Preserves.bind {routine : Routine β} {next : β → Routine α}
    (hroutine : routine.Preserves P) (hnext : ∀ result, (next result).Preserves P) :
    (routine >>= next).Preserves P := by
  intro state after result hruns hstate
  rcases runs_bind.mp hruns with ⟨other, middle, hfirst, hrest⟩ | ⟨_, -, ⟨⟩⟩
  exact hnext other hrest (hroutine hfirst hstate)

theorem preserves_forM {items : List α} {body : α → Routine Unit}
    (hbody : ∀ item ∈ items, (body item).Preserves P) : (items.forM body).Preserves P := by
  induction items with
  | nil => exact preserves_pure ()
  | cons item items ih =>
      obtain ⟨hitem, hitems⟩ := List.forall_mem_cons.mp hbody
      exact hitem.bind fun _ => ih hitems

end Routine

open Routine

/-! ## Scripts -/

namespace Script

/-- Whatever the script is answered, it fails. -/
def Fails : Script α → Prop
  | done _ => False
  | fail _ => True
  | look next => ∀ view, (next view).Fails
  | edit _ next => ∀ answer, (next answer).Fails
  | enqueue _ next => ∀ queued, (next queued).Fails
  | deliver next => ∀ outcome, (next outcome).Fails
  | runPending next => ∀ outcome, (next outcome).Fails
  | turn _ next => next.Fails
  | deferCopy _ _ next => next.Fails
  | note _ next => next.Fails

/-- If a flush that the script has started fails, the script fails. -/
def PassesOn : Script α → Prop
  | done _ => True
  | fail _ => True
  | look next => ∀ view, (next view).PassesOn
  | edit _ next => ∀ answer, (next answer).PassesOn
  | enqueue _ next => ∀ queued, (next queued).PassesOn
  | deliver next => (∀ error, (next (.error error)).Fails) ∧ (next (.ok ())).PassesOn
  | runPending next => ∀ outcome, (next outcome).PassesOn
  | turn _ next => next.PassesOn
  | deferCopy _ _ next => next.PassesOn
  | note _ next => next.PassesOn

theorem Fails.bind {script : Script α} (hscript : script.Fails) (next : α → Script β) :
    (script.bind next).Fails := by
  induction script with
  | done => exact hscript.elim
  | fail => trivial
  | look _ ih | edit _ _ ih | enqueue _ _ ih | deliver _ ih | runPending _ ih =>
      exact fun answer => ih answer (hscript answer)
  | turn _ _ ih | deferCopy _ _ _ ih | note _ _ ih => exact ih hscript

theorem PassesOn.bind {script : Script α} {next : α → Script β} (hscript : script.PassesOn)
    (hnext : ∀ result, (next result).PassesOn) : (script >>= next).PassesOn := by
  show (script.bind next).PassesOn
  induction script with
  | done result => exact hnext result
  | fail => trivial
  | look _ ih | edit _ _ ih | enqueue _ _ ih | runPending _ ih =>
      exact fun answer => ih answer (hscript answer)
  | deliver _ ih => exact ⟨fun error => (hscript.1 error).bind next, ih _ hscript.2⟩
  | turn _ _ ih | deferCopy _ _ _ ih | note _ _ ih => exact ih hscript

theorem passesOn_ofExcept (outcome : Except Error α) : (ofExcept outcome).PassesOn := by
  cases outcome <;> trivial

theorem passesOn_apply (change : Edit) : (apply change).PassesOn :=
  fun answer => passesOn_ofExcept answer

theorem passesOn_flush : flush.PassesOn :=
  ⟨fun _ => trivial, trivial⟩

variable {rules : RuleStore} {engine : Engine} {script : Script α}

theorem Fails.not_runs_ok (hscript : script.Fails) {state after : WorkState} {result : α} :
    ¬ (script.run rules engine).Runs state (.ok result) after := by
  intro hruns
  induction script generalizing state with
  | done => exact hscript
  | fail => cases (runs_throw.mp hruns).1
  | look _ ih | edit _ _ ih | enqueue _ _ ih | deliver _ ih | runPending _ ih =>
      rcases runs_bind.mp hruns with ⟨answer, _, -, hrest⟩ | ⟨_, -, ⟨⟩⟩
      exact ih _ (hscript _) hrest
  | turn _ _ ih | deferCopy _ _ _ ih | note _ _ ih =>
      rcases runs_bind.mp hruns with ⟨_, _, -, hrest⟩ | ⟨_, -, ⟨⟩⟩
      exact ih hscript hrest

/-- A script that succeeds has done its acts, and the flushes that it started have succeeded. -/
theorem PassesOn.run_preserves (hpasses : script.PassesOn) (hdrains : script.DrainsOnlyIf False)
    (hact : ∀ (act : Act) (state : WorkState), P state → P (act.effect state))
    (hflush : engine.flush.Preserves P) : (script.run rules engine).Preserves P := by
  induction script with
  | done result => exact preserves_pure result
  | fail =>
      intro state after result hruns
      cases (runs_throw.mp hruns).1
  | look _ ih =>
      refine (preserves_of_runs (fun _ => runs_work) fun _ => id).bind fun work => ?_
      exact ih _ (hpasses _) (hdrains _)
  | edit change _ ih =>
      refine (preserves_of_runs (fun _ => runs_performEdit change) (hact (.edit change))).bind ?_
      exact fun answer => ih answer (hpasses answer) (hdrains answer)
  | enqueue entry _ ih =>
      refine (preserves_of_runs (fun _ => runs_enqueue entry) (hact (.enqueue entry))).bind ?_
      exact fun queued => ih queued (hpasses queued) (hdrains queued)
  | deliver next ih =>
      intro state after result hruns hstate
      rcases runs_attempt_bind.mp hruns with ⟨_, middle, hflushed, hrest⟩ | ⟨_, _, -, hrest⟩
      · exact ih _ hpasses.2 (hdrains _) hrest (hflush hflushed hstate)
      · exact absurd hrest (hpasses.1 _).not_runs_ok
  | runPending => exact hdrains.1.elim
  | turn switch _ ih =>
      refine (preserves_of_runs (fun _ => runs_update _) (hact (.turn switch))).bind fun _ => ?_
      exact ih hpasses hdrains
  | deferCopy source copy _ ih =>
      refine (preserves_of_runs (fun _ => runs_update _) (hact (.deferCopy source copy))).bind ?_
      exact fun _ => ih hpasses hdrains
  | note line _ ih =>
      refine (preserves_of_runs (fun _ => runs_write _) (hact (.note line))).bind fun _ => ?_
      exact ih hpasses hdrains

end Script

/-! ## Handlers -/

namespace RuleService

/-- The bound behaviours and the executors that the registry makes fail if a flush that they have
started fails. -/
structure PassesOn (service : RuleService) : Prop where
  react : ∀ behaviour ∈ service.behaviours, ∀ event : NodeEvent, (behaviour.react event).PassesOn
  execute : ∀ {action : Action} {executor : Executor},
    service.handlers.executor action = .ok executor →
      ∀ actionable actionedUpon : NodeRef, (executor actionable actionedUpon).PassesOn

variable {service : RuleService} {rules : RuleStore} {engine : Engine}

/-- Behaviours that are told of an event, and all of which succeed, have done nothing but acts. -/
theorem PassesOn.dispatch_preserves (hpasses : service.PassesOn) (hdrains : service.NeverDrains)
    (hact : ∀ (act : Act) (state : WorkState), P state → P (act.effect state))
    (hflush : engine.flush.Preserves P) (event : NodeEvent) :
    (service.dispatch rules engine event).Preserves P := by
  refine preserves_forM fun behaviour hbound => ?_
  have hbehaviour := (List.mem_filter.mp hbound).1
  exact (hpasses.react behaviour hbehaviour event).run_preserves
    (hdrains.react behaviour hbehaviour event) hact hflush

end RuleService

end ContentRules
