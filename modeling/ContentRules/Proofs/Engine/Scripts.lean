import ContentRules.Proofs.Engine.Runs

/-!
# Runs of scripts

The run of a script is taken apart along the steps that it was written in.
-/

namespace ContentRules

namespace WorkState

/-- The working nodes with the supply of ids. -/
def store (state : WorkState) : StoreState where
  ids := state.ids
  nodes := state.work.nodes

end WorkState

namespace Script

open Routine

variable {α β : Type} {rules : RuleStore} {engine : Engine} {state middle after : WorkState}

/-- One script after the other is run as one routine after the other. -/
theorem run_bind (script : Script α) (next : α → Script β) :
    (script >>= next).run rules engine =
      script.run rules engine >>= fun result => (next result).run rules engine := by
  show (script.bind next).run rules engine = _
  induction script with
  | done | fail => rfl
  | look _ ih | edit _ _ ih | enqueue _ _ ih | deliver _ ih | runPending _ ih =>
      simp only [Script.bind, Script.run, bind_assoc, ih]
  | turn _ _ ih | deferCopy _ _ _ ih | note _ _ ih =>
      simp only [Script.bind, Script.run, bind_assoc, ih]

theorem runs_bind_of_runs {script : Script α} {next : α → Script β} {result : α}
    {answer : Except Error β} (hscript : (script.run rules engine).Runs state (.ok result) middle) :
    ((script >>= next).run rules engine).Runs state answer after ↔
      ((next result).run rules engine).Runs middle answer after := by
  rw [run_bind]
  exact Routine.runs_bind_of_runs hscript

theorem runs_pure {result : α} {answer : Except Error α} :
    ((pure result : Script α).run rules engine).Runs state answer after ↔
      answer = .ok result ∧ after = state :=
  Routine.runs_pure

/-- What was computed is passed on. -/
theorem runs_ofExcept (outcome : Except Error α) :
    ((Script.ofExcept outcome).run rules engine).Runs state outcome state := by
  cases outcome with
  | error error => exact runs_throw.mpr ⟨rfl, rfl⟩
  | ok result => exact Routine.runs_pure.mpr ⟨rfl, rfl⟩

theorem runs_lift_bind {outcome : Except Error α} {next : α → Script β} {result : α}
    {answer : Except Error β} (houtcome : outcome = .ok result) :
    (((liftM outcome : Script α) >>= next).run rules engine).Runs state answer after ↔
      ((next result).run rules engine).Runs state answer after := by
  subst houtcome
  exact runs_bind_of_runs (runs_ofExcept _)

/-- With an error nothing is done any more. -/
theorem runs_lift_bind_of_error {outcome : Except Error α} {next : α → Script β} {error : Error}
    (houtcome : outcome = .error error) :
    (((liftM outcome : Script α) >>= next).run rules engine).Runs state (.error error) state := by
  subst houtcome
  exact runs_throw.mpr ⟨rfl, rfl⟩

/-! ## Single steps -/

theorem runs_view : (Script.view.run rules engine).Runs state
    (.ok { rules, work := state.work }) state := rfl

theorem runs_nodes : (Script.nodes.run rules engine).Runs state (.ok state.work.nodes) state := rfl

theorem runs_apply (change : Edit) :
    ((Script.apply change).run rules engine).Runs state (change.run state.store).1
      (edited state change) := by
  refine (Routine.runs_bind_of_runs (runs_performEdit change)).mpr ?_
  exact runs_ofExcept _

theorem runs_queue (actionable actionedUpon : NodeRef) (rule : Rule) :
    ((Script.queue actionable actionedUpon rule).run rules engine).Runs state
      (.ok (state.work.enqueue { actionable, actionedUpon, rule }).1)
      { state with work := (state.work.enqueue { actionable, actionedUpon, rule }).2 } := rfl

theorem runs_copyRulesAtCommit (source copy : NodeRef) :
    ((Script.copyRulesAtCommit source copy).run rules engine).Runs state (.ok ())
      { state with work := state.work.deferCopy source copy } := rfl

theorem runs_drain {answer : Except Error DrainReport}
    (hdrain : engine.drain.Runs state answer after) :
    (Script.drain.run rules engine).Runs state answer after := by
  refine (Routine.runs_bind_of_runs (runs_attempt.mpr ⟨answer, rfl, hdrain⟩)).mpr ?_
  exact runs_ofExcept _

theorem runs_discard {script : Script α} {result : α}
    (hscript : (script.run rules engine).Runs state (.ok result) after) :
    ((discard script : Script Unit).run rules engine).Runs state (.ok ()) after := by
  show ((script >>= fun _ => pure ()).run rules engine).Runs state (.ok ()) after
  exact (runs_bind_of_runs hscript).mpr (runs_pure.mpr ⟨rfl, rfl⟩)

end Script

end ContentRules
