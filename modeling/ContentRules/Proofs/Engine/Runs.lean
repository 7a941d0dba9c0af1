import ContentRules.Engine.Drain

/-!
# Runs of routines

A routine that its budget suffices for answers a result or an error and leaves a state: `Runs` says
which.  The lemmas below take a run apart along the steps of the routine, and put it together again,
so that nothing else is said in terms of how routines are represented.

Most steps always succeed, and what follows them is simply run on the state that they leave.
-/

namespace ContentRules

namespace Routine

variable {α β : Type}

/-- Run on the state, the routine gives this answer and leaves this state. -/
def Runs (routine : Routine α) (state : WorkState) (answer : Except Error α) (after : WorkState) :
    Prop :=
  routine.run.run state = some (answer, after)

theorem Runs.unique {routine : Routine α} {state first second : WorkState}
    {answer other : Except Error α} (hfirst : routine.Runs state answer first)
    (hsecond : routine.Runs state other second) : answer = other ∧ first = second := by
  have hsame := hfirst.symm.trans hsecond
  simpa using hsame

/-- Whether a routine ends on a state, and what it answers and leaves, can be computed. -/
theorem exists_runs_of_any {routine : Routine α} {state : WorkState}
    {test : Except Error α × WorkState → Bool}
    (hany : (routine.run.run state).any test = true) :
    ∃ answer after, routine.Runs state answer after ∧ test (answer, after) = true := by
  obtain ⟨⟨answer, after⟩, hruns, htest⟩ := (Option.any_eq_true _ _).mp hany
  exact ⟨answer, after, hruns, htest⟩

variable {state after : WorkState} {answer : Except Error α}

/-! ## Compositions -/

@[simp] theorem runs_pure {result : α} :
    (pure result : Routine α).Runs state answer after ↔ answer = .ok result ∧ after = state := by
  show some (Except.ok result, state) = some (answer, after) ↔ _
  simp [eq_comm]

@[simp] theorem runs_throw {error : Error} :
    (throw error : Routine α).Runs state answer after ↔ answer = .error error ∧ after = state := by
  show some (Except.error error, state) = some (answer, after) ↔ _
  simp [eq_comm]

@[simp] theorem runs_exhausted : ¬ (exhausted : Routine α).Runs state answer after := by
  intro hruns
  cases hruns

@[simp] theorem runs_lift {outcome : Except Error α} :
    (liftM outcome : Routine α).Runs state answer after ↔ answer = outcome ∧ after = state := by
  cases outcome with
  | error error => exact runs_throw
  | ok result => exact runs_pure

/-- A sequence of two routines runs the second on what the first leaves, or fails with the first. -/
theorem runs_bind {routine : Routine β} {next : β → Routine α} :
    (routine >>= next).Runs state answer after ↔
      (∃ result middle, routine.Runs state (.ok result) middle ∧
        (next result).Runs middle answer after) ∨
      ∃ error, routine.Runs state (.error error) after ∧ answer = .error error := by
  unfold Runs
  rw [ExceptT.run_bind, StateT.run_bind]
  rcases hroutine : routine.run.run state with _ | ⟨error | result, middle⟩
  · simp
  · show some (Except.error error, middle) = some (answer, after) ↔ _
    constructor
    · intro hparts
      cases hparts
      exact .inr ⟨error, rfl, rfl⟩
    · intro hparts
      rcases hparts with ⟨_, _, ⟨⟩, _⟩ | ⟨_, ⟨⟩, rfl⟩
      rfl
  · show (next result).run.run middle = some (answer, after) ↔ _
    constructor
    · intro hnext
      exact .inl ⟨result, middle, rfl, hnext⟩
    · intro hparts
      rcases hparts with ⟨_, _, ⟨⟩, hnext⟩ | ⟨_, ⟨⟩, _⟩
      exact hnext

/-- What follows a step that succeeds is run on the state that the step leaves. -/
theorem runs_bind_of_runs {routine : Routine β} {next : β → Routine α} {result : β}
    {middle : WorkState} (hroutine : routine.Runs state (.ok result) middle) :
    (routine >>= next).Runs state answer after ↔ (next result).Runs middle answer after := by
  rw [runs_bind]
  constructor
  · intro hparts
    rcases hparts with ⟨other, _, hother, hnext⟩ | ⟨error, hother, -⟩
    · obtain ⟨hresult, rfl⟩ := hroutine.unique hother
      obtain rfl := Except.ok.inj hresult
      exact hnext
    · cases (hroutine.unique hother).1
  · intro hnext
    exact .inl ⟨result, middle, hroutine, hnext⟩

theorem runs_attempt {routine : Routine β} {answer : Except Error (Except Error β)} :
    routine.attempt.Runs state answer after ↔
      ∃ outcome, answer = .ok outcome ∧ routine.Runs state outcome after := by
  unfold Runs
  show (routine.run.run state).bind (fun result => some (Except.ok result.1, result.2)) =
    some (answer, after) ↔ _
  rcases routine.run.run state with _ | ⟨outcome, middle⟩
  · simp
  · constructor
    · intro hparts
      cases hparts
      exact ⟨outcome, rfl, rfl⟩
    · intro hparts
      obtain ⟨_, rfl, ⟨⟩⟩ := hparts
      rfl

/-- What follows a computed outcome is run on its result. -/
theorem runs_lift_bind {outcome : Except Error β} {next : β → Routine α} :
    (liftM outcome >>= next : Routine α).Runs state answer after ↔
      (∃ result, outcome = .ok result ∧ (next result).Runs state answer after) ∨
      ∃ error, outcome = .error error ∧ answer = .error error ∧ after = state := by
  rw [runs_bind]
  simp only [runs_lift]
  constructor
  · intro hparts
    rcases hparts with ⟨result, _, ⟨rfl, rfl⟩, hnext⟩ | ⟨error, ⟨rfl, rfl⟩, rfl⟩
    · exact .inl ⟨result, rfl, hnext⟩
    · exact .inr ⟨error, rfl, rfl, rfl⟩
  · intro hparts
    rcases hparts with ⟨result, rfl, hnext⟩ | ⟨error, rfl, rfl, rfl⟩
    · exact .inl ⟨result, state, ⟨rfl, rfl⟩, hnext⟩
    · exact .inr ⟨error, ⟨rfl, rfl⟩, rfl⟩

/-- What follows an attempt is run after a success and after an error. -/
theorem runs_attempt_bind {routine : Routine β} {next : Except Error β → Routine α} :
    (routine.attempt >>= next).Runs state answer after ↔
      (∃ result middle, routine.Runs state (.ok result) middle ∧
        (next (.ok result)).Runs middle answer after) ∨
      ∃ error middle, routine.Runs state (.error error) middle ∧
        (next (.error error)).Runs middle answer after := by
  rw [runs_bind]
  constructor
  · intro hparts
    rcases hparts with ⟨outcome, middle, hattempt, hnext⟩ | ⟨_, hattempt, -⟩
    · obtain ⟨_, ⟨⟩, hruns⟩ := runs_attempt.mp hattempt
      cases outcome with
      | error error => exact .inr ⟨error, middle, hruns, hnext⟩
      | ok result => exact .inl ⟨result, middle, hruns, hnext⟩
    · obtain ⟨outcome, ⟨⟩, -⟩ := runs_attempt.mp hattempt
  · intro hparts
    rcases hparts with ⟨result, middle, hruns, hnext⟩ | ⟨error, middle, hruns, hnext⟩
    · exact .inl ⟨_, middle, runs_attempt.mpr ⟨_, rfl, hruns⟩, hnext⟩
    · exact .inl ⟨_, middle, runs_attempt.mpr ⟨_, rfl, hruns⟩, hnext⟩

/-! ## Steps that succeed -/

theorem runs_work : work.Runs state (.ok state.work) state := rfl

theorem runs_update (f : UnitOfWork → UnitOfWork) :
    (update f).Runs state (.ok ()) { state with work := f state.work } := rfl

theorem runs_write (line : JournalLine) :
    (write line).Runs state (.ok ()) { state with journal := state.journal ++ [line] } := rfl

/-- The state that an edit leaves. -/
def edited (state : WorkState) (change : Edit) : WorkState :=
  let after := (change.run { ids := state.ids, nodes := state.work.nodes }).2
  { state with ids := after.ids, work := { state.work with nodes := after.nodes } }

theorem runs_performEdit (change : Edit) :
    (performEdit change).Runs state
      (.ok (change.run { ids := state.ids, nodes := state.work.nodes }).1) (edited state change) :=
  rfl

theorem runs_enqueue (entry : PendingEntry) :
    (enqueue entry).Runs state (.ok (state.work.enqueue entry).1)
      { state with work := (state.work.enqueue entry).2 } := rfl

@[simp] theorem runs_work_bind {next : UnitOfWork → Routine α} :
    (work >>= next).Runs state answer after ↔ (next state.work).Runs state answer after :=
  runs_bind_of_runs runs_work

@[simp] theorem runs_update_bind {f : UnitOfWork → UnitOfWork} {next : Unit → Routine α} :
    (update f >>= next).Runs state answer after ↔
      (next ()).Runs { state with work := f state.work } answer after :=
  runs_bind_of_runs (runs_update f)

@[simp] theorem runs_write_bind {line : JournalLine} {next : Unit → Routine α} :
    (write line >>= next).Runs state answer after ↔
      (next ()).Runs { state with journal := state.journal ++ [line] } answer after :=
  runs_bind_of_runs (runs_write line)

end Routine

open Routine

/-- The state after a drain has noted the failure of an entry. -/
def WorkState.failEntry (state : WorkState) (failure : RuleFailure) : WorkState :=
  { state with
    work := { state.work with failedEntries := state.work.failedEntries + 1 }
    journal := state.journal ++ [.entryFailed failure] }

/-- The state after a drain has failed. -/
def WorkState.abort (state : WorkState) (error : Error) : WorkState :=
  { state with
    work := { state.work with aborted := true }
    journal := state.journal ++ [.drainFailed error] }

namespace RuleService

variable {α : Type} {service : RuleService} {rules : RuleStore} {engine : Engine}
  {entry : PendingEntry} {state after : WorkState}

/-! ## Events and the queue -/

/-- The state without recorded events. -/
def withoutEvents (state : WorkState) : WorkState :=
  { state with work := { state.work with nodes := { state.work.nodes with events := [] } } }

/-- The state with an empty queue. -/
def withoutPending (state : WorkState) : WorkState :=
  { state with work := { state.work with pending := .empty } }

theorem runs_takeEvents :
    takeEvents.Runs state (.ok state.work.nodes.events) (withoutEvents state) := rfl

theorem runs_takePending :
    takePending.Runs state (.ok state.work.pending.entries) (withoutPending state) := rfl

/-- Taking an empty queue changes nothing. -/
theorem withoutPending_eq (hempty : state.work.pending.entries = []) :
    withoutPending state = state := by
  have hpending : state.work.pending = .empty := OrderedSet.eq_of_entries_eq hempty
  unfold withoutPending
  rw [← hpending]

/-- Taking no events changes nothing. -/
theorem withoutEvents_eq (hquiet : state.work.nodes.events = []) : withoutEvents state = state := by
  unfold withoutEvents
  rw [← hquiet]

/-! ## Entries -/

/-- The mark is set for the run of the routine only, whatever the routine answers. -/
theorem runs_whileExecuting {rule : Rule} {routine : Routine α} {answer : Except Error α} :
    (whileExecuting rule routine).Runs state answer after ↔
      ∃ inner, routine.Runs { state with work := { state.work with executing := some rule } }
          answer inner ∧
        after = { inner with work := { inner.work with executing := state.work.executing } } := by
  unfold whileExecuting
  rw [runs_work_bind, runs_update_bind, runs_attempt_bind]
  simp only [runs_update_bind, runs_lift]
  constructor
  · intro hparts
    rcases hparts with ⟨_, inner, hruns, rfl, rfl⟩ | ⟨_, inner, hruns, rfl, rfl⟩
    · exact ⟨inner, hruns, rfl⟩
    · exact ⟨inner, hruns, rfl⟩
  · intro hparts
    obtain ⟨inner, hruns, rfl⟩ := hparts
    cases answer with
    | error error => exact .inr ⟨error, inner, hruns, rfl, rfl⟩
    | ok result => exact .inl ⟨result, inner, hruns, rfl, rfl⟩

/-- A rule that does not fail either did not match, or was executed and its events delivered. -/
theorem runs_runRule_ok {outcome : Outcome}
    (hruns : (service.runRule rules engine entry).Runs state (.ok outcome) after) :
    outcome = .notMatched ∧ after = state ∨
      outcome = .executed ∧ ∃ action executor middle,
        service.handlers.executor action = .ok executor ∧
        ((executor entry.actionable entry.actionedUpon).run rules engine).Runs state (.ok ())
          middle ∧
        engine.flush.Runs middle (.ok ()) after := by
  unfold runRule at hruns
  -- The rule, its evaluator, its executor and the condition may each be an error.
  rcases runs_lift_bind.mp hruns with ⟨⟨condition, action⟩, -, hruns⟩ | ⟨_, -, ⟨⟩, -⟩
  rcases runs_lift_bind.mp hruns with ⟨evaluator, -, hruns⟩ | ⟨_, -, ⟨⟩, -⟩
  rcases runs_lift_bind.mp hruns with ⟨executor, hexecutor, hruns⟩ | ⟨_, -, ⟨⟩, -⟩
  rw [runs_work_bind] at hruns
  rcases runs_lift_bind.mp hruns with ⟨holds, -, hruns⟩ | ⟨_, -, ⟨⟩, -⟩
  split at hruns
  · rcases runs_bind.mp hruns with ⟨_, executed, hexecuted, hruns⟩ | ⟨_, -, ⟨⟩⟩
    rcases runs_bind.mp hruns with ⟨_, flushed, hflush, hruns⟩ | ⟨_, -, ⟨⟩⟩
    obtain ⟨houtcome, rfl⟩ := runs_pure.mp hruns
    exact .inr ⟨Except.ok.inj houtcome, action, executor, executed, hexecutor, hexecuted, hflush⟩
  · obtain ⟨houtcome, rfl⟩ := runs_pure.mp hruns
    exact .inl ⟨Except.ok.inj houtcome, rfl⟩

theorem runs_runEntry_of_skipped {answer : Except Error Outcome}
    (hskipped : isSkipped state.work entry) :
    (service.runEntry rules engine entry).Runs state answer after ↔
      answer = .ok .skipped ∧ after = state := by
  unfold runEntry
  rw [runs_work_bind, if_pos hskipped, runs_pure]

/-- The rule of an entry is run; if that fails, what was done is undone. -/
theorem runs_runEntry {answer : Except Error Outcome} (hrun : ¬ isSkipped state.work entry) :
    (service.runEntry rules engine entry).Runs state answer after ↔
      (∃ outcome, (whileExecuting entry.rule (service.runRule rules engine entry)).Runs state
          (.ok outcome) after ∧ answer = .ok outcome) ∨
      ∃ error failed, (whileExecuting entry.rule (service.runRule rules engine entry)).Runs state
          (.error error) failed ∧
        answer = .error (error.withContext (contextOf entry)) ∧
        after = { failed with work := failed.work.restore state.work.checkpoint } := by
  unfold runEntry
  rw [runs_work_bind, if_neg hrun, runs_attempt_bind]
  simp only [runs_pure, runs_update_bind, runs_throw]
  constructor
  · intro hparts
    rcases hparts with ⟨outcome, _, hruns, hanswer, rfl⟩ | hfailed
    · exact .inl ⟨outcome, hruns, hanswer⟩
    · exact .inr hfailed
  · intro hparts
    rcases hparts with ⟨outcome, hruns, hanswer⟩ | hfailed
    · exact .inl ⟨outcome, after, hruns, hanswer, rfl⟩
    · exact .inr hfailed

/-- What an entry that fails has left was put back from what its rule left. -/
theorem exists_failed_of_runs {error : Error}
    (hruns : (service.runEntry rules engine entry).Runs state (.error error) after) :
    ∃ cause failed, (whileExecuting entry.rule (service.runRule rules engine entry)).Runs state
        (.error cause) failed ∧
      after = { failed with work := failed.work.restore state.work.checkpoint } := by
  by_cases hskipped : isSkipped state.work entry
  · cases ((runs_runEntry_of_skipped hskipped).mp hruns).1
  · rcases (runs_runEntry hskipped).mp hruns with ⟨_, -, ⟨⟩⟩ | ⟨cause, failed, hrule, -, hafter⟩
    exact ⟨cause, failed, hrule, hafter⟩

/-! ## Drains -/

variable {report : DrainReport}

theorem runs_processEntry_of_ceiling {answer : Except Error DrainReport}
    (hceiling : service.config.maxExecutions ≤ report.processed) :
    (service.processEntry rules engine report entry).Runs state answer after ↔
      answer = .error { cause := .limitExceeded (.executions service.config.maxExecutions) } ∧
        after = state := by
  unfold processEntry
  rw [if_pos hceiling]
  exact runs_throw

/-- A drain counts what became of an entry, or notes that it failed. -/
theorem runs_processEntry {answer : Except Error DrainReport}
    (hceiling : report.processed < service.config.maxExecutions) :
    (service.processEntry rules engine report entry).Runs state answer after ↔
      (∃ outcome, (service.runEntry rules engine entry).Runs state (.ok outcome) after ∧
        answer = .ok (count report outcome)) ∨
      ∃ error failed, (service.runEntry rules engine entry).Runs state (.error error) failed ∧
        after = failed.failEntry { entry, error } ∧
        answer =
          if service.config.failFast then .error error
          else .ok { report with failures := report.failures ++ [{ entry, error }] } := by
  unfold processEntry
  rw [if_neg (Nat.not_le.mpr hceiling), runs_attempt_bind]
  simp only [runs_pure, runs_update_bind, runs_write_bind]
  constructor
  · intro hparts
    rcases hparts with ⟨outcome, _, hruns, hanswer, rfl⟩ | ⟨error, failed, hruns, hrest⟩
    · exact .inl ⟨outcome, hruns, hanswer⟩
    · refine .inr ⟨error, failed, hruns, ?_⟩
      split at hrest
      · rw [if_pos ‹_›]
        exact (runs_throw.mp hrest).symm
      · rw [if_neg ‹_›]
        exact (runs_pure.mp hrest).symm
  · intro hparts
    rcases hparts with ⟨outcome, hruns, hanswer⟩ | ⟨error, failed, hruns, rfl, rfl⟩
    · exact .inl ⟨outcome, after, hruns, hanswer, rfl⟩
    · refine .inr ⟨error, failed, hruns, ?_⟩
      split
      · exact runs_throw.mpr ⟨rfl, rfl⟩
      · exact runs_pure.mpr ⟨rfl, rfl⟩

theorem runs_abortingOnError {routine : Routine DrainReport} {answer : Except Error DrainReport} :
    (abortingOnError routine).Runs state answer after ↔
      (∃ report, routine.Runs state (.ok report) after ∧ answer = .ok report) ∨
      ∃ error failed, routine.Runs state (.error error) failed ∧ answer = .error error ∧
        after = failed.abort error := by
  unfold abortingOnError
  rw [runs_attempt_bind]
  simp only [runs_pure, runs_update_bind, runs_write_bind, runs_throw]
  constructor
  · intro hparts
    rcases hparts with ⟨report, _, hruns, hanswer, rfl⟩ | hfailed
    · exact .inl ⟨report, hruns, hanswer⟩
    · exact .inr hfailed
  · intro hparts
    rcases hparts with ⟨report, hruns, hanswer⟩ | hfailed
    · exact .inl ⟨report, after, hruns, hanswer, rfl⟩
    · exact .inr hfailed

theorem runs_drainRounds_of_empty {answer : Except Error DrainReport} {remaining : Nat}
    (hempty : state.work.pending.entries = []) :
    (service.drainRounds rules engine remaining report).Runs state answer after ↔
      answer = .ok report ∧ after = withoutPending state := by
  unfold drainRounds
  rw [runs_bind_of_runs runs_takePending, hempty]
  exact runs_pure

theorem runs_drainRounds_zero {answer : Except Error DrainReport} {rest : List PendingEntry}
    (hbatch : state.work.pending.entries = entry :: rest) :
    (service.drainRounds rules engine 0 report).Runs state answer after ↔
      answer = .error
          { cause := .limitExceeded (.rounds service.config.maxDrainRounds (some entry.rule.id)) } ∧
        after = withoutPending state := by
  unfold drainRounds
  rw [runs_bind_of_runs runs_takePending, hbatch]
  exact runs_throw

theorem runs_drainRounds_succ {answer : Except Error DrainReport} {remaining : Nat}
    {rest : List PendingEntry} (hbatch : state.work.pending.entries = entry :: rest) :
    (service.drainRounds rules engine (remaining + 1) report).Runs state answer after ↔
      ((entry :: rest).foldlM (service.processEntry rules engine)
          { report with rounds := report.rounds + 1 } >>=
        service.drainRounds rules engine remaining).Runs (withoutPending state) answer after := by
  rw [drainRounds, runs_bind_of_runs runs_takePending, hbatch]

/-! ## The engine -/

theorem flush_succ (service : RuleService) (rules : RuleStore) (budget : Nat) :
    flush service rules (budget + 1) = (do
      match ← takeEvents with
      | [] => return ()
      | events =>
        service.deliverAll rules (service.engine rules budget) events
        flush service rules budget) := rfl

theorem drain_succ (service : RuleService) (rules : RuleStore) (budget : Nat) :
    drain service rules (budget + 1) = abortingOnError (do
      flush service rules budget
      service.drainRounds rules (service.engine rules budget) service.config.maxDrainRounds {}) :=
  rfl

/-- Without events, a flush finds nothing to do. -/
theorem runs_flush_of_quiet (hquiet : state.work.nodes.events = []) (budget : Nat) :
    (flush service rules (budget + 1)).Runs state (.ok ()) state := by
  rw [flush_succ, runs_bind_of_runs runs_takeEvents, hquiet, withoutEvents_eq hquiet]
  exact runs_pure.mpr ⟨rfl, rfl⟩

end RuleService

end ContentRules
