import ContentRules.Proofs.Engine.Observed

/-!
# The engine, observed

The engine written once more with the marks that its runs make.  It is the same engine: the routine
of each observed function is the function itself, up to `RuleService.routine_observe`, and the marks
of a whole run are put together from those of its parts.
-/

namespace ContentRules

variable {α : Type}

namespace RuleService

variable (service : RuleService) (rules : RuleStore) (engine : ObservedEngine)

/-- Tells a behaviour of an event. -/
def observeTelling (event : NodeEvent) (behaviour : Behaviour) : Observed Unit := do
  Observed.mark fun state => .told rules state event behaviour
  (behaviour.react event).observe rules engine

/-- Tells the behaviours bound to the event's kind of it, until one fails. -/
def observeDispatch (event : NodeEvent) : Observed Unit :=
  (service.boundTo event.kind).forM (observeTelling rules engine event)

/-- Delivers events in their order. -/
def observeDeliveries : List NodeEvent → Observed Unit
  | [] => pure ()
  | event :: events => do
    Observed.of (Routine.update fun work => work.noteNew event)
    (service.observeDispatch rules engine event).markError (.lost (event :: events))
    observeDeliveries events

/-- Runs the rule of an entry. -/
def observeRule (entry : PendingEntry) : Observed Outcome := do
  let (condition, action) ← soleConditionAndAction entry
  let evaluator ← service.handlers.evaluator condition
  let executor ← service.handlers.executor action
  let work ← Observed.of Routine.work
  if ← evaluator { rules, work } entry.actionable entry.actionedUpon then
    (executor entry.actionable entry.actionedUpon).observe rules engine
    engine.flush
    return .executed
  else
    return .notMatched

/-- Runs a routine with a rule marked as being run. -/
def observeExecuting {α : Type} (rule : Rule) (observed : Observed α) : Observed α := do
  let work ← Observed.of Routine.work
  Observed.of (Routine.update fun work => { work with executing := some rule })
  let outcome ← observed.attempt
  Observed.of (Routine.update fun later => { later with executing := work.executing })
  liftM outcome

/-- Runs an entry. -/
def observeEntry (entry : PendingEntry) : Observed Outcome := do
  let work ← Observed.of Routine.work
  if isSkipped work entry then
    return .skipped
  else
    let outcome ←
      (observeExecuting entry.rule (service.observeRule rules engine entry)).undoError.attempt
    match outcome with
    | .ok outcome => return outcome
    | .error error =>
      Observed.of (Routine.update fun failed => failed.restore work.checkpoint)
      Observed.of (throw (error.withContext (contextOf entry)))

/-- Runs one entry of a drain and adds it to the report. -/
def observeProcess (report : DrainReport) (entry : PendingEntry) : Observed DrainReport :=
  if service.config.maxExecutions ≤ report.processed then
    Observed.of (Cause.limitExceeded (.executions service.config.maxExecutions)).raise
  else do
    match ← (service.observeEntry rules engine entry).attempt with
    | .ok outcome => return count report outcome
    | .error error =>
      Observed.of (Routine.update fun work =>
        { work with failedEntries := work.failedEntries + 1 })
      Observed.of (Routine.write (.entryFailed { entry, error }))
      if service.config.failFast then
        Observed.of (throw error)
      else
        return { report with failures := report.failures ++ [{ entry, error }] }

/-- Takes rounds until the queue is empty, at most `remaining` of them. -/
def observeRounds : Nat → DrainReport → Observed DrainReport
  | remaining, report => do
    match ← Observed.of takePending with
    | [] => return report
    | entry :: batch =>
      match remaining with
      | 0 =>
        Observed.of (Cause.limitExceeded
          (.rounds service.config.maxDrainRounds (some entry.rule.id))).raise
      | remaining + 1 => do
        let report ← (entry :: batch).foldlM (service.observeProcess rules engine)
          { report with rounds := report.rounds + 1 }
        observeRounds remaining report

/-- Delivers the events recorded, and then takes rounds. -/
def observeSettling : Observed DrainReport := do
  engine.flush
  service.observeRounds rules engine service.config.maxDrainRounds {}

/-- Marks the unit of work as aborted if the drain fails. -/
def observeAborting (drain : Observed DrainReport) : Observed DrainReport := do
  match ← drain.attempt with
  | .ok report => return report
  | .error error =>
    Observed.of (Routine.update fun work => { work with aborted := true })
    Observed.of (Routine.write (.drainFailed error))
    Observed.of (throw error)

/-- The engine with a budget. -/
def observed : Nat → ObservedEngine
  | 0 => { flush := .of Routine.exhausted, drain := .of Routine.exhausted }
  | budget + 1 =>
    { flush := do
        match ← Observed.of takeEvents with
        | [] => return ()
        | events =>
          service.observeDeliveries rules (observed budget) events
          (observed budget).flush
      drain := observeAborting (service.observeSettling rules (observed budget)) }

/-- A script, as a service runs it. -/
def observe (budget : Nat) (script : Script α) : Observed α :=
  script.observe rules (service.observed rules budget)

/-! ## The engine is the same -/

section Routines

variable {service rules engine}

open Observed

theorem routine_observeTelling (event : NodeEvent) (behaviour : Behaviour) :
    (observeTelling rules engine event behaviour).routine =
      (behaviour.react event).run rules engine.engine :=
  Script.routine_observe rules engine _

theorem routine_observeDispatch (event : NodeEvent) :
    (service.observeDispatch rules engine event).routine =
      service.dispatch rules engine.engine event := by
  simp only [observeDispatch, dispatch, routine_forM, routine_observeTelling]

theorem routine_observeDeliveries (events : List NodeEvent) :
    (service.observeDeliveries rules engine events).routine =
      service.deliverAll rules engine.engine events := by
  induction events with
  | nil => rfl
  | cons event events ih =>
      simp only [observeDeliveries, routine_bind, routine_of, routine_markError,
        routine_observeDispatch, ih, deliverAll, List.forM, bind_assoc]

theorem routine_observeRule (entry : PendingEntry) :
    (service.observeRule rules engine entry).routine =
      service.runRule rules engine.engine entry := by
  unfold observeRule runRule
  simp only [routine_bind, routine_lift, routine_of, routine_ite, Script.routine_observe,
    routine_pure]
  rfl

theorem routine_observeExecuting (rule : Rule) (observed : Observed α) :
    (observeExecuting rule observed).routine = whileExecuting rule observed.routine := rfl

theorem routine_observeEntry (entry : PendingEntry) :
    (service.observeEntry rules engine entry).routine =
      service.runEntry rules engine.engine entry := by
  unfold observeEntry runEntry
  simp only [routine_bind, routine_of, routine_ite, routine_attempt, routine_undoError,
    routine_observeExecuting, routine_observeRule, routine_pure]
  refine bind_congr fun work => ?_
  split
  · rfl
  · refine bind_congr fun outcome => ?_
    cases outcome <;> rfl

theorem routine_observeProcess (report : DrainReport) (entry : PendingEntry) :
    (service.observeProcess rules engine report entry).routine =
      service.processEntry rules engine.engine report entry := by
  unfold observeProcess processEntry
  split
  · rfl
  · rw [routine_bind, routine_attempt, routine_observeEntry]
    refine bind_congr fun outcome => ?_
    cases outcome with
    | ok => rfl
    | error error =>
        simp only [routine_bind, routine_of, routine_ite, routine_pure]
        refine bind_congr fun _ => bind_congr fun _ => ?_
        split <;> rfl

theorem routine_observeRounds (remaining : Nat) (report : DrainReport) :
    (service.observeRounds rules engine remaining report).routine =
      service.drainRounds rules engine.engine remaining report := by
  induction remaining generalizing report with
  | zero =>
      unfold observeRounds drainRounds
      refine bind_congr fun batch => ?_
      cases batch <;> rfl
  | succ remaining ih =>
      unfold observeRounds drainRounds
      refine bind_congr fun batch => ?_
      cases batch with
      | nil => rfl
      | cons entry batch =>
          simp only [routine_bind, routine_foldlM, routine_observeProcess, ih]

theorem routine_observeAborting (drain : Observed DrainReport) :
    (observeAborting drain).routine = abortingOnError drain.routine := by
  unfold observeAborting abortingOnError
  refine bind_congr fun outcome => ?_
  cases outcome <;> rfl

theorem engine_observed (budget : Nat) :
    (service.observed rules budget).engine = service.engine rules budget := by
  induction budget with
  | zero => rfl
  | succ budget ih =>
      have hflush : (service.observed rules budget).flush.routine = flush service rules budget :=
        congrArg Engine.flush ih
      have hflushSucc : (service.observed rules (budget + 1)).flush.routine =
          flush service rules (budget + 1) := by
        rw [flush_succ]
        refine bind_congr fun events => ?_
        cases events with
        | nil => rfl
        | cons event events => rw [routine_bind, routine_observeDeliveries, ih, hflush]
      have hdrainSucc : (service.observed rules (budget + 1)).drain.routine =
          drain service rules (budget + 1) := by
        rw [drain_succ]
        refine (routine_observeAborting _).trans (congrArg abortingOnError ?_)
        simp only [observeSettling, routine_bind, hflush, routine_observeRounds, ih]
      unfold ObservedEngine.engine engine
      rw [hflushSucc, hdrainSucc]

theorem flush_observed (budget : Nat) :
    (service.observed rules budget).flush.routine = (service.engine rules budget).flush :=
  congrArg Engine.flush (engine_observed budget)

theorem drain_observed (budget : Nat) :
    (service.observed rules budget).drain.routine = (service.engine rules budget).drain :=
  congrArg Engine.drain (engine_observed budget)

theorem routine_observe (budget : Nat) (script : Script α) :
    (service.observe rules budget script).routine =
      script.run rules (service.engine rules budget) := by
  unfold observe
  rw [Script.routine_observe, engine_observed]

end Routines

/-! ### Marks of what is composed -/

section Marks

variable {service rules engine} {state left : WorkState}

open Observed

/-- The mark of the rule is set for the run of the routine only. -/
theorem runs_observeExecuting {rule : Rule} {observed : Observed α} {answer : Except Error α}
    (hruns : (observeExecuting rule observed).routine.Runs state answer left) :
    ∃ inner, observed.routine.Runs
        { state with work := { state.work with executing := some rule } } answer inner ∧
      left = { inner with work := { inner.work with executing := state.work.executing } } ∧
      (observeExecuting rule observed).marks state =
        observed.marks { state with work := { state.work with executing := some rule } } := by
  obtain ⟨hruns, hwork⟩ := runs_of_bind Routine.runs_work hruns
  obtain ⟨hruns, hupdate⟩ := runs_of_bind (Routine.runs_update _) hruns
  obtain ⟨outcome, inner, hobserved, hruns, hmarks⟩ := runs_attempt_bind hruns
  obtain ⟨hruns, hrest⟩ := runs_of_bind (Routine.runs_update _) hruns
  obtain ⟨rfl, rfl⟩ := Routine.runs_lift.mp hruns
  refine ⟨inner, hobserved, rfl, hwork.trans (hupdate.trans (hmarks.trans ?_))⟩
  rw [hrest]
  exact List.append_nil _

/-- A rule does nothing, or it performs its action and flushes if that has not failed. -/
theorem runs_observeRule {entry : PendingEntry} {answer : Except Error Outcome}
    (hruns : (service.observeRule rules engine entry).routine.Runs state answer left) :
    (left = state ∧ (service.observeRule rules engine entry).marks state = []) ∨
    ∃ script : Script Unit,
      (∃ error, (script.observe rules engine).routine.Runs state (.error error) left ∧
        answer = .error error ∧
        (service.observeRule rules engine entry).marks state =
          (script.observe rules engine).marks state) ∨
      ∃ middle flushed, (script.observe rules engine).routine.Runs state (.ok ()) middle ∧
        engine.flush.routine.Runs middle flushed left ∧ answer = flushed.map (fun _ => .executed) ∧
        (service.observeRule rules engine entry).marks state =
          (script.observe rules engine).marks state ++ engine.flush.marks middle := by
  unfold observeRule at hruns ⊢
  -- The rule, its evaluator, its executor and the condition may each be an error.
  rcases runs_lift_bind hruns with ⟨⟨condition, action⟩, -, hruns, hmarks⟩ | ⟨_, -, hleft, hmarks⟩
  case inr => exact .inl ⟨hleft, hmarks⟩
  rw [hmarks]
  rcases runs_lift_bind hruns with ⟨evaluator, -, hruns, hmarks⟩ | ⟨_, -, hleft, hmarks⟩
  case inr => exact .inl ⟨hleft, hmarks⟩
  rw [hmarks]
  rcases runs_lift_bind hruns with ⟨executor, -, hruns, hmarks⟩ | ⟨_, -, hleft, hmarks⟩
  case inr => exact .inl ⟨hleft, hmarks⟩
  rw [hmarks]
  obtain ⟨hruns, hmarks⟩ := runs_of_bind Routine.runs_work hruns
  rw [hmarks]
  rcases runs_lift_bind hruns with ⟨holds, -, hruns, hmarks⟩ | ⟨_, -, hleft, hmarks⟩
  case inr => exact .inl ⟨hleft, hmarks⟩
  rw [hmarks]
  cases holds with
  | false => exact .inl ⟨(Routine.runs_pure.mp hruns).2, rfl⟩
  | true =>
      rw [if_pos rfl] at hruns ⊢
      refine .inr ⟨executor entry.actionable entry.actionedUpon, ?_⟩
      rcases runs_bind hruns with
        ⟨_, executed, hexecute, hruns, hmarks⟩ | ⟨error, hexecute, rfl, hmarks⟩
      · rw [hmarks]
        rcases runs_bind hruns with
          ⟨_, flushed, hflush, hruns, hmarks⟩ | ⟨error, hflush, rfl, hmarks⟩
        · obtain ⟨rfl, rfl⟩ := Routine.runs_pure.mp hruns
          refine .inr ⟨executed, _, hexecute, hflush, rfl, ?_⟩
          rw [hmarks]
          exact congrArg (_ ++ ·) (List.append_nil _)
        · exact .inr ⟨executed, _, hexecute, hflush, rfl, by rw [hmarks]⟩
      · exact .inl ⟨error, hexecute, rfl, hmarks⟩

/-- The rule of an entry is run; if that fails, what was done is undone. -/
theorem runs_observeEntry {entry : PendingEntry} {answer : Except Error Outcome}
    (hruns : (service.observeEntry rules engine entry).routine.Runs state answer left) :
    (left = state ∧ (service.observeEntry rules engine entry).marks state = []) ∨
    (∃ outcome,
      (observeExecuting entry.rule (service.observeRule rules engine entry)).routine.Runs state
        (.ok outcome) left ∧
      (service.observeEntry rules engine entry).marks state =
        (observeExecuting entry.rule (service.observeRule rules engine entry)).marks state) ∨
    ∃ error failed,
      (observeExecuting entry.rule (service.observeRule rules engine entry)).routine.Runs state
        (.error error) failed ∧
      left = { failed with work := failed.work.restore state.work.checkpoint } ∧
      (service.observeEntry rules engine entry).marks state =
        [.undone ((observeExecuting entry.rule
          (service.observeRule rules engine entry)).marks state)] := by
  unfold observeEntry at hruns ⊢
  obtain ⟨hruns, hwork⟩ := runs_of_bind Routine.runs_work hruns
  rw [hwork]
  by_cases hskipped : isSkipped state.work entry
  · rw [if_pos hskipped] at hruns ⊢
    exact .inl ⟨(Routine.runs_pure.mp hruns).2, rfl⟩
  · rw [if_neg hskipped] at hruns ⊢
    obtain ⟨outcome, middle, hentry, hruns, hmarks⟩ := runs_attempt_bind hruns
    rw [routine_undoError] at hentry
    cases outcome with
    | ok outcome =>
        obtain ⟨-, rfl⟩ := Routine.runs_pure.mp hruns
        refine .inr (.inl ⟨outcome, hentry, ?_⟩)
        rw [hmarks, marks_undoError_ok hentry]
        exact List.append_nil _
    | error error =>
        obtain ⟨hruns, hrest⟩ := runs_of_bind (Routine.runs_update _) hruns
        obtain ⟨-, rfl⟩ := Routine.runs_throw.mp hruns
        refine .inr (.inr ⟨error, middle, hentry, rfl, ?_⟩)
        rw [hmarks, marks_undoError_error hentry, hrest]
        rfl

/-- A drain counts what became of an entry, or notes that it failed. -/
theorem runs_observeProcess {entry : PendingEntry} {report : DrainReport}
    {answer : Except Error DrainReport}
    (hruns : (service.observeProcess rules engine report entry).routine.Runs state answer left) :
    (left = state ∧ (service.observeProcess rules engine report entry).marks state = []) ∨
    ∃ outcome middle, (service.observeEntry rules engine entry).routine.Runs state outcome middle ∧
      (left = middle ∨ ∃ failure, left = middle.failEntry failure) ∧
      (service.observeProcess rules engine report entry).marks state =
        (service.observeEntry rules engine entry).marks state := by
  unfold observeProcess at hruns ⊢
  split at hruns
  · rename_i hceiling
    rw [if_pos hceiling]
    exact .inl ⟨(Routine.runs_throw.mp hruns).2, rfl⟩
  · rename_i hceiling
    rw [if_neg hceiling]
    obtain ⟨outcome, middle, hentry, hruns, hmarks⟩ := runs_attempt_bind hruns
    refine .inr ⟨outcome, middle, hentry, ?_⟩
    rw [hmarks]
    cases outcome with
    | ok outcome =>
        obtain ⟨-, rfl⟩ := Routine.runs_pure.mp hruns
        exact ⟨.inl rfl, List.append_nil _⟩
    | error error =>
        obtain ⟨hruns, hupdate⟩ := runs_of_bind (Routine.runs_update _) hruns
        obtain ⟨hruns, hwrite⟩ := runs_of_bind (Routine.runs_write _) hruns
        rw [hupdate, hwrite]
        split at hruns
        · rename_i hfast
          rw [if_pos hfast]
          obtain ⟨-, rfl⟩ := Routine.runs_throw.mp hruns
          exact ⟨.inr ⟨{ entry, error }, rfl⟩, List.append_nil _⟩
        · rename_i hfast
          rw [if_neg hfast]
          obtain ⟨-, rfl⟩ := Routine.runs_pure.mp hruns
          exact ⟨.inr ⟨{ entry, error }, rfl⟩, List.append_nil _⟩

/-- A drain that fails marks the unit of work. -/
theorem runs_observeAborting {drain : Observed DrainReport} {answer : Except Error DrainReport}
    (hruns : (observeAborting drain).routine.Runs state answer left) :
    (∃ report, drain.routine.Runs state (.ok report) left ∧ answer = .ok report ∧
      (observeAborting drain).marks state = drain.marks state) ∨
    ∃ error failed, drain.routine.Runs state (.error error) failed ∧ answer = .error error ∧
      left = failed.abort error ∧ (observeAborting drain).marks state = drain.marks state := by
  obtain ⟨outcome, middle, hdrain, hruns, hmarks⟩ := runs_attempt_bind hruns
  cases outcome with
  | ok report =>
      obtain ⟨rfl, rfl⟩ := Routine.runs_pure.mp hruns
      exact .inl ⟨report, hdrain, rfl, hmarks.trans (List.append_nil _)⟩
  | error error =>
      obtain ⟨hruns, hupdate⟩ := runs_of_bind (Routine.runs_update _) hruns
      obtain ⟨hruns, hwrite⟩ := runs_of_bind (Routine.runs_write _) hruns
      obtain ⟨rfl, rfl⟩ := Routine.runs_throw.mp hruns
      refine .inr ⟨error, middle, hdrain, rfl, rfl, hmarks.trans ?_⟩
      rw [hupdate, hwrite]
      exact List.append_nil _

end Marks

end RuleService

end ContentRules
