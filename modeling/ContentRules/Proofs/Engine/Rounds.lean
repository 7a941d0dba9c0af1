import ContentRules.Proofs.Engine.Budget
import ContentRules.Proofs.Engine.Failures
import ContentRules.Proofs.Engine.Undo

/-!
# Rounds of a drain

A drain feeds itself: the entries that it runs may trigger others, directly or by the events of what
they do.  Two ceilings keep it from going on for ever, one on rounds and one on entries.

## Strategy

`Progress` is how far a drain has come: which batches it took, which entries it ran, which are still
to be run, and its report.  `Reaches` has one constructor for each thing that brings a drain
further, with the check of the ceiling that the drain makes there, and `Ended` one for each way in
which it stops.  A drain that ends has stopped in one of these ways (`ended_of_runs`).

A drain that fails passes on the error of a handler or has come to a ceiling (`Failed`, `AtCeiling`).
If no handler has errors about ceilings, then such an error tells the two apart (`Failed.atCeiling`).

What is to be said of a drain is an invariant of its progress (`Progress.Sound`).  The delicate part
of it is that no event is pending between two entries: an entry that succeeds ends with a flush, and
one that is skipped, does not match or fails leaves the events as they were.
-/

namespace ContentRules

open Routine

/-- How far a drain has come. -/
structure Progress where
  /-- The batches that were taken from the queue. -/
  batches : List (List PendingEntry) := []
  /-- The entries that were run, with or without success. -/
  ran : List PendingEntry := []
  /-- The entries of the last batch that are still to be run. -/
  waiting : List PendingEntry := []
  report : DrainReport := {}

/-- What holds of the progress of a drain, and of the state between two entries of it. -/
structure Progress.Sound (config : EngineConfig) (start : WorkState) (progress : Progress)
    (state : WorkState) : Prop where
  batches_ne : ∀ batch ∈ progress.batches, batch ≠ []
  taken : progress.batches.flatten = progress.ran ++ progress.waiting
  rounds : progress.report.rounds = progress.batches.length
  processed : progress.report.processed = progress.ran.length
  rounds_le : progress.batches.length ≤ config.maxDrainRounds
  ran_le : progress.ran.length ≤ config.maxExecutions
  events : state.work.nodes.events = []
  failedEntries :
    state.work.failedEntries = start.work.failedEntries + progress.report.failures.length

namespace RuleService

/-! ## How a drain goes on and stops -/

section Progress

variable (service : RuleService) (rules : RuleStore) (engine : Engine) (start : WorkState)

/-- A drain that began on `start` has come this far, and left this state. -/
inductive Reaches : Progress → WorkState → Prop
  /-- The recorded events have been delivered. -/
  | flushed {state : WorkState} (hflush : engine.flush.Runs start (.ok ()) state) :
      Reaches {} state
  /-- The next round begins. -/
  | round {batches : List (List PendingEntry)} {ran rest : List PendingEntry} {entry : PendingEntry}
      {report : DrainReport} {state : WorkState}
      (hreaches : Reaches { batches, ran, report } state)
      (hbatch : state.work.pending.entries = entry :: rest)
      (hceiling : report.rounds < service.config.maxDrainRounds) :
      Reaches
        { batches := batches ++ [entry :: rest], ran, waiting := entry :: rest
          report := { report with rounds := report.rounds + 1 } }
        (withoutPending state)
  /-- The next entry of the round has been run, and did not stop the drain. -/
  | entry {batches : List (List PendingEntry)} {ran waiting : List PendingEntry}
      {entry : PendingEntry} {report next : DrainReport} {state after : WorkState}
      (hreaches : Reaches { batches, ran, waiting := entry :: waiting, report } state)
      (hceiling : report.processed < service.config.maxExecutions)
      (hruns : (service.processEntry rules engine report entry).Runs state (.ok next) after) :
      Reaches { batches, ran := ran ++ [entry], waiting, report := next } after

/-- A drain that began on `start` has stopped after this progress, with this answer, on this
state. -/
inductive Ended : Progress → Except Error DrainReport → WorkState → Prop
  /-- A behaviour failed when the events recorded before were delivered. -/
  | flushFailed {error : Error} {state : WorkState}
      (hflush : engine.flush.Runs start (.error error) state) : Ended {} (.error error) state
  /-- The queue was empty. -/
  | settled {batches : List (List PendingEntry)} {ran : List PendingEntry} {report : DrainReport}
      {state : WorkState} (hreaches : Reaches service rules engine start
        { batches, ran, report } state)
      (hempty : state.work.pending.entries = []) :
      Ended { batches, ran, report } (.ok report) state
  /-- A batch was there, but the last round had been taken. -/
  | tooManyRounds {batches : List (List PendingEntry)} {ran rest : List PendingEntry}
      {entry : PendingEntry} {report : DrainReport} {state : WorkState}
      (hreaches : Reaches service rules engine start { batches, ran, report } state)
      (hbatch : state.work.pending.entries = entry :: rest)
      (hceiling : report.rounds = service.config.maxDrainRounds) :
      Ended { batches, ran, report }
        (.error
          { cause := .limitExceeded (.rounds service.config.maxDrainRounds (some entry.rule.id)) })
        (withoutPending state)
  /-- An entry came up, but the last one had been processed. -/
  | tooManyExecutions {batches : List (List PendingEntry)} {ran waiting : List PendingEntry}
      {entry : PendingEntry} {report : DrainReport} {state : WorkState}
      (hreaches : Reaches service rules engine start
        { batches, ran, waiting := entry :: waiting, report } state)
      (hceiling : report.processed = service.config.maxExecutions) :
      Ended { batches, ran, waiting := entry :: waiting, report }
        (.error { cause := .limitExceeded (.executions service.config.maxExecutions) }) state
  /-- An entry failed, and the first failure ends a drain. -/
  | entryFailed {batches : List (List PendingEntry)} {ran waiting : List PendingEntry}
      {entry : PendingEntry} {report : DrainReport} {error : Error} {state failed : WorkState}
      (hreaches : Reaches service rules engine start
        { batches, ran, waiting := entry :: waiting, report } state)
      (hceiling : report.processed < service.config.maxExecutions)
      (hfast : service.config.failFast)
      (hruns : (service.runEntry rules engine entry).Runs state (.error error) failed) :
      Ended { batches, ran := ran ++ [entry], waiting, report } (.error error)
        (failed.failEntry { entry, error })

end Progress

/-! ## What an entry leaves -/

section Entries

variable {service : RuleService} {rules : RuleStore} {budget : Nat} {entry : PendingEntry}
  {state after : WorkState}

/-- A flush that succeeds leaves no event. -/
theorem events_eq_nil_of_flush
    (hruns : (service.engine rules budget).flush.Runs state (.ok ()) after) :
    after.work.nodes.events = [] := by
  induction budget generalizing state with
  | zero => exact absurd hruns runs_exhausted
  | succ budget ih =>
      have hflush : (flush service rules (budget + 1)).Runs state (.ok ()) after := hruns
      rw [flush_succ, runs_bind_of_runs runs_takeEvents] at hflush
      cases hevents : state.work.nodes.events with
      | nil =>
          rw [hevents] at hflush
          obtain ⟨-, rfl⟩ := runs_pure.mp hflush
          rfl
      | cons event events =>
          rw [hevents] at hflush
          rcases runs_bind.mp hflush with ⟨_, delivered, -, hrest⟩ | ⟨_, -, ⟨⟩⟩
          exact ih hrest

/-- If no event was pending before an entry, none is pending after it, and the failures of entries
are not counted yet. -/
theorem NeverDrains.quiet_runEntry (hservice : service.NeverDrains)
    (hquiet : state.work.nodes.events = []) {answer : Except Error Outcome}
    (hruns : (service.runEntry rules (service.engine rules budget) entry).Runs state answer after) :
    after.work.nodes.events = [] ∧ after.work.failedEntries = state.work.failedEntries := by
  by_cases hskipped : isSkipped state.work entry
  · obtain ⟨-, rfl⟩ := (runs_runEntry_of_skipped hskipped).mp hruns
    exact ⟨hquiet, rfl⟩
  · rcases (runs_runEntry hskipped).mp hruns with
      ⟨outcome, hrule, -⟩ | ⟨error, failed, hrule, -, rfl⟩
    -- A rule that was executed ends with a flush; one that did not match has done nothing.
    · have hextends := hservice.extends_whileExecuting hrule
      refine ⟨?_, hextends.failedEntries⟩
      obtain ⟨inner, hinner, rfl⟩ := runs_whileExecuting.mp hrule
      rcases runs_runRule_ok hinner with ⟨-, rfl⟩ | ⟨-, _, _, _, -, -, hflush⟩
      · exact hquiet
      · have hevents : inner.work.nodes.events = [] := events_eq_nil_of_flush hflush
        exact hevents
    -- What was pending before the entry is restored, and that was nothing.
    · have hrestored := (hservice.extends_whileExecuting hrule).restore_eq
      constructor
      · show (failed.work.restore state.work.checkpoint).nodes.events = []
        rw [hrestored]
        exact hquiet
      · show (failed.work.restore state.work.checkpoint).failedEntries = _
        rw [hrestored]

/-- What a report is after one more entry. -/
structure CountsOne (before after : DrainReport) : Prop where
  rounds : after.rounds = before.rounds
  processed : after.processed = before.processed + 1

theorem countsOne_count (report : DrainReport) (outcome : Outcome) :
    CountsOne report (count report outcome) ∧
      (count report outcome).failures = report.failures := by
  cases outcome with
  | executed | notMatched | skipped =>
      refine ⟨⟨rfl, ?_⟩, rfl⟩
      simp only [count, DrainReport.processed]
      omega

/-- An entry that does not stop the drain is counted once. -/
theorem countsOne_processEntry {engine : Engine} {report next : DrainReport}
    (hceiling : report.processed < service.config.maxExecutions)
    (hruns : (service.processEntry rules engine report entry).Runs state (.ok next) after) :
    CountsOne report next := by
  rcases (runs_processEntry hceiling).mp hruns with
    ⟨outcome, -, hanswer⟩ | ⟨error, failed, -, -, hanswer⟩
  · obtain rfl := Except.ok.inj hanswer
    exact (countsOne_count report outcome).1
  · cases hfast : service.config.failFast with
    | true => simp [hfast] at hanswer
    | false =>
        simp only [hfast] at hanswer
        obtain rfl := Except.ok.inj hanswer
        refine ⟨rfl, ?_⟩
        simp [DrainReport.processed]
        omega

/-- It is counted as a failure if it is one. -/
theorem NeverDrains.quiet_processEntry (hservice : service.NeverDrains)
    (hquiet : state.work.nodes.events = []) {report next : DrainReport}
    (hceiling : report.processed < service.config.maxExecutions)
    (hruns : (service.processEntry rules (service.engine rules budget) report entry).Runs state
      (.ok next) after) :
    after.work.nodes.events = [] ∧
      after.work.failedEntries + report.failures.length =
        state.work.failedEntries + next.failures.length := by
  rcases (runs_processEntry hceiling).mp hruns with
    ⟨outcome, hentry, hanswer⟩ | ⟨error, failed, hentry, rfl, hanswer⟩
  · obtain ⟨hevents, hfailed⟩ := hservice.quiet_runEntry hquiet hentry
    obtain rfl := Except.ok.inj hanswer
    exact ⟨hevents, by rw [hfailed, (countsOne_count report outcome).2]⟩
  · obtain ⟨hevents, hfailed⟩ := hservice.quiet_runEntry hquiet hentry
    cases hfast : service.config.failFast with
    | true => simp [hfast] at hanswer
    | false =>
        simp only [hfast] at hanswer
        obtain rfl := Except.ok.inj hanswer
        refine ⟨hevents, ?_⟩
        have hcounted : (failed.failEntry { entry, error }).work.failedEntries =
            failed.work.failedEntries + 1 := rfl
        rw [hcounted, hfailed, List.length_append, List.length_singleton]
        omega

end Entries

/-! ## Every stage of a drain is sound -/

section Stages

variable {service : RuleService} {rules : RuleStore} {engine : Engine} {budget : Nat}
  {start state : WorkState} {progress : Progress}

/-- Whatever the handlers do, each entry that was run is counted, and the ceiling is kept to. -/
theorem Reaches.counted (hreaches : Reaches service rules engine start progress state) :
    progress.report.processed = progress.ran.length ∧
      progress.ran.length ≤ service.config.maxExecutions := by
  induction hreaches with
  | flushed => exact ⟨rfl, Nat.zero_le _⟩
  | round _ _ _ ih => exact ih
  | @entry _ ran _ _ report _ _ _ _ hceiling hruns ih =>
      have hprocessed : report.processed = ran.length := ih.1
      have hcounts := (countsOne_processEntry hceiling hruns).processed
      simp only [List.length_append, List.length_singleton]
      omega

/-- The batches hold the entries that were run and those that are still to be run. -/
theorem Reaches.taken (hreaches : Reaches service rules engine start progress state) :
    progress.batches.flatten = progress.ran ++ progress.waiting := by
  induction hreaches with
  | flushed => rfl
  | @round batches ran _ _ _ _ _ _ _ ih =>
      have htaken : batches.flatten = ran ++ [] := ih
      simp [htaken]
  | @entry batches ran waiting entry _ _ _ _ _ _ _ ih =>
      have htaken : batches.flatten = ran ++ entry :: waiting := ih
      simp [htaken]

theorem Reaches.sound (hservice : service.NeverDrains)
    (hreaches : Reaches service rules (service.engine rules budget) start progress state) :
    progress.Sound service.config start state := by
  induction hreaches with
  | flushed hflush =>
      have hextends := hservice.flush_keeps keptByScripts_extends budget hflush
      exact {
        batches_ne := by simp
        taken := rfl
        rounds := rfl
        processed := rfl
        rounds_le := Nat.zero_le _
        ran_le := Nat.zero_le _
        events := events_eq_nil_of_flush hflush
        failedEntries := hextends.failedEntries }
  | @round batches ran rest entry report state hreaches hbatch hceiling ih =>
      exact {
        batches_ne := by
          intro batch hmem
          rcases List.mem_append.mp hmem with hformer | hnew
          · exact ih.batches_ne batch hformer
          · rw [List.mem_singleton.mp hnew]
            exact List.cons_ne_nil entry rest
        taken := (hreaches.round hbatch hceiling).taken
        rounds := by
          have hrounds : report.rounds = batches.length := ih.rounds
          simp [hrounds]
        processed := ih.processed
        rounds_le := by
          have hrounds : report.rounds = batches.length := ih.rounds
          rw [List.length_append, List.length_singleton]
          omega
        ran_le := ih.ran_le
        events := ih.events
        failedEntries := ih.failedEntries }
  | @entry batches ran waiting entry report next state after hreaches hceiling hruns ih =>
      obtain ⟨hevents, hfailed⟩ := hservice.quiet_processEntry ih.events hceiling hruns
      have hcounted := (hreaches.entry hceiling hruns).counted
      have hbefore : state.work.failedEntries =
          start.work.failedEntries + report.failures.length := ih.failedEntries
      exact {
        batches_ne := ih.batches_ne
        taken := (hreaches.entry hceiling hruns).taken
        rounds := (countsOne_processEntry hceiling hruns).rounds.trans ih.rounds
        processed := hcounted.1
        rounds_le := ih.rounds_le
        ran_le := hcounted.2
        events := hevents
        failedEntries := by
          show after.work.failedEntries = start.work.failedEntries + next.failures.length
          omega }

/-! ## Every drain stops in one of the ways -/

/-- The entries of a round are run to the last, or the drain stops at one of them. -/
theorem Reaches.of_batch {batches : List (List PendingEntry)} {ran waiting : List PendingEntry}
    {report : DrainReport} {after : WorkState}
    {answer : Except Error DrainReport}
    (hreaches : Reaches service rules engine start { batches, ran, waiting, report } state)
    (hruns : (waiting.foldlM (service.processEntry rules engine) report).Runs state answer after) :
    (∃ ran next, answer = .ok next ∧
        Reaches service rules engine start { batches, ran, report := next } after ∧
        next.rounds = report.rounds) ∨
      ∃ error progress, answer = .error error ∧
        Ended service rules engine start progress answer after := by
  induction waiting generalizing ran report state with
  | nil =>
      obtain ⟨hanswer, rfl⟩ := runs_pure.mp hruns
      exact .inl ⟨ran, report, hanswer, hreaches, rfl⟩
  | cons entry waiting ih =>
      rw [List.foldlM_cons] at hruns
      rcases Nat.lt_or_ge report.processed service.config.maxExecutions with hceiling | hceiling
      · rcases runs_bind.mp hruns with ⟨next, middle, hentry, hrest⟩ | ⟨error, hentry, rfl⟩
        · have hcounts := countsOne_processEntry hceiling hentry
          rcases ih (hreaches.entry hceiling hentry) hrest with
            ⟨allRan, last, hanswer, hlast, hrounds⟩ | hstopped
          · exact .inl ⟨allRan, last, hanswer, hlast, hrounds.trans hcounts.rounds⟩
          · exact .inr hstopped
        · rcases (runs_processEntry hceiling).mp hentry with
            ⟨_, -, ⟨⟩⟩ | ⟨inner, failed, hfailed, rfl, hanswer⟩
          cases hfast : service.config.failFast with
          | true =>
              simp only [hfast] at hanswer
              obtain rfl := Except.error.inj hanswer
              exact .inr ⟨error, _, rfl, .entryFailed hreaches hceiling hfast hfailed⟩
          | false => simp [hfast] at hanswer
      -- So far the ceiling was kept to, so it has been reached exactly.
      · have hexact : report.processed = service.config.maxExecutions := by
          obtain ⟨hprocessed, hle⟩ := hreaches.counted
          simp only at hprocessed hle
          omega
        rcases runs_bind.mp hruns with ⟨_, _, hentry, -⟩ | ⟨error, hentry, rfl⟩
        · obtain ⟨⟨⟩, -⟩ := (runs_processEntry_of_ceiling hceiling).mp hentry
        · obtain ⟨herror, rfl⟩ := (runs_processEntry_of_ceiling hceiling).mp hentry
          rw [herror]
          exact .inr ⟨_, _, rfl, .tooManyExecutions hreaches hexact⟩

theorem Reaches.of_empty {batches : List (List PendingEntry)} {ran : List PendingEntry}
    {report : DrainReport} {remaining : Nat} {after : WorkState}
    {answer : Except Error DrainReport}
    (hreaches : Reaches service rules engine start { batches, ran, report } state)
    (hempty : state.work.pending.entries = [])
    (hruns : (service.drainRounds rules engine remaining report).Runs state answer after) :
    ∃ progress, Ended service rules engine start progress answer after := by
  obtain ⟨rfl, rfl⟩ := (runs_drainRounds_of_empty hempty).mp hruns
  rw [withoutPending_eq hempty]
  exact ⟨_, .settled hreaches hempty⟩

/-- Between two rounds, the drain stops or goes on with the next one. -/
theorem Reaches.of_rounds {batches : List (List PendingEntry)} {ran : List PendingEntry}
    {report : DrainReport} {remaining : Nat} {after : WorkState}
    {answer : Except Error DrainReport}
    (hreaches : Reaches service rules engine start { batches, ran, report } state)
    (hremaining : report.rounds + remaining = service.config.maxDrainRounds)
    (hruns : (service.drainRounds rules engine remaining report).Runs state answer after) :
    ∃ progress, Ended service rules engine start progress answer after := by
  induction remaining generalizing batches ran report state with
  | zero =>
      cases hbatch : state.work.pending.entries with
      | nil => exact hreaches.of_empty hbatch hruns
      | cons entry rest =>
          obtain ⟨rfl, rfl⟩ := (runs_drainRounds_zero hbatch).mp hruns
          exact ⟨_, .tooManyRounds hreaches hbatch hremaining⟩
  | succ remaining ih =>
      cases hbatch : state.work.pending.entries with
      | nil => exact hreaches.of_empty hbatch hruns
      | cons entry rest =>
          have hceiling : report.rounds < service.config.maxDrainRounds := by omega
          have hround := hreaches.round hbatch hceiling
          rw [runs_drainRounds_succ hbatch] at hruns
          rcases runs_bind.mp hruns with ⟨next, middle, hbatchRuns, hrest⟩ | ⟨error, hstops, rfl⟩
          · rcases hround.of_batch hbatchRuns with
              ⟨_, _, hanswer, hnext, hrounds⟩ | ⟨_, _, ⟨⟩, -⟩
            obtain rfl := Except.ok.inj hanswer
            refine ih hnext ?_ hrest
            rw [hrounds]
            show report.rounds + 1 + remaining = _
            omega
          · rcases hround.of_batch hstops with ⟨_, _, ⟨⟩, -⟩ | ⟨_, progress, -, hended⟩
            exact ⟨progress, hended⟩

/-- A drain that ends has stopped in one of the ways, and has noted its failure if it failed. -/
theorem ended_of_runs {answer : Except Error DrainReport} {final : WorkState}
    (hruns : (service.engine rules (budget + 1)).drain.Runs start answer final) :
    ∃ progress stopped,
      Ended service rules (service.engine rules budget) start progress answer stopped ∧
      (∀ report, answer = .ok report → final = stopped) ∧
      ∀ error, answer = .error error → final = stopped.abort error := by
  have hbody : ∀ outcome stopped, (do
      flush service rules budget
      service.drainRounds rules (service.engine rules budget) service.config.maxDrainRounds {} :
        Routine DrainReport).Runs start outcome stopped →
      ∃ progress,
        Ended service rules (service.engine rules budget) start progress outcome stopped := by
    intro outcome stopped hinner
    rcases runs_bind.mp hinner with ⟨_, flushed, hflush, hrounds⟩ | ⟨error, hflush, rfl⟩
    · exact (Reaches.flushed hflush).of_rounds (Nat.zero_add _) hrounds
    · exact ⟨_, .flushFailed hflush⟩
  rcases runs_abortingOnError.mp hruns with
    ⟨report, hinner, rfl⟩ | ⟨error, stopped, hinner, rfl, rfl⟩
  · obtain ⟨progress, hended⟩ := hbody _ _ hinner
    refine ⟨progress, final, hended, fun _ _ => rfl, ?_⟩
    intro error herror
    cases herror
  · obtain ⟨progress, hended⟩ := hbody _ _ hinner
    refine ⟨progress, stopped, hended, ?_, ?_⟩
    · intro report hreport
      cases hreport
    · intro other hother
      rw [Except.error.inj hother]

end Stages

/-! ## Drains settle -/

/-- Whatever is done in a drain, the mark of the rule being run is put back. -/
theorem keptByDrains_executing :
    KeptByDrains fun state after => after.work.executing = state.work.executing where
  refl _ := rfl
  trans hfirst hsecond := hsecond.trans hfirst
  step {state after} hstep := by
    cases hstep with
    | edit | deferCopy | takeEvents | note => rfl
    | enqueue entry => exact (UnitOfWork.Extends.enqueue state.work entry).executing
    | turn switch => exact (UnitOfWork.Extends.turn state.work switch).executing
    | noteNew event => exact (UnitOfWork.Extends.noteNew state.work event).executing
  takePending _ := rfl
  executing _ _ := rfl
  restore hfailed := hfailed
  failEntry _ _ := rfl
  abort _ _ := rfl

section Drains

variable {service : RuleService} {rules : RuleStore} {state : WorkState}

/-- With no event and no entry, a drain finds nothing to do. -/
theorem runs_drain_of_settled (hevents : state.work.nodes.events = [])
    (hempty : state.work.pending.entries = []) (budget : Nat) :
    (service.engine rules (budget + 2)).drain.Runs state (.ok {}) state := by
  have hflush : (flush service rules (budget + 1)).Runs state (.ok ()) state :=
    runs_flush_of_quiet hevents budget
  have hrounds : (service.drainRounds rules (service.engine rules (budget + 1))
      service.config.maxDrainRounds {}).Runs state (.ok {}) state :=
    (runs_drainRounds_of_empty hempty).mpr ⟨rfl, (withoutPending_eq hempty).symm⟩
  show (drain service rules (budget + 1 + 1)).Runs state (.ok {}) state
  rw [drain_succ, runs_abortingOnError]
  exact .inl ⟨{}, (runs_bind_of_runs hflush).mpr hrounds, rfl⟩

variable {budget : Nat} {start stopped : WorkState} {progress : Progress}

/-- What a drain that succeeds has done, and what it leaves. -/
structure Settled (service : RuleService) (rules : RuleStore) (start : WorkState)
    (progress : Progress) (report : DrainReport) (final : WorkState) : Prop where
  pending : final.work.pending = {}
  events : final.work.nodes.events = []
  batches_ne : ∀ batch ∈ progress.batches, batch ≠ []
  rounds : report.rounds = progress.batches.length
  ran : progress.ran = progress.batches.flatten
  processed : report.executed + report.notMatched + report.skipped + report.failures.length =
    progress.batches.flatten.length
  failedEntries : final.work.failedEntries = start.work.failedEntries + report.failures.length
  again : ∀ budget, 2 ≤ budget →
    (service.engine rules budget).drain.Runs final (.ok {}) final

/-- A drain has come to one of its ceilings, and there was more to do: a batch was there after the
last round, or another entry came up after the last one. -/
inductive AtCeiling (service : RuleService) (rules : RuleStore) (engine : Engine)
    (start : WorkState) (progress : Progress) : Ceiling → Prop
  | rounds {entry : PendingEntry} {rest : List PendingEntry} {reached : WorkState}
      (hrounds : progress.batches.length = service.config.maxDrainRounds)
      (hreaches : Reaches service rules engine start progress reached)
      (hbatch : reached.work.pending.entries = entry :: rest) :
      AtCeiling service rules engine start progress
        (.rounds service.config.maxDrainRounds (some entry.rule.id))
  | executions {entry : PendingEntry} {rest : List PendingEntry} {reached : WorkState}
      (hran : progress.ran.length = service.config.maxExecutions)
      (hreaches : Reaches service rules engine start progress reached)
      (hwaiting : progress.waiting = entry :: rest) :
      AtCeiling service rules engine start progress (.executions service.config.maxExecutions)

/-- Why a drain fails: a behaviour or the last entry failed, and the error is passed on, or the drain
has come to a ceiling, and the error is its own. -/
inductive Failed (service : RuleService) (rules : RuleStore) (engine : Engine) (start : WorkState)
    (progress : Progress) (error : Error) : Prop
  | behaviour {failed : WorkState} (hflush : engine.flush.Runs start (.error error) failed)
  | entry {entry : PendingEntry} {before : Progress} {reached failed : WorkState}
      (hfast : service.config.failFast)
      (hreaches : Reaches service rules engine start before reached)
      (hwaiting : before.waiting = entry :: progress.waiting)
      (hran : progress.ran = before.ran ++ [entry])
      (hruns : (service.runEntry rules engine entry).Runs reached (.error error) failed)
  | ceiling {ceiling : Ceiling}
      (hceiling : AtCeiling service rules engine start progress ceiling)
      (herror : error = { cause := .limitExceeded ceiling })

/-- However a drain stops, it has kept to both ceilings. -/
theorem Ended.within_ceilings (hservice : service.NeverDrains) {answer : Except Error DrainReport}
    (hended : Ended service rules (service.engine rules budget) start progress answer stopped) :
    progress.batches.length ≤ service.config.maxDrainRounds ∧
      progress.ran.length ≤ service.config.maxExecutions := by
  cases hended with
  | flushFailed => exact ⟨Nat.zero_le _, Nat.zero_le _⟩
  | settled hreaches | tooManyRounds hreaches | tooManyExecutions hreaches =>
      have hsound := hreaches.sound hservice
      exact ⟨hsound.rounds_le, hsound.ran_le⟩
  | @entryFailed _ ran _ _ report _ _ _ hreaches hceiling =>
      have hsound := hreaches.sound hservice
      have hprocessed : report.processed = ran.length := hsound.processed
      refine ⟨hsound.rounds_le, ?_⟩
      rw [List.length_append, List.length_singleton]
      omega

theorem Ended.settled_of_ok (hservice : service.NeverDrains) {report : DrainReport}
    (hended : Ended service rules (service.engine rules budget) start progress (.ok report)
      stopped) : service.Settled rules start progress report stopped := by
  cases hended with
  | @settled batches ran _ _ hreaches hempty =>
      have hsound := hreaches.sound hservice
      have htaken : batches.flatten = ran ++ [] := hsound.taken
      have hprocessed : report.processed = ran.length := hsound.processed
      rw [List.append_nil] at htaken
      exact {
        pending := OrderedSet.eq_of_entries_eq hempty
        events := hsound.events
        batches_ne := hsound.batches_ne
        rounds := hsound.rounds
        ran := htaken.symm
        processed := hprocessed.trans (congrArg List.length htaken.symm)
        failedEntries := hsound.failedEntries
        again := by
          intro larger hlarger
          obtain ⟨rest, rfl⟩ := Nat.exists_eq_add_of_le' hlarger
          exact runs_drain_of_settled hsound.events hempty rest }

/-- A drain fails with an error of its own only at a ceiling, when there was more to do. -/
theorem Ended.failed_of_error (hservice : service.NeverDrains) {error : Error}
    (hended : Ended service rules (service.engine rules budget) start progress (.error error)
      stopped) :
    Failed service rules (service.engine rules budget) start progress error := by
  cases hended with
  | flushFailed hflush => exact .behaviour hflush
  | entryFailed hreaches _ hfast hruns => exact .entry hfast hreaches rfl rfl hruns
  | @tooManyRounds batches _ _ _ report _ hreaches hbatch hceiling =>
      have hrounds : report.rounds = batches.length := (hreaches.sound hservice).rounds
      exact .ceiling (.rounds (hrounds.symm.trans hceiling) hreaches hbatch) rfl
  | @tooManyExecutions _ ran _ _ report _ hreaches hceiling =>
      have hprocessed : report.processed = ran.length := (hreaches.sound hservice).processed
      exact .ceiling (.executions (hprocessed.symm.trans hceiling) hreaches rfl) rfl

/-- If the handlers have no errors about ceilings, a drain that fails at one has come to it. -/
theorem Failed.atCeiling (hsafe : service.NoCeiling) {error : Error} {ceiling : Ceiling}
    (hfailed : Failed service rules (service.engine rules budget) start progress error)
    (hcause : error.cause = .limitExceeded ceiling) :
    AtCeiling service rules (service.engine rules budget) start progress ceiling := by
  have hflushes : (service.engine rules budget).flush.NoCeiling := hsafe.flush budget
  cases hfailed with
  | behaviour hflush => exact absurd ⟨ceiling, hcause⟩ (hflushes hflush)
  | entry _ _ _ _ hruns => exact absurd ⟨ceiling, hcause⟩ (hsafe.runEntry hflushes _ hruns)
  | ceiling hceiling herror =>
      subst herror
      obtain rfl := Cause.limitExceeded.inj hcause
      exact hceiling

end Drains

end RuleService

/-! ## Two rules at the ceiling of rounds -/

namespace Echo

theorem noCeiling_service (config : EngineConfig) : (service config).NoCeiling where
  react behaviour hbehaviour event := by
    obtain rfl := List.mem_singleton.mp hbehaviour
    exact fun _ _ => trivial
  evaluator condition := by
    refine HandlerRegistry.noCeiling_evaluator _ fun make hfound => ?_
    have hregistered : (service config).handlers.evaluators =
        (HandlerRegistry.empty.addEvaluator "always" fun _ =>
          .ok fun _ _ _ => .ok true).evaluators := rfl
    rw [hregistered, HandlerRegistry.evaluators_addEvaluator] at hfound
    split at hfound
    · obtain rfl := Option.some.inj hfound
      exact fun _ _ _ => trivial
    · simp [HandlerRegistry.empty] at hfound
  executor action := by
    have hadd (actionable actionedUpon : NodeRef) : (add actionable actionedUpon).NoCeiling :=
      (Script.noCeiling_apply _).discard
    have hspoil (actionable actionedUpon : NodeRef) :
        (spoil actionable actionedUpon).NoCeiling := by
      refine (hadd actionable actionedUpon).bind fun _ => Script.NoCeiling.bind ?_ fun _ => ?_
      · exact fun _ houtcome => Script.noCeiling_ofExcept houtcome
      · exact Script.noCeiling_apply _
    refine HandlerRegistry.noCeiling_executor _ fun make hfound => ?_
    rcases registered_of_getElem?_executors hfound with rfl | rfl
    · exact hspoil
    · exact hadd

/-- A unit of work in which the first of the two rules that trigger each other is queued. -/
def ringing : WorkState :=
  { start with work := (start.work.enqueue (entry "ping" "add")).2 }

/-- A drain failed for this cause. -/
def failsBy (cause : Cause) : Except Error DrainReport → Bool
  | .error error => error.cause = cause
  | .ok _ => false

end Echo

/-- A service with a behaviour that fails as a drain does at its ceiling. -/
def Echo.feigning : RuleService :=
  { Echo.service {} with
    behaviours :=
      [{ kind := .nodeCreated, react := fun _ =>
        .fail { cause := .limitExceeded (.rounds 100 none) } }] }

/-- Its error is that of the drain, though no entry was ever pending. -/
example :
    let root := (Echo.entry "ping" "add").actionable
    let name : QualifiedName := { space := "model", localName := "echo" }
    let state := edited Echo.start (.createNode root name name name [])
    state.work.pending.entries.isEmpty ∧
      ((Echo.feigning.engine {} 3).drain.run.run state).any fun (answer, _) =>
        Echo.failsBy (.limitExceeded (.rounds 100 none)) answer := by
  decide +kernel

end ContentRules
