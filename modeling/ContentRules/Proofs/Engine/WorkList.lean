import ContentRules.Proofs.Engine.Rounds

/-!
# A drain works off one list

A drain takes the queue round by round: it empties the queue, runs what it took, and what is queued
meanwhile waits for the next round.  Seen from outside, this is one list that is worked off from the
front, while what the entries queue is put at the back (`RuleService.drain_workList`).

**Strategy.**  `WorkState.Pushes` is a way from one state to another on which the queue changes only
by entries that were queued, and lists them; scripts and flushes go such ways.  `Proceeds` follows a
drain with one `EntryRun` for each entry that it has run, with what was queued for it.  Between two
entries, what is left of the batch and what was queued since it was taken are the list together, the
former to be run in this round and the latter in the next (`Proceeds.workList`).  An entry that
failed is no exception: its entries are cut off again, and only those.
-/

namespace ContentRules

open Routine

/-! ## What is queued on the way -/

/-- The state with another rule marked as being run, or none. -/
def WorkState.marking (state : WorkState) (rule : Option Rule) : WorkState :=
  { state with work := { state.work with executing := rule } }

/-- There is a way from the first state to the last on which these entries were queued, in this
order, and nothing else changed the queue: entries that were refused, edits, deliveries and marks
did not. -/
inductive WorkState.Pushes (state : WorkState) : List PendingEntry → WorkState → Prop
  | none : Pushes state [] state
  | push {pushed : List PendingEntry} {middle : WorkState} {entry : PendingEntry}
      (hway : Pushes state pushed middle) (hqueued : (middle.work.enqueue entry).1 = true) :
      Pushes state (pushed ++ [entry]) { middle with work := (middle.work.enqueue entry).2 }
  | pass {pushed : List PendingEntry} {middle after : WorkState}
      (hway : Pushes state pushed middle) (hstep : middle.Step after)
      (hqueue : after.work.pending = middle.work.pending) : Pushes state pushed after
  | mark {pushed : List PendingEntry} {middle : WorkState} (hway : Pushes state pushed middle)
      (rule : Option Rule) : Pushes state pushed (middle.marking rule)

namespace UnitOfWork

variable {work : UnitOfWork} {entry : PendingEntry}

/-- An entry that is queued comes last. -/
theorem entries_of_queued (hqueued : (work.enqueue entry).1 = true) :
    (work.enqueue entry).2.pending.entries = work.pending.entries ++ [entry] := by
  by_cases hsame : work.executing.any (·.sameAs entry.rule)
  · simp [enqueue, hsame] at hqueued
  by_cases hwaits : work.pending.contains entry
  · simp [enqueue, OrderedSet.push, hsame, hwaits] at hqueued
  · simp [enqueue, OrderedSet.push, hsame, hwaits]

/-- An entry that is refused changes nothing. -/
theorem enqueue_of_refused (hrefused : (work.enqueue entry).1 = false) :
    (work.enqueue entry).2 = work := by
  by_cases hsame : work.executing.any (·.sameAs entry.rule)
  · simp [enqueue, hsame]
  by_cases hwaits : work.pending.contains entry
  · simp [enqueue, OrderedSet.push, hsame, hwaits]
  · simp [enqueue, OrderedSet.push, hsame, hwaits] at hrefused

end UnitOfWork

namespace WorkState.Pushes

variable {state middle after : WorkState} {pushed more : List PendingEntry}

/-- What was queued on the way is what the queue has more, so every way queues the same. -/
theorem entries_eq (hway : state.Pushes pushed after) :
    after.work.pending.entries = state.work.pending.entries ++ pushed := by
  induction hway with
  | none => exact (List.append_nil _).symm
  | push _ hqueued ih =>
      rw [UnitOfWork.entries_of_queued hqueued, ih, List.append_assoc]
  | pass _ _ hqueue ih => rw [hqueue, ih]
  | mark _ _ ih => exact ih

theorem trans (hfirst : state.Pushes pushed middle) (hrest : middle.Pushes more after) :
    state.Pushes (pushed ++ more) after := by
  induction hrest with
  | none => rwa [List.append_nil]
  | push _ hqueued ih =>
      rw [← List.append_assoc]
      exact ih.push hqueued
  | pass _ hstep hqueue ih => exact ih.pass hstep hqueue
  | mark _ rule ih => exact ih.mark rule

end WorkState.Pushes

/-- Scripts and deliveries go such ways. -/
theorem keptByScripts_pushes :
    KeptByScripts fun state after => ∃ pushed, state.Pushes pushed after where
  refl _ := ⟨[], .none⟩
  trans := by
    rintro first second third ⟨pushed, hfirst⟩ ⟨more, hsecond⟩
    exact ⟨pushed ++ more, hfirst.trans hsecond⟩
  step {state after} hstep := by
    cases hstep with
    | enqueue entry =>
        cases hqueued : (state.work.enqueue entry).1 with
        | true => exact ⟨[entry], .push .none hqueued⟩
        | false =>
            refine ⟨[], .pass .none (.enqueue state entry) ?_⟩
            exact congrArg _ (UnitOfWork.enqueue_of_refused hqueued)
    | edit change => exact ⟨[], .pass .none (.edit state change) rfl⟩
    | deferCopy source copy => exact ⟨[], .pass .none (.deferCopy state source copy) rfl⟩
    | note line => exact ⟨[], .pass .none (.note state line) rfl⟩
    | takeEvents => exact ⟨[], .pass .none (.takeEvents state) rfl⟩
    | turn switch =>
        obtain ⟨disabledNodes, rulesDisabled, hturned⟩ := state.work.exists_turn_eq switch
        refine ⟨[], .pass .none (.turn state switch) ?_⟩
        rw [hturned]
    | noteNew event =>
        obtain ⟨newNodes, hnoted⟩ := state.work.exists_noteNew_eq event
        refine ⟨[], .pass .none (.noteNew state event) ?_⟩
        rw [hnoted]

/-! ## The list -/

/-- What a drain did with an entry: in which round it was run, what was queued on the way, and
whether it failed. -/
structure EntryRun where
  round : Nat
  entry : PendingEntry
  pushed : List PendingEntry := []
  failed : Bool := false

namespace EntryRun

/-- The entry, as it stands in the list: with the round in which it is to be run. -/
def item (run : EntryRun) : Nat × PendingEntry :=
  (run.round, run.entry)

/-- What the entry puts into the list: nothing if it failed, else what was queued on the way, to be
run in the next round. -/
def added (run : EntryRun) : List (Nat × PendingEntry) :=
  if run.failed then [] else run.pushed.map fun entry => (run.round + 1, entry)

end EntryRun

/-- A list is worked off: each run takes its entry from the front, and what it adds goes to the
back. -/
inductive WorkList (list : List (Nat × PendingEntry)) :
    List EntryRun → List (Nat × PendingEntry) → Prop
  | begin : WorkList list [] list
  | next {runs : List EntryRun} {run : EntryRun} {rest : List (Nat × PendingEntry)}
      (hlist : WorkList list runs (run.item :: rest)) :
      WorkList list (runs ++ [run]) (rest ++ run.added)

/-- What was run and what is left is what stood in the list and what was added, in this order. -/
theorem WorkList.items_eq {list rest : List (Nat × PendingEntry)} {runs : List EntryRun}
    (hlist : WorkList list runs rest) :
    runs.map EntryRun.item ++ rest = list ++ runs.flatMap EntryRun.added := by
  induction hlist with
  | begin => simp
  | @next runs run rest _ ih =>
      calc (runs ++ [run]).map EntryRun.item ++ (rest ++ run.added)
          = (runs.map EntryRun.item ++ run.item :: rest) ++ run.added := by simp
        _ = (list ++ runs.flatMap EntryRun.added) ++ run.added := by rw [ih]
        _ = list ++ (runs ++ [run]).flatMap EntryRun.added := by simp

namespace RuleService

/-! ## Entries and what they queue -/

section Entries

variable {service : RuleService} {rules : RuleStore} {budget : Nat} {entry : PendingEntry}
  {state after : WorkState}

theorem NeverDrains.pushes_flush (hservice : service.NeverDrains) {answer : Except Error Unit}
    (hruns : (service.engine rules budget).flush.Runs state answer after) :
    ∃ pushed, state.Pushes pushed after :=
  hservice.flush_keeps keptByScripts_pushes budget hruns

/-- Whatever becomes of the rule of an entry, the queue changes by what is queued. -/
theorem NeverDrains.pushes_whileExecuting (hservice : service.NeverDrains)
    {answer : Except Error Outcome}
    (hruns : (whileExecuting entry.rule
      (service.runRule rules (service.engine rules budget) entry)).Runs state answer after) :
    ∃ pushed, state.Pushes pushed after := by
  obtain ⟨inner, hinner, rfl⟩ := runs_whileExecuting.mp hruns
  obtain ⟨pushed, hway⟩ := runRule_keeps hservice
    (hservice.flush_keeps keptByScripts_pushes budget) False.elim keptByScripts_pushes entry hinner
  have hmarked : state.Pushes [] (state.marking (some entry.rule)) := .mark .none _
  exact ⟨pushed, (hmarked.trans hway).mark state.work.executing⟩

/-- So it does where an entry does not fail. -/
theorem NeverDrains.pushes_runEntry (hservice : service.NeverDrains) {outcome : Outcome}
    (hruns : (service.runEntry rules (service.engine rules budget) entry).Runs state (.ok outcome)
      after) : ∃ pushed, state.Pushes pushed after := by
  by_cases hskipped : isSkipped state.work entry
  · obtain ⟨-, rfl⟩ := (runs_runEntry_of_skipped hskipped).mp hruns
    exact ⟨[], .none⟩
  · rcases (runs_runEntry hskipped).mp hruns with ⟨_, hrule, -⟩ | ⟨_, _, -, ⟨⟩, -⟩
    exact hservice.pushes_whileExecuting hrule

/-- An entry that fails leaves the queue as it was, whatever was queued for it. -/
theorem NeverDrains.pending_of_failed (hservice : service.NeverDrains) {error : Error}
    (hruns : (service.runEntry rules (service.engine rules budget) entry).Runs state (.error error)
      after) :
    after.work.pending = state.work.pending ∧
      ∃ cause spoiled pushed, (whileExecuting entry.rule
        (service.runRule rules (service.engine rules budget) entry)).Runs state (.error cause)
          spoiled ∧ state.Pushes pushed spoiled := by
  obtain ⟨cause, spoiled, hrule, rfl⟩ := exists_failed_of_runs hruns
  obtain ⟨pushed, hway⟩ := hservice.pushes_whileExecuting hrule
  have hrestored := (hservice.extends_whileExecuting hrule).restore_eq
  refine ⟨?_, cause, spoiled, pushed, hrule, hway⟩
  show (spoiled.work.restore state.work.checkpoint).pending = state.work.pending
  rw [hrestored]

end Entries

/-! ## Drains -/

/-- A drain whose first flush left the state `flushed` has run these entries, has come this far, and
left this state. -/
inductive Proceeds (service : RuleService) (rules : RuleStore) (engine : Engine)
    (flushed : WorkState) : List EntryRun → Progress → WorkState → Prop
  | begin : Proceeds service rules engine flushed [] {} flushed
  /-- The next round begins. -/
  | round {runs : List EntryRun} {batches : List (List PendingEntry)}
      {ran rest : List PendingEntry} {entry : PendingEntry} {report : DrainReport}
      {state : WorkState}
      (hproceeds : Proceeds service rules engine flushed runs { batches, ran, report } state)
      (hbatch : state.work.pending.entries = entry :: rest)
      (hceiling : report.rounds < service.config.maxDrainRounds) :
      Proceeds service rules engine flushed runs
        { batches := batches ++ [entry :: rest], ran, waiting := entry :: rest
          report := { report with rounds := report.rounds + 1 } }
        (withoutPending state)
  /-- The next entry of the round has been run and did not fail. -/
  | kept {runs : List EntryRun} {batches : List (List PendingEntry)}
      {ran waiting pushed : List PendingEntry} {entry : PendingEntry} {report : DrainReport}
      {outcome : Outcome} {state after : WorkState}
      (hproceeds : Proceeds service rules engine flushed runs
        { batches, ran, waiting := entry :: waiting, report } state)
      (hceiling : report.processed < service.config.maxExecutions)
      (hruns : (service.runEntry rules engine entry).Runs state (.ok outcome) after)
      (hway : state.Pushes pushed after) :
      Proceeds service rules engine flushed (runs ++ [{ round := batches.length, entry, pushed }])
        { batches, ran := ran ++ [entry], waiting, report := count report outcome } after
  /-- The next entry of the round has been run and failed, after its rule had queued entries. -/
  | failed {runs : List EntryRun} {batches : List (List PendingEntry)}
      {ran waiting pushed : List PendingEntry} {entry : PendingEntry} {report : DrainReport}
      {error cause : Error} {state spoiled after : WorkState}
      (hproceeds : Proceeds service rules engine flushed runs
        { batches, ran, waiting := entry :: waiting, report } state)
      (hceiling : report.processed < service.config.maxExecutions)
      (hruns : (service.runEntry rules engine entry).Runs state (.error error) after)
      (hrule : (whileExecuting entry.rule (service.runRule rules engine entry)).Runs state
        (.error cause) spoiled)
      (hway : state.Pushes pushed spoiled) :
      Proceeds service rules engine flushed
        (runs ++ [{ round := batches.length, entry, pushed, failed := true }])
        { batches, ran := ran ++ [entry], waiting
          report := { report with failures := report.failures ++ [{ entry, error }] } }
        (after.failEntry { entry, error })

section Drains

variable {service : RuleService} {rules : RuleStore} {budget : Nat}
  {start flushed state : WorkState} {runs : List EntryRun} {progress : Progress}

/-- However far a drain has come, it has come there entry by entry. -/
theorem Reaches.proceeds (hservice : service.NeverDrains)
    (hreaches : Reaches service rules (service.engine rules budget) start progress state) :
    ∃ flushed runs, (service.engine rules budget).flush.Runs start (.ok ()) flushed ∧
      Proceeds service rules (service.engine rules budget) flushed runs progress state := by
  induction hreaches with
  | flushed hflush => exact ⟨_, [], hflush, .begin⟩
  | round _ hbatch hceiling ih =>
      obtain ⟨flushed, runs, hflush, hproceeds⟩ := ih
      exact ⟨flushed, runs, hflush, hproceeds.round hbatch hceiling⟩
  | entry _ hceiling hruns ih =>
      obtain ⟨flushed, runs, hflush, hproceeds⟩ := ih
      rcases (runs_processEntry hceiling).mp hruns with
        ⟨outcome, hentry, hanswer⟩ | ⟨error, left, hentry, rfl, hanswer⟩
      · obtain rfl := Except.ok.inj hanswer
        obtain ⟨pushed, hway⟩ := hservice.pushes_runEntry hentry
        exact ⟨flushed, _, hflush, hproceeds.kept hceiling hentry hway⟩
      · obtain ⟨-, cause, spoiled, pushed, hrule, hway⟩ := hservice.pending_of_failed hentry
        cases hfast : service.config.failFast with
        | true => simp [hfast] at hanswer
        | false =>
            simp only [hfast] at hanswer
            obtain rfl := Except.ok.inj hanswer
            exact ⟨flushed, _, hflush, hproceeds.failed hceiling hentry hrule hway⟩

/-- What the progress of a drain and the runs of its entries have to do with each other. -/
theorem Proceeds.entries_eq {engine : Engine}
    (hproceeds : Proceeds service rules engine flushed runs progress state) :
    runs.map EntryRun.entry = progress.ran ∧
      (runs.filter EntryRun.failed).map EntryRun.entry =
        progress.report.failures.map RuleFailure.entry := by
  induction hproceeds with
  | begin => exact ⟨rfl, rfl⟩
  | round _ _ _ ih => exact ih
  | kept _ _ _ _ ih =>
      obtain ⟨hran, hfailed⟩ := ih
      simp only at hran hfailed
      simp [hran, hfailed, (countsOne_count _ _).2]
  | failed _ _ _ _ _ ih =>
      obtain ⟨hran, hfailed⟩ := ih
      simp only at hran hfailed
      simp [hran, hfailed]

/-- The rest of the batch and the queue are what is left of the list. -/
theorem Proceeds.workList (hservice : service.NeverDrains)
    (hproceeds : Proceeds service rules (service.engine rules budget) flushed runs progress
      state) :
    WorkList (flushed.work.pending.entries.map (1, ·)) runs
      (progress.waiting.map (progress.batches.length, ·) ++
        state.work.pending.entries.map (progress.batches.length + 1, ·)) := by
  induction hproceeds with
  | begin => exact .begin
  | @round _ batches _ rest entry _ state _ hbatch _ ih =>
      -- What was queued for the next round is now to be run in this one, and the queue is empty.
      have hnext : (entry :: rest).map ((batches ++ [entry :: rest]).length, ·) ++
          (withoutPending state).work.pending.entries.map
            ((batches ++ [entry :: rest]).length + 1, ·) =
          state.work.pending.entries.map (batches.length + 1, ·) := by
        rw [hbatch, List.length_append, List.length_singleton]
        exact List.append_nil _
      rw [hnext]
      exact ih
  | @kept _ batches _ waiting _ _ _ _ _ after _ _ _ hway ih =>
      show WorkList _ _ (waiting.map (batches.length, ·) ++
        after.work.pending.entries.map (batches.length + 1, ·))
      rw [hway.entries_eq, List.map_append, ← List.append_assoc]
      exact .next ih
  | @failed runs batches _ waiting pushed entry _ _ _ state _ after _ _ hruns _ _ ih =>
      let run : EntryRun := { round := batches.length, entry, pushed, failed := true }
      have hnext : WorkList (flushed.work.pending.entries.map (1, ·)) (runs ++ [run])
          (waiting.map (batches.length, ·) ++
            state.work.pending.entries.map (batches.length + 1, ·) ++ run.added) := .next ih
      have hnone : run.added = [] := rfl
      rw [hnone, List.append_nil, ← (hservice.pending_of_failed hruns).1] at hnext
      exact hnext

/-- **A drain works off one list, first in, first out.**  Let no handler start a drain, and let a
drain succeed.  The list holds what waits after the recorded events were delivered, and to it go the
entries that are queued while entries are run, unless the entry that they are queued for fails.
The drain runs just the entries of this list, each as often as it was put there, in the order in
which they were put there, each in the round after the one in which it was queued; and none is left.
-/
theorem drain_workList (hservice : service.NeverDrains) {report : DrainReport} {final : WorkState}
    (hruns : (service.engine rules (budget + 1)).drain.Runs start (.ok report) final) :
    ∃ flushed opening runs batches,
      (service.engine rules budget).flush.Runs start (.ok ()) flushed ∧
      start.Pushes opening flushed ∧
      flushed.work.pending.entries = start.work.pending.entries ++ opening ∧
      Proceeds service rules (service.engine rules budget) flushed runs
        { batches, ran := runs.map EntryRun.entry, report } final ∧
      report.processed = runs.length ∧
      report.failures.map RuleFailure.entry = (runs.filter EntryRun.failed).map EntryRun.entry ∧
      WorkList (flushed.work.pending.entries.map (1, ·)) runs [] ∧
      runs.map EntryRun.item =
        flushed.work.pending.entries.map (1, ·) ++ runs.flatMap EntryRun.added := by
  obtain ⟨progress, stopped, hended, hfinal, -⟩ := ended_of_runs hruns
  obtain rfl := hfinal report rfl
  cases hended with
  | @settled batches ran _ _ hreaches hempty =>
      obtain ⟨flushed, runs, hflush, hproceeds⟩ := hreaches.proceeds hservice
      obtain ⟨opening, hway⟩ := hservice.pushes_flush hflush
      obtain ⟨hran, hfailed⟩ := hproceeds.entries_eq
      have hran : runs.map EntryRun.entry = ran := hran
      have hprocessed : report.processed = ran.length := (hreaches.sound hservice).processed
      have hlist : WorkList (flushed.work.pending.entries.map (1, ·)) runs
          ([] ++ final.work.pending.entries.map (batches.length + 1, ·)) :=
        hproceeds.workList hservice
      rw [hempty] at hlist
      have hitems := hlist.items_eq
      rw [List.map_nil, List.append_nil, List.append_nil] at hitems
      subst hran
      rw [List.length_map] at hprocessed
      exact ⟨flushed, opening, runs, batches, hflush, hway, hway.entries_eq, hproceeds, hprocessed,
        hfailed.symm, hlist, hitems⟩

end Drains

end RuleService

/-! ## A rule that fails and one that does not -/

namespace Echo

/-- As with the two rules, but what is queued for a new node is a disabled rule. -/
def fading : RuleService :=
  let answer (event : NodeEvent) : Script Unit := do
    discard <| Script.queue event.node event.node
      { Rule.performing "ping" "add" with enabled := false }
  { service {} with behaviours := [{ kind := .nodeCreated, react := answer }] }

/-- Two rules are queued that make a node each; the first of them fails then. -/
def crowded : WorkState :=
  let work := (start.work.enqueue (entry "bad" "spoil")).2
  { start with work := (work.enqueue (entry "good" "add")).2 }

end Echo

/-- The rule that is queued for the node of the first entry does not come up, since that entry fails;
the one queued for the node of the second entry comes up after both, and is skipped. -/
theorem RuleService.drain_workList_crowded :
    Echo.fading.NeverDrains ∧
      ∃ report final, (Echo.fading.engine {} 9).drain.Runs Echo.crowded (.ok report) final ∧
        report.rounds = 2 ∧ report.executed = 1 ∧ report.skipped = 1 ∧
        ∃ flushed opening runs, Echo.crowded.Pushes opening flushed ∧ runs.length = 3 ∧
          (runs.filter EntryRun.failed).length = 1 ∧
          WorkList (flushed.work.pending.entries.map (1, ·)) runs [] := by
  have hservice : Echo.fading.NeverDrains :=
    { react := by
        intro behaviour hbehaviour event
        obtain rfl := List.mem_singleton.mp hbehaviour
        exact fun _ => trivial
      execute := (Echo.neverDrains_service {}).execute }
  have hsucceeds : (((Echo.fading.engine {} 9).drain.run.run Echo.crowded).any fun
      | (.ok report, _) => report.rounds = 2 ∧ report.executed = 1 ∧ report.notMatched = 0 ∧
          report.skipped = 1 ∧ report.failures.length = 1
      | (.error _, _) => false) = true := by
    decide +kernel
  obtain ⟨_ | report, final, hruns, hreport⟩ := Routine.exists_runs_of_any hsucceeds
  case error => cases hreport
  obtain ⟨hrounds, hexecuted, hnotMatched, hskipped, hfailures⟩ := of_decide_eq_true hreport
  obtain ⟨flushed, opening, runs, _, -, hway, -, -, hprocessed, hfailed, hlist, -⟩ :=
    drain_workList hservice hruns
  have hlength : runs.length = 3 := by
    rw [← hprocessed, DrainReport.processed, hexecuted, hnotMatched, hskipped, hfailures]
  have hcounted : (runs.filter EntryRun.failed).length = 1 := by
    rw [← List.length_map, ← hfailed, List.length_map, hfailures]
  exact ⟨hservice, report, final, hruns, hrounds, hexecuted, hskipped, flushed, opening, runs, hway,
    hlength, hcounted, hlist⟩

end ContentRules
