import ContentRules.Proofs.Engine.Keeps

/-!
# Budgets that suffice

A routine that flushes or drains is given a budget, and says nothing if the budget is too small.
Here it is shown that a drain ends for some budget, if no handler starts a drain itself and every
flush ends for some budget.

## Strategy

Routines are looked at as families, one routine for each budget.  Two things are to be shown of the
families that the engine builds out of its flushes:

* **A larger budget changes nothing.**  What a routine answers on a budget, it answers on the next
  (`Routine.GrowsAt`), by induction on the budget.
* **Some budget suffices.**  A sequence ends if both parts do, each for a budget of its own, since
  the larger of the two budgets then serves both (`Routine.Ends`).

Both pass from the parts of a routine to the whole in the same way: `Routine.Composes` says how, and
the walk over scripts, entries and rounds is made once for both.
-/

namespace ContentRules

variable {α β : Type}

namespace Routine

/-- A property of budgeted routines that holds of steps which need no budget, of sequences and of
attempts whose parts have it. -/
structure Composes (P : (α : Type) → (Nat → Routine α) → Prop) : Prop where
  step : ∀ {α : Type} {routine : Routine α},
    (∀ state, ∃ answer after, routine.Runs state answer after) → P α fun _ => routine
  bind : ∀ {α β : Type} {family : Nat → Routine α} {next : Nat → α → Routine β}, P α family →
    (∀ result, P β fun budget => next budget result) →
      P β fun budget => family budget >>= next budget
  attempt : ∀ {α : Type} {family : Nat → Routine α}, P α family →
    P (Except Error α) fun budget => (family budget).attempt

namespace Composes

variable {P : (α : Type) → (Nat → Routine α) → Prop} (hP : Composes P)

include hP

theorem pure (result : α) : P α fun _ => Pure.pure result :=
  hP.step fun state => ⟨_, state, runs_pure.mpr ⟨rfl, rfl⟩⟩

theorem throw (error : Error) : P α fun _ => MonadExcept.throw error :=
  hP.step fun state => ⟨_, state, runs_throw.mpr ⟨rfl, rfl⟩⟩

theorem lift (outcome : Except Error α) : P α fun _ => liftM outcome :=
  hP.step fun state => ⟨_, state, runs_lift.mpr ⟨rfl, rfl⟩⟩

theorem work : P UnitOfWork fun _ => Routine.work :=
  hP.step fun _ => ⟨_, _, runs_work⟩

theorem update (f : UnitOfWork → UnitOfWork) : P Unit fun _ => Routine.update f :=
  hP.step fun _ => ⟨_, _, runs_update f⟩

theorem write (line : JournalLine) : P Unit fun _ => Routine.write line :=
  hP.step fun _ => ⟨_, _, runs_write line⟩

/-- What follows a computed outcome need be looked at for its result only. -/
theorem lift_bind {outcome : Except Error α} {next : Nat → α → Routine β}
    (hnext : ∀ result, outcome = .ok result → P β fun budget => next budget result) :
    P β fun budget => liftM outcome >>= next budget := by
  cases outcome with
  | error error => exact hP.throw error
  | ok result => exact hnext result rfl

theorem forM {items : List α} {body : Nat → α → Routine Unit}
    (hbody : ∀ item ∈ items, P Unit fun budget => body budget item) :
    P Unit fun budget => items.forM (body budget) := by
  induction items with
  | nil => exact hP.pure ()
  | cons item items ih =>
      have hfirst := hbody item List.mem_cons_self
      have hrest := ih fun other hother => hbody other (List.mem_cons_of_mem item hother)
      exact hP.bind hfirst fun _ => hrest

theorem foldlM {body : Nat → β → α → Routine β}
    (hbody : ∀ accumulated item, P β fun budget => body budget accumulated item) (items : List α)
    (accumulated : β) : P β fun budget => items.foldlM (body budget) accumulated := by
  induction items generalizing accumulated with
  | nil => exact hP.pure accumulated
  | cons item items ih =>
      simp only [List.foldlM_cons]
      exact hP.bind (hbody accumulated item) fun next => ih next

end Composes

/-! ## A larger budget changes nothing -/

/-- What the routine answers on this budget, it answers on the next one. -/
def GrowsAt (budget : Nat) (α : Type) (family : Nat → Routine α) : Prop :=
  ∀ ⦃state after : WorkState⦄ ⦃answer : Except Error α⦄,
    (family budget).Runs state answer after → (family (budget + 1)).Runs state answer after

theorem composes_growsAt (budget : Nat) : Composes (GrowsAt budget) where
  step _ _ _ _ hruns := hruns
  bind {_ _ _ _} hfamily hnext := by
    intro state after answer hruns
    rcases runs_bind.mp hruns with ⟨result, middle, hfirst, hsecond⟩ | ⟨error, hfirst, hanswer⟩
    · exact runs_bind.mpr (.inl ⟨result, middle, hfamily hfirst, hnext result hsecond⟩)
    · exact runs_bind.mpr (.inr ⟨error, hfamily hfirst, hanswer⟩)
  attempt hfamily := by
    intro state after answer hruns
    obtain ⟨outcome, hanswer, hinner⟩ := runs_attempt.mp hruns
    exact runs_attempt.mpr ⟨outcome, hanswer, hfamily hinner⟩

/-- A routine that grows with every budget gives the same answer on all larger budgets. -/
theorem runs_of_le {family : Nat → Routine α} (hgrows : ∀ budget, GrowsAt budget α family)
    {budget larger : Nat} (hle : budget ≤ larger) {state after : WorkState}
    {answer : Except Error α} (hruns : (family budget).Runs state answer after) :
    (family larger).Runs state answer after := by
  induction hle with
  | refl => exact hruns
  | step _ ih => exact hgrows _ ih

/-! ## Some budget suffices -/

/-- A larger budget changes nothing, and on every state some budget suffices. -/
structure Ends (α : Type) (family : Nat → Routine α) : Prop where
  grows : ∀ budget, GrowsAt budget α family
  exists_runs : ∀ state, ∃ budget answer after, (family budget).Runs state answer after

theorem composes_ends : Composes Ends where
  step htotal := {
    grows := fun budget => (composes_growsAt budget).step htotal
    exists_runs := fun state => ⟨0, htotal state⟩ }
  bind {_ _ family next} hfamily hnext := {
    grows := by
      intro budget
      have hgrows := fun result => (hnext result).grows budget
      exact (composes_growsAt budget).bind (hfamily.grows budget) hgrows
    exists_runs := by
      intro state
      obtain ⟨first, outcome, middle, hfirst⟩ := hfamily.exists_runs state
      cases outcome with
      | error error =>
          exact ⟨first, .error error, middle, runs_bind.mpr (.inr ⟨error, hfirst, rfl⟩)⟩
      | ok result =>
          obtain ⟨second, answer, after, hsecond⟩ := (hnext result).exists_runs middle
          -- Each part has a budget of its own; the larger one serves both.
          have hfirst' := runs_of_le hfamily.grows (Nat.le_max_left first second) hfirst
          have hsecond' := runs_of_le (hnext result).grows (Nat.le_max_right first second) hsecond
          exact ⟨max first second, answer, after,
            runs_bind.mpr (.inl ⟨result, middle, hfirst', hsecond'⟩)⟩ }
  attempt hfamily := {
    grows := fun budget => (composes_growsAt budget).attempt (hfamily.grows budget)
    exists_runs := by
      intro state
      obtain ⟨budget, outcome, after, hruns⟩ := hfamily.exists_runs state
      exact ⟨budget, .ok outcome, after, runs_attempt.mpr ⟨outcome, rfl, hruns⟩⟩ }

end Routine

open Routine

/-! ## Scripts -/

section Scripts

variable {P : (α : Type) → (Nat → Routine α) → Prop} (hP : Composes P) {rules : RuleStore}
  {engine : Nat → Engine} (hflush : P Unit fun budget => (engine budget).flush) {allowed : Prop}
  (hdrain : allowed → P DrainReport fun budget => (engine budget).drain)

include hP hflush hdrain

/-- A script has what flushes have, and drains if it may start one. -/
theorem Script.run_composes {script : Script α} (hscript : script.DrainsOnlyIf allowed) :
    P α fun budget => script.run rules (engine budget) := by
  induction script with
  | done result => exact hP.pure result
  | fail error => exact hP.throw error
  | look next ih => exact hP.bind hP.work fun work => ih _ (hscript _)
  | edit change next ih =>
      have hedit := hP.step fun _ => ⟨_, _, runs_performEdit change⟩
      exact hP.bind hedit fun answer => ih answer (hscript answer)
  | enqueue entry next ih =>
      have henqueue := hP.step fun _ => ⟨_, _, runs_enqueue entry⟩
      exact hP.bind henqueue fun queued => ih queued (hscript queued)
  | deliver next ih =>
      exact hP.bind (hP.attempt hflush) fun outcome => ih outcome (hscript outcome)
  | runPending next ih =>
      exact hP.bind (hP.attempt (hdrain hscript.1)) fun outcome => ih outcome (hscript.2 outcome)
  | turn switch next ih => exact hP.bind (hP.update _) fun _ => ih hscript
  | deferCopy source copy next ih => exact hP.bind (hP.update _) fun _ => ih hscript
  | note line next ih => exact hP.bind (hP.write _) fun _ => ih hscript

end Scripts

namespace RuleService

/-! ## Entries and rounds -/

section Entries

variable {service : RuleService} {rules : RuleStore} {allowed : Prop}
  (hservice : service.DrainsOnlyIf allowed) {P : (α : Type) → (Nat → Routine α) → Prop}
  (hP : Composes P) {engine : Nat → Engine} (hflush : P Unit fun budget => (engine budget).flush)
  (hdrain : allowed → P DrainReport fun budget => (engine budget).drain)

include hservice hP hflush hdrain

theorem deliverAll_composes (events : List NodeEvent) :
    P Unit fun budget => service.deliverAll rules (engine budget) events := by
  refine hP.forM fun event _ => hP.bind (hP.update _) fun _ => hP.forM fun behaviour hbound => ?_
  have hmem : behaviour ∈ service.behaviours := (List.mem_filter.mp hbound).1
  exact Script.run_composes hP hflush hdrain (hservice.react behaviour hmem event)

theorem flushOn_composes : P Unit fun budget => service.flushOn rules (engine budget) := by
  refine hP.bind (hP.step fun _ => ⟨_, _, runs_takeEvents⟩) fun events => ?_
  cases events with
  | nil => exact hP.pure ()
  | cons event events =>
      exact hP.bind (deliverAll_composes hservice hP hflush hdrain (event :: events)) fun _ =>
        hflush

theorem runRule_composes (entry : PendingEntry) :
    P Outcome fun budget => service.runRule rules (engine budget) entry := by
  unfold runRule
  refine hP.bind (hP.lift _) fun parts => ?_
  obtain ⟨condition, action⟩ := parts
  refine hP.bind (hP.lift _) fun evaluator => hP.lift_bind fun executor hexecutor => ?_
  refine hP.bind hP.work fun work => hP.bind (hP.lift _) fun holds => ?_
  cases holds with
  | false => exact hP.pure _
  | true =>
      have hscript := hservice.execute hexecutor entry.actionable entry.actionedUpon
      exact hP.bind (Script.run_composes hP hflush hdrain hscript) fun _ =>
        hP.bind hflush fun _ => hP.pure _

theorem runEntry_composes (entry : PendingEntry) :
    P Outcome fun budget => service.runEntry rules (engine budget) entry := by
  have hrule : P Outcome fun budget =>
      whileExecuting entry.rule (service.runRule rules (engine budget) entry) := by
    unfold whileExecuting
    refine hP.bind hP.work fun work => hP.bind (hP.update _) fun _ => ?_
    refine hP.bind (hP.attempt (runRule_composes hservice hP hflush hdrain entry)) fun outcome => ?_
    exact hP.bind (hP.update _) fun _ => hP.lift outcome
  unfold runEntry
  refine hP.bind hP.work fun work => ?_
  by_cases hskipped : isSkipped work entry
  · simp only [if_pos hskipped]
    exact hP.pure _
  · simp only [if_neg hskipped]
    refine hP.bind (hP.attempt hrule) fun outcome => ?_
    cases outcome with
    | ok outcome => exact hP.pure outcome
    | error error => exact hP.bind (hP.update _) fun _ => hP.throw _

theorem processEntry_composes (report : DrainReport) (entry : PendingEntry) :
    P DrainReport fun budget => service.processEntry rules (engine budget) report entry := by
  unfold processEntry
  by_cases hceiling : service.config.maxExecutions ≤ report.processed
  · simp only [if_pos hceiling]
    exact hP.lift _
  · simp only [if_neg hceiling]
    have hentry : P Outcome fun budget => service.runEntry rules (engine budget) entry :=
      runEntry_composes hservice hP hflush hdrain entry
    refine hP.bind (hP.attempt hentry) fun outcome => ?_
    cases outcome with
    | ok outcome => exact hP.pure _
    | error error =>
        refine hP.bind (hP.update _) fun _ => hP.bind (hP.write _) fun _ => ?_
        by_cases hfast : service.config.failFast
        · simp only [if_pos hfast]
          exact hP.throw error
        · simp only [if_neg hfast]
          exact hP.pure _

theorem drainRounds_composes (remaining : Nat) (report : DrainReport) :
    P DrainReport fun budget => service.drainRounds rules (engine budget) remaining report := by
  have htake : P (List PendingEntry) fun _ => takePending :=
    hP.step fun _ => ⟨_, _, runs_takePending⟩
  induction remaining generalizing report with
  | zero =>
      unfold drainRounds
      refine hP.bind htake fun batch => ?_
      cases batch with
      | nil => exact hP.pure report
      | cons entry batch => exact hP.lift _
  | succ remaining ih =>
      unfold drainRounds
      refine hP.bind htake fun batch => ?_
      cases batch with
      | nil => exact hP.pure report
      | cons entry batch =>
          have hentry : ∀ report entry, P DrainReport fun budget =>
              service.processEntry rules (engine budget) report entry :=
            processEntry_composes hservice hP hflush hdrain
          exact hP.bind (hP.foldlM hentry (entry :: batch) _) fun next => ih next

end Entries

/-! ## The engine -/

variable {service : RuleService} {rules : RuleStore}

/-- Every flush ends: on any state some budget suffices for it. -/
def FlushesEnd (service : RuleService) (rules : RuleStore) : Prop :=
  ∀ state, ∃ budget answer after, (service.engine rules budget).flush.Runs state answer after

/-- A flush that ends is not changed by a larger budget. -/
theorem NeverDrains.flush_growsAt (hservice : service.NeverDrains) (budget : Nat) :
    GrowsAt budget Unit fun budget => (service.engine rules budget).flush := by
  induction budget with
  | zero =>
      intro state after answer hruns
      exact absurd hruns runs_exhausted
  | succ budget ih =>
      -- The flush on the next budget is built of flushes on this one.
      have hnext : GrowsAt budget Unit fun budget => (service.engine rules (budget + 1)).flush :=
        flushOn_composes hservice (composes_growsAt budget) ih False.elim
      exact hnext

/-- **Drains end if flushes do.**  If no handler starts a drain and every flush ends, then every
drain ends, whatever the rules and the ceilings are. -/
theorem NeverDrains.exists_drain_runs (hservice : service.NeverDrains)
    (hflushes : service.FlushesEnd rules) (state : WorkState) :
    ∃ budget answer after, (service.engine rules budget).drain.Runs state answer after := by
  have hflush : Ends Unit fun budget => (service.engine rules budget).flush :=
    ⟨hservice.flush_growsAt, hflushes⟩
  have hbody : Ends DrainReport (fun budget => do
      (service.engine rules budget).flush
      service.drainRounds rules (service.engine rules budget) service.config.maxDrainRounds {}) :=
    composes_ends.bind hflush fun _ =>
      drainRounds_composes hservice composes_ends hflush False.elim _ {}
  obtain ⟨budget, outcome, after, hruns⟩ := hbody.exists_runs state
  -- The drain itself spends one more.
  refine ⟨budget + 1, ?_⟩
  cases outcome with
  | ok report => exact ⟨_, _, runs_abortingOnError.mpr (.inl ⟨report, hruns, rfl⟩)⟩
  | error error => exact ⟨_, _, runs_abortingOnError.mpr (.inr ⟨error, after, hruns, rfl, rfl⟩)⟩

end RuleService

/-! ## Behaviours that leave the nodes alone

The behaviours that trigger rules queue entries and do nothing else, so what they do records no
events, and a flush ends in its second turn. -/

/-- The script edits no node, and neither delivers events nor runs rules. -/
def Script.LeavesNodes : Script α → Prop
  | done _ => True
  | fail _ => True
  | look next => ∀ view, (next view).LeavesNodes
  | edit _ _ => False
  | enqueue _ next => ∀ queued, (next queued).LeavesNodes
  | deliver _ => False
  | runPending _ => False
  | turn _ next => next.LeavesNodes
  | deferCopy _ _ next => next.LeavesNodes
  | note _ next => next.LeavesNodes

namespace Routine

/-- On every state the routine ends, and leaves the nodes as they were. -/
def EndsOnNodes (routine : Routine α) : Prop :=
  ∀ state, ∃ answer after, routine.Runs state answer after ∧ after.work.nodes = state.work.nodes

theorem EndsOnNodes.bind {routine : Routine α} {next : α → Routine β} (hfirst : routine.EndsOnNodes)
    (hnext : ∀ result, (next result).EndsOnNodes) : (routine >>= next).EndsOnNodes := by
  intro state
  obtain ⟨outcome, middle, hruns, hmiddle⟩ := hfirst state
  cases outcome with
  | error error => exact ⟨.error error, middle, runs_bind.mpr (.inr ⟨error, hruns, rfl⟩), hmiddle⟩
  | ok result =>
      obtain ⟨answer, after, hrest, hafter⟩ := hnext result middle
      exact ⟨answer, after, (runs_bind_of_runs hruns).mpr hrest, hafter.trans hmiddle⟩

theorem EndsOnNodes.forM {items : List α} {body : α → Routine Unit}
    (hbody : ∀ item ∈ items, (body item).EndsOnNodes) : (items.forM body).EndsOnNodes := by
  induction items with
  | nil => exact fun state => ⟨_, state, runs_pure.mpr ⟨rfl, rfl⟩, rfl⟩
  | cons item items ih =>
      have hfirst := hbody item List.mem_cons_self
      have hrest := ih fun other hother => hbody other (List.mem_cons_of_mem item hother)
      exact hfirst.bind fun _ => hrest

end Routine

open Routine

variable {rules : RuleStore} {engine : Engine}

theorem Script.LeavesNodes.endsOnNodes {script : Script α} (hscript : script.LeavesNodes) :
    (script.run rules engine).EndsOnNodes := by
  induction script with
  | done result => exact fun state => ⟨_, state, runs_pure.mpr ⟨rfl, rfl⟩, rfl⟩
  | fail error => exact fun state => ⟨_, state, runs_throw.mpr ⟨rfl, rfl⟩, rfl⟩
  | look next ih =>
      have hlook : Routine.work.EndsOnNodes := fun state => ⟨_, state, runs_work, rfl⟩
      exact hlook.bind fun work => ih _ (hscript _)
  | edit | deliver | runPending => exact hscript.elim
  | enqueue entry next ih =>
      have henqueue : (Routine.enqueue entry).EndsOnNodes :=
        fun state => ⟨_, _, runs_enqueue entry, state.work.nodes_enqueue entry⟩
      exact henqueue.bind fun queued => ih queued (hscript queued)
  | turn switch next ih =>
      have hturn : (Routine.update fun work => work.turn switch).EndsOnNodes :=
        fun state => ⟨_, _, runs_update _, state.work.nodes_turn switch⟩
      exact hturn.bind fun _ => ih hscript
  | deferCopy source copy next ih =>
      have hdefer : (Routine.update fun work => work.deferCopy source copy).EndsOnNodes :=
        fun _ => ⟨_, _, runs_update _, rfl⟩
      exact hdefer.bind fun _ => ih hscript
  | note line next ih =>
      have hnote : (Routine.write (.written line)).EndsOnNodes := fun _ => ⟨_, _, runs_write _, rfl⟩
      exact hnote.bind fun _ => ih hscript

namespace RuleService

variable {service : RuleService}

/-- If no behaviour touches the nodes, then a flush finds no events in its second turn. -/
theorem flushesEnd_of_leavesNodes (hbehaviours : ∀ behaviour ∈ service.behaviours,
    ∀ event, (behaviour.react event).LeavesNodes) : service.FlushesEnd rules := by
  have hdeliver : ∀ events,
      (service.deliverAll rules (service.engine rules 1) events).EndsOnNodes := by
    intro events
    refine EndsOnNodes.forM fun event _ => EndsOnNodes.bind ?_ fun _ => EndsOnNodes.forM ?_
    · exact fun state => ⟨_, _, runs_update _, state.work.nodes_noteNew event⟩
    · intro behaviour hbound
      exact (hbehaviours behaviour (List.mem_filter.mp hbound).1 event).endsOnNodes
  intro state
  show ∃ budget answer after, (flush service rules budget).Runs state answer after
  refine ⟨2, ?_⟩
  simp only [flush_succ service rules 1, runs_bind_of_runs runs_takeEvents]
  cases state.work.nodes.events with
  | nil => exact ⟨_, _, runs_pure.mpr ⟨rfl, rfl⟩⟩
  | cons event events =>
      obtain ⟨outcome, delivered, hruns, hnodes⟩ :=
        hdeliver (event :: events) (withoutEvents state)
      cases outcome with
      | error error => exact ⟨_, _, runs_bind.mpr (.inr ⟨error, hruns, rfl⟩)⟩
      | ok =>
          -- No behaviour has recorded anything, so the second turn is the last one.
          have hquiet : delivered.work.nodes.events = [] := by
            rw [hnodes]
            rfl
          exact ⟨_, _, (runs_bind_of_runs hruns).mpr (runs_flush_of_quiet hquiet 0)⟩

end RuleService

end ContentRules
