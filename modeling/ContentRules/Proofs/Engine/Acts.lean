import ContentRules.Proofs.Engine.Runs

/-!
# What handlers do

The engine is a pair of loops that run scripts, and scripts may call on the loops again.  What is to
be said of all that they do to a unit of work is said as a relation between the state before and the
state after.

**Strategy.**  Each step of a script is an act, and `Script.Uses` says that a script does no act but
those allowed, whatever it is answered.  `KeptByActs` asks little of a relation: it is one of
preorder, and each allowed act and each step in the delivery of events is an instance of it.
`KeptByDrainsOf` asks in addition for the five things that a drain does itself.  If the handlers of
a service do only what is allowed, scripts keep every relation of the first kind by induction on the
script, and flushes and drains by induction on the budget; the induction is made once, here.
-/

namespace ContentRules

variable {α β : Type}

/-! ## Acts -/

/-- What a script can do in one step. -/
inductive Act where
  | edit (change : Edit)
  | enqueue (entry : PendingEntry)
  | deliver
  | runPending
  | turn (switch : Switch)
  | deferCopy (source copy : NodeRef)
  | note (line : Value)

/-- The state that an act leaves, apart from what the routine does that it calls on. -/
def Act.effect : Act → WorkState → WorkState
  | edit change, state => Routine.edited state change
  | enqueue entry, state => { state with work := (state.work.enqueue entry).2 }
  | deliver, state => state
  | runPending, state => state
  | turn switch, state => { state with work := state.work.turn switch }
  | deferCopy source copy, state => { state with work := state.work.deferCopy source copy }
  | note line, state => { state with journal := state.journal ++ [.written line] }

/-- If the act defers rules to be copied at the commit, it does so for these nodes. -/
def Act.DefersOnly (wanted : NodeRef × NodeRef → Prop) : Act → Prop
  | deferCopy source copy => wanted (source, copy)
  | _ => True

/-! ### What acts leave alone -/

namespace UnitOfWork

theorem exists_enqueue_eq (work : UnitOfWork) (entry : PendingEntry) :
    ∃ pending, (work.enqueue entry).2 = { work with pending } := by
  unfold enqueue
  split
  · exact ⟨work.pending, rfl⟩
  · exact ⟨_, rfl⟩

theorem exists_noteNew_eq (work : UnitOfWork) (event : NodeEvent) :
    ∃ newNodes, work.noteNew event = { work with newNodes } := by
  unfold noteNew
  split
  · exact ⟨_, rfl⟩
  · exact ⟨work.newNodes, rfl⟩

theorem exists_turn_eq (work : UnitOfWork) (switch : Switch) :
    ∃ disabledNodes rulesDisabled, work.turn switch = { work with disabledNodes, rulesDisabled } := by
  cases switch with
  | enable | disable => exact ⟨_, work.rulesDisabled, rfl⟩
  | enableAll | disableAll => exact ⟨work.disabledNodes, _, rfl⟩

section Fields

variable (work : UnitOfWork) (entry : PendingEntry) (event : NodeEvent) (switch : Switch)

@[simp] theorem nodes_enqueue : (work.enqueue entry).2.nodes = work.nodes := by
  obtain ⟨pending, hqueued⟩ := work.exists_enqueue_eq entry
  rw [hqueued]

@[simp] theorem ruleCopies_enqueue : (work.enqueue entry).2.ruleCopies = work.ruleCopies := by
  obtain ⟨pending, hqueued⟩ := work.exists_enqueue_eq entry
  rw [hqueued]

@[simp] theorem pending_noteNew : (work.noteNew event).pending = work.pending := by
  obtain ⟨newNodes, hnoted⟩ := work.exists_noteNew_eq event
  rw [hnoted]

@[simp] theorem nodes_noteNew : (work.noteNew event).nodes = work.nodes := by
  obtain ⟨newNodes, hnoted⟩ := work.exists_noteNew_eq event
  rw [hnoted]

@[simp] theorem ruleCopies_noteNew : (work.noteNew event).ruleCopies = work.ruleCopies := by
  obtain ⟨newNodes, hnoted⟩ := work.exists_noteNew_eq event
  rw [hnoted]

@[simp] theorem pending_turn : (work.turn switch).pending = work.pending := by
  obtain ⟨disabledNodes, rulesDisabled, hturned⟩ := work.exists_turn_eq switch
  rw [hturned]

@[simp] theorem nodes_turn : (work.turn switch).nodes = work.nodes := by
  obtain ⟨disabledNodes, rulesDisabled, hturned⟩ := work.exists_turn_eq switch
  rw [hturned]

@[simp] theorem ruleCopies_turn : (work.turn switch).ruleCopies = work.ruleCopies := by
  obtain ⟨disabledNodes, rulesDisabled, hturned⟩ := work.exists_turn_eq switch
  rw [hturned]

end Fields

end UnitOfWork

namespace Script

/-- Whatever it is answered, the script does no act but those allowed. -/
def Uses (allowed : Act → Prop) : Script α → Prop
  | done _ => True
  | fail _ => True
  | look next => ∀ view, (next view).Uses allowed
  | edit change next => allowed (.edit change) ∧ ∀ answer, (next answer).Uses allowed
  | enqueue entry next => allowed (.enqueue entry) ∧ ∀ queued, (next queued).Uses allowed
  | deliver next => allowed .deliver ∧ ∀ outcome, (next outcome).Uses allowed
  | runPending next => allowed .runPending ∧ ∀ outcome, (next outcome).Uses allowed
  | turn switch next => allowed (.turn switch) ∧ next.Uses allowed
  | deferCopy source copy next => allowed (.deferCopy source copy) ∧ next.Uses allowed
  | note line next => allowed (.note line) ∧ next.Uses allowed

variable {allowed : Act → Prop}

theorem Uses.bind {script : Script α} {next : α → Script β} (hscript : script.Uses allowed)
    (hnext : ∀ result, (next result).Uses allowed) : (script >>= next).Uses allowed := by
  show (script.bind next).Uses allowed
  induction script with
  | done result => exact hnext result
  | fail => trivial
  | look _ ih => exact fun view => ih _ (hscript view)
  | edit _ _ ih | enqueue _ _ ih | deliver _ ih | runPending _ ih =>
      exact ⟨hscript.1, fun answer => ih _ (hscript.2 answer)⟩
  | turn _ _ ih | deferCopy _ _ _ ih | note _ _ ih => exact ⟨hscript.1, ih hscript.2⟩

theorem Uses.discard {script : Script α} (hscript : script.Uses allowed) :
    (discard script : Script Unit).Uses allowed :=
  hscript.bind fun _ => trivial

theorem Uses.mono {other : Act → Prop} {script : Script α} (hscript : script.Uses allowed)
    (hallowed : ∀ act, allowed act → other act) : script.Uses other := by
  induction script with
  | done | fail => trivial
  | look _ ih => exact fun view => ih view (hscript view)
  | edit _ _ ih | enqueue _ _ ih | deliver _ ih | runPending _ ih =>
      exact ⟨hallowed _ hscript.1, fun answer => ih answer (hscript.2 answer)⟩
  | turn _ _ ih | deferCopy _ _ _ ih | note _ _ ih => exact ⟨hallowed _ hscript.1, ih hscript.2⟩

theorem uses_ofExcept (outcome : Except Error α) : (ofExcept outcome).Uses allowed := by
  cases outcome <;> trivial

theorem uses_apply {change : Edit} (hchange : allowed (.edit change)) :
    (apply change).Uses allowed :=
  ⟨hchange, fun answer => uses_ofExcept answer⟩

end Script

/-! ## Relations -/

/-- A relation that holds however many of the allowed acts are done and events are delivered. -/
structure KeptByActs (allowed : Act → Prop) (R : WorkState → WorkState → Prop) : Prop where
  refl : ∀ state : WorkState, R state state
  trans : ∀ {first second third : WorkState}, R first second → R second third → R first third
  act : ∀ {act : Act}, allowed act → ∀ state : WorkState, R state (act.effect state)
  takeEvents : ∀ state : WorkState, R state (RuleService.withoutEvents state)
  noteNew : ∀ (state : WorkState) (event : NodeEvent),
    R state { state with work := state.work.noteNew event }

/-- A relation that also holds whatever a drain does between the scripts that it runs. -/
structure KeptByDrainsOf (allowed : Act → Prop) (R : WorkState → WorkState → Prop) : Prop
    extends KeptByActs allowed R where
  takePending : ∀ state : WorkState, R state (RuleService.withoutPending state)
  /-- A rule is marked, and what was marked before is put back. -/
  executing : ∀ {state after : WorkState} (rule : Rule),
    R { state with work := { state.work with executing := some rule } } after →
      R state { after with work := { after.work with executing := state.work.executing } }
  restore : ∀ {state failed : WorkState}, R state failed →
    R state { failed with work := failed.work.restore state.work.checkpoint }
  failEntry : ∀ (state : WorkState) (failure : RuleFailure), R state (state.failEntry failure)
  abort : ∀ (state : WorkState) (error : Error), R state (state.abort error)

variable {R : WorkState → WorkState → Prop} {allowed : Act → Prop}

namespace Routine

/-- Whatever a run of the routine does, it leaves a state that is related to the one before. -/
def Keeps (routine : Routine α) (R : WorkState → WorkState → Prop) : Prop :=
  ∀ ⦃state after : WorkState⦄ ⦃answer : Except Error α⦄,
    routine.Runs state answer after → R state after

/-- A step that succeeds keeps a relation that holds between the state before and the one after. -/
theorem keeps_of_runs {routine : Routine α} {result : WorkState → α}
    {next : WorkState → WorkState} (hroutine : ∀ state, routine.Runs state (.ok (result state))
      (next state)) (hnext : ∀ state, R state (next state)) : routine.Keeps R := by
  intro state after answer hruns
  obtain ⟨-, rfl⟩ := (hroutine state).unique hruns
  exact hnext state

theorem keeps_exhausted : (exhausted : Routine α).Keeps R :=
  fun _ _ _ hruns => absurd hruns runs_exhausted

theorem keeps_attempt {routine : Routine α} (hroutine : routine.Keeps R) :
    routine.attempt.Keeps R := by
  intro state after answer hruns
  obtain ⟨outcome, -, hruns⟩ := runs_attempt.mp hruns
  exact hroutine hruns

section Preorder

variable (hR : KeptByActs allowed R)

include hR

theorem keeps_pure (result : α) : (pure result : Routine α).Keeps R := by
  intro state after answer hruns
  obtain ⟨-, rfl⟩ := runs_pure.mp hruns
  exact hR.refl _

theorem keeps_throw (error : Error) : (throw error : Routine α).Keeps R := by
  intro state after answer hruns
  obtain ⟨-, rfl⟩ := runs_throw.mp hruns
  exact hR.refl _

theorem keeps_work : work.Keeps R :=
  keeps_of_runs (fun _ => runs_work) hR.refl

theorem keeps_bind {routine : Routine α} {next : α → Routine β} (hroutine : routine.Keeps R)
    (hnext : ∀ result, (next result).Keeps R) : (routine >>= next).Keeps R := by
  intro state after answer hruns
  rcases runs_bind.mp hruns with ⟨result, middle, hfirst, hsecond⟩ | ⟨error, hfirst, -⟩
  · exact hR.trans (hroutine hfirst) (hnext result hsecond)
  · exact hroutine hfirst

/-- What follows a computed outcome need be looked at for its result only. -/
theorem keeps_lift_bind {outcome : Except Error α} {next : α → Routine β}
    (hnext : ∀ result, outcome = .ok result → (next result).Keeps R) :
    (liftM outcome >>= next : Routine β).Keeps R := by
  intro state after answer hruns
  rcases runs_lift_bind.mp hruns with ⟨result, hresult, hrest⟩ | ⟨error, -, -, rfl⟩
  · exact hnext result hresult hrest
  · exact hR.refl _

theorem keeps_forM {items : List α} {body : α → Routine Unit}
    (hbody : ∀ item ∈ items, (body item).Keeps R) : (items.forM body).Keeps R := by
  induction items with
  | nil => exact keeps_pure hR ()
  | cons item items ih =>
      refine keeps_bind hR (hbody item (by simp)) fun _ => ih ?_
      intro other hother
      exact hbody other (List.mem_cons_of_mem item hother)

theorem keeps_foldlM {body : β → α → Routine β}
    (hbody : ∀ accumulated item, (body accumulated item).Keeps R) (items : List α)
    (accumulated : β) : (items.foldlM body accumulated).Keeps R := by
  induction items generalizing accumulated with
  | nil => exact keeps_pure hR accumulated
  | cons item items ih =>
      rw [List.foldlM_cons]
      exact keeps_bind hR (hbody accumulated item) fun next => ih next

end Preorder

end Routine

open Routine

/-! ## Scripts -/

/-- A script that calls on no routine is run alike on every engine. -/
theorem Script.Uses.run_congr {rules : RuleStore} {script : Script α}
    (hscript : script.Uses allowed) (hflush : ¬ allowed .deliver) (hdrain : ¬ allowed .runPending)
    (engine other : Engine) : script.run rules engine = script.run rules other := by
  induction script with
  | done | fail => rfl
  | look next ih => exact bind_congr fun work => ih _ (hscript _)
  | edit change next ih => exact bind_congr fun answer => ih answer (hscript.2 answer)
  | enqueue entry next ih => exact bind_congr fun queued => ih queued (hscript.2 queued)
  | deliver => exact absurd hscript.1 hflush
  | runPending => exact absurd hscript.1 hdrain
  | turn _ _ ih | deferCopy _ _ _ ih | note _ _ ih => exact bind_congr fun _ => ih hscript.2

/-- A script keeps what each of the acts keeps that it may do. -/
theorem Script.Uses.run_keeps {rules : RuleStore} {engine : Engine} (hR : KeptByActs allowed R)
    (hflush : engine.flush.Keeps R) (hdrain : allowed .runPending → engine.drain.Keeps R)
    {script : Script α} (hscript : script.Uses allowed) : (script.run rules engine).Keeps R := by
  induction script with
  | done result => exact keeps_pure hR result
  | fail error => exact keeps_throw hR error
  | look next ih => exact keeps_bind hR (keeps_work hR) fun work => ih _ (hscript _)
  | edit change next ih =>
      refine keeps_bind hR ?_ fun answer => ih answer (hscript.2 answer)
      exact keeps_of_runs (fun _ => runs_performEdit change) (hR.act hscript.1)
  | enqueue entry next ih =>
      refine keeps_bind hR ?_ fun queued => ih queued (hscript.2 queued)
      exact keeps_of_runs (fun _ => runs_enqueue entry) (hR.act hscript.1)
  | deliver next ih =>
      exact keeps_bind hR (keeps_attempt hflush) fun outcome => ih outcome (hscript.2 outcome)
  | runPending next ih =>
      exact keeps_bind hR (keeps_attempt (hdrain hscript.1)) fun outcome =>
        ih outcome (hscript.2 outcome)
  | turn switch next ih =>
      refine keeps_bind hR ?_ fun _ => ih hscript.2
      exact keeps_of_runs (fun _ => runs_update _) (hR.act hscript.1)
  | deferCopy source copy next ih =>
      refine keeps_bind hR ?_ fun _ => ih hscript.2
      exact keeps_of_runs (fun _ => runs_update _) (hR.act hscript.1)
  | note line next ih =>
      refine keeps_bind hR ?_ fun _ => ih hscript.2
      exact keeps_of_runs (fun _ => runs_write _) (hR.act hscript.1)

namespace RuleService

variable {service : RuleService} {rules : RuleStore} {engine : Engine}

/-- The bound behaviours and the executors that the registry makes do no act but those allowed. -/
structure Uses (service : RuleService) (allowed : Act → Prop) : Prop where
  react : ∀ behaviour ∈ service.behaviours, ∀ event : NodeEvent,
    (behaviour.react event).Uses allowed
  execute : ∀ {action : Action} {executor : Executor},
    service.handlers.executor action = .ok executor →
      ∀ actionable actionedUpon : NodeRef, (executor actionable actionedUpon).Uses allowed

/-- Run on an engine, the bound behaviours and the executors that the registry makes keep the
relation. -/
structure HandlersKeep (service : RuleService) (rules : RuleStore) (engine : Engine)
    (R : WorkState → WorkState → Prop) : Prop where
  react : ∀ behaviour ∈ service.behaviours, ∀ event : NodeEvent,
    ((behaviour.react event).run rules engine).Keeps R
  execute : ∀ {action : Action} {executor : Executor},
    service.handlers.executor action = .ok executor →
      ∀ actionable actionedUpon : NodeRef,
        ((executor actionable actionedUpon).run rules engine).Keeps R

/-- Delivers the recorded events on an engine, and goes on with a flush of its own. -/
def flushOn (service : RuleService) (rules : RuleStore) (engine : Engine) : Routine Unit := do
  match ← takeEvents with
  | [] => return ()
  | events =>
    service.deliverAll rules engine events
    engine.flush

/-- Where behaviours call on no routine, events are delivered alike on every engine. -/
theorem Uses.deliverAll_congr (hservice : service.Uses allowed) (hflush : ¬ allowed .deliver)
    (hdrain : ¬ allowed .runPending) (engine other : Engine) (events : List NodeEvent) :
    service.deliverAll rules engine events = service.deliverAll rules other events := by
  have hreact : ∀ behaviours : List Behaviour, (∀ behaviour ∈ behaviours,
      behaviour ∈ service.behaviours) → ∀ event : NodeEvent,
      (behaviours.forM fun behaviour => (behaviour.react event).run rules engine) =
        behaviours.forM fun behaviour => (behaviour.react event).run rules other := by
    intro behaviours hbehaviours event
    induction behaviours with
    | nil => rfl
    | cons behaviour behaviours ih =>
        obtain ⟨hfirst, hrest⟩ := List.forall_mem_cons.mp hbehaviours
        have hsame : (behaviour.react event).run rules engine =
            (behaviour.react event).run rules other :=
          (hservice.react behaviour hfirst event).run_congr hflush hdrain engine other
        exact (congrArg (· >>= fun _ => behaviours.forM _) hsame).trans
          (bind_congr fun _ => ih hrest)
  refine congrArg (List.forM events) (funext fun event => bind_congr fun _ => ?_)
  exact hreact _ (fun behaviour hbound => (List.mem_filter.mp hbound).1) event

namespace HandlersKeep

variable (hhandlers : service.HandlersKeep rules engine R)

include hhandlers

/-! ## Deliveries -/

theorem deliverAll_keeps (hR : KeptByActs allowed R) (events : List NodeEvent) :
    (service.deliverAll rules engine events).Keeps R := by
  refine keeps_forM hR fun event _ => keeps_bind hR ?_ fun _ => keeps_forM hR ?_
  · exact keeps_of_runs (fun _ => runs_update _) fun state => hR.noteNew state event
  · intro behaviour hbound
    exact hhandlers.react behaviour (List.mem_filter.mp hbound).1 event

theorem flushOn_keeps (hflush : engine.flush.Keeps R) (hR : KeptByActs allowed R) :
    (service.flushOn rules engine).Keeps R := by
  refine keeps_bind hR (keeps_of_runs (fun _ => runs_takeEvents) hR.takeEvents) fun events => ?_
  split
  · exact keeps_pure hR ()
  · exact keeps_bind hR (hhandlers.deliverAll_keeps hR _) fun _ => hflush

theorem runRule_keeps (hflush : engine.flush.Keeps R) (hR : KeptByActs allowed R)
    (entry : PendingEntry) : (service.runRule rules engine entry).Keeps R := by
  unfold runRule
  refine keeps_lift_bind hR fun parts _ => ?_
  obtain ⟨condition, action⟩ := parts
  refine keeps_lift_bind hR fun evaluator _ => keeps_lift_bind hR fun executor hexecutor => ?_
  refine keeps_bind hR (keeps_work hR) fun work => keeps_lift_bind hR fun holds _ => ?_
  split
  · refine keeps_bind hR ?_ fun _ => keeps_bind hR hflush fun _ => keeps_pure hR _
    exact hhandlers.execute hexecutor entry.actionable entry.actionedUpon
  · exact keeps_pure hR _

end HandlersKeep

/-- Handlers that keep a relation wherever flushes do keep it in flushes. -/
theorem flush_keeps_of_handlersKeep
    (hhandlers : ∀ engine : Engine, engine.flush.Keeps R → service.HandlersKeep rules engine R)
    (hR : KeptByActs allowed R) (budget : Nat) : (service.engine rules budget).flush.Keeps R := by
  induction budget with
  | zero => exact keeps_exhausted
  | succ budget ih => exact (hhandlers (service.engine rules budget) ih).flushOn_keeps ih hR

namespace Uses

theorem mono {other : Act → Prop} (hservice : service.Uses allowed)
    (hallowed : ∀ act, allowed act → other act) : service.Uses other where
  react behaviour hbehaviour event := (hservice.react behaviour hbehaviour event).mono hallowed
  execute hmade actionable actionedUpon :=
    (hservice.execute hmade actionable actionedUpon).mono hallowed

section Entries

variable (hservice : service.Uses allowed) (hflush : engine.flush.Keeps R)
  (hdrain : allowed .runPending → engine.drain.Keeps R)

include hservice hflush hdrain

/-- Handlers that do only what is allowed keep what is kept by that. -/
theorem handlersKeep (hR : KeptByActs allowed R) : service.HandlersKeep rules engine R where
  react behaviour hbehaviour event :=
    (hservice.react behaviour hbehaviour event).run_keeps hR hflush hdrain
  execute hmade actionable actionedUpon :=
    (hservice.execute hmade actionable actionedUpon).run_keeps hR hflush hdrain

theorem flushOn_keeps (hR : KeptByActs allowed R) : (service.flushOn rules engine).Keeps R :=
  (hservice.handlersKeep hflush hdrain hR).flushOn_keeps hflush hR

theorem runRule_keeps (hR : KeptByActs allowed R) (entry : PendingEntry) :
    (service.runRule rules engine entry).Keeps R :=
  (hservice.handlersKeep hflush hdrain hR).runRule_keeps hflush hR entry

/-! ## Drains -/

theorem whileExecuting_keeps (hR : KeptByDrainsOf allowed R) (entry : PendingEntry) :
    (whileExecuting entry.rule (service.runRule rules engine entry)).Keeps R := by
  intro state after answer hruns
  obtain ⟨inner, hinner, rfl⟩ := runs_whileExecuting.mp hruns
  exact hR.executing entry.rule (hservice.runRule_keeps hflush hdrain hR.toKeptByActs entry hinner)

theorem runEntry_keeps (hR : KeptByDrainsOf allowed R) (entry : PendingEntry) :
    (service.runEntry rules engine entry).Keeps R := by
  have hrule : (whileExecuting entry.rule (service.runRule rules engine entry)).Keeps R :=
    hservice.whileExecuting_keeps hflush hdrain hR entry
  intro state after answer hruns
  by_cases hskipped : isSkipped state.work entry
  · obtain ⟨-, rfl⟩ := (runs_runEntry_of_skipped hskipped).mp hruns
    exact hR.refl _
  · rcases (runs_runEntry hskipped).mp hruns with ⟨_, hinner, -⟩ | ⟨_, failed, hfailed, -, rfl⟩
    · exact hrule hinner
    · exact hR.restore (hrule hfailed)

theorem processEntry_keeps (hR : KeptByDrainsOf allowed R) (report : DrainReport)
    (entry : PendingEntry) : (service.processEntry rules engine report entry).Keeps R := by
  have hentry : (service.runEntry rules engine entry).Keeps R :=
    hservice.runEntry_keeps hflush hdrain hR entry
  intro state after answer hruns
  rcases Nat.lt_or_ge report.processed service.config.maxExecutions with hceiling | hceiling
  · rcases (runs_processEntry hceiling).mp hruns with
      ⟨_, hinner, -⟩ | ⟨_, failed, hfailed, rfl, -⟩
    · exact hentry hinner
    · exact hR.trans (hentry hfailed) (hR.failEntry failed _)
  · obtain ⟨-, rfl⟩ := (runs_processEntry_of_ceiling hceiling).mp hruns
    exact hR.refl _

theorem drainRounds_keeps (hR : KeptByDrainsOf allowed R) (remaining : Nat)
    (report : DrainReport) : (service.drainRounds rules engine remaining report).Keeps R := by
  have htake : takePending.Keeps R := keeps_of_runs (fun _ => runs_takePending) hR.takePending
  induction remaining generalizing report with
  | zero =>
      unfold drainRounds
      refine keeps_bind hR.toKeptByActs htake fun batch => ?_
      split
      · exact keeps_pure hR.toKeptByActs _
      · exact keeps_throw hR.toKeptByActs _
  | succ remaining ih =>
      unfold drainRounds
      refine keeps_bind hR.toKeptByActs htake fun batch => ?_
      split
      · exact keeps_pure hR.toKeptByActs _
      · refine keeps_bind hR.toKeptByActs ?_ fun next => ih next
        exact keeps_foldlM hR.toKeptByActs
          (fun _ => hservice.processEntry_keeps hflush hdrain hR _) _ _

end Entries

/-! ## The engine -/

section Engine

variable (hservice : service.Uses allowed)

include hservice

/-- A drain on whatever budget is left keeps a relation that flushes and drains on it keep. -/
theorem drain_succ_keeps (hR : KeptByDrainsOf allowed R) {budget : Nat}
    (hflush : (service.engine rules budget).flush.Keeps R)
    (hdrain : allowed .runPending → (service.engine rules budget).drain.Keeps R) :
    (service.engine rules (budget + 1)).drain.Keeps R := by
  have hbody : (do
      flush service rules budget
      service.drainRounds rules (service.engine rules budget) service.config.maxDrainRounds {} :
        Routine DrainReport).Keeps R :=
    keeps_bind hR.toKeptByActs hflush fun _ => hservice.drainRounds_keeps hflush hdrain hR _ {}
  intro state after answer hruns
  rcases runs_abortingOnError.mp hruns with ⟨_, hinner, -⟩ | ⟨error, failed, hfailed, -, rfl⟩
  · exact hbody hinner
  · exact hR.trans (hbody hfailed) (hR.abort failed error)

/-- Flushes keep what scripts keep; where handlers may drain, both keep what drains keep. -/
theorem engine_keeps (hR : KeptByActs allowed R)
    (hdrains : allowed .runPending → KeptByDrainsOf allowed R) (budget : Nat) :
    (service.engine rules budget).flush.Keeps R ∧
      (allowed .runPending → (service.engine rules budget).drain.Keeps R) := by
  induction budget with
  | zero => exact ⟨keeps_exhausted, fun _ => keeps_exhausted⟩
  | succ budget ih =>
      -- Whatever a script calls on is the engine on the budget that is left.
      obtain ⟨hflush, hdrain⟩ := ih
      constructor
      · exact hservice.flushOn_keeps hflush hdrain hR
      · intro hallowed
        exact hservice.drain_succ_keeps (hdrains hallowed) hflush hdrain

/-- Where handlers do only what is allowed, flushes and drains keep what is kept by that and by what
drains do themselves. -/
theorem drain_keeps (hR : KeptByDrainsOf allowed R) (budget : Nat) :
    (service.engine rules budget).flush.Keeps R ∧
      (service.engine rules budget).drain.Keeps R := by
  refine ⟨(hservice.engine_keeps hR.toKeptByActs (fun _ => hR) budget).1, ?_⟩
  cases budget with
  | zero => exact keeps_exhausted
  | succ budget =>
      obtain ⟨hflush, hdrain⟩ := hservice.engine_keeps hR.toKeptByActs (fun _ => hR) budget
      exact hservice.drain_succ_keeps hR hflush hdrain

end Engine

end Uses

end RuleService

end ContentRules
