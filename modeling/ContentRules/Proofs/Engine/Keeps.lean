import ContentRules.Proofs.Engine.Acts

/-!
# What scripts and drains keep

Most that is said of a unit of work is kept by all that scripts can do, whatever the handlers are.

**Strategy.**  `KeptByScripts` asks that a relation be one of preorder, and that each single step of
a script or of the delivery of events be an instance of it.  `KeptByDrains` asks in addition for the
five things that a drain does itself.  Both are kept whatever handlers are allowed to do, so the
induction over runs applies to them.

Handlers that never start a drain are of interest in their own right, since flushes and entries then
keep every relation that scripts keep.  `Script.DrainsOnlyIf` puts both cases into one statement.
-/

namespace ContentRules

variable {α β : Type} {R : WorkState → WorkState → Prop}

/-! ## Steps -/

/-- What a script or the delivery of events does in one step. -/
inductive WorkState.Step : WorkState → WorkState → Prop
  | edit (state : WorkState) (change : Edit) : Step state (Routine.edited state change)
  | enqueue (state : WorkState) (entry : PendingEntry) :
      Step state { state with work := (state.work.enqueue entry).2 }
  | turn (state : WorkState) (switch : Switch) :
      Step state { state with work := state.work.turn switch }
  | deferCopy (state : WorkState) (source copy : NodeRef) :
      Step state { state with work := state.work.deferCopy source copy }
  | note (state : WorkState) (line : Value) :
      Step state { state with journal := state.journal ++ [.written line] }
  | takeEvents (state : WorkState) : Step state (RuleService.withoutEvents state)
  | noteNew (state : WorkState) (event : NodeEvent) :
      Step state { state with work := state.work.noteNew event }

/-- A relation that holds however many steps scripts and flushes take. -/
structure KeptByScripts (R : WorkState → WorkState → Prop) : Prop where
  refl : ∀ state : WorkState, R state state
  trans : ∀ {first second third : WorkState}, R first second → R second third → R first third
  step : ∀ {state after : WorkState}, state.Step after → R state after

/-- A relation that also holds whatever a drain does between the scripts that it runs. -/
structure KeptByDrains (R : WorkState → WorkState → Prop) : Prop extends KeptByScripts R where
  takePending : ∀ state : WorkState, R state (RuleService.withoutPending state)
  /-- A rule is marked, and what was marked before is put back. -/
  executing : ∀ {state after : WorkState} (rule : Rule),
    R { state with work := { state.work with executing := some rule } } after →
      R state { after with work := { after.work with executing := state.work.executing } }
  restore : ∀ {state failed : WorkState}, R state failed →
    R state { failed with work := failed.work.restore state.work.checkpoint }
  failEntry : ∀ (state : WorkState) (failure : RuleFailure), R state (state.failEntry failure)
  abort : ∀ (state : WorkState) (error : Error), R state (state.abort error)

/-- Whatever handlers are allowed to do, such a relation is kept by it. -/
theorem KeptByScripts.keptByActs (hR : KeptByScripts R) (allowed : Act → Prop) :
    KeptByActs allowed R where
  refl := hR.refl
  trans := hR.trans
  act {act} _ state := by
    cases act with
    | edit change => exact hR.step (.edit state change)
    | enqueue entry => exact hR.step (.enqueue state entry)
    | deliver | runPending => exact hR.refl state
    | turn switch => exact hR.step (.turn state switch)
    | deferCopy source copy => exact hR.step (.deferCopy state source copy)
    | note line => exact hR.step (.note state line)
  takeEvents state := hR.step (.takeEvents state)
  noteNew state event := hR.step (.noteNew state event)

theorem KeptByDrains.keptByDrainsOf (hR : KeptByDrains R) (allowed : Act → Prop) :
    KeptByDrainsOf allowed R :=
  { hR.toKeptByScripts.keptByActs allowed with
    takePending := hR.takePending
    executing := hR.executing
    restore := hR.restore
    failEntry := hR.failEntry
    abort := hR.abort }

/-! ## Scripts -/

/-- The script starts a drain only if that is allowed. -/
def Script.DrainsOnlyIf (allowed : Prop) : Script α → Prop
  | done _ => True
  | fail _ => True
  | look next => ∀ view, (next view).DrainsOnlyIf allowed
  | edit _ next => ∀ answer, (next answer).DrainsOnlyIf allowed
  | enqueue _ next => ∀ queued, (next queued).DrainsOnlyIf allowed
  | deliver next => ∀ outcome, (next outcome).DrainsOnlyIf allowed
  | runPending next => allowed ∧ ∀ outcome, (next outcome).DrainsOnlyIf allowed
  | turn _ next => next.DrainsOnlyIf allowed
  | deferCopy _ _ next => next.DrainsOnlyIf allowed
  | note _ next => next.DrainsOnlyIf allowed

theorem Script.drainsOnlyIf_of_allowed {allowed : Prop} (hallowed : allowed) (script : Script α) :
    script.DrainsOnlyIf allowed := by
  induction script with
  | done | fail => trivial
  | look _ ih | edit _ _ ih | enqueue _ _ ih | deliver _ ih => exact ih
  | runPending _ ih => exact ⟨hallowed, ih⟩
  | turn _ _ ih | deferCopy _ _ _ ih | note _ _ ih => exact ih

theorem Script.DrainsOnlyIf.bind {allowed : Prop} {script : Script α} {next : α → Script β}
    (hscript : script.DrainsOnlyIf allowed) (hnext : ∀ result, (next result).DrainsOnlyIf allowed) :
    (script >>= next).DrainsOnlyIf allowed := by
  show (script.bind next).DrainsOnlyIf allowed
  induction script with
  | done result => exact hnext result
  | fail => trivial
  | look _ ih | edit _ _ ih | enqueue _ _ ih | deliver _ ih =>
      exact fun answer => ih _ (hscript answer)
  | runPending _ ih => exact ⟨hscript.1, fun outcome => ih outcome (hscript.2 outcome)⟩
  | turn _ _ ih | deferCopy _ _ _ ih | note _ _ ih => exact ih hscript

theorem Script.drainsOnlyIf_ofExcept {allowed : Prop} (outcome : Except Error α) :
    (Script.ofExcept outcome).DrainsOnlyIf allowed := by
  cases outcome <;> trivial

theorem Script.drainsOnlyIf_apply {allowed : Prop} (change : Edit) :
    (Script.apply change).DrainsOnlyIf allowed :=
  fun answer => Script.drainsOnlyIf_ofExcept answer

/-- Of what scripts do, only the start of a drain is in question. -/
theorem Script.DrainsOnlyIf.uses {allowed : Prop} {script : Script α}
    (hscript : script.DrainsOnlyIf allowed) :
    script.Uses fun act => act = .runPending → allowed := by
  induction script with
  | done | fail => trivial
  | look _ ih => exact fun view => ih view (hscript view)
  | edit _ _ ih | enqueue _ _ ih | deliver _ ih =>
      exact ⟨nofun, fun answer => ih answer (hscript answer)⟩
  | runPending _ ih => exact ⟨fun _ => hscript.1, fun outcome => ih outcome (hscript.2 outcome)⟩
  | turn _ _ ih | deferCopy _ _ _ ih | note _ _ ih => exact ⟨nofun, ih hscript⟩

/-- A script that may start no drain but where that is allowed starts none elsewhere. -/
theorem Script.Uses.drainsOnlyIf {acts : Act → Prop} {allowed : Prop} {script : Script α}
    (hscript : script.Uses acts) (hallowed : acts .runPending → allowed) :
    script.DrainsOnlyIf allowed := by
  induction script with
  | done | fail => trivial
  | look _ ih => exact fun view => ih view (hscript view)
  | edit _ _ ih | enqueue _ _ ih | deliver _ ih => exact fun answer => ih answer (hscript.2 answer)
  | runPending _ ih => exact ⟨hallowed hscript.1, fun outcome => ih outcome (hscript.2 outcome)⟩
  | turn _ _ ih | deferCopy _ _ _ ih | note _ _ ih => exact ih hscript.2

/-! ## Handlers -/

/-- A computation of two outcomes succeeds if both are results. -/
theorem exists_of_bind_eq_ok {outcome : Except Error α} {next : α → Except Error β} {result : β}
    (hbind : outcome >>= next = .ok result) :
    ∃ middle, outcome = .ok middle ∧ next middle = .ok result := by
  cases outcome with
  | error error => cases hbind
  | ok middle => exact ⟨middle, rfl, hbind⟩

namespace HandlerRegistry

variable {registry : HandlerRegistry} {action : Action} {executor : Executor}

theorem getElem?_of_lookUp {table : Std.ExtTreeMap String α} {sought : Sought} {name : String}
    {found : α} (hfound : lookUp table sought name = .ok found) : table[name]? = some found := by
  unfold lookUp at hfound
  split at hfound
  · rename_i entry hentry
    rw [hentry, Except.ok.inj hfound]
  · cases hfound

/-- An executor is made by what is registered under the name that the action's definition gives. -/
theorem exists_make_of_executor (hmade : registry.executor action = .ok executor) :
    ∃ make, registry.executors[action.definition.executor]? = some make ∧
      make action = .ok executor := by
  obtain ⟨make, hfound, hmade⟩ := exists_of_bind_eq_ok hmade
  obtain ⟨-, -, hmake⟩ := exists_of_bind_eq_ok hmade
  exact ⟨make, getElem?_of_lookUp hfound, hmake⟩

theorem executors_addExecutor (name other : String) (make : Action → Except Error Executor) :
    (registry.addExecutor name make).executors[other]? =
      if name = other then some make else registry.executors[other]? := by
  simp [addExecutor, Std.ExtTreeMap.getElem?_insert]

end HandlerRegistry

namespace RuleService

open Routine

variable {service : RuleService} {rules : RuleStore} {engine : Engine} {allowed : Prop}

/-- The bound behaviours and the executors that the registry makes start a drain only if that is
allowed. -/
structure DrainsOnlyIf (service : RuleService) (allowed : Prop) : Prop where
  react : ∀ behaviour ∈ service.behaviours, ∀ event : NodeEvent,
    (behaviour.react event).DrainsOnlyIf allowed
  execute : ∀ {action : Action} {executor : Executor},
    service.handlers.executor action = .ok executor →
      ∀ actionable actionedUpon : NodeRef, (executor actionable actionedUpon).DrainsOnlyIf allowed

/-- No handler starts a drain. -/
abbrev NeverDrains (service : RuleService) : Prop :=
  service.DrainsOnlyIf False

theorem drainsOnlyIf_true (service : RuleService) : service.DrainsOnlyIf True where
  react _ _ _ := Script.drainsOnlyIf_of_allowed trivial _
  execute _ _ _ := Script.drainsOnlyIf_of_allowed trivial _

theorem DrainsOnlyIf.uses (hservice : service.DrainsOnlyIf allowed) :
    service.Uses fun act => act = .runPending → allowed where
  react behaviour hbehaviour event := (hservice.react behaviour hbehaviour event).uses
  execute hmade actionable actionedUpon := (hservice.execute hmade actionable actionedUpon).uses

theorem Uses.drainsOnlyIf {acts : Act → Prop} (hservice : service.Uses acts)
    (hallowed : acts .runPending → allowed) : service.DrainsOnlyIf allowed where
  react behaviour hbehaviour event :=
    (hservice.react behaviour hbehaviour event).drainsOnlyIf hallowed
  execute hmade actionable actionedUpon :=
    (hservice.execute hmade actionable actionedUpon).drainsOnlyIf hallowed

/-! ## Runs -/

theorem runRule_keeps (hservice : service.DrainsOnlyIf allowed) (hflush : engine.flush.Keeps R)
    (hdrain : allowed → engine.drain.Keeps R) (hR : KeptByScripts R) (entry : PendingEntry) :
    (service.runRule rules engine entry).Keeps R :=
  hservice.uses.runRule_keeps hflush (fun hallowed => hdrain (hallowed rfl)) (hR.keptByActs _) entry

/-- If no handler starts a drain, flushes keep what scripts keep. -/
theorem NeverDrains.flush_keeps (hservice : service.NeverDrains) (hR : KeptByScripts R)
    (budget : Nat) : (service.engine rules budget).flush.Keeps R :=
  (hservice.uses.engine_keeps (hR.keptByActs _) (fun hdrains => (hdrains rfl).elim) budget).1

/-- Whatever the handlers do, flushes and drains keep what drains keep. -/
theorem drain_keeps (hR : KeptByDrains R) (budget : Nat) :
    (service.engine rules budget).flush.Keeps R ∧ (service.engine rules budget).drain.Keeps R :=
  service.drainsOnlyIf_true.uses.drain_keeps (hR.keptByDrainsOf _) budget

/-- Any script run by the engine keeps what drains keep. -/
theorem script_keeps (hR : KeptByDrains R) (budget : Nat) (script : Script α) :
    (script.run rules (service.engine rules budget)).Keeps R :=
  (Script.drainsOnlyIf_of_allowed trivial script).uses.run_keeps (hR.toKeptByScripts.keptByActs _)
    (drain_keeps hR budget).1 fun _ => (drain_keeps hR budget).2

end RuleService

end ContentRules
