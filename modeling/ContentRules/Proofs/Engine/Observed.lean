import ContentRules.Proofs.Engine.Keeps
import ContentRules.Proofs.Engine.Scripts

/-!
# Observing a run

What a run leaves does not say which events came and went meanwhile.  An observed routine is a
routine with the marks that a run of it makes: which events edits record, which behaviours are told
of which event, what is lost when a flush fails and what is undone when an entry does.

**Strategy.**  Observed routines are composed as routines are, and the marks of a sequence are those
of its parts, the second of which is run on what the first leaves.  A relation between the states
and the marks of a run holds of a script if it holds of each of its steps (`KeptWithMarks`).
-/

namespace ContentRules

variable {α β : Type}

/-- What is seen of a run. -/
inductive Mark where
  /-- An edit recorded the event. -/
  | recorded (event : NodeEvent)
  /-- A behaviour was told of the event, in this state. -/
  | told (rules : RuleStore) (state : WorkState) (event : NodeEvent) (behaviour : Behaviour)
  /-- A flush failed when it delivered the first of these, and the others were not delivered. -/
  | lost (events : List NodeEvent)
  /-- A script flushed, and the flush failed. -/
  | refused
  /-- An entry failed, and what was done for it was undone. -/
  | undone (marks : List Mark)

/-- A routine, and the marks that a run of it on a state makes. -/
structure Observed (α : Type) where
  routine : Routine α
  marks : WorkState → List Mark

namespace Observed

/-- A routine that makes no marks. -/
def of (routine : Routine α) : Observed α where
  routine := routine
  marks _ := []

/-- What becomes of marks after a routine, by its answer and what it leaves. -/
def after (routine : Routine α) (next : Except Error α → WorkState → List Mark)
    (state : WorkState) : List Mark :=
  match routine.run.run state with
  | some (answer, left) => next answer left
  | none => []

/-- One routine after the other; the second is not run if the first fails. -/
def bind (observed : Observed α) (next : α → Observed β) : Observed β where
  routine := observed.routine >>= fun result => (next result).routine
  marks state := observed.marks state ++ after observed.routine
    (fun
      | .ok result, left => (next result).marks left
      | .error _, _ => []) state

instance : Monad Observed where
  pure result := of (pure result)
  bind := bind

instance : MonadLift (Except Error) Observed :=
  ⟨fun outcome => of (liftM outcome)⟩

/-- Answers an error instead of failing with it. -/
def attempt (observed : Observed α) : Observed (Except Error α) where
  routine := observed.routine.attempt
  marks := observed.marks

/-- Makes a mark. -/
def mark (make : WorkState → Mark) : Observed Unit where
  routine := pure ()
  marks state := [make state]

/-- Makes another mark if the routine fails. -/
def markError (mark : Mark) (observed : Observed α) : Observed α where
  routine := observed.routine
  marks state := observed.marks state ++ after observed.routine
    (fun
      | .ok _, _ => []
      | .error _, _ => [mark]) state

/-- All marks count as undone if the routine fails. -/
def undoError (observed : Observed α) : Observed α where
  routine := observed.routine
  marks state := after observed.routine
    (fun
      | .ok _, _ => observed.marks state
      | .error _, _ => [.undone (observed.marks state)]) state

/-- Performs an edit, and marks the events that it records. -/
def edit (change : Edit) : Observed (Except Error change.Answer) where
  routine := Routine.performEdit change
  marks state :=
    ((Routine.edited state change).work.nodes.events.drop state.work.nodes.events.length).map
      .recorded

/-! ## Routines -/

@[simp] theorem routine_pure (result : α) : (pure result : Observed α).routine = pure result := rfl

@[simp] theorem routine_bind (observed : Observed α) (next : α → Observed β) :
    (observed >>= next).routine = observed.routine >>= fun result => (next result).routine := rfl

@[simp] theorem routine_of (routine : Routine α) : (of routine).routine = routine := rfl

@[simp] theorem routine_lift (outcome : Except Error α) :
    (liftM outcome : Observed α).routine = liftM outcome := rfl

@[simp] theorem routine_attempt (observed : Observed α) :
    observed.attempt.routine = observed.routine.attempt := rfl

@[simp] theorem routine_markError (mark : Mark) (observed : Observed α) :
    (observed.markError mark).routine = observed.routine := rfl

@[simp] theorem routine_undoError (observed : Observed α) :
    observed.undoError.routine = observed.routine := rfl

@[simp] theorem routine_edit (change : Edit) :
    (edit change).routine = Routine.performEdit change := rfl

@[simp] theorem routine_ite (condition : Prop) [Decidable condition] (first second : Observed α) :
    (if condition then first else second).routine =
      if condition then first.routine else second.routine := by
  split <;> rfl

@[simp] theorem routine_forM (items : List α) (body : α → Observed Unit) :
    (items.forM body).routine = items.forM fun item => (body item).routine := by
  induction items with
  | nil => rfl
  | cons item items ih => simp only [List.forM, routine_bind, ih]

@[simp] theorem routine_foldlM (body : β → α → Observed β) (items : List α) (accumulated : β) :
    (items.foldlM body accumulated).routine =
      items.foldlM (fun accumulated item => (body accumulated item).routine) accumulated := by
  induction items generalizing accumulated with
  | nil => rfl
  | cons item items ih => simp only [List.foldlM_cons, routine_bind, ih]

/-! ## Marks of a run -/

section Runs

variable {state middle left : WorkState}

theorem after_of_runs {routine : Routine α} {answer : Except Error α}
    {next : Except Error α → WorkState → List Mark} (hruns : routine.Runs state answer left) :
    after routine next state = next answer left := by
  unfold after
  rw [show routine.run.run state = some (answer, left) from hruns]

/-- The marks of a sequence are those of the first routine, and those of the second if it is run. -/
theorem runs_bind {observed : Observed α} {next : α → Observed β} {answer : Except Error β}
    (hruns : (observed >>= next).routine.Runs state answer left) :
    (∃ result middle, observed.routine.Runs state (.ok result) middle ∧
      (next result).routine.Runs middle answer left ∧
      (observed >>= next).marks state = observed.marks state ++ (next result).marks middle) ∨
    ∃ error, observed.routine.Runs state (.error error) left ∧ answer = .error error ∧
      (observed >>= next).marks state = observed.marks state := by
  rcases Routine.runs_bind.mp hruns with ⟨result, middle, hfirst, hnext⟩ | ⟨error, hfirst, hanswer⟩
  · exact .inl ⟨result, middle, hfirst, hnext,
      congrArg (observed.marks state ++ ·) (after_of_runs hfirst)⟩
  · refine .inr ⟨error, hfirst, hanswer, ?_⟩
    exact (congrArg (observed.marks state ++ ·) (after_of_runs hfirst)).trans (List.append_nil _)

/-- A first routine that ends well and makes no marks can be left out. -/
theorem runs_of_bind {routine : Routine α} {next : α → Observed β} {answer : Except Error β}
    {result : α} (hroutine : routine.Runs state (.ok result) middle)
    (hruns : (of routine >>= next).routine.Runs state answer left) :
    (next result).routine.Runs middle answer left ∧
      (of routine >>= next).marks state = (next result).marks middle :=
  ⟨(Routine.runs_bind_of_runs hroutine).mp hruns, after_of_runs hroutine⟩

/-- What follows an attempt is run after a success and after an error. -/
theorem runs_attempt_bind {observed : Observed α} {next : Except Error α → Observed β}
    {answer : Except Error β}
    (hruns : (observed.attempt >>= next).routine.Runs state answer left) :
    ∃ outcome middle, observed.routine.Runs state outcome middle ∧
      (next outcome).routine.Runs middle answer left ∧
      (observed.attempt >>= next).marks state =
        observed.marks state ++ (next outcome).marks middle := by
  rcases runs_bind hruns with ⟨_, middle, hattempt, hnext, hmarks⟩ | ⟨_, hattempt, -, -⟩
  · obtain ⟨_, ⟨⟩, hobserved⟩ := Routine.runs_attempt.mp hattempt
    exact ⟨_, middle, hobserved, hnext, hmarks⟩
  · obtain ⟨_, ⟨⟩, -⟩ := Routine.runs_attempt.mp hattempt

/-- What follows a computed outcome is run on its result. -/
theorem runs_lift_bind {outcome : Except Error α} {next : α → Observed β}
    {answer : Except Error β}
    (hruns : ((liftM outcome : Observed α) >>= next).routine.Runs state answer left) :
    (∃ result, outcome = .ok result ∧ (next result).routine.Runs state answer left ∧
      ((liftM outcome : Observed α) >>= next).marks state = (next result).marks state) ∨
    ∃ error, answer = .error error ∧ left = state ∧
      ((liftM outcome : Observed α) >>= next).marks state = [] := by
  cases outcome with
  | ok result =>
      obtain ⟨hnext, hmarks⟩ := runs_of_bind (Routine.runs_lift.mpr ⟨rfl, rfl⟩) hruns
      exact .inl ⟨result, rfl, hnext, hmarks⟩
  | error error =>
      rcases runs_bind hruns with ⟨_, _, hlift, -, -⟩ | ⟨_, hlift, rfl, hmarks⟩
      · cases (Routine.runs_lift.mp hlift).1
      · exact .inr ⟨_, rfl, (Routine.runs_lift.mp hlift).2, hmarks⟩

theorem marks_undoError_ok {observed : Observed α} {result : α}
    (hruns : observed.routine.Runs state (.ok result) left) :
    observed.undoError.marks state = observed.marks state :=
  after_of_runs hruns

theorem marks_undoError_error {observed : Observed α} {error : Error}
    (hruns : observed.routine.Runs state (.error error) left) :
    observed.undoError.marks state = [.undone (observed.marks state)] :=
  after_of_runs hruns

theorem marks_markError_ok {observed : Observed α} {mark : Mark} {result : α}
    (hruns : observed.routine.Runs state (.ok result) left) :
    (observed.markError mark).marks state = observed.marks state :=
  (congrArg (observed.marks state ++ ·) (after_of_runs hruns)).trans (List.append_nil _)

theorem marks_markError_error {observed : Observed α} {mark : Mark} {error : Error}
    (hruns : observed.routine.Runs state (.error error) left) :
    (observed.markError mark).marks state = observed.marks state ++ [mark] :=
  congrArg (observed.marks state ++ ·) (after_of_runs hruns)

end Runs

/-- Whatever a run of the routine does, the states and its marks are so related. -/
def Keeps (observed : Observed α) (P : WorkState → List Mark → WorkState → Prop) : Prop :=
  ∀ ⦃state left : WorkState⦄ ⦃answer : Except Error α⦄,
    observed.routine.Runs state answer left → P state (observed.marks state) left

end Observed

/-! ## Scripts -/

/-- The two routines that a script may call on, observed. -/
structure ObservedEngine where
  flush : Observed Unit
  drain : Observed DrainReport

def ObservedEngine.engine (observed : ObservedEngine) : Engine where
  flush := observed.flush.routine
  drain := observed.drain.routine

/-- Runs a script. -/
def Script.observe (rules : RuleStore) (engine : ObservedEngine) : Script α → Observed α
  | done result => pure result
  | fail error => .of (throw error)
  | look next => do
    let work ← Observed.of Routine.work
    (next { rules, work }).observe rules engine
  | edit change next => do
    let answer ← Observed.edit change
    (next answer).observe rules engine
  | enqueue entry next => do
    let queued ← Observed.of (Routine.enqueue entry)
    (next queued).observe rules engine
  | deliver next => do
    let outcome ← (engine.flush.markError .refused).attempt
    (next outcome).observe rules engine
  | runPending next => do
    let outcome ← engine.drain.attempt
    (next outcome).observe rules engine
  | turn switch next => do
    Observed.of (Routine.update fun work => work.turn switch)
    next.observe rules engine
  | deferCopy source copy next => do
    Observed.of (Routine.update fun work => work.deferCopy source copy)
    next.observe rules engine
  | note line next => do
    Observed.of (Routine.write (.written line))
    next.observe rules engine

/-- The script is the same. -/
theorem Script.routine_observe (rules : RuleStore) (engine : ObservedEngine) (script : Script α) :
    (script.observe rules engine).routine = script.run rules engine.engine := by
  induction script with
  | done | fail => rfl
  | look _ ih | edit _ _ ih | enqueue _ _ ih | deliver _ ih | runPending _ ih =>
      simp only [Script.observe, Script.run, Observed.routine_bind, Observed.routine_of,
        Observed.routine_edit, Observed.routine_attempt, Observed.routine_markError, ih,
        ObservedEngine.engine]
  | turn _ _ ih | deferCopy _ _ _ ih | note _ _ ih =>
      simp only [Script.observe, Script.run, Observed.routine_bind, Observed.routine_of, ih]

/-! ### What scripts keep -/

/-- The script flushes and drains only if that is allowed. -/
def Script.CallsOnlyIf (allowed : Prop) : Script α → Prop
  | done _ => True
  | fail _ => True
  | look next => ∀ view, (next view).CallsOnlyIf allowed
  | edit _ next => ∀ answer, (next answer).CallsOnlyIf allowed
  | enqueue _ next => ∀ queued, (next queued).CallsOnlyIf allowed
  | deliver next => allowed ∧ ∀ outcome, (next outcome).CallsOnlyIf allowed
  | runPending next => allowed ∧ ∀ outcome, (next outcome).CallsOnlyIf allowed
  | turn _ next => next.CallsOnlyIf allowed
  | deferCopy _ _ next => next.CallsOnlyIf allowed
  | note _ next => next.CallsOnlyIf allowed

theorem Script.callsOnlyIf_true (script : Script α) : script.CallsOnlyIf True := by
  induction script with
  | done | fail => trivial
  | look _ ih | edit _ _ ih | enqueue _ _ ih => exact ih
  | deliver _ ih | runPending _ ih => exact ⟨trivial, ih⟩
  | turn _ _ ih | deferCopy _ _ _ ih | note _ _ ih => exact ih

/-- A script that may neither flush nor drain does not do so. -/
theorem Script.Uses.callsOnlyIf {allowed : Act → Prop} {script : Script α}
    (hscript : script.Uses allowed) (hflush : ¬ allowed .deliver) (hdrain : ¬ allowed .runPending) :
    script.CallsOnlyIf False := by
  induction script with
  | done | fail => trivial
  | look _ ih => exact fun view => ih view (hscript view)
  | edit _ _ ih | enqueue _ _ ih => exact fun answer => ih answer (hscript.2 answer)
  | deliver => exact absurd hscript.1 hflush
  | runPending => exact absurd hscript.1 hdrain
  | turn _ _ ih | deferCopy _ _ _ ih | note _ _ ih => exact ih hscript.2

/-- A relation between states and the marks made between them that holds of a sequence if it holds
of its parts. -/
structure Composes (P : WorkState → List Mark → WorkState → Prop) : Prop where
  refl : ∀ state : WorkState, P state [] state
  trans : ∀ {state middle left : WorkState} {marks more : List Mark},
    P state marks middle → P middle more left → P state (marks ++ more) left

/-- The marks of an act, apart from those of the routine that it calls on. -/
def Act.marks : Act → WorkState → List Mark
  | edit change, state => (Observed.edit change).marks state
  | _, _ => []

/-- Such a relation that also holds of each of the allowed acts. -/
structure KeptByActsWithMarks (allowed : Act → Prop) (P : WorkState → List Mark → WorkState → Prop) :
    Prop extends Composes P where
  act : ∀ {act : Act}, allowed act → ∀ state : WorkState,
    P state (act.marks state) (act.effect state)

/-- Such a relation that also holds of each step of a script. -/
structure KeptWithMarks (P : WorkState → List Mark → WorkState → Prop) : Prop
    extends Composes P where
  edit : ∀ (state : WorkState) (change : Edit),
    P state ((Observed.edit change).marks state) (Routine.edited state change)
  silent : ∀ {state left : WorkState}, state.Step left → left.work.nodes = state.work.nodes →
    P state [] left

section Keeps

variable {P : WorkState → List Mark → WorkState → Prop}

open Observed

/-- Whatever scripts are allowed to do, a relation that holds of all their steps is kept by it. -/
theorem KeptWithMarks.keptByActs (hP : KeptWithMarks P) (allowed : Act → Prop) :
    KeptByActsWithMarks allowed P where
  toComposes := hP.toComposes
  act {act} _ state := by
    cases act with
    | edit change => exact hP.edit state change
    | enqueue entry => exact hP.silent (.enqueue state entry) (state.work.nodes_enqueue entry)
    | deliver | runPending => exact hP.refl state
    | turn switch => exact hP.silent (.turn state switch) (state.work.nodes_turn switch)
    | deferCopy source copy => exact hP.silent (.deferCopy state source copy) rfl
    | note line => exact hP.silent (.note state line) rfl

theorem Composes.bind (hP : Composes P) {observed : Observed α} {next : α → Observed β}
    (hobserved : observed.Keeps P) (hnext : ∀ result, (next result).Keeps P) :
    (observed >>= next).Keeps P := by
  intro state left answer hruns
  rcases runs_bind hruns with ⟨result, middle, hfirst, hsecond, hmarks⟩ | ⟨_, hfirst, -, hmarks⟩
  · rw [hmarks]
    exact hP.trans (hobserved hfirst) (hnext result hsecond)
  · rw [hmarks]
    exact hobserved hfirst

theorem Composes.pure (hP : Composes P) (result : α) : (pure result : Observed α).Keeps P := by
  intro state left answer hruns
  obtain ⟨-, rfl⟩ := Routine.runs_pure.mp hruns
  exact hP.refl _

theorem Composes.throw (hP : Composes P) (error : Error) :
    (Observed.of (throw error) : Observed α).Keeps P := by
  intro state left answer hruns
  obtain ⟨-, rfl⟩ := Routine.runs_throw.mp hruns
  exact hP.refl _

theorem Composes.foldlM (hP : Composes P) {body : β → α → Observed β}
    (hbody : ∀ accumulated item, (body accumulated item).Keeps P) (items : List α)
    (accumulated : β) : (items.foldlM body accumulated).Keeps P := by
  induction items generalizing accumulated with
  | nil => exact hP.pure accumulated
  | cons item items ih =>
      rw [List.foldlM_cons]
      exact hP.bind (hbody accumulated item) ih

/-- A step that ends well, with the marks that it makes. -/
theorem keeps_of_runs {observed : Observed α} {result : WorkState → α}
    {next : WorkState → WorkState}
    (hroutine : ∀ state, observed.routine.Runs state (.ok (result state)) (next state))
    (hnext : ∀ state, P state (observed.marks state) (next state)) : observed.Keeps P := by
  intro state left answer hruns
  obtain ⟨-, rfl⟩ := (hroutine state).unique hruns
  exact hnext state

theorem keeps_attempt {observed : Observed α} (hobserved : observed.Keeps P) :
    observed.attempt.Keeps P := by
  intro state left answer hruns
  obtain ⟨outcome, -, hruns⟩ := Routine.runs_attempt.mp hruns
  exact hobserved hruns

/-- A script keeps what each of the acts keeps that it may do. -/
theorem Script.Uses.observe_keeps {allowed : Act → Prop} (hP : KeptByActsWithMarks allowed P)
    {rules : RuleStore} {engine : ObservedEngine}
    (hflush : allowed .deliver → (engine.flush.markError .refused).Keeps P)
    (hdrain : allowed .runPending → engine.drain.Keeps P) {script : Script α}
    (hscript : script.Uses allowed) : (script.observe rules engine).Keeps P := by
  have hbind {β : Type} {observed : Observed β} {next : β → Observed α} :
      observed.Keeps P → (∀ result, (next result).Keeps P) → (observed >>= next).Keeps P :=
    hP.toComposes.bind
  induction script with
  | done result => exact hP.toComposes.pure result
  | fail error => exact hP.toComposes.throw error
  | look next ih =>
      exact hbind (keeps_of_runs (fun _ => Routine.runs_work) hP.refl) fun _ => ih _ (hscript _)
  | edit change next ih =>
      refine hbind ?_ fun answer => ih answer (hscript.2 answer)
      exact keeps_of_runs (fun _ => Routine.runs_performEdit change) (hP.act hscript.1)
  | enqueue entry next ih =>
      refine hbind ?_ fun queued => ih queued (hscript.2 queued)
      exact keeps_of_runs (fun _ => Routine.runs_enqueue entry) (hP.act hscript.1)
  | deliver next ih =>
      exact hbind (keeps_attempt (hflush hscript.1)) fun outcome => ih outcome (hscript.2 outcome)
  | runPending next ih =>
      exact hbind (keeps_attempt (hdrain hscript.1)) fun outcome => ih outcome (hscript.2 outcome)
  | turn switch next ih =>
      refine hbind ?_ fun _ => ih hscript.2
      exact keeps_of_runs (fun _ => Routine.runs_update (·.turn switch)) (hP.act hscript.1)
  | deferCopy source copy next ih =>
      refine hbind ?_ fun _ => ih hscript.2
      exact keeps_of_runs (fun _ => Routine.runs_update (·.deferCopy source copy))
        (hP.act hscript.1)
  | note line next ih =>
      refine hbind ?_ fun _ => ih hscript.2
      exact keeps_of_runs (fun _ => Routine.runs_write _) (hP.act hscript.1)

/-- Of what scripts do, only the calls on flushes and drains are in question. -/
theorem Script.CallsOnlyIf.uses {allowed : Prop} {script : Script α}
    (hscript : script.CallsOnlyIf allowed) :
    script.Uses fun act => act = .deliver ∨ act = .runPending → allowed := by
  induction script with
  | done | fail => trivial
  | look _ ih => exact fun view => ih view (hscript view)
  | edit _ _ ih | enqueue _ _ ih => exact ⟨by simp, fun answer => ih answer (hscript answer)⟩
  | deliver _ ih | runPending _ ih =>
      exact ⟨fun _ => hscript.1, fun outcome => ih outcome (hscript.2 outcome)⟩
  | turn _ _ ih | deferCopy _ _ _ ih | note _ _ ih => exact ⟨by simp, ih hscript⟩

/-- A script keeps what each of its steps keeps. -/
theorem Script.observe_keeps (hP : KeptWithMarks P) {rules : RuleStore} {engine : ObservedEngine}
    {allowed : Prop} (hflush : allowed → (engine.flush.markError .refused).Keeps P)
    (hdrain : allowed → engine.drain.Keeps P) {script : Script α}
    (hscript : script.CallsOnlyIf allowed) : (script.observe rules engine).Keeps P :=
  hscript.uses.observe_keeps (hP.keptByActs _) (fun hallowed => hflush (hallowed (.inl rfl)))
    fun hallowed => hdrain (hallowed (.inr rfl))

end Keeps

end ContentRules
