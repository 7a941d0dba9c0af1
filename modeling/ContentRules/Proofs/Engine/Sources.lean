import ContentRules.Proofs.Engine.Interleaving
import ContentRules.Proofs.Engine.ObservedKeeps
import ContentRules.Proofs.Engine.Tellings

/-!
# Where the events come from that behaviours are told of

Events travel with the nodes in which they were recorded: a unit of work begins with those that the
committed nodes hold, and a checkpoint keeps those that waited.  Behaviours are told of no others
than these and those that were recorded in the unit of work before.  A commit discards events, so
only the nodes that a repository was made of can hold any.

**Strategy.**  `Sourced` reads off the marks of a run, from front to back, whether each event that is
told is known by then.  A flush tells of the events that it took from the nodes, which is why what is
said of a delivery (`Traceable`) allows for events that are under way.  A flush as a whole, entries
and drains need no such allowance.
-/

namespace ContentRules

open Mark

variable {α : Type} {service : RuleService} {state after : WorkState} {marks more : List Mark}
  {known extra events : List NodeEvent}

/-! ## Known events -/

/-- Behaviours are told of events only that are known: of those given and of those that were recorded
before.  What is recorded in what is undone is known there only. -/
inductive Mark.Sourced : List NodeEvent → List Mark → Prop
  | nil {known : List NodeEvent} : Sourced known []
  | recorded {known : List NodeEvent} {event : NodeEvent} {marks : List Mark}
    (hrest : Sourced (known ++ [event]) marks) : Sourced known (.recorded event :: marks)
  | told {known : List NodeEvent} {event : NodeEvent} {marks : List Mark} {rules : RuleStore}
    {state : WorkState} {behaviour : Behaviour} (hknown : event ∈ known)
    (hrest : Sourced known marks) : Sourced known (.told rules state event behaviour :: marks)
  | lost {known : List NodeEvent} {events : List NodeEvent} {marks : List Mark}
    (hrest : Sourced known marks) : Sourced known (.lost events :: marks)
  | refused {known : List NodeEvent} {marks : List Mark} (hrest : Sourced known marks) :
    Sourced known (.refused :: marks)
  | undone {known : List NodeEvent} {block marks : List Mark} (hblock : Sourced known block)
    (hrest : Sourced known marks) : Sourced known (.undone block :: marks)

namespace Mark.Sourced

theorem mono (hsourced : Sourced known marks) {others : List NodeEvent} (hknown : known ⊆ others) :
    Sourced others marks := by
  induction hsourced generalizing others with
  | nil => exact .nil
  | recorded _ ih =>
      exact .recorded (ih (List.append_subset.mpr
        ⟨List.subset_append_of_subset_left _ hknown, List.subset_append_right _ _⟩))
  | told hmem _ ih => exact .told (hknown hmem) (ih hknown)
  | lost _ ih => exact .lost (ih hknown)
  | refused _ ih => exact .refused (ih hknown)
  | undone _ _ hblock hrest => exact .undone (hblock hknown) (hrest hknown)

theorem append (hsourced : Sourced known marks) (hmore : Sourced (known ++ recordedIn marks) more) :
    Sourced known (marks ++ more) := by
  induction hsourced with
  | nil => simpa [recordedIn] using hmore
  | @recorded known event marks _ ih =>
      refine .recorded (ih ?_)
      rw [List.append_assoc]
      exact hmore
  | told hmem _ ih => exact .told hmem (ih hmore)
  | lost _ ih => exact .lost (ih hmore)
  | refused _ ih => exact .refused (ih hmore)
  | undone hblock _ _ ih => exact .undone hblock (ih hmore)

/-- Who only records events tells nobody. -/
theorem of_recorded (hmarks : ∀ mark ∈ marks, ∃ event, mark = .recorded event) :
    Sourced known marks := by
  induction marks generalizing known with
  | nil => exact .nil
  | cons mark marks ih =>
      obtain ⟨⟨event, rfl⟩, hrest⟩ := List.forall_mem_cons.mp hmarks
      exact .recorded (ih hrest)

/-- What was told and not undone was known or recorded. -/
theorem mem_of_told (hsourced : Sourced known marks) {event : NodeEvent} {behaviour : Behaviour}
    (htold : (event, behaviour) ∈ tellingsIn marks) : event ∈ known ++ recordedIn marks := by
  induction hsourced with
  | nil => cases htold
  | @recorded known other marks _ ih =>
      have hmem := ih htold
      rw [List.append_assoc] at hmem
      exact hmem
  | told hknown _ ih =>
      rcases List.mem_cons.mp htold with hfirst | hrest
      · obtain ⟨rfl, -⟩ := Prod.mk.inj hfirst
        exact List.mem_append_left _ hknown
      · exact ih hrest
  | lost _ ih => exact ih htold
  | refused _ ih => exact ih htold
  | undone _ _ _ ih => exact ih htold

end Mark.Sourced

/-! ## What runs keep -/

/-- While some events are under way, behaviours are told of these, of those that waited at first and
of those recorded before.  What waits afterwards has waited at first or was recorded. -/
structure Traceable (extra : List NodeEvent) (state : WorkState) (marks : List Mark)
    (after : WorkState) : Prop where
  sourced : Sourced (extra ++ state.work.nodes.events) marks
  left : after.work.nodes.events ⊆ state.work.nodes.events ++ recordedIn marks

namespace Traceable

/-- Nothing was told, and the same events wait or none. -/
theorem of_subset (hsourced : ∀ known, Sourced known marks)
    (hleft : after.work.nodes.events ⊆ state.work.nodes.events) :
    Traceable extra state marks after where
  sourced := hsourced _
  left := List.subset_append_of_subset_left _ hleft

theorem silent (hleft : after.work.nodes.events ⊆ state.work.nodes.events) :
    Traceable extra state [] after :=
  .of_subset (fun _ => .nil) hleft

/-- More events may be under way. -/
theorem mono (htraceable : Traceable [] state marks after) (extra : List NodeEvent) :
    Traceable extra state marks after where
  sourced := htraceable.sourced.mono (List.subset_append_right _ _)
  left := htraceable.left

/-- Events that were under way have waited, if they were taken from the nodes. -/
theorem of_withoutEvents
    (htraceable : Traceable state.work.nodes.events (RuleService.withoutEvents state) marks after) :
    Traceable [] state marks after where
  sourced := by
    have hsourced := htraceable.sourced
    rw [show (RuleService.withoutEvents state).work.nodes.events = [] from rfl, List.append_nil]
      at hsourced
    exact hsourced
  left := List.subset_append_of_subset_right _ htraceable.left

end Traceable

theorem keptWithMarks_traceable (extra : List NodeEvent) : KeptWithMarks (Traceable extra) where
  refl state := .silent (List.Subset.refl _)
  trans {state middle left marks more} hfirst hlast := by
    constructor
    case sourced =>
      refine hfirst.sourced.append (hlast.sourced.mono ?_)
      rw [List.append_assoc]
      exact List.append_subset.mpr ⟨List.subset_append_left _ _,
        List.subset_append_of_subset_right _ hfirst.left⟩
    case left =>
      rw [recordedIn_append, ← List.append_assoc]
      exact List.Subset.trans hlast.left (List.append_subset.mpr
        ⟨List.subset_append_of_subset_left _ hfirst.left, List.subset_append_right _ _⟩)
  edit state change := by
    have hrecords := (keptWithMarks_records enduring_retains).edit state change
    exact ⟨.of_recorded hrecords.recorded, hrecords.events ▸ List.Subset.refl _⟩
  silent _ hnodes := .silent (hnodes ▸ List.Subset.refl _)

theorem keptByDrainsWithMarks_traceable :
    KeptByDrainsWithMarks (fun _ => True) (Traceable []) where
  toKeptByActsWithMarks := (keptWithMarks_traceable []).keptByActs _
  takeEvents _ := .silent (List.nil_subset _)
  noteNew state event := by
    refine .silent ?_
    rw [state.work.nodes_noteNew]
    exact List.Subset.refl _
  lost _ _ := .of_subset (fun _ => .lost .nil) (List.Subset.refl _)
  refused _ := .of_subset (fun _ => .refused .nil) (List.Subset.refl _)
  takePending _ := .silent (List.Subset.refl _)
  executing _ hinner := ⟨hinner.sourced, hinner.left⟩
  undo hfailed := ⟨.undone hfailed.sourced .nil, List.subset_append_left _ _⟩
  failEntry _ _ := .silent (List.Subset.refl _)
  abort _ _ := .silent (List.Subset.refl _)

/-! ## The engine -/

namespace RuleService

open Observed

variable {rules : RuleStore} {engine : ObservedEngine}

/-- A script is traceable if what it calls on is. -/
theorem observe_traceable (hflush : engine.flush.Keeps (Traceable []))
    (hdrain : engine.drain.Keeps (Traceable [])) (script : Script α) :
    (script.observe rules engine).Keeps (Traceable []) :=
  Script.observe_keeps (keptWithMarks_traceable [])
    (fun _ => keptByDrainsWithMarks_traceable.toComposes.markError
      keptByDrainsWithMarks_traceable.refused hflush)
    (fun _ => hdrain) script.callsOnlyIf_true

/-- Behaviours are told of the events that are delivered. -/
theorem observeDeliveries_traceable (service : RuleService)
    (hflush : engine.flush.Keeps (Traceable []))
    (hdrain : engine.drain.Keeps (Traceable [])) (hevents : events ⊆ extra) :
    (service.observeDeliveries rules engine events).Keeps (Traceable extra) := by
  have hkept : KeptWithMarks (Traceable extra) := keptWithMarks_traceable extra
  induction events with
  | nil => exact hkept.pure ()
  | cons event events ih =>
      obtain ⟨hevent, hrest⟩ := List.cons_subset.mp hevents
      unfold observeDeliveries
      refine hkept.bind ?_ fun _ => hkept.bind ?_ fun _ => ih hrest
      · exact keeps_of_runs (fun _ => Routine.runs_update (·.noteNew event))
          fun state => (keptByDrainsWithMarks_traceable.noteNew state event).mono extra
      · refine hkept.markError
          (fun state => (keptByDrainsWithMarks_traceable.lost state _).mono extra)
          (hkept.forM fun behaviour _ => ?_)
        refine hkept.bind (keeps_of_runs (fun _ => Routine.runs_pure.mpr ⟨rfl, rfl⟩) ?_) fun _ => ?_
        · intro state
          exact ⟨.told (List.mem_append_left _ hevent) .nil, List.subset_append_left _ _⟩
        · intro state left answer hruns
          exact (observe_traceable hflush hdrain (behaviour.react event) hruns).mono extra

theorem observed_traceable (service : RuleService) (rules : RuleStore) (budget : Nat) :
    (service.observed rules budget).flush.Keeps (Traceable []) ∧
      (service.observed rules budget).drain.Keeps (Traceable []) := by
  induction budget with
  | zero =>
      exact ⟨fun _ _ _ hruns => absurd hruns Routine.runs_exhausted,
        fun _ _ _ hruns => absurd hruns Routine.runs_exhausted⟩
  | succ budget ih =>
      obtain ⟨hflush, hdrain⟩ := ih
      refine ⟨?_, observeAborting_keeps (fun {_ executor} _ actionable actionedUpon =>
        observe_traceable hflush hdrain (executor actionable actionedUpon))
          keptByDrainsWithMarks_traceable hflush⟩
      intro state left answer hruns
      unfold observed at hruns ⊢
      obtain ⟨hruns, hmarks⟩ := runs_of_bind runs_takeEvents hruns
      rw [hmarks]
      -- The events are under way until they have been delivered, and known from the beginning.
      refine .of_withoutEvents ?_
      cases hevents : state.work.nodes.events with
      | nil =>
          rw [hevents] at hruns
          obtain ⟨-, rfl⟩ := Routine.runs_pure.mp hruns
          exact .silent (List.Subset.refl _)
      | cons event events =>
          rw [hevents] at hruns
          exact (keptWithMarks_traceable (event :: events)).bind
            (observeDeliveries_traceable service hflush hdrain (List.Subset.refl _))
            (fun _ _ _ _ hruns => (hflush hruns).mono _) hruns

/-! ## Units of work -/

variable {repository : Repository} {first ids : IdSupply} {work : UnitOfWork} {session : Session}
  {budget : Nat}

/-- Whatever scripts were run on a unit of work, it holds no event but what it was begun with and
what was recorded in it. -/
theorem Course.traceable (hcourse : service.Course repository first marks ids work) :
    Sourced repository.nodes.events marks ∧
      work.nodes.events ⊆ repository.nodes.events ++ recordedIn marks := by
  induction hcourse with
  | begin => exact ⟨.nil, List.subset_append_left _ _⟩
  | @act _ marks ids later work script rules budget answer after _ _ hruns ih =>
      obtain ⟨hsourced, hleft⟩ := ih
      rw [← routine_observe] at hruns
      obtain ⟨hflush, hdrain⟩ := observed_traceable service rules budget
      obtain ⟨hacted, hlast⟩ := observe_traceable hflush hdrain script hruns
      refine ⟨hsourced.append (hacted.mono hleft), ?_⟩
      rw [recordedIn_append, ← List.append_assoc]
      exact List.Subset.trans hlast (List.append_subset.mpr
        ⟨List.subset_append_of_subset_left _ hleft, List.subset_append_right _ _⟩)

/-- So it is up to the end of its last drain, whether or not it is committed then. -/
theorem Course.sourced_of_commit (hcourse : service.Course repository first marks ids work)
    {answer : Except Error CommitReceipt} {after : Session}
    (hcommit : session.commit service budget work = some (answer, after)) :
    Sourced repository.nodes.events (marks ++ session.marksOfCommit service budget work) := by
  obtain ⟨hsourced, hleft⟩ := hcourse.traceable
  cases hdrain : (service.engine session.rules budget).drain.run.run
      { ids := session.ids, work } with
  | none => simp [Session.commit, Session.within, hdrain] at hcommit
  | some result =>
      have hruns : (service.engine session.rules budget).drain.Runs { ids := session.ids, work }
          result.1 result.2 := hdrain
      rw [← drain_observed] at hruns
      have htraceable := (observed_traceable service session.rules budget).2 hruns
      exact hsourced.append (htraceable.sourced.mono hleft)

end RuleService

/-! ## What is committed -/

namespace Repository

theorem events_of_commit {repository after : Repository} {base : Nat} {nodes : NodeStore}
    (hcommit : repository.commit base nodes = .ok after) : after.nodes.events = [] := by
  unfold commit at hcommit
  split at hcommit
  · obtain rfl := Except.ok.inj hcommit
    rfl
  · cases hcommit

theorem events_of_withStore {repository : Repository} {protocol identifier : String}
    {store : StoreRef} {ids later : IdSupply}
    (hmade : withStore protocol identifier ids = (.ok (repository, store), later)) :
    repository.nodes.events = [] := by
  unfold withStore at hmade
  rcases hcreated : (Change.createStore protocol identifier).run.run { ids } with ⟨answer, state⟩
  rw [hcreated] at hmade
  obtain ⟨hanswer, -⟩ := Prod.mk.inj hmade
  cases answer with
  | error error => cases hanswer
  | ok made =>
      obtain ⟨rfl, -⟩ := Prod.mk.inj (Except.ok.inj hanswer)
      rfl

/-- In a chain of committed states, only the first may hold events. -/
theorem events_of_chain {chain : List Repository} (hchain : chain.IsChain Succeeds)
    {repository : Repository} (hmem : repository ∈ chain) (hevents : repository.nodes.events ≠ []) :
    chain.getLast? = some repository := by
  induction chain with
  | nil => cases hmem
  | cons latest earlier ih =>
      cases earlier with
      | nil => rw [List.mem_singleton.mp hmem, List.getLast?_singleton]
      | cons previous earlier =>
          obtain ⟨⟨-, work, -, hnodes⟩, hrest⟩ := List.isChain_cons_cons.mp hchain
          rw [List.getLast?_cons_cons]
          rcases List.mem_cons.mp hmem with rfl | hmem
          · rw [hnodes] at hevents
            exact absurd rfl hevents
          · exact ih hrest hmem

end Repository

variable {earlier : List Repository} {provenances : String → Option Provenance} {bench : Workbench}

/-- **A unit of work reacts to nothing but its own changes, unless events waited in the nodes that
the repository was made of.**  Let any number of parties take turns at a workbench.  A committed
state that holds events is then the one that the repository was made with.  From whichever committed
state a unit of work was begun, whatever scripts were run on it, and also in the drain with which it
ends: behaviours are told only of events that were recorded in that unit of work before, or that its
state held when it was begun.  There are none such in a repository that was made with one store or
with none, and a commit of any nodes discards their events. -/
theorem sourced_of_interleaving (hbench : Interleaving earlier provenances bench) :
    (∀ repository ∈ bench.session.repository :: earlier, repository.nodes.events ≠ [] →
      (bench.session.repository :: earlier).getLast? = some repository) ∧
    (∀ repository ∈ bench.session.repository :: earlier,
      ∀ {service : RuleService} {first ids : IdSupply} {marks : List Mark} {work : UnitOfWork},
        service.Course repository first marks ids work →
          Sourced repository.nodes.events marks ∧
          ∀ {session after : Session} {budget : Nat} {answer : Except Error CommitReceipt},
            session.commit service budget work = some (answer, after) →
              Sourced repository.nodes.events
                (marks ++ session.marksOfCommit service budget work)) ∧
    (∀ {protocol identifier : String} {ids later : IdSupply} {repository : Repository}
      {store : StoreRef},
      Repository.withStore protocol identifier ids = (.ok (repository, store), later) →
        repository.nodes.events = []) ∧
    ({} : Repository).nodes.events = [] ∧
    ∀ {repository after : Repository} {base : Nat} {nodes : NodeStore},
      repository.commit base nodes = .ok after → after.nodes.events = [] := by
  refine ⟨?_, ?_, Repository.events_of_withStore, rfl, Repository.events_of_commit⟩
  · intro repository hmem
    exact Repository.events_of_chain hbench.orderly.chain hmem
  · intro repository _ service first ids marks work hcourse
    exact ⟨hcourse.traceable.1, hcourse.sourced_of_commit⟩

/-- A node is made, and behaviours are told of it: the event was recorded before. -/
theorem sourced_of_interleaving_visit :
    let service := Echo.listening .lenient
    Interleaving [] (fun _ => none) { session := Echo.session } ∧
      ∃ marks ids work receipt after,
        service.Course Echo.session.repository Echo.session.ids marks ids work ∧
        { Echo.session with ids }.commit service 5 work = some (.ok receipt, after) ∧
        let seen := marks ++ { Echo.session with ids }.marksOfCommit service 5 work
        tellingsIn seen ≠ [] ∧ Sourced [] seen := by
  intro service
  have hbench : Interleaving [] (fun _ => none) { session := Echo.session } :=
    .start Echo.reachable_session
  obtain ⟨marks, ids, work, receipt, after, hcourse, hcommit, htest⟩ :=
    Session.exists_course_of_tryOut (show Echo.session.tryOut service Echo.visit 5
      (fun _ _ _ seen => (tellingsIn seen).any fun _ => true) = true by decide +kernel)
  have hquiet : Echo.session.repository.nodes.events = [] := by decide +kernel
  obtain ⟨-, hcourses, -⟩ := sourced_of_interleaving hbench
  have hsourced := (hcourses _ List.mem_cons_self hcourse).2 hcommit
  rw [hquiet] at hsourced
  obtain ⟨telling, htelling, -⟩ := List.any_eq_true.mp htest
  exact ⟨hbench, marks, ids, work, receipt, after, hcourse, hcommit,
    List.ne_nil_of_mem htelling, hsourced⟩

/-- A session on a repository that was made of nodes whose last event nobody took. -/
def Echo.unread : Session :=
  let state := (Echo.create.run
    { ids := Echo.session.ids, nodes := Echo.session.repository.nodes }).2
  { repository := .ofNodes state.nodes, ids := state.ids }

/-- In a unit of work that does nothing behaviours are told of a node that was made before the
repository was. -/
theorem told_of_unread :
    let service := Echo.listening {}
    StoreState.Reachable { ids := Echo.unread.ids, nodes := Echo.unread.repository.nodes } ∧
      Echo.unread.repository = .ofNodes Echo.unread.repository.nodes ∧
      Echo.unread.repository.nodes.events ≠ [] ∧
      ∃ marks ids work receipt after event behaviour,
        service.Course Echo.unread.repository Echo.unread.ids marks ids work ∧
        { Echo.unread with ids }.commit service 5 work = some (.ok receipt, after) ∧
        let seen := marks ++ { Echo.unread with ids }.marksOfCommit service 5 work
        (event, behaviour) ∈ tellingsIn seen ∧ recordedIn seen = [] ∧ ¬ Sourced [] seen := by
  intro service
  have hreachable :
      StoreState.Reachable { ids := Echo.unread.ids, nodes := Echo.unread.repository.nodes } :=
    Echo.reachable_session.edit Echo.create
  obtain ⟨marks, ids, work, receipt, after, hcourse, hcommit, htest⟩ :=
    Session.exists_course_of_tryOut (show Echo.unread.tryOut service (return ()) 5
      (fun _ _ _ seen => (tellingsIn seen).any (fun _ => true) && (recordedIn seen).isEmpty) =
        true by decide +kernel)
  obtain ⟨hany, hnone⟩ := Bool.and_eq_true_iff.mp htest
  have hnone := List.isEmpty_iff.mp hnone
  obtain ⟨⟨event, behaviour⟩, htelling, -⟩ := List.any_eq_true.mp hany
  refine ⟨hreachable, rfl, by decide +kernel, marks, ids, work, receipt, after, event, behaviour,
    hcourse, hcommit, htelling, hnone, fun hsourced => ?_⟩
  have hmem := hsourced.mem_of_told htelling
  rw [hnone] at hmem
  cases hmem

end ContentRules
