import ContentRules.Proofs.Engine.Growth
import ContentRules.Proofs.Engine.Rounds
import ContentRules.Proofs.Engine.Successes
import ContentRules.Proofs.NodeStore.Recorded

/-!
# Which nodes are new

A unit of work learns from the events that it delivers which nodes were not there when it was begun.
It has learnt all of them when no event is pending, as long as no flush and no drain has failed;
entries may have failed, since what is undone with an entry is undone for the new nodes as well.

**Strategy.**  A node that is new has been noted, or its event is recorded, or the event was taken
and is yet to be delivered, in which case the node is awaited.  `TellsNew` says that no other node
is new and that all of these are.  A flush takes all recorded events, and with each that it delivers
one node less is awaited; what behaviours do meanwhile preserves `TellsNew` whatever is awaited.
Hence the induction over the events goes through, then the one over the passes of a flush, and the
one over the entries of a drain.
-/

namespace ContentRules

open NodeEvent

/-! ## Nodes of a store -/

namespace StoreState

variable {first state after : StoreState} {told : NodeRef → Prop}

/-- From the nodes told of and the events recorded it can be told which nodes are new since `first`:
every node was there then, or is told of, or is the root of a store; and none that is told of has an
id that was drawn then. -/
structure TellsNew (state first : StoreState) (told : NodeRef → Prop) : Prop where
  ids_le : first.ids ≤ state.ids
  was_or_told : ∀ {node : NodeRef}, state.nodes.hasNode node →
    state.nodes.isRoot node ∨ first.nodes.hasNode node ∨ told node ∨
      Announced state.nodes.events node
  not_hasDrawn : ∀ {node : NodeRef}, told node ∨ Announced state.nodes.events node →
    ¬ first.ids.HasDrawn node.id

namespace TellsNew

theorem step (htells : state.TellsNew first told) (hstep : state.Step after) :
    after.TellsNew first told where
  ids_le := le_trans htells.ids_le hstep.later.ids_le
  was_or_told {node} hnode := by
    rcases hstep.exists_or_announced hnode with hnode | hroot | hannounced
    · rcases htells.was_or_told hnode with hroot | hwas | htold | hannounced
      · exact .inl (hstep.isRoot hroot)
      · exact .inr (.inl hwas)
      · exact .inr (.inr (.inl htold))
      · have hlater : state.Steps after := .single hstep
        exact .inr (.inr (.inr (hannounced.mono hlater.events_grow.subset)))
    · exact .inl hroot
    · exact .inr (.inr (.inr hannounced))
  not_hasDrawn {node} hnode := by
    rcases hnode with htold | hannounced
    · exact htells.not_hasDrawn (.inl htold)
    · rcases hstep.announced_or_not_hasDrawn hannounced with hannounced | hnew
      · exact htells.not_hasDrawn (.inr hannounced)
      · exact fun hdrawn => hnew (hdrawn.mono htells.ids_le)

theorem steps (htells : state.TellsNew first told) (hsteps : state.Steps after) :
    after.TellsNew first told := by
  induction hsteps with
  | refl => exact htells
  | tail _ hstep ih => exact ih.step hstep

/-- It makes no difference whether a node is told of or an event that is recorded tells of it. -/
theorem retell (htells : state.TellsNew first told) {ids : IdSupply} {events : List NodeEvent}
    {other : NodeRef → Prop} (hdrawn : state.ids ≤ ids)
    (htold : ∀ node, other node ∨ Announced events node ↔
      told node ∨ Announced state.nodes.events node) :
    TellsNew { ids, nodes := { state.nodes with events } } first other where
  ids_le := le_trans htells.ids_le hdrawn
  was_or_told {node} hnode := by
    rcases htells.was_or_told hnode with hroot | hwas | hnew
    · exact .inl hroot
    · exact .inr (.inl hwas)
    · exact .inr (.inr ((htold node).mpr hnew))
  not_hasDrawn hnode := htells.not_hasDrawn ((htold _).mp hnode)

/-- Without events, what was told is exactly what is new. -/
theorem told_iff (htells : state.TellsNew first told) (hfirst : first.Reachable)
    (hquiet : state.nodes.events = []) {node : NodeRef} (hnode : state.nodes.hasNode node)
    (hroot : ¬ state.nodes.isRoot node) : told node ↔ ¬ first.nodes.hasNode node := by
  constructor
  · intro htold hwas
    exact htells.not_hasDrawn (.inl htold) (hfirst.sound.hasDrawn hwas)
  · intro hnew
    rcases htells.was_or_told hnode with hroot' | hwas | htold | ⟨event, hevent, -⟩
    · exact absurd hroot' hroot
    · exact absurd hwas hnew
    · exact htold
    · exact absurd hquiet (List.ne_nil_of_mem hevent)

end TellsNew

end StoreState

/-! ## Acts and deliveries -/

namespace UnitOfWork

theorem isNew_iff {work : UnitOfWork} {node : NodeRef} :
    work.isNew node ↔ node ∈ work.newNodes.entries := by
  rw [isNew, OrderedSet.contains_iff, List.map_id]
  rfl

theorem mem_newNodes_noteNew {work : UnitOfWork} {event : NodeEvent} {node : NodeRef} :
    node ∈ (work.noteNew event).newNodes.entries ↔
      node ∈ work.newNodes.entries ∨ event.newNode? = some node := by
  unfold noteNew
  split
  · rename_i new hnew
    unfold OrderedSet.push
    split
    · rename_i hknown
      have hmem : new ∈ work.newNodes.entries := isNew_iff.mp hknown
      rw [hnew, Option.some_inj]
      exact ⟨.inl, fun hnode => hnode.elim id fun hsame => hsame ▸ hmem⟩
    · simp [hnew, eq_comm]
  · rename_i hnone
    simp [hnone]

end UnitOfWork

namespace WorkState

variable {first : StoreState} {awaited : NodeRef → Prop} {state : WorkState}

/-- Which nodes are new since `first` can be told from the nodes noted, those awaited and the events
recorded.  The nodes awaited are those that events tell of which were taken and are yet to be
delivered. -/
def TellsNew (state : WorkState) (first : StoreState) (awaited : NodeRef → Prop) : Prop :=
  state.store.TellsNew first fun node => node ∈ state.work.newNodes.entries ∨ awaited node

namespace TellsNew

/-- A unit of work begins with nothing that is new. -/
theorem begin {repository : Repository} {ids : IdSupply} (hquiet : repository.nodes.events = []) :
    TellsNew { ids, work := .begin repository } { ids, nodes := repository.nodes }
      (fun _ => False) where
  ids_le := le_rfl
  was_or_told hnode := .inr (.inl hnode)
  not_hasDrawn {node} hnode := by
    rcases hnode with (hnoted | hawaited) | ⟨event, hevent, -⟩
    · cases hnoted
    · exact hawaited.elim
    · exact absurd hquiet (List.ne_nil_of_mem hevent)

/-- Only the nodes, the ids and the nodes noted matter. -/
theorem congr (htells : state.TellsNew first awaited) {after : WorkState}
    (hnodes : after.work.nodes = state.work.nodes)
    (hnoted : after.work.newNodes = state.work.newNodes)
    (hdrawn : state.ids ≤ after.ids) : after.TellsNew first awaited := by
  have hstore : after.store = { ids := after.ids, nodes := state.store.nodes } :=
    congrArg (StoreState.mk after.ids) hnodes
  unfold TellsNew
  rw [hstore, hnoted]
  exact htells.retell hdrawn fun node => Iff.rfl

theorem act (htells : state.TellsNew first awaited) (act : Act) :
    (act.effect state).TellsNew first awaited := by
  cases act with
  | edit change => exact htells.steps (change.steps_run state.store)
  | enqueue entry =>
      obtain ⟨pending, hqueued⟩ := state.work.exists_enqueue_eq entry
      refine htells.congr ?_ ?_ le_rfl <;> simp only [Act.effect, hqueued]
  | turn switch =>
      obtain ⟨disabledNodes, rulesDisabled, hturned⟩ := state.work.exists_turn_eq switch
      refine htells.congr ?_ ?_ le_rfl <;> simp only [Act.effect, hturned]
  | deliver | runPending | deferCopy | note => exact htells

/-- The events that are taken are awaited. -/
theorem withoutEvents (htells : state.TellsNew first awaited) :
    (RuleService.withoutEvents state).TellsNew first
      (fun node => Announced state.work.nodes.events node ∨ awaited node) := by
  refine htells.retell le_rfl fun node => ?_
  rw [or_iff_left announced_nil]
  exact or_left_comm.trans or_comm

/-- A node that is noted is no longer awaited. -/
theorem noteNew {event : NodeEvent}
    (htells : state.TellsNew first (fun node => event.newNode? = some node ∨ awaited node)) :
    TellsNew { state with work := state.work.noteNew event } first awaited := by
  have hstore : WorkState.store { state with work := state.work.noteNew event } = state.store :=
    congrArg (StoreState.mk state.ids) (state.work.nodes_noteNew event)
  unfold TellsNew
  rw [hstore]
  refine htells.retell le_rfl fun node => or_congr_left ?_
  rw [UnitOfWork.mem_newNodes_noteNew, or_assoc]

end TellsNew

end WorkState

/-! ## Flushes -/

namespace RuleService

open Routine

variable {service : RuleService} {rules : RuleStore} {engine : Engine} {first : StoreState}
  {awaited : NodeRef → Prop} {state after : WorkState}

/-- If the routine succeeds, it can be told afterwards which nodes are new if it could before, and
the same nodes are awaited, whichever these are. -/
abbrev KeepsTelling (first : StoreState) {α : Type} (routine : Routine α) : Prop :=
  ∀ awaited : NodeRef → Prop, routine.Preserves fun state => state.TellsNew first awaited

/-- An entry that fails leaves nodes, events and new nodes as they were, but the ids that were drawn
stay drawn. -/
theorem NeverDrains.left_by_failed (hdrains : service.NeverDrains) {budget : Nat}
    {entry : PendingEntry} {error : Error}
    (hruns : (service.runEntry rules (service.engine rules budget) entry).Runs state (.error error)
      after) :
    after.work.nodes = state.work.nodes ∧ after.work.newNodes = state.work.newNodes ∧
      state.ids ≤ after.ids := by
  obtain ⟨_, failed, hrule, rfl⟩ := exists_failed_of_runs hruns
  have hrestored := (hdrains.extends_whileExecuting hrule).restore_eq
  have hgrows : state.Grows failed :=
    service.drainsOnlyIf_true.uses.whileExecuting_keeps (drain_keeps keptByDrains_grows budget).1
      (fun _ => (drain_keeps keptByDrains_grows budget).2) (keptByDrains_grows.keptByDrainsOf _)
      entry hrule
  exact ⟨(congrArg UnitOfWork.nodes hrestored :), (congrArg UnitOfWork.newNodes hrestored :),
    hgrows.later.ids_le⟩

section Deliveries

variable (hpasses : service.PassesOn) (hdrains : service.NeverDrains)

include hpasses hdrains

/-- Once the events have been delivered, the nodes that they tell of are no longer awaited. -/
theorem tellsNew_deliverAll (hflush : KeepsTelling first engine.flush) {events : List NodeEvent}
    (hruns : (service.deliverAll rules engine events).Runs state (.ok ()) after)
    (htells : state.TellsNew first fun node => Announced events node ∨ awaited node) :
    after.TellsNew first awaited := by
  induction events generalizing state with
  | nil =>
      obtain ⟨-, rfl⟩ := runs_pure.mp hruns
      simpa using htells
  | cons event events ih =>
      rcases runs_bind.mp hruns with ⟨_, told, hfirst, hrest⟩ | ⟨_, -, ⟨⟩⟩
      have hdispatch := runs_update_bind.mp hfirst
      simp only [announced_cons, or_assoc] at htells
      refine ih hrest ?_
      exact hpasses.dispatch_preserves hdrains (fun act state htells => htells.act act) (hflush _)
        event hdispatch htells.noteNew

theorem keepsTelling_flush (budget : Nat) :
    KeepsTelling first (service.engine rules budget).flush := by
  induction budget with
  | zero => exact fun _ _ _ _ hruns => absurd hruns runs_exhausted
  | succ budget ih =>
      intro awaited state after _ hruns htells
      have hflush : (flush service rules (budget + 1)).Runs state (.ok ()) after := hruns
      rw [flush_succ, runs_bind_of_runs runs_takeEvents] at hflush
      have htaken := htells.withoutEvents
      cases hevents : state.work.nodes.events with
      | nil =>
          rw [hevents] at hflush htaken
          obtain ⟨-, rfl⟩ := runs_pure.mp hflush
          simpa using htaken
      | cons event events =>
          rw [hevents] at hflush htaken
          rcases runs_bind.mp hflush with ⟨_, delivered, hdeliver, hrest⟩ | ⟨_, -, ⟨⟩⟩
          exact ih awaited hrest (tellsNew_deliverAll hpasses hdrains ih hdeliver htaken)

/-! ## Entries and drains -/

/-- A rule is run by a script and a flush. -/
theorem keepsTelling_runRule (budget : Nat) (entry : PendingEntry) :
    KeepsTelling first (service.runRule rules (service.engine rules budget) entry) := by
  intro awaited state after outcome hruns htells
  have hflush : (service.engine rules budget).flush.Preserves fun state =>
      state.TellsNew first awaited := keepsTelling_flush hpasses hdrains budget awaited
  rcases runs_runRule_ok hruns with
    ⟨-, rfl⟩ | ⟨-, action, executor, executed, hexecutor, hexecuted, hflushed⟩
  · exact htells
  · refine hflush hflushed ?_
    exact (hpasses.execute hexecutor entry.actionable entry.actionedUpon).run_preserves
      (hdrains.execute hexecutor entry.actionable entry.actionedUpon)
      (fun act state htells => htells.act act) hflush hexecuted htells

/-- It can be told which nodes are new after an entry, whether it fails or not. -/
theorem tellsNew_runEntry {budget : Nat} {entry : PendingEntry} {answer : Except Error Outcome}
    (hruns : (service.runEntry rules (service.engine rules budget) entry).Runs state answer after)
    (htells : state.TellsNew first awaited) : after.TellsNew first awaited := by
  cases answer with
  | error error =>
      obtain ⟨hnodes, hnoted, hlater⟩ := hdrains.left_by_failed hruns
      exact htells.congr hnodes hnoted hlater
  | ok outcome =>
      by_cases hskipped : isSkipped state.work entry
      · obtain ⟨-, rfl⟩ := (runs_runEntry_of_skipped hskipped).mp hruns
        exact htells
      · rcases (runs_runEntry hskipped).mp hruns with ⟨_, hrule, -⟩ | ⟨_, _, -, ⟨⟩, -⟩
        obtain ⟨inner, hinner, rfl⟩ := runs_whileExecuting.mp hrule
        -- The mark of the rule being run does not matter.
        have htold : inner.TellsNew first awaited :=
          keepsTelling_runRule hpasses hdrains budget entry awaited hinner htells
        exact htold

/-- So it can between any two entries of a drain. -/
theorem tellsNew_of_reaches {budget : Nat} {start : WorkState} {progress : Progress}
    (hreaches : Reaches service rules (service.engine rules budget) start progress state)
    (htells : start.TellsNew first awaited) : state.TellsNew first awaited := by
  induction hreaches with
  | flushed hflush => exact keepsTelling_flush hpasses hdrains budget awaited hflush htells
  | round _ _ _ ih => exact ih
  | entry _ hceiling hruns ih =>
      rcases (runs_processEntry hceiling).mp hruns with ⟨_, hentry, -⟩ | ⟨_, _, hentry, rfl, -⟩
      · exact tellsNew_runEntry hpasses hdrains hentry ih
      · -- That the failure is counted changes neither the nodes nor what was noted.
        have hfailed := tellsNew_runEntry hpasses hdrains hentry ih
        exact hfailed

theorem keepsTelling_drain (budget : Nat) :
    KeepsTelling first (service.engine rules budget).drain := by
  intro awaited start final report hruns htells
  cases budget with
  | zero => exact absurd hruns runs_exhausted
  | succ budget =>
      obtain ⟨progress, stopped, hended, hok, -⟩ := ended_of_runs hruns
      rw [hok report rfl]
      cases hended with
      | settled hreaches => exact tellsNew_of_reaches hpasses hdrains hreaches htells

end Deliveries

/-! ## Units of work -/

/-- A unit of work that was begun on a repository, after acts and after flushes and drains that have
succeeded, though any number of entries may have failed in them.  Rules may be attached and ids
drawn by others in between. -/
inductive SmoothCourse (service : RuleService) (repository : Repository) (first : IdSupply) :
    WorkState → Prop
  | begin : SmoothCourse service repository first { ids := first, work := .begin repository }
  | act {state : WorkState} (hcourse : SmoothCourse service repository first state) (act : Act) :
      SmoothCourse service repository first (act.effect state)
  | flush {state after : WorkState} {rules : RuleStore} {budget : Nat}
      (hcourse : SmoothCourse service repository first state)
      (hruns : (service.engine rules budget).flush.Runs state (.ok ()) after) :
      SmoothCourse service repository first after
  | drain {state after : WorkState} {rules : RuleStore} {budget : Nat} {report : DrainReport}
      (hcourse : SmoothCourse service repository first state)
      (hruns : (service.engine rules budget).drain.Runs state (.ok report) after) :
      SmoothCourse service repository first after
  | drawn {state : WorkState} {ids : IdSupply}
      (hcourse : SmoothCourse service repository first state)
      (hlater : state.ids ≤ ids) :
      SmoothCourse service repository first { state with ids }

variable {repository : Repository} {ids : IdSupply}

theorem SmoothCourse.acts (hcourse : service.SmoothCourse repository ids state) (acts : List Act) :
    service.SmoothCourse repository ids (acts.foldl (fun state act => act.effect state) state) := by
  induction acts generalizing state with
  | nil => exact hcourse
  | cons act acts ih => exact ih (hcourse.act act)

theorem SmoothCourse.tellsNew (hpasses : service.PassesOn) (hdrains : service.NeverDrains)
    (hquiet : repository.nodes.events = [])
    (hcourse : service.SmoothCourse repository ids state) :
    state.TellsNew { ids, nodes := repository.nodes } fun _ => False := by
  induction hcourse with
  | begin => exact .begin hquiet
  | act _ act ih => exact ih.act act
  | @flush _ _ rules budget _ hruns ih =>
      exact keepsTelling_flush hpasses hdrains budget _ hruns ih
  | drain _ hruns ih => exact keepsTelling_drain hpasses hdrains _ _ hruns ih
  | drawn _ hlater ih => exact ih.congr rfl rfl hlater

/-- **A node is new exactly if it was not there at the checkout.**  Let handlers pass on the error
of a flush and start no drain, and let a unit of work be begun on committed nodes without events.
After any acts, and after flushes and drains that have succeeded, however many entries failed in
them: whenever no event is pending, of the nodes that exist and are not roots just those are new
that did not exist in the nodes checked out.  The record of new nodes holds no node twice and just
those that are new, and an entry that fails leaves in it what was recorded before the entry. -/
theorem isNew_iff_of_smooth (hpasses : service.PassesOn) (hdrains : service.NeverDrains)
    (hcommitted : StoreState.Reachable { ids, nodes := repository.nodes })
    (hquiet : repository.nodes.events = [])
    (hcourse : service.SmoothCourse repository ids state) :
    (state.work.nodes.events = [] → ∀ node, state.work.nodes.hasNode node →
      ¬ state.work.nodes.isRoot node →
        (state.work.isNew node ↔ ¬ repository.nodes.hasNode node)) ∧
    state.work.newNodes.entries.Nodup ∧
    (∀ node, state.work.isNew node ↔ node ∈ state.work.newNodes.entries) ∧
    ∀ (rules : RuleStore) (budget : Nat) (entry : PendingEntry) (before failed : WorkState)
      (error : Error), (service.runEntry rules (service.engine rules budget) entry).Runs before
        (.error error) failed →
      failed.work.newNodes = before.work.newNodes := by
  refine ⟨?_, ?_, fun _ => UnitOfWork.isNew_iff, ?_⟩
  · intro hnone node hnode hroot
    rw [UnitOfWork.isNew_iff, ← (hcourse.tellsNew hpasses hdrains hquiet).told_iff hcommitted hnone
      hnode hroot, or_false]
  · simpa using state.work.newNodes.nodup
  · intro rules budget entry before failed error hruns
    exact (hdrains.left_by_failed hruns).2.1

end RuleService

/-! ## Two rules, one of which fails -/

namespace Echo

/-- The service of the two rules, neither of which is triggered by events. -/
def quietService : RuleService :=
  { service {} with behaviours := [] }

theorem passesOn_quietService : quietService.PassesOn := by
  have hadd : ∀ actionable actionedUpon, (add actionable actionedUpon).PassesOn :=
    fun _ _ => (Script.passesOn_apply _).bind fun _ => trivial
  constructor
  · intro behaviour hbehaviour
    cases hbehaviour
  · intro action executor hmade actionable actionedUpon
    have hnamed : (service {}).handlers.executor action = .ok executor := hmade
    rcases eq_of_executor hnamed with rfl | rfl
    · refine (hadd actionable actionedUpon).bind fun _ => Script.passesOn_flush.bind fun _ => ?_
      exact Script.passesOn_apply _
    · exact hadd actionable actionedUpon

theorem neverDrains_quietService : quietService.NeverDrains where
  react := by
    intro behaviour hbehaviour
    cases hbehaviour
  execute := (neverDrains_service {}).execute

/-- A store with a node beneath its root. -/
def planted : StoreState :=
  let root := (entry "good" "add").actionable
  let name : QualifiedName := { space := "model", localName := "plant" }
  let edits : List Edit := [.createStore "workspace" "main", .createNode root name name name []]
  let store := edits.foldl (fun state edit => (edit.run state).2) { ids := {}, nodes := .empty }
  { store with nodes := store.nodes.takeEvents.2 }

/-- A unit of work on that store, in which a node is made and both rules are queued. -/
def queued : WorkState :=
  let name : QualifiedName := { space := "model", localName := "plant" }
  let acts : List Act :=
    [.edit (.createNode (entry "good" "add").actionable name name name []),
      .enqueue (entry "bad" "spoil"), .enqueue (entry "good" "add")]
  acts.foldl (fun state act => act.effect state)
    { ids := planted.ids, work := .begin (.ofNodes planted.nodes) }

end Echo

/-- Of the three nodes made in the unit of work, two are left, and both are new. -/
theorem RuleService.isNew_iff_of_smooth_queued :
    let service := Echo.quietService
    let node (id : String) : NodeRef := { (Echo.entry "good" "add").actionable with id }
    service.PassesOn ∧ service.NeverDrains ∧ Echo.planted.Reachable ∧
      Echo.planted.nodes.events = [] ∧
      ∃ state, service.SmoothCourse (.ofNodes Echo.planted.nodes) Echo.planted.ids state ∧
        state.work.nodes.events = [] ∧ state.work.failedEntries = 1 ∧
        state.work.nodes.size = 4 ∧ state.work.isNew (node "u5") ∧ ¬ state.work.isNew (node "u2") ∧
        (∀ node, state.work.nodes.hasNode node → ¬ state.work.nodes.isRoot node →
          (state.work.isNew node ↔ ¬ Echo.planted.nodes.hasNode node)) ∧
        state.work.newNodes.entries.Nodup := by
  intro service node
  have hplanted : Echo.planted.Reachable := ((StoreState.Reachable.empty _).edits _).takeEvents
  have hquiet : Echo.planted.nodes.events = [] := rfl
  have hqueued : service.SmoothCourse (.ofNodes Echo.planted.nodes) Echo.planted.ids Echo.queued :=
    SmoothCourse.begin.acts _
  obtain ⟨_ | report, state, hruns, htest⟩ := Routine.exists_runs_of_any (show
    ((service.engine {} 9).drain.run.run Echo.queued).any (fun (answer, state) =>
      answer.isOk && state.work.nodes.events.isEmpty && state.work.failedEntries == 1 &&
        state.work.nodes.size == 4 && state.work.isNew (node "u5") &&
        !state.work.isNew (node "u2")) = true by decide +kernel)
  case error => cases htest
  simp only [Bool.and_eq_true, List.isEmpty_iff, beq_iff_eq, Bool.not_eq_true',
    ← Bool.not_eq_true] at htest
  obtain ⟨⟨⟨⟨⟨-, hevents⟩, hfailed⟩, hsize⟩, hnew⟩, hold⟩ := htest
  have hcourse := hqueued.drain hruns
  obtain ⟨hnewness, hnodup, -⟩ := RuleService.isNew_iff_of_smooth Echo.passesOn_quietService
    Echo.neverDrains_quietService hplanted hquiet hcourse
  exact ⟨Echo.passesOn_quietService, Echo.neverDrains_quietService, hplanted, hquiet, state,
    hcourse, hevents, hfailed, hsize, hnew, hold, hnewness hevents, hnodup⟩

end ContentRules
