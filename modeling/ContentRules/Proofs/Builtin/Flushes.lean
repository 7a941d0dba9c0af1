import ContentRules.Proofs.Builtin.Handlers

/-!
# Flushes of the built-in service

A flush of the built-in service ends well whatever was recorded, however long ago, and whatever has
become of the nodes since.  It goes through the events at most twice, and to the nodes it does
nothing but furnish the copies of nodes with rules.

**Strategy.**  Told of one event, the behaviours furnish a copy or leave the nodes as they are
(`runs_dispatch`), and so they do for a list of events, one after the other (`runs_deliverAll`).
Making a node actionable records events, but none of these tells of a copy, so when they are
delivered in their turn no more are recorded.
-/

namespace ContentRules

open Routine

namespace RuleService

variable {service : RuleService} {rules : RuleStore} {state middle after : WorkState}

/-- One pass over the recorded events: they are taken and delivered, none of the behaviours fails,
and none of them calls on a routine. -/
def Passes (service : RuleService) (rules : RuleStore) (state after : WorkState) : Prop :=
  ∀ engine : Engine, (service.deliverAll rules engine state.work.nodes.events).Runs
    (withoutEvents state) (.ok ()) after

/-- A flush goes on after a pass. -/
theorem Passes.runs_flush (hpasses : service.Passes rules state middle) {budget : Nat}
    (hrest : (flush service rules (budget + 1)).Runs middle (.ok ()) after) :
    (flush service rules (budget + 2)).Runs state (.ok ()) after := by
  rw [flush_succ, runs_bind_of_runs runs_takeEvents]
  have hpass := hpasses (service.engine rules (budget + 1))
  cases hevents : state.work.nodes.events with
  | nil =>
      -- There was nothing to deliver, and the rest of the flush finds nothing either.
      rw [hevents] at hpass
      obtain ⟨-, rfl⟩ := runs_pure.mp hpass
      have hquiet : (flush service rules (budget + 1)).Runs (withoutEvents state) (.ok ())
          (withoutEvents state) := runs_flush_of_quiet rfl budget
      obtain ⟨-, rfl⟩ := hquiet.unique hrest
      exact runs_pure.mpr ⟨rfl, rfl⟩
  | cons event events =>
      rw [hevents] at hpass
      exact (runs_bind_of_runs hpass).mpr hrest

end RuleService

namespace Builtin

open Triggers WorkState

variable {service : RuleService} {rules : RuleStore} {state : WorkState}

section Service

variable (hbehaviours : service.behaviours =
  { kind := .nodeCopied, react := Actionable.copyRulesWithNode } ::
    adapters.flatMap fun adapter => adapter.1.kinds.map (listener · adapter))

include hbehaviours

/-- Told of an event, the behaviours end well.  They furnish the copy of a node with rules, and
leave the nodes as they are if the event tells of no copy. -/
theorem runs_dispatch (rules : RuleStore) (engine : Engine) {state : WorkState}
    (hreachable : state.store.Reachable) (event : NodeEvent) :
    ∃ after, (service.dispatch rules engine event).Runs state (.ok ()) after ∧
      state.FurnishesNodes (rules.FollowedBy event) after ∧
      (event.kind ≠ .nodeCopied → after.store = state.store) := by
  have hcopied : ∃ prepared, ((if event.kind = .nodeCopied then
      [({ kind := .nodeCopied, react := Actionable.copyRulesWithNode } : Behaviour)] else []).forM
        fun behaviour => (behaviour.react event).run rules engine).Runs state (.ok ()) prepared ∧
      state.FurnishesNodes (rules.FollowedBy event) prepared ∧
      (event.kind ≠ .nodeCopied → prepared.store = state.store) := by
    by_cases hkind : event.kind = .nodeCopied
    · obtain ⟨prepared, hruns, hprepared⟩ :=
        Actionable.runs_copyRulesWithNode rules engine hreachable event
      rw [if_pos hkind]
      exact ⟨prepared, (runs_bind_of_runs hruns).mpr (runs_pure.mpr ⟨rfl, rfl⟩),
        hprepared.toFurnishesNodes, fun hother => absurd hkind hother⟩
    · rw [if_neg hkind]
      exact ⟨state, runs_pure.mpr ⟨rfl, rfl⟩, .of_store_eq hreachable rfl, fun _ => rfl⟩
  obtain ⟨prepared, hruns, hprepared, hsame⟩ := hcopied
  -- The adapters do nothing but queue rules.
  have hadapters := @runs_listeners rules engine prepared (toldOf event.kind) event.kind event
  obtain ⟨pending, hqueued⟩ := prepared.work.enqueueAll_frame
    ((toldOf event.kind).flatMap (entriesOf rules prepared.work event))
  rw [hqueued] at hadapters
  refine ⟨{ prepared with work := { prepared.work with pending } }, ?_,
    hprepared.trans (.of_store_eq hprepared.reachable rfl), hsame⟩
  unfold RuleService.dispatch
  rw [boundTo_eq hbehaviours, List.forM_eq_forM, List.forM_append]
  exact (runs_bind_of_runs hruns).mpr hadapters

/-- So it is with any events, one after the other. -/
theorem runs_deliverAll (rules : RuleStore) (engine : Engine) (hreachable : state.store.Reachable)
    (events : List NodeEvent) :
    ∃ after, (service.deliverAll rules engine events).Runs state (.ok ()) after ∧
      state.FurnishesNodes (fun owner => ∃ event ∈ events, rules.FollowedBy event owner) after ∧
      ((∀ event ∈ events, event.kind ≠ .nodeCopied) → after.store = state.store) := by
  induction events generalizing state with
  | nil => exact ⟨state, runs_pure.mpr ⟨rfl, rfl⟩, .of_store_eq hreachable rfl, fun _ => rfl⟩
  | cons event events ih =>
      -- The new node is noted before the behaviours are told.
      obtain ⟨newNodes, hnoted⟩ := state.work.exists_noteNew_eq event
      have hnotedStore : ({ state with work := state.work.noteNew event } : WorkState).store =
          state.store := by
        rw [hnoted]
        rfl
      obtain ⟨told, hruns, htold, hsame⟩ :=
        runs_dispatch hbehaviours rules engine (hnotedStore.symm ▸ hreachable) event
      obtain ⟨after, hrest, hafter, hquiet⟩ := ih htold.reachable
      have hfirst : (do
          update fun work => work.noteNew event
          service.dispatch rules engine event).Runs state (.ok ()) told :=
        runs_update_bind.mpr hruns
      have hnotes : state.FurnishesNodes (rules.FollowedBy event) told :=
        (FurnishesNodes.of_store_eq hreachable hnotedStore).trans htold
      refine ⟨after, (runs_bind_of_runs hfirst).mpr hrest,
        (hnotes.mono fun owner howner => ⟨event, List.mem_cons_self, howner⟩).trans
          (hafter.mono fun owner howner => ?_), fun hnone => ?_⟩
      · obtain ⟨other, hother, hfollowed⟩ := howner
        exact ⟨other, List.mem_cons_of_mem event hother, hfollowed⟩
      · obtain ⟨hevent, hevents⟩ := List.forall_mem_cons.mp hnone
        rw [hquiet hevents, hsame hevent, hnotedStore]

end Service

/-- **Every flush of the built-in service ends well.**  Let the nodes be reachable, with whatever
events they have recorded, and let the rest of the unit of work and the rules be anything.  The
service can be made.  After two passes over the events, the second of which is over those recorded
in the first, no event is left, and with a budget for two passes the flush succeeds and leaves what
they leave.  The nodes that were there are as before, except for the copies of nodes with rules that
the events tell of: these may be actionable now, and whatever is new is a configuration folder of
theirs or the system folder of their store. -/
theorem flush_furnishes (config : EngineConfig) (rules : RuleStore)
    (hreachable : state.store.Reachable) :
    ∃ service, Builtin.service config = .ok service ∧ ∃ middle after,
      service.Passes rules state middle ∧ service.Passes rules middle after ∧
      after.work.nodes.events = [] ∧
      (∀ budget, (service.flush rules (budget + 3)).Runs state (.ok ()) after) ∧
      state.store.Furnishes
        (fun owner => ∃ event ∈ state.work.nodes.events, rules.FollowedBy event owner)
        after.store := by
  obtain ⟨service, hservice, hbehaviours⟩ := exists_service config
  have huses := uses_of_create hservice
  have hpass (before : WorkState) (hbefore : before.store.Reachable) :
      ∃ after, service.Passes rules before after ∧
        (RuleService.withoutEvents before).FurnishesNodes
          (fun owner => ∃ event ∈ before.work.nodes.events, rules.FollowedBy event owner) after ∧
        ((∀ event ∈ before.work.nodes.events, event.kind ≠ .nodeCopied) →
          after.store = (RuleService.withoutEvents before).store) := by
    have htaken : (RuleService.withoutEvents before).store.Reachable := hbefore.takeEvents
    obtain ⟨after, hruns, hafter⟩ := runs_deliverAll hbehaviours rules (service.engine rules 0)
      htaken before.work.nodes.events
    refine ⟨after, fun engine => ?_, hafter⟩
    rw [huses.deliverAll_congr id id engine (service.engine rules 0)]
    exact hruns
  obtain ⟨middle, hfirst, hmiddle, -⟩ := hpass state hreachable
  obtain ⟨after, hsecond, -, hsame⟩ := hpass middle hmiddle.reachable
  -- What the first pass has recorded tells of no copy.
  have hcopies : ∀ event ∈ middle.work.nodes.events, event.kind ≠ .nodeCopied := by
    obtain ⟨recorded, hrecorded, hnone⟩ := hmiddle.recorded
    have hevents : middle.work.nodes.events = recorded := hrecorded
    rw [hevents]
    exact hnone
  have hstore := hsame hcopies
  have hquiet : after.work.nodes.events = [] := by
    show after.store.nodes.events = []
    rw [hstore]
    rfl
  refine ⟨service, hservice, middle, after, hfirst, hsecond, hquiet, fun budget => ?_, ?_⟩
  · exact hfirst.runs_flush (hsecond.runs_flush (RuleService.runs_flush_of_quiet hquiet budget))
  · rw [hstore]
    exact ((StoreState.Furnishes.takeEvents state.store).trans hreachable.takeEvents.sound
      hmiddle.furnishes).trans hmiddle.reachable.sound (.takeEvents middle.store)

/-- A folder was copied and removed before any event was delivered. -/
def outlived : WorkState :=
  let name : QualifiedName := { space := "model", localName := "shelf" }
  let edits : List Edit :=
    [.createStore "workspace" "main",
      .createNode (nodeOf "u1") Vocabulary.containsRelation name Vocabulary.folderType [],
      .copyNode (nodeOf "u2") (nodeOf "u1") Vocabulary.containsRelation name false,
      .deleteNode (nodeOf "u2")]
  let store := edits.foldl (fun state edit => (edit.run state).2) { ids := {}, nodes := .empty }
  { ids := store.ids, work := { nodes := store.nodes, baseVersion := 0 } }

/-- The folder had a rule. -/
def outlivedRules : RuleStore :=
  ({} : RuleStore).put (nodeOf "u2") { id := "r", ruleType := "inbound" }

/-- Its copy is furnished: two folders come into being beneath the root. -/
theorem flush_furnishes_outlived :
    outlived.store.Reachable ∧ outlived.work.nodes.events.length = 3 ∧
      ∃ service, Builtin.service {} = .ok service ∧ ∃ after,
        (service.flush outlivedRules 3).Runs outlived (.ok ()) after ∧
        after.work.nodes.events = [] ∧
        outlived.store.Furnishes (fun owner => ∃ event ∈ outlived.work.nodes.events,
          outlivedRules.FollowedBy event owner) after.store ∧
        outlived.work.nodes.size = 2 ∧ after.work.nodes.size = 4 := by
  have hreachable : outlived.store.Reachable := (StoreState.Reachable.empty _).edits _
  obtain ⟨service, hservice, middle, after, -, -, hquiet, hflush, hfurnishes⟩ :=
    flush_furnishes {} outlivedRules hreachable
  obtain ⟨other, hother, hsize⟩ := exists_service_of_any (show
    ((Builtin.service {}).toOption.any fun service =>
      ((service.flush outlivedRules 3).run.run outlived).any fun run =>
        run.2.work.nodes.size = 4) = true by decide +kernel)
  obtain rfl := Except.ok.inj (hservice.symm.trans hother)
  rw [show (service.flush outlivedRules 3).run.run outlived = some (.ok (), after) from hflush 0]
    at hsize
  exact ⟨hreachable, by decide +kernel, service, hservice, after, hflush 0, hquiet, hfurnishes,
    by decide +kernel, by simpa using hsize⟩

end Builtin

end ContentRules
