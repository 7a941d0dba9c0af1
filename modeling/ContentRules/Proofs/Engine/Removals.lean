import ContentRules.Proofs.Engine.ObservedKeeps
import ContentRules.Proofs.Engine.Tellings
import ContentRules.Proofs.NodeStore.Types

/-!
# Nodes that are lost in a unit of work

A node that exists in a unit of work is there whenever the unit of work is looked at later, unless a
removal was recorded meanwhile that took it, with the tree that it lay in at the time.

**Strategy.**  Edits keep nodes or record what they take, and nothing else that is done to a unit of
work touches the nodes, except that a failed entry has those from before it put back.  With these no
node is lost, so what was undone need not be looked into (`keptByDrains_tellsRemovals`).
-/

namespace ContentRules

open Mark

namespace WorkState

/-! ## What can become of a unit of work -/

/-- The second state can come about from the first: scripts and drains take their steps, what is
done for an entry is undone if it fails, and others draw ids meanwhile. -/
inductive Leads : WorkState → WorkState → Prop
  | refl (state : WorkState) : Leads state state
  | trans {first second third : WorkState} (hfirst : Leads first second)
      (hlast : Leads second third) : Leads first third
  | step {state left : WorkState} (hstep : state.Step left) : Leads state left
  | takePending (state : WorkState) : Leads state (RuleService.withoutPending state)
  | executing (state : WorkState) (rule? : Option Rule) :
      Leads state { state with work := { state.work with executing := rule? } }
  | restore {state failed : WorkState} (hfailed : Leads state failed) :
      Leads state { failed with work := failed.work.restore state.work.checkpoint }
  | failEntry (state : WorkState) (failure : RuleFailure) : Leads state (state.failEntry failure)
  | abort (state : WorkState) (error : Error) : Leads state (state.abort error)
  | drawn {ids later : IdSupply} (hlater : ids ≤ later) (work : UnitOfWork)
      (journal others : List JournalLine) :
      Leads { ids, work, journal } { ids := later, work, journal := others }

theorem Leads.retains {state left : WorkState} (hleads : state.Leads left) :
    state.Retains left := by
  induction hleads with
  | refl state => exact enduring_retains.refl state
  | trans _ _ hfirst hlast => exact enduring_retains.trans hfirst hlast
  | step hstep => exact enduring_retains.step hstep
  | takePending state => exact enduring_retains.takePending state
  | executing state rule? => exact enduring_retains.mark state rule?
  | restore _ hfailed => exact enduring_retains.restore hfailed
  | failEntry state failure => exact enduring_retains.failEntry state failure
  | abort state error => exact enduring_retains.abort state error
  | drawn hlater work journal others => exact .drawn hlater work journal others

theorem Leads.reachable {state left : WorkState} (hleads : state.Leads left)
    (hreachable : state.store.Reachable) : left.store.Reachable :=
  hleads.retains.grows.reachable hreachable

/-! ## Removals -/

/-- One of the events tells of the removal of a tree that the node lay in, in a state that can come
about from this one. -/
def Removes (state : WorkState) (events : List NodeEvent) (node : NodeRef) : Prop :=
  ∃ between top, state.Leads between ∧ between.work.nodes.Within top node ∧
    .deleted top between.work.nodes.parents[top]? ∈ events

theorem Removes.mono {first state : WorkState} {events more : List NodeEvent} {node : NodeRef}
    (hremoves : state.Removes events node) (hleads : first.Leads state) (hmore : events ⊆ more) :
    first.Removes more node := by
  obtain ⟨between, top, hbetween, hwithin, hmem⟩ := hremoves
  exact ⟨between, top, hleads.trans hbetween, hwithin, hmore hmem⟩

end WorkState

/-- Of the nodes that were there each is still there, or its removal was recorded. -/
structure TellsRemovals (state : WorkState) (marks : List Mark) (left : WorkState) : Prop where
  leads : state.Leads left
  kept : state.store.Reachable → ∀ {node : NodeRef}, state.work.nodes.hasNode node →
    left.work.nodes.hasNode node ∨ state.Removes (recordedIn marks) node

namespace TellsRemovals

variable {state left last : WorkState} {marks more : List Mark}

/-- No node was lost. -/
theorem of_kept (hleads : state.Leads left)
    (hkept : ∀ {node : NodeRef}, state.work.nodes.hasNode node → left.work.nodes.hasNode node)
    (marks : List Mark) : TellsRemovals state marks left :=
  ⟨hleads, fun _ _ hnode => .inl (hkept hnode)⟩

theorem trans (hfirst : TellsRemovals state marks left) (hlast : TellsRemovals left more last) :
    TellsRemovals state (marks ++ more) last where
  leads := hfirst.leads.trans hlast.leads
  kept hreachable node hnode := by
    rw [recordedIn_append]
    rcases hfirst.kept hreachable hnode with hnode | hremoves
    · refine (hlast.kept (hfirst.leads.reachable hreachable) hnode).imp_right fun hremoves => ?_
      exact hremoves.mono hfirst.leads (List.subset_append_right _ _)
    · exact .inr (hremoves.mono (.refl state) (List.subset_append_left _ _))

theorem edited (state : WorkState) (change : Edit) :
    TellsRemovals state ((Observed.edit change).marks state) (Routine.edited state change) where
  leads := .step (.edit state change)
  kept hreachable node hnode := by
    refine (hreachable.sound.hasNode_run_or_deleted change hnode).imp_right fun hdeleted => ?_
    obtain ⟨top, hwithin, hmem⟩ := hdeleted
    refine ⟨state, top, .refl state, hwithin, ?_⟩
    rw [show (Observed.edit change).marks state = List.map recorded _ from rfl,
      recordedIn_map_recorded]
    exact hmem

end TellsRemovals

theorem keptWithMarks_tellsRemovals : KeptWithMarks TellsRemovals where
  refl state := .of_kept (.refl state) id []
  trans hfirst hlast := hfirst.trans hlast
  edit := TellsRemovals.edited
  silent {state left} hstep hnodes := by
    refine .of_kept (.step hstep) (fun hnode => ?_) []
    rwa [hnodes]

theorem keptByDrains_tellsRemovals (allowed : Act → Prop) :
    KeptByDrainsWithMarks allowed TellsRemovals where
  toKeptByActsWithMarks := keptWithMarks_tellsRemovals.keptByActs allowed
  takeEvents state := .of_kept (.step (.takeEvents state)) id []
  noteNew state event :=
    keptWithMarks_tellsRemovals.silent (.noteNew state event) (state.work.nodes_noteNew event)
  lost state _ := .of_kept (.refl state) id _
  refused state := .of_kept (.refl state) id _
  takePending state := .of_kept (.takePending state) id []
  executing _ hinner :=
    keptWithMarks_tellsRemovals.toComposes.executing
      (fun state rule? => .of_kept (.executing state rule?) id []) hinner
  undo hfailed := .of_kept (.restore hfailed.leads) id _
  failEntry state failure := .of_kept (.failEntry state failure) id []
  abort state error := .of_kept (.abort state error) id []

end ContentRules
