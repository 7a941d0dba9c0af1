import ContentRules.Proofs.Engine.Keeps
import ContentRules.Proofs.Engine.Scripts
import ContentRules.Proofs.NodeStore.Forest

/-!
# New nodes have new ids

Whatever is done to a unit of work, a node that comes to exist in it has an id that was not drawn
before, and a node that is gone does not come back.

**Strategy.**  `StoreState.Later` says so of two states of a node store.  Every step of an edit is
an instance of it, and it is kept by all that scripts and drains do: what an entry that fails leaves
is the nodes from before it, with the ids drawn since.
-/

namespace ContentRules

/-! ## Steps of an edit -/

namespace StoreState

variable {before after last : StoreState}

/-- The supply has gone on, and each node was there before or has an id drawn in between. -/
structure Later (before after : StoreState) : Prop where
  ids_le : before.ids ≤ after.ids
  hasNode : ∀ {node : NodeRef}, after.nodes.hasNode node →
    before.nodes.hasNode node ∨
      after.ids.HasDrawn node.id ∧ ¬ before.ids.HasDrawn node.id

namespace Later

theorem refl (state : StoreState) : state.Later state :=
  ⟨le_rfl, .inl⟩

theorem trans (hafter : before.Later after) (hlast : after.Later last) : before.Later last where
  ids_le := le_trans hafter.ids_le hlast.ids_le
  hasNode := by
    intro node hnode
    rcases hlast.hasNode hnode with hnode | ⟨hdrawn, hnew⟩
    · rcases hafter.hasNode hnode with hnode | ⟨hdrawn, hnew⟩
      · exact .inl hnode
      · exact .inr ⟨hdrawn.mono hlast.ids_le, hnew⟩
    · exact .inr ⟨hdrawn, fun hold => hnew (hold.mono hafter.ids_le)⟩

/-- All nodes of a later state have ids that were drawn, if those of the former one have. -/
theorem hasDrawn (hafter : before.Later after)
    (hbefore : ∀ {node : NodeRef}, before.nodes.hasNode node → before.ids.HasDrawn node.id)
    {node : NodeRef} (hnode : after.nodes.hasNode node) : after.ids.HasDrawn node.id := by
  rcases hafter.hasNode hnode with hnode | ⟨hdrawn, -⟩
  · exact (hbefore hnode).mono hafter.ids_le
  · exact hdrawn

end Later

/-- A step makes no node but one with the next id. -/
theorem Step.later (hstep : before.Step after) : before.Later after := by
  have hnew {node child : NodeRef} (hid : child.id = before.ids.draw.1)
      (hnode : child = node ∨ before.nodes.hasNode node) :
      before.nodes.hasNode node ∨
        before.ids.draw.2.HasDrawn node.id ∧ ¬ before.ids.HasDrawn node.id := by
    rcases hnode with rfl | hnode
    · rw [hid]
      exact .inr ⟨before.ids.hasDrawn_draw, before.ids.not_hasDrawn_draw⟩
    · exact .inl hnode
  cases hstep with
  | found hvacant hroot =>
      refine ⟨before.ids.le_draw, fun hnode => hnew ?_ ((NodeStore.hasNode_putRecord ..).mp hnode)⟩
      rw [hroot]
  | attach assoc record hparent hchild =>
      refine ⟨before.ids.le_draw, fun hnode => hnew ?_ ((NodeStore.hasNode_putRecord ..).mp hnode)⟩
      rw [hchild]
  | remove hnode hroot =>
      refine ⟨le_rfl, fun hother => .inl ?_⟩
      have hkept := ((NodeStore.hasNode_removeAll ..).mp hother).2
      rwa [NodeStore.hasNode_detach] at hkept
  | amend hnode =>
      refine ⟨le_rfl, fun hother => .inl ?_⟩
      rcases (NodeStore.hasNode_putRecord ..).mp hother with rfl | hother
      · exact hnode
      · exact hother
  | move | tell | join | part => exact ⟨le_rfl, .inl⟩

theorem Steps.later (hsteps : before.Steps after) : before.Later after := by
  induction hsteps with
  | refl => exact .refl _
  | tail _ hstep ih => exact ih.trans hstep.later

end StoreState

/-! ## Scripts and drains -/

namespace WorkState

/-- New nodes have new ids, and the nodes are reachable if they were before. -/
structure Grows (state after : WorkState) : Prop where
  later : state.store.Later after.store
  reachable : state.store.Reachable → after.store.Reachable

namespace Grows

/-- What leaves the ids and the nodes alone. -/
theorem of_store_eq {state after : WorkState} (hstore : after.store = state.store) :
    state.Grows after := by
  constructor
  · rw [hstore]
    exact .refl _
  · rw [hstore]
    exact id

theorem edited (state : WorkState) (change : Edit) :
    state.Grows (Routine.edited state change) where
  later := (change.steps_run state.store).later
  reachable := fun hreachable => hreachable.edit change

end Grows

end WorkState

theorem keptByDrains_grows : KeptByDrains WorkState.Grows where
  refl state := .of_store_eq rfl
  trans hfirst hlast :=
    ⟨hfirst.later.trans hlast.later,
      fun hreachable => hlast.reachable (hfirst.reachable hreachable)⟩
  step {state after} hstep := by
    cases hstep with
    | edit change => exact .edited state change
    | enqueue entry =>
        obtain ⟨pending, hqueued⟩ := state.work.exists_enqueue_eq entry
        rw [hqueued]
        exact .of_store_eq rfl
    | turn switch =>
        obtain ⟨disabledNodes, rulesDisabled, hturned⟩ := state.work.exists_turn_eq switch
        rw [hturned]
        exact .of_store_eq rfl
    | deferCopy | note => exact .of_store_eq rfl
    | takeEvents => exact ⟨⟨le_rfl, .inl⟩, fun hreachable => hreachable.takeEvents⟩
    | noteNew event =>
        obtain ⟨newNodes, hnoted⟩ := state.work.exists_noteNew_eq event
        rw [hnoted]
        exact .of_store_eq rfl
  takePending _ := .of_store_eq rfl
  executing _ hinner := ⟨hinner.later, hinner.reachable⟩
  restore {state failed} hfailed := by
    refine ⟨⟨hfailed.later.ids_le, .inl⟩, ?_⟩
    -- The nodes are those from before, but the ids drawn since stay drawn.
    intro hreachable
    exact hreachable.drawn hfailed.later.ids_le
  failEntry _ _ := .of_store_eq rfl
  abort _ _ := .of_store_eq rfl

end ContentRules
