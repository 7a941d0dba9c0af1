import ContentRules.Proofs.NodeStore.Forest

/-!
# Recorded events

An event that brings a node into being tells of the node and of its place.  A node that comes to
exist is told of, unless it is the root of a store, and its id is a new one.  Both nodes of the
place have ids that were drawn, since they existed when the event was recorded, though either may be
gone when behaviours are told of it.
-/

namespace ContentRules

/-- The place of the node that the event brings into being. -/
def NodeEvent.newPlace? : NodeEvent → Option ChildAssociation
  | created assoc => some assoc
  | copied _ copy => some copy
  | _ => none

theorem NodeEvent.newPlace?_eq_none_iff {event : NodeEvent} :
    event.newPlace? = none ↔ event.newNode? = none := by
  cases event <;> simp [newPlace?, newNode?]

/-- One of the events brings the node into being. -/
def NodeEvent.Announced (events : List NodeEvent) (node : NodeRef) : Prop :=
  ∃ event ∈ events, event.newNode? = some node

namespace NodeEvent

variable {event : NodeEvent} {events more : List NodeEvent} {node : NodeRef}

@[simp] theorem announced_nil : ¬ Announced [] node := by
  simp [Announced]

@[simp] theorem announced_cons :
    Announced (event :: events) node ↔ event.newNode? = some node ∨ Announced events node := by
  simp [Announced]

@[simp] theorem announced_append :
    Announced (events ++ more) node ↔ Announced events node ∨ Announced more node := by
  simp [Announced, or_and_right, exists_or]

theorem Announced.mono (hnode : Announced events node) (hmore : events ⊆ more) :
    Announced more node := by
  obtain ⟨event, hevent, hnew⟩ := hnode
  exact ⟨event, hmore hevent, hnew⟩

end NodeEvent

namespace NodeStore

variable (nodes : NodeStore)

theorem events_removeTree (node : NodeRef) : (nodes.removeTree node).events = nodes.events := by
  have hremoved (removed : List NodeRef) (nodes : NodeStore) :
      (removed.foldl removeNode nodes).events = nodes.events := by
    induction removed generalizing nodes with
    | nil => rfl
    | cons node removed ih => exact ih (nodes.removeNode node)
  unfold removeTree
  rw [hremoved]
  unfold detach
  split <;> rfl

end NodeStore

namespace StoreState

variable {state after : StoreState}

/-- Edits record events behind those that were recorded. -/
theorem Steps.events_grow (hsteps : state.Steps after) :
    state.nodes.events <+: after.nodes.events := by
  induction hsteps with
  | refl => exact List.prefix_rfl
  | @tail middle after _ hstep ih =>
      refine ih.trans ?_
      cases hstep with
      | found | amend => exact List.prefix_rfl
      | remove =>
          rw [← middle.nodes.events_removeTree]
          exact List.prefix_append _ _
      | attach | move | tell | join | part => exact List.prefix_append _ _

/-! ## New nodes -/

section NewNodes

open NodeEvent

/-- A root stays one. -/
theorem Step.isRoot (hstep : state.Step after) {node : NodeRef} (hroot : state.nodes.isRoot node) :
    after.nodes.isRoot node := by
  cases hstep with
  | @found store root hvacant =>
      have hfound : state.nodes.roots[node.store]? = some node := of_decide_eq_true hroot
      have hother : store ≠ node.store := by
        rintro rfl
        rw [Std.ExtTreeMap.mem_iff_isSome_getElem?, hfound] at hvacant
        exact hvacant rfl
      simpa [NodeStore.isRoot, Std.ExtTreeMap.getElem?_insert, hother] using hfound
  | remove =>
      simpa [NodeStore.isRoot, NodeStore.note, NodeStore.removeTree] using hroot
  | attach | move | amend | tell | join | part => exact hroot

/-- A node that comes to exist is the root of a store, or an event tells of it. -/
theorem Step.exists_or_announced (hstep : state.Step after) {node : NodeRef}
    (hnode : after.nodes.hasNode node) :
    state.nodes.hasNode node ∨ after.nodes.isRoot node ∨ Announced after.nodes.events node := by
  cases hstep with
  | found hvacant hroot =>
      rcases (NodeStore.hasNode_putRecord ..).mp hnode with rfl | hnode
      · simp [NodeStore.isRoot, hroot]
      · exact .inl hnode
  | attach assoc record _ _ hevent =>
      rcases (NodeStore.hasNode_putRecord ..).mp hnode with rfl | hnode
      · refine .inr (.inr ⟨_, List.mem_append_right _ (List.mem_singleton_self _), ?_⟩)
        rcases hevent with rfl | ⟨source, rfl⟩ <;> rfl
      · exact .inl hnode
  | remove =>
      have hkept := ((NodeStore.hasNode_removeAll ..).mp hnode).2
      rw [NodeStore.hasNode_detach] at hkept
      exact .inl hkept
  | amend hamended =>
      rcases (NodeStore.hasNode_putRecord ..).mp hnode with rfl | hnode
      · exact .inl hamended
      · exact .inl hnode
  | move | tell | join | part => exact .inl hnode

/-- A node that an event tells of has an id that was not drawn before the event was recorded. -/
theorem Step.announced_or_not_hasDrawn (hstep : state.Step after) {node : NodeRef}
    (hnode : Announced after.nodes.events node) :
    Announced state.nodes.events node ∨ ¬ state.ids.HasDrawn node.id := by
  have hold {event : NodeEvent} (hnoted : after.nodes.events = state.nodes.events ++ [event])
      (hevent : event.newNode? = none) : Announced state.nodes.events node := by
    simpa [hnoted, hevent] using hnode
  cases hstep with
  | found | amend => exact .inl hnode
  | attach assoc record _ hchild hevent =>
      rcases announced_append.mp hnode with hnode | hnew
      · exact .inl hnode
      · have hsame : assoc.child = node := by
          rcases hevent with rfl | ⟨source, rfl⟩ <;> simpa [newNode?] using hnew
        subst hsame
        rw [hchild]
        exact .inr state.ids.not_hasDrawn_draw
  | remove =>
      exact .inl (hold (congrArg (· ++ [_]) (state.nodes.events_removeTree _)) rfl)
  | tell _ hevent => exact .inl (hold rfl hevent)
  | move | join | part => exact .inl (hold rfl rfl)

end NewNodes

/-! ## Places -/

/-- The event tells of no new place but one whose nodes have ids that were drawn. -/
def DrewPlace (state : StoreState) (event : NodeEvent) : Prop :=
  ∀ place, event.newPlace? = some place →
    state.ids.HasDrawn place.parent.id ∧ state.ids.HasDrawn place.child.id

theorem DrewPlace.mono {event : NodeEvent} (hevent : state.DrewPlace event)
    (hlater : state.ids ≤ after.ids) : after.DrewPlace event := by
  intro place hplace
  obtain ⟨hparent, hchild⟩ := hevent place hplace
  exact ⟨hparent.mono hlater, hchild.mono hlater⟩

/-- At most one event is recorded in a step, and it tells of a place that was checked or of none. -/
theorem Sound.drewPlace_step (hsound : state.Sound) (hstep : state.Step after)
    (hevents : ∀ event ∈ state.nodes.events, state.DrewPlace event) :
    ∀ event ∈ after.nodes.events, after.DrewPlace event := by
  have hnone {event : NodeEvent} (hevent : event.newNode? = none) (after : StoreState) :
      after.DrewPlace event := by
    intro place hplace
    rw [NodeEvent.newPlace?_eq_none_iff.mpr hevent] at hplace
    cases hplace
  have hkept {after : StoreState} (hlater : state.ids ≤ after.ids) {event : NodeEvent}
      (hnoted : after.nodes.events = state.nodes.events ++ [event])
      (hevent : after.DrewPlace event) : ∀ event ∈ after.nodes.events, after.DrewPlace event := by
    rw [hnoted]
    exact List.forall_mem_append.mpr
      ⟨fun other hother => (hevents other hother).mono hlater, List.forall_mem_singleton.mpr hevent⟩
  cases hstep with
  | found => exact fun event hevent => (hevents event hevent).mono state.ids.le_draw
  | amend => exact hevents
  | attach assoc record hparent hchild hevent =>
      refine hkept state.ids.le_draw rfl ?_
      intro place hplace
      have hsame : assoc = place := by
        rcases hevent with rfl | ⟨source, rfl⟩ <;> exact Option.some.inj hplace
      obtain rfl := hsame
      refine ⟨(hsound.hasDrawn hparent).draw, ?_⟩
      rw [hchild]
      exact state.ids.hasDrawn_draw
  | remove =>
      exact hkept le_rfl (congrArg (· ++ [_]) (state.nodes.events_removeTree _))
        (hnone rfl _)
  | move => exact hkept le_rfl rfl (hnone rfl _)
  | tell _ hevent => exact hkept le_rfl rfl (hnone hevent _)
  | join => exact hkept le_rfl rfl (hnone rfl _)
  | part => exact hkept le_rfl rfl (hnone rfl _)

theorem Reachable.drewPlace (hreachable : state.Reachable) :
    ∀ event ∈ state.nodes.events, state.DrewPlace event := by
  induction hreachable with
  | empty ids => simp [NodeStore.empty]
  | @edit state hreachable edit ih =>
      have hsteps := edit.steps_run state
      revert hsteps
      generalize (edit.run state).2 = after
      intro hsteps
      have hall : after.Sound ∧ ∀ event ∈ after.nodes.events, after.DrewPlace event := by
        induction hsteps with
        | refl => exact ⟨hreachable.sound, ih⟩
        | tail _ hstep ih => exact ⟨ih.1.step hstep, ih.1.drewPlace_step hstep ih.2⟩
      exact hall.2
  | takeEvents => simp [NodeStore.takeEvents]
  | drawn _ hlater ih => exact fun event hevent => (ih event hevent).mono hlater

/-- The event was recorded, and may have been taken since. -/
def HasRecorded (state : StoreState) (event : NodeEvent) : Prop :=
  ∃ former : StoreState, former.Reachable ∧ event ∈ former.nodes.events ∧
    former.ids ≤ state.ids

theorem HasRecorded.drewPlace {event : NodeEvent} (hrecorded : state.HasRecorded event) :
    state.DrewPlace event := by
  obtain ⟨former, hreachable, hevent, hlater⟩ := hrecorded
  exact (hreachable.drewPlace event hevent).mono hlater

end StoreState

end ContentRules
