import ContentRules.Proofs.NodeStore.Recorded
import ContentRules.Proofs.NodeStore.Removal

/-!
# Stores as trees of their own

The way up from a node ends at the root of a store, but not always of the store that the node's
reference names: a node that is moved beneath a node of another store keeps its reference.  Moving
is the only edit that does this (`StoreState.stores_of_history`).  Where a place joins nodes of two
stores, a recorded move put the child there, and where no move did so on the way up from a node, the
way ends at the root of the node's own store.

**Strategy.**  A place that is there after a step of an edit was there before, or joins nodes of one
store, or is told by a recorded move (`Sound.place_cases`).  Over a whole history this leaves the
recorded moves as the only origin of a place between stores (`History.accounted`).  On the way up
from a node the store stays the same from each place to the next (`Climbs.store_getLast`), and the
last node met is a root.
-/

namespace ContentRules

namespace ChildAssociation

/-- Parent and child lie in one store. -/
def WithinStore (assoc : ChildAssociation) : Prop :=
  assoc.child.store = assoc.parent.store

instance (assoc : ChildAssociation) : Decidable assoc.WithinStore :=
  inferInstanceAs (Decidable (_ = _))

/-- The place joins nodes of one store, or one of the events tells of the move that made it. -/
def Accounted (assoc : ChildAssociation) (events : List NodeEvent) : Prop :=
  assoc.WithinStore ∨ ∃ origin, .moved origin assoc ∈ events

theorem Accounted.mono {assoc : ChildAssociation} {events more : List NodeEvent}
    (hassoc : assoc.Accounted events) (hmore : events ⊆ more) : assoc.Accounted more := by
  rcases hassoc with hwithin | ⟨origin, hmoved⟩
  · exact .inl hwithin
  · exact .inr ⟨origin, hmore hmoved⟩

end ChildAssociation

/-- If every place on the way up joins nodes of one store, its end lies in the node's own. -/
theorem NodeStore.Climbs.store_getLast {nodes : NodeStore} {node : NodeRef} {path : List NodeRef}
    (hclimbs : nodes.Climbs node path) (hlinked : nodes.Linked)
    (hwithin : ∀ other ∈ node :: path, ∀ place, nodes.parents[other]? = some place →
      place.WithinStore) :
    ((node :: path).getLast (List.cons_ne_nil node path)).store = node.store := by
  induction hclimbs with
  | top => rfl
  | @up node place path hplace hclimbs ih =>
    have hstore : node.store = place.parent.store := by
      have hplaced := hwithin node List.mem_cons_self place hplace
      rwa [ChildAssociation.WithinStore, hlinked.place_child hplace] at hplaced
    rw [List.getLast_cons (List.cons_ne_nil _ _), hstore]
    exact ih fun other hother => hwithin other (List.mem_cons_of_mem _ hother)

namespace StoreState

variable {state after : StoreState} {events : List NodeEvent}

/-! ## Where places come from -/

theorem Sound.place_cases (hsound : state.Sound) (hstep : state.Step after) {node : NodeRef}
    {place : ChildAssociation} (hplace : after.nodes.parents[node]? = some place) :
    state.nodes.parents[node]? = some place ∨ place.Accounted after.nodes.events := by
  cases hstep with
  | found | amend | tell | join | part => exact .inl hplace
  | attach assoc record hparent hchild hevent =>
      have hlinked : (if assoc.child = node then some assoc else state.nodes.parents[node]?) =
          some place := (NodeStore.parents_link ..).symm.trans hplace
      split at hlinked
      · obtain rfl := Option.some.inj hlinked
        exact .inr (.inl (by rw [ChildAssociation.WithinStore, hchild]))
      · exact .inl hlinked
  | @remove top hnode hroot =>
      have hremoved := (hsound.wellFormed.toLinked.parents_removeTree hnode node).symm.trans hplace
      split at hremoved
      · cases hremoved
      · exact .inl hremoved
  | move destination hnode hparent hout horigin =>
      have hchild := hsound.wellFormed.place_child horigin
      have hlinked := (NodeStore.parents_link ..).symm.trans hplace
      split at hlinked
      · obtain rfl := Option.some.inj hlinked
        exact .inr (.inr ⟨_, List.mem_append_right _ (List.mem_singleton_self _)⟩)
      · rw [NodeStore.parents_unlink] at hlinked
        split at hlinked
        · cases hlinked
        · exact .inl hlinked

theorem Sound.place_cases_of_steps (hsound : state.Sound) (hsteps : state.Steps after)
    {node : NodeRef} {place : ChildAssociation}
    (hplace : after.nodes.parents[node]? = some place) :
    state.nodes.parents[node]? = some place ∨ place.Accounted after.nodes.events := by
  induction hsteps with
  | refl => exact .inl hplace
  | tail hsteps hstep ih =>
      rcases (hsound.steps hsteps).place_cases hstep hplace with hbefore | haccounted
      · rcases ih hbefore with hfirst | haccounted
        · exact .inl hfirst
        · exact .inr (haccounted.mono (Steps.events_grow (.single hstep)).subset)
      · exact .inr haccounted

/-! ## Histories -/

/-- How a state came about, with all events recorded on the way: as with `Reachable`, but events that
are taken away are remembered. -/
inductive History : List NodeEvent → StoreState → Prop
  | empty (ids : IdSupply) : History [] { ids, nodes := .empty }
  | edit {events : List NodeEvent} {state : StoreState} (hhistory : History events state)
      (edit : Edit) {recorded : List NodeEvent}
      (hrecorded : (edit.run state).2.nodes.events = state.nodes.events ++ recorded) :
      History (events ++ recorded) (edit.run state).2
  | takeEvents {events : List NodeEvent} {state : StoreState} (hhistory : History events state) :
      History events { state with nodes := state.nodes.takeEvents.2 }
  | drawn {events : List NodeEvent} {state : StoreState} (hhistory : History events state)
      {ids : IdSupply} (hlater : state.ids ≤ ids) : History events { state with ids }

theorem History.reachable (hhistory : History events state) : state.Reachable := by
  induction hhistory with
  | empty ids => exact .empty ids
  | edit _ edit _ ih => exact ih.edit edit
  | takeEvents _ ih => exact ih.takeEvents
  | drawn _ hlater ih => exact ih.drawn hlater

/-- Every reachable state has a history. -/
theorem Reachable.exists_history (hreachable : state.Reachable) :
    ∃ events, History events state := by
  induction hreachable with
  | empty ids => exact ⟨[], .empty ids⟩
  | @edit state _ edit ih =>
      obtain ⟨events, hhistory⟩ := ih
      obtain ⟨recorded, hrecorded⟩ := (edit.steps_run state).events_grow
      exact ⟨events ++ recorded, hhistory.edit edit hrecorded.symm⟩
  | takeEvents _ ih =>
      obtain ⟨events, hhistory⟩ := ih
      exact ⟨events, hhistory.takeEvents⟩
  | drawn _ hlater ih =>
      obtain ⟨events, hhistory⟩ := ih
      exact ⟨events, hhistory.drawn hlater⟩

/-- Where no events were taken away, those that wait are the history. -/
theorem History.edits (hhistory : History state.nodes.events state) (edits : List Edit) :
    History (edits.foldl (fun state edit => (edit.run state).2) state).nodes.events
      (edits.foldl (fun state edit => (edit.run state).2) state) := by
  induction edits generalizing state with
  | nil => exact hhistory
  | cons edit edits ih =>
      obtain ⟨recorded, hrecorded⟩ := (edit.steps_run state).events_grow
      refine ih ?_
      rw [← hrecorded]
      exact hhistory.edit edit hrecorded.symm

/-- The events that wait are the last ones of the history. -/
theorem History.events_suffix (hhistory : History events state) :
    state.nodes.events <:+ events := by
  induction hhistory with
  | empty => exact List.suffix_rfl
  | edit _ _ hrecorded ih =>
      rw [hrecorded]
      exact (List.suffix_append_inj_of_length_eq rfl).mpr ⟨ih, rfl⟩
  | takeEvents => exact List.nil_suffix
  | drawn _ _ ih => exact ih

theorem History.accounted (hhistory : History events state) {node : NodeRef}
    {place : ChildAssociation} (hplace : state.nodes.parents[node]? = some place) :
    place.Accounted events := by
  induction hhistory with
  | empty => simp [NodeStore.empty] at hplace
  | @edit events state hhistory edit recorded hrecorded ih =>
      have hlater := hhistory.edit edit hrecorded
      rcases hhistory.reachable.sound.place_cases_of_steps (edit.steps_run state) hplace with
        hbefore | haccounted
      · exact (ih hbefore).mono (List.subset_append_left ..)
      · exact haccounted.mono hlater.events_suffix.subset
  | takeEvents _ ih => exact ih hplace
  | drawn _ _ ih => exact ih hplace

/-- **Only moves leave a store.**  However a state came about, with whichever edits failing, every
place in a list of children joins two nodes of one store unless a recorded move put the child
there.  The way up from every node ends at the root of some store, and at the root of the node's own
store unless the node, or one met on the way, stands where a recorded move put it beneath a node of
another store. -/
theorem stores_of_history (hhistory : History events state) :
    (∀ parent, ∀ assoc ∈ state.nodes.children.itemsOf parent,
      assoc.WithinStore ∨ ∃ origin, .moved origin assoc ∈ events) ∧
    ∀ node, state.nodes.hasNode node →
      ∃ path root, state.nodes.ancestorsOf node = .ok path ∧
        (node :: path).getLast? = some root ∧ state.nodes.isRoot root ∧
        ((∀ origin destination, .moved origin destination ∈ events →
            destination.child ∈ node :: path →
              state.nodes.parents[destination.child]? = some destination →
                destination.WithinStore) →
          state.nodes.rootOf node.store = .ok root) := by
  have hsound := hhistory.reachable.sound
  constructor
  · intro parent assoc hassoc
    exact hhistory.accounted (hsound.wellFormed.mem_itemsOf_iff.mp hassoc).2
  · intro node hnode
    obtain ⟨path, hpath, hclimbs, -, hroot⟩ := hsound.wellFormed.forest.ancestors hnode
    refine ⟨path, _, hpath, List.getLast?_eq_getLast_of_ne_nil _, hroot, ?_⟩
    intro hmoves
    have hwithin : ∀ other ∈ node :: path, ∀ place, state.nodes.parents[other]? = some place →
        place.WithinStore := by
      intro other hother place hplace
      rcases hhistory.accounted hplace with hwithin | ⟨origin, hmoved⟩
      · exact hwithin
      · have hchild := hsound.wellFormed.place_child hplace
        exact hmoves origin place hmoved (by rwa [hchild]) (by rwa [hchild])
    have hstore := hclimbs.store_getLast hsound.wellFormed.toLinked hwithin
    unfold NodeStore.isRoot at hroot
    rw [hstore, decide_eq_true_iff] at hroot
    rw [NodeStore.rootOf, hroot]

/-! ## Two stores -/

/-- A node of the main store of a protocol. -/
def archiveNode (protocol id : String) : NodeRef :=
  { store := { protocol, identifier := "main" }, id }

/-- The relation and the name of every place in the two stores. -/
def archiveName : QualifiedName :=
  { space := "model", localName := "contains" }

/-- Two stores with the roots "u1" and "u2".  Beneath the first there are a folder "u3" and a document
"u4" in it, and then the folder is moved beneath the nodes given, one after the other. -/
def archived (parents : List NodeRef) : StoreState :=
  let edits : List Edit :=
    [.createStore "workspace" "main", .createStore "archive" "main",
      .createNode (archiveNode "workspace" "u1") archiveName archiveName archiveName [],
      .createNode (archiveNode "workspace" "u3") archiveName archiveName archiveName []] ++
    parents.map fun parent =>
      .moveNode (archiveNode "workspace" "u3") parent archiveName archiveName
  edits.foldl (fun state edit => (edit.run state).2) { ids := {}, nodes := .empty }

theorem history_archived (parents : List NodeRef) :
    History (archived parents).nodes.events (archived parents) :=
  History.edits (.empty _) _

/-- A folder that was moved to the other store and back: the way up from the document ends at the
root of its own store, though a move between stores was recorded. -/
theorem stores_of_history_back :
    let state := archived [archiveNode "archive" "u2", archiveNode "workspace" "u1"]
    let document := archiveNode "workspace" "u4"
    History state.nodes.events state ∧ state.nodes.hasNode document ∧
      (∃ origin destination, .moved origin destination ∈ state.nodes.events ∧
        ¬ destination.WithinStore) ∧
      ∃ path root, state.nodes.ancestorsOf document = .ok path ∧
        (document :: path).getLast? = some root ∧ state.nodes.rootOf document.store = .ok root := by
  intro state document
  have hhistory : History state.nodes.events state := history_archived _
  have hnode : state.nodes.hasNode document := by decide +kernel
  let place (parent child : NodeRef) : ChildAssociation :=
    ⟨archiveName, parent, archiveName, child⟩
  let folder := archiveNode "workspace" "u3"
  let first := place (archiveNode "workspace" "u1") folder
  let away := place (archiveNode "archive" "u2") folder
  have hevents : state.nodes.events =
      [.created first, .created (place folder document), .moved first away, .moved away first] := by
    decide +kernel
  have hplace : state.nodes.parents[folder]? = some first := by decide +kernel
  obtain ⟨-, hways⟩ := stores_of_history hhistory
  obtain ⟨path, root, hpath, hlast, -, hroot⟩ := hways document hnode
  refine ⟨hhistory, hnode, ⟨first, away, by simp [hevents], by decide⟩, path, root, hpath, hlast,
    hroot ?_⟩
  intro origin destination hmoved _ hstands
  rw [hevents] at hmoved
  have hcases : origin = first ∧ destination = away ∨ origin = away ∧ destination = first := by
    simpa using hmoved
  rcases hcases with ⟨-, rfl⟩ | ⟨-, rfl⟩
  · rw [show away.child = folder from rfl, hplace] at hstands
    exact absurd (Option.some.inj hstands) (by decide)
  · decide

/-- A folder that was moved to the other store: it stands beneath the root of that store, and so the
way up from the document in it ends there, though both have references of the first store. -/
theorem not_withinStore_archived :
    let state := archived [archiveNode "archive" "u2"]
    let document := archiveNode "workspace" "u4"
    state.Reachable ∧ state.nodes.hasNode document ∧
      (∃ assoc ∈ state.nodes.children.itemsOf (archiveNode "archive" "u2"), ¬ assoc.WithinStore) ∧
      ∃ path root other, (state.nodes.ancestorsOf document).toOption = some path ∧
        (document :: path).getLast? = some root ∧
        (state.nodes.rootOf document.store).toOption = some other ∧ root ≠ other := by
  intro state document
  have hcrossing : (state.nodes.children.itemsOf (archiveNode "archive" "u2")).any
      (fun assoc => ¬ assoc.WithinStore) = true := by
    decide +kernel
  refine ⟨(history_archived _).reachable, by decide +kernel, ?_,
    [archiveNode "workspace" "u3", archiveNode "archive" "u2"], archiveNode "archive" "u2",
    archiveNode "workspace" "u1", by decide +kernel, by decide, by decide +kernel, by decide⟩
  obtain ⟨assoc, hmem, hassoc⟩ := List.any_eq_true.mp hcrossing
  exact ⟨assoc, hmem, of_decide_eq_true hassoc⟩

end StoreState

end ContentRules
