import ContentRules.Proofs.NodeStore.Peers

/-!
# What is left when a node is deleted

A node that exists and is no root can be deleted, and `WithoutTree` says what is left then, list by
list and record by record.

**Strategy.**  The nodes to remove are found by the walk down from the node after it was taken away
from its parent.  The walk meets each of them once (`Linked.nodup_subtree_detach`), and they are the
nodes that have the deleted one among their ancestors (`Linked.mem_subtree_detach_iff`).  What is
kept of the others is not touched when these are removed one by one.
-/

namespace ContentRules

namespace NodeStore

variable {nodes : NodeStore} {top node : NodeRef}

/-! ## The removed nodes -/

/-- No node is removed twice. -/
theorem Linked.nodup_subtree_detach (hlinked : nodes.Linked) (htop : nodes.hasNode top) :
    ((nodes.detach top).subtree top).Nodup := by
  have hexists : (nodes.detach top).hasNode top := by rwa [hasNode_detach]
  exact (hlinked.detach top).nodup_subtree hexists

theorem size_removeNode (hnode : nodes.hasNode node) :
    (nodes.removeNode node).size + 1 = nodes.size := by
  have hpositive : 0 < nodes.size :=
    length_le_size (List.nodup_singleton node) (List.forall_mem_singleton.mpr hnode)
  have herased : (nodes.removeNode node).size = nodes.size - 1 := by
    show (nodes.records.erase node).size = _
    exact Std.ExtTreeMap.size_erase.trans (if_pos (Std.ExtTreeMap.mem_iff_contains.mpr hnode))
  omega

/-- Each node that is removed counts once. -/
theorem size_removeAll {removed : List NodeRef} (hnodup : removed.Nodup)
    (hexists : ∀ node ∈ removed, nodes.hasNode node) :
    (removed.foldl removeNode nodes).size + removed.length = nodes.size := by
  induction removed generalizing nodes with
  | nil => rfl
  | cons first removed ih =>
      obtain ⟨hnew, hrest⟩ := List.nodup_cons.mp hnodup
      obtain ⟨hfirst, hothers⟩ := List.forall_mem_cons.mp hexists
      have hleft : ∀ node ∈ removed, (nodes.removeNode first).hasNode node := by
        intro node hnode
        refine (hasNode_removeAll nodes [first] node).mpr ⟨?_, hothers node hnode⟩
        rw [List.mem_singleton]
        rintro rfl
        exact hnew hnode
      have hsize := ih hrest hleft
      have hone := size_removeNode hfirst
      rw [List.foldl_cons, List.length_cons]
      omega

/-! ## What is left -/

/-- A store from which a node was deleted that stood at `place`, compared with the store before:
what was removed, and what is kept of each node then. -/
structure WithoutTree (before after : NodeStore) (place : ChildAssociation)
    (removed : List NodeRef) : Prop where
  nodup : removed.Nodup
  /-- The removed nodes are the deleted one and those that had it among their ancestors. -/
  mem_iff : ∀ node, node ∈ removed ↔ before.hasNode node ∧
    (node = place.child ∨ ∃ path, before.ancestorsOf node = .ok path ∧ place.child ∈ path)
  hasNode_iff : ∀ node, after.hasNode node ↔ before.hasNode node ∧ node ∉ removed
  size : after.size + removed.length = before.size
  roots : after.roots = before.roots
  records : ∀ node ∉ removed, after.records[node]? = before.records[node]?
  parents : ∀ node ∉ removed, after.parents[node]? = before.parents[node]?
  place_mem : place ∈ before.children.itemsOf place.parent
  /-- The parent stays, and its list of children loses the deleted node. -/
  siblings : place.parent ∉ removed ∧ after.children.itemsOf place.parent =
    (before.children.itemsOf place.parent).erase place
  children : ∀ node ∉ removed, node ≠ place.parent →
    after.children.itemsOf node = before.children.itemsOf node
  targets : ∀ node, after.targets.itemsOf node =
    (before.targets.itemsOf node).filter (·.avoids removed)
  sources : ∀ node, after.sources.itemsOf node =
    (before.sources.itemsOf node).filter (·.avoids removed)

/-- It does not matter what is recorded. -/
theorem WithoutTree.note {before after : NodeStore} {place : ChildAssociation}
    {removed : List NodeRef} (hleft : before.WithoutTree after place removed) (event : NodeEvent) :
    before.WithoutTree (after.note event) place removed :=
  { hleft with }

theorem withoutTree_removeTree (hlinked : nodes.Linked) (hpaired : nodes.Paired)
    {place : ChildAssociation} (hplace : nodes.parents[top]? = some place) :
    nodes.WithoutTree (nodes.removeTree top) place ((nodes.detach top).subtree top) := by
  have htop : nodes.hasNode top := hlinked.hasNode_child hplace
  have hchild : place.child = top := hlinked.place_child hplace
  have hremoved {node : NodeRef} :
      node ∈ (nodes.detach top).subtree top ↔ nodes.Within top node :=
    hlinked.mem_subtree_detach_iff htop
  have hexists : ∀ node ∈ (nodes.detach top).subtree top, nodes.hasNode node :=
    fun node hnode => hlinked.hasNode_of_within htop (hremoved.mp hnode)
  have hnodup := hlinked.nodup_subtree_detach htop
  obtain ⟨-, htargets, hsources⟩ := hpaired.removeTree top
  refine ⟨hnodup, ?_, ?_, ?_, ?_, ?_, ?_, hlinked.place_mem hplace, ?_, ?_, htargets, hsources⟩
  · intro node
    rw [hchild]
    constructor
    · intro hnode
      have hnodeExists := hexists node hnode
      exact ⟨hnodeExists, (hlinked.within_iff_ancestorsOf hnodeExists).mp (hremoved.mp hnode)⟩
    · intro hbeneath
      exact hremoved.mpr ((hlinked.within_iff_ancestorsOf hbeneath.1).mpr hbeneath.2)
  · intro node
    rw [hlinked.hasNode_removeTree htop, hremoved]
  · have hdetached : ∀ node ∈ (nodes.detach top).subtree top, (nodes.detach top).hasNode node := by
      intro node hnode
      rw [hasNode_detach]
      exact hexists node hnode
    calc (nodes.removeTree top).size + ((nodes.detach top).subtree top).length
        = (nodes.detach top).size := size_removeAll hnodup hdetached
      _ = nodes.size := by rw [size, records_detach, size]
  · rw [removeTree, roots_removeAll, roots_detach]
  · intro node hstays
    rw [removeTree, records_removeAll, if_neg hstays, records_detach]
  · intro node hstays
    rw [hlinked.parents_removeTree htop, if_neg (mt hremoved.mpr hstays)]
  · have hstays : place.parent ∉ (nodes.detach top).subtree top :=
      mt hremoved.mp (hlinked.not_within_parent hplace)
    refine ⟨hstays, ?_⟩
    rw [removeTree, itemsOf_removeAll, if_neg hstays, detach_eq hplace,
      hlinked.itemsOf_unlink_place hplace, hlinked.filter_child_ne_eq_erase hplace]
  · intro node hstays hother
    rw [removeTree, itemsOf_removeAll, if_neg hstays, detach_eq hplace,
      hlinked.itemsOf_unlink_place hplace, hlinked.filter_child_ne_eq_self]
    intro found hfound
    obtain rfl := Option.some.inj (hplace.symm.trans hfound)
    exact hother.symm

end NodeStore

/-! ## Reachable states -/

namespace StoreState

variable {state : StoreState}

/-- A node that is no root stands at a place. -/
theorem Sound.exists_place (hsound : state.Sound) {node : NodeRef}
    (hnode : state.nodes.hasNode node) (hroot : ¬ state.nodes.isRoot node) :
    ∃ place, state.nodes.parents[node]? = some place := by
  cases hplace : state.nodes.parents[node]? with
  | none => exact absurd (hsound.wellFormed.isRoot_of_top hnode hplace) hroot
  | some place => exact ⟨place, rfl⟩

/-- **A deletion removes a tree and nothing else.**  Whatever edits went before, a node that exists
and is no root can be deleted.  The nodes that go are the node itself and those that have it among
their ancestors, each once.  All others keep what they were: their records, their places, the order
of their children, except that the parent loses the node, and their peer associations, except those
that touch a node that goes.  One event is recorded, with the node and the place at which it
stood. -/
theorem deleted_of_reachable (hreachable : state.Reachable) {node : NodeRef}
    (hnode : state.nodes.hasNode node) (hroot : ¬ state.nodes.isRoot node) :
    ∃ after place removed, (Edit.deleteNode node).run state = (.ok (), after) ∧
      state.nodes.parents[node]? = some place ∧ place.child = node ∧
      state.nodes.WithoutTree after.nodes place removed ∧
      after.nodes.events = state.nodes.events ++ [.deleted node (some place)] ∧
      after.ids = state.ids := by
  have hsound := hreachable.sound
  obtain ⟨place, hplace⟩ := hsound.exists_place hnode hroot
  have hdeleted : (Edit.deleteNode node).run state = _ := Change.outcome_deleteNode hnode hroot
  have hleft := NodeStore.withoutTree_removeTree hsound.wellFormed.toLinked hreachable.paired hplace
  refine ⟨_, place, _, hdeleted, hplace, hsound.wellFormed.place_child hplace, hleft.note _, ?_,
    rfl⟩
  simp [NodeStore.note, NodeStore.events_removeTree, hplace]

/-- Of the four nodes in `joined` the upper one is deleted with the one beneath it, and the root has
only the node outside beneath it then, which loses its association with the deleted one. -/
theorem deleted_joined :
    let node (id : String) : NodeRef := ⟨⟨"workspace", "main"⟩, id⟩
    let name : QualifiedName := { space := "model", localName := "contains" }
    joined.Reachable ∧ joined.nodes.hasNode (node "u2") ∧ ¬ joined.nodes.isRoot (node "u2") ∧
      ∃ after place removed, (Edit.deleteNode (node "u2")).run joined = (.ok (), after) ∧
        joined.nodes.WithoutTree after.nodes place removed ∧ place.parent = node "u1" ∧
        removed.length = 2 ∧ node "u3" ∈ removed ∧
        after.nodes.children.itemsOf (node "u1") = [⟨name, node "u1", name, node "u4"⟩] ∧
        after.nodes.targets.itemsOf (node "u4") = [⟨node "u4", node "u1", name⟩] := by
  intro node name
  have hreachable : joined.Reachable := (Reachable.empty _).edits _
  have hnode : joined.nodes.hasNode (node "u2") := by decide +kernel
  have hroot : ¬ joined.nodes.isRoot (node "u2") := by decide +kernel
  have hstands : joined.nodes.parents[node "u2"]? = some ⟨name, node "u1", name, node "u2"⟩ := by
    decide +kernel
  obtain ⟨after, place, removed, hdeleted, hplace, -, hleft, -⟩ :=
    deleted_of_reachable hreachable hnode hroot
  obtain rfl := Option.some.inj (hstands.symm.trans hplace)
  have hbefore : joined.nodes.size = 4 ∧ joined.nodes.hasNode (node "u3") := by decide +kernel
  have hafter :
      let left := ((Edit.deleteNode (node "u2")).run joined).2.nodes
      left.size = 2 ∧ ¬ left.hasNode (node "u3") ∧
        left.children.itemsOf (node "u1") = [⟨name, node "u1", name, node "u4"⟩] ∧
        left.targets.itemsOf (node "u4") = [⟨node "u4", node "u1", name⟩] := by
    decide +kernel
  rw [hdeleted] at hafter
  dsimp only at hafter
  obtain ⟨hsize, hlower, hchildren, htargets⟩ := hafter
  refine ⟨hreachable, hnode, hroot, after, _, removed, hdeleted, hleft, rfl, ?_, ?_, hchildren,
    htargets⟩
  · have hcount := hleft.size
    omega
  · by_contra hstays
    exact hlower ((hleft.hasNode_iff _).mpr ⟨hbefore.2, hstays⟩)

end StoreState

end ContentRules
