import ContentRules.Proofs.NodeStore.Peers

/-!
# The walk down compared with the walks up

The walk down from a node reads the lists of children, and the walk up from a node reads its place
and the places above it.  Both find the same tree: the walk down meets a node exactly if it starts
there or starts at an ancestor of the node.  `Lineage` says what the ancestors of a node are, and
`LevelOrder` in which order the walk down meets the nodes.

**Strategy.**  What the walk down meets is known from `Descent`; the order is a matter of the queue
alone.  Each node lies one level deeper than its parent (`Linked.depth_eq`).  At any moment the
nodes in the queue come by their depths and lie on two levels at most (`LevelQueue`), for the
children that are put last lie one level beneath the node that was taken (`LevelQueue.visit`).  So
the nodes are met level by level (`Descends.ordered`), and a parent is met before its children since
it lies less deep (`pair_sublist_of_depth_lt`).  Within a level they come parent by parent
(`Descends.eq_append_flatMap`).
-/

namespace ContentRules

namespace NodeStore

variable {nodes : NodeStore} {top node : NodeRef} {queue visited : List NodeRef} {level : Nat}

/-! ## Depths -/

/-- The number of nodes above a node. -/
def depth (nodes : NodeStore) (node : NodeRef) : Nat :=
  (nodes.climb nodes.size node).length

theorem Linked.depth_eq (hlinked : nodes.Linked) {place : ChildAssociation}
    (hplace : nodes.parents[node]? = some place) :
    nodes.depth node = nodes.depth place.parent + 1 := by
  have hway : nodes.Climbs node _ :=
    .up hplace (hlinked.climbs_climb (hlinked.hasNode_parent hplace))
  rw [depth, (hlinked.climbs_climb (hlinked.hasNode_child hplace)).unique hway, List.length_cons,
    depth]

/-! ## The queue of the walk down -/

/-- The nodes of a queue come by their depths, and lie on the given level or the next one. -/
structure LevelQueue (nodes : NodeStore) (level : Nat) (queue : List NodeRef) : Prop where
  ordered : queue.Pairwise fun first second => nodes.depth first ≤ nodes.depth second
  bounds : ∀ node ∈ queue, level ≤ nodes.depth node ∧ nodes.depth node ≤ level + 1

theorem LevelQueue.start (nodes : NodeStore) (node : NodeRef) :
    nodes.LevelQueue (nodes.depth node) [node] where
  ordered := List.pairwise_singleton ..
  bounds := by simp

/-- When a node is taken from the queue, its level is that of the queue from then on. -/
theorem LevelQueue.visit (hlinked : nodes.Linked)
    (hqueue : nodes.LevelQueue level (node :: queue)) :
    nodes.LevelQueue (nodes.depth node)
      (queue ++ (nodes.children.itemsOf node).map ChildAssociation.child) := by
  obtain ⟨hfirst, hordered⟩ := List.pairwise_cons.mp hqueue.ordered
  -- The nodes still waiting lie on the level of the node that is taken or on the next one, and its
  -- children lie on the next one, so these may be put last.
  have hwaiting : ∀ other ∈ queue,
      nodes.depth node ≤ nodes.depth other ∧ nodes.depth other ≤ nodes.depth node + 1 := by
    intro other hother
    have hlevel := (hqueue.bounds node List.mem_cons_self).1
    have hnext := (hqueue.bounds other (List.mem_cons_of_mem _ hother)).2
    exact ⟨hfirst other hother, by omega⟩
  have hchildren : ∀ child ∈ (nodes.children.itemsOf node).map ChildAssociation.child,
      nodes.depth child = nodes.depth node + 1 := by
    intro child hchild
    obtain ⟨place, hplace, rfl⟩ := hlinked.mem_map_child_iff.mp hchild
    exact hlinked.depth_eq hplace
  constructor
  · refine List.pairwise_append.mpr ⟨hordered, List.pairwise_of_forall_mem_list ?_, ?_⟩
    · intro first hfirst second hsecond
      exact Nat.le_of_eq ((hchildren first hfirst).trans (hchildren second hsecond).symm)
    · intro other hother child hchild
      rw [hchildren child hchild]
      exact (hwaiting other hother).2
  · intro other hother
    rcases List.mem_append.mp hother with hother | hchild
    · exact hwaiting other hother
    · rw [hchildren other hchild]
      exact ⟨Nat.le_succ _, Nat.le_refl _⟩

/-- A walk down meets the nodes level by level, beginning with the level of its queue. -/
theorem Descends.ordered (hlinked : nodes.Linked) (hdescends : nodes.Descends queue visited)
    (hqueue : nodes.LevelQueue level queue) :
    visited.Pairwise (fun first second => nodes.depth first ≤ nodes.depth second) ∧
      ∀ node ∈ visited, level ≤ nodes.depth node := by
  induction hdescends generalizing level with
  | done => simp
  | @visit node queue visited _ ih =>
      obtain ⟨hordered, hdeeper⟩ := ih (hqueue.visit hlinked)
      have hlevel := (hqueue.bounds node List.mem_cons_self).1
      refine ⟨List.pairwise_cons.mpr ⟨hdeeper, hordered⟩, List.forall_mem_cons.mpr ⟨hlevel, ?_⟩⟩
      intro other hother
      exact Nat.le_trans hlevel (hdeeper other hother)

/-- What a walk down meets is its queue, and then the children of what it meets, node by node. -/
theorem Descends.eq_append_flatMap (hdescends : nodes.Descends queue visited) :
    visited = queue ++ visited.flatMap fun node =>
      (nodes.children.itemsOf node).map ChildAssociation.child := by
  induction hdescends with
  | done => rfl
  | visit _ ih => rw [List.flatMap_cons, List.cons_append, ← List.append_assoc, ← ih]

/-- Where nodes come by their depths, one that lies less deep than another comes before it. -/
theorem pair_sublist_of_depth_lt {first second : NodeRef} {list : List NodeRef}
    (hordered : list.Pairwise fun first second => nodes.depth first ≤ nodes.depth second)
    (hfirst : first ∈ list) (hsecond : second ∈ list)
    (hdepth : nodes.depth first < nodes.depth second) : [first, second].Sublist list := by
  obtain ⟨before, after, rfl⟩ := List.append_of_mem hfirst
  have hbefore := (List.pairwise_append.mp hordered).2.2
  rcases List.mem_append.mp hsecond with hearlier | hlater
  · have hle := hbefore second hearlier first List.mem_cons_self
    omega
  · rcases List.mem_cons.mp hlater with rfl | hlater
    · omega
    · exact ((List.singleton_sublist.mpr hlater).cons_cons first).trans
        (List.sublist_append_right before _)

/-! ## Both walks -/

/-- The ancestors of a node, as the loop up from it meets them: distinct existing nodes other than
the node itself, as many as the node lies deep. -/
structure Lineage (nodes : NodeStore) (node : NodeRef) (path : List NodeRef) : Prop where
  climbs : nodes.Climbs node path
  nodup : path.Nodup
  not_mem : node ∉ path
  hasNode_of_mem : ∀ above ∈ path, nodes.hasNode above
  depth_eq : nodes.depth node = path.length

/-- A node and all beneath it, as the loop down from it meets them: existing nodes, each once, level
by level. -/
structure LevelOrder (nodes : NodeStore) (top : NodeRef) (visited : List NodeRef) : Prop where
  descends : nodes.Descends [top] visited
  head : visited.head? = some top
  /-- The first node is followed by the children of all nodes in turn. -/
  tail : visited.tail = visited.flatMap fun node =>
    (nodes.children.itemsOf node).map ChildAssociation.child
  nodup : visited.Nodup
  hasNode_of_mem : ∀ node ∈ visited, nodes.hasNode node
  ordered : visited.Pairwise fun first second => nodes.depth first ≤ nodes.depth second
  /-- Each node but the first has its parent before it. -/
  parent_before : ∀ node ∈ visited, node ≠ top → ∃ place, nodes.parents[node]? = some place ∧
    [place.parent, node].Sublist visited
  /-- Each node has all of its children after it. -/
  children_after : ∀ parent ∈ visited, ∀ entry ∈ nodes.children.itemsOf parent,
    [parent, entry.child].Sublist visited

namespace Linked

theorem lineage (hlinked : nodes.Linked) {path : List NodeRef}
    (hancestors : nodes.ancestorsOf node = .ok path) : nodes.Lineage node path := by
  obtain ⟨hnode, hclimbs⟩ := hlinked.ancestorsOf_eq_ok_iff.mp hancestors
  refine ⟨hclimbs, hclimbs.nodup, hclimbs.not_mem, ?_, ?_⟩
  · intro above habove
    exact hlinked.forall_hasNode hnode hclimbs above (List.mem_cons_of_mem _ habove)
  · rw [depth, (hlinked.climbs_climb hnode).unique hclimbs]

theorem levelOrder (hlinked : nodes.Linked) (htop : nodes.hasNode top) :
    nodes.LevelOrder top (nodes.subtree top) := by
  obtain ⟨hdescends, hdescent⟩ := hlinked.descent_subtree htop
  have hordered := (hdescends.ordered hlinked (.start nodes top)).1
  have hbefore : ∀ {node : NodeRef} {place : ChildAssociation},
      nodes.parents[node]? = some place → place.parent ∈ nodes.subtree top →
      node ∈ nodes.subtree top → [place.parent, node].Sublist (nodes.subtree top) := by
    intro node place hplace hparent hnode
    refine pair_sublist_of_depth_lt hordered hparent hnode ?_
    rw [hlinked.depth_eq hplace]
    exact Nat.lt_succ_self _
  have hparts := hdescends.eq_append_flatMap
  refine ⟨hdescends, congrArg List.head? hparts, congrArg List.tail hparts,
    hlinked.nodup_subtree htop, ?_, hordered, ?_, ?_⟩
  · simpa using hdescent.hasNode_of_mem
  · intro node hnode hne
    rcases hdescent.parent_visited node (by simpa using hnode) with htop | ⟨place, hplace, hparent⟩
    · exact absurd htop hne
    · exact ⟨place, hplace, hbefore hplace hparent hnode⟩
  · intro parent hparent entry hentry
    obtain ⟨rfl, hplace⟩ := hlinked.mem_itemsOf_iff.mp hentry
    refine hbefore hplace hparent ?_
    simpa using hdescent.child_met hplace hparent

end Linked

end NodeStore

/-! ## Reachable states -/

namespace StoreState

variable {state : StoreState}

/-- **The walks agree.**  Whatever edits went before, the ancestors of an existing node are distinct
existing nodes other than itself.  The walk down from an existing node lists it first and lists each
node once, every parent before its children and the levels one after the other.  It lists just those
nodes that it starts at or that have its start among their ancestors. -/
theorem walksAgree_of_reachable (hreachable : state.Reachable) {top node : NodeRef}
    (htop : state.nodes.hasNode top) (hnode : state.nodes.hasNode node) :
    ∃ path, state.nodes.ancestorsOf node = .ok path ∧ state.nodes.Lineage node path ∧
      state.nodes.LevelOrder top (state.nodes.subtree top) ∧
      (node ∈ state.nodes.subtree top ↔ node = top ∨ top ∈ path) := by
  have hlinked := hreachable.sound.wellFormed.toLinked
  have hancestors : state.nodes.ancestorsOf node = .ok _ :=
    hlinked.ancestorsOf_eq_ok_iff.mpr ⟨hnode, hlinked.climbs_climb hnode⟩
  refine ⟨_, hancestors, hlinked.lineage hancestors, hlinked.levelOrder htop, ?_⟩
  rw [hlinked.mem_subtree_iff htop, hlinked.within_iff_mem_climb hnode]

/-- The walk down from the root of `joined` meets both nodes beneath the root before the one that
lies beneath the first of them. -/
theorem walksAgree_joined :
    let node (id : String) : NodeRef := ⟨⟨"workspace", "main"⟩, id⟩
    joined.Reachable ∧ joined.nodes.hasNode (node "u1") ∧ joined.nodes.hasNode (node "u3") ∧
      ∃ path, joined.nodes.ancestorsOf (node "u3") = .ok path ∧
        joined.nodes.Lineage (node "u3") path ∧
        joined.nodes.LevelOrder (node "u1") (joined.nodes.subtree (node "u1")) ∧
        node "u3" ∈ joined.nodes.subtree (node "u1") ∧ path = [node "u2", node "u1"] ∧
        joined.nodes.subtree (node "u1") = [node "u1", node "u2", node "u4", node "u3"] := by
  intro node
  have hreachable : joined.Reachable := (Reachable.empty _).edits _
  have hnodes : joined.nodes.hasNode (node "u1") ∧ joined.nodes.hasNode (node "u3") := by
    decide +kernel
  have hwalks : joined.nodes.climb joined.nodes.size (node "u3") = [node "u2", node "u1"] ∧
      joined.nodes.subtree (node "u1") = [node "u1", node "u2", node "u4", node "u3"] := by
    decide +kernel
  obtain ⟨path, hancestors, hlineage, horder, hagree⟩ :=
    walksAgree_of_reachable hreachable hnodes.1 hnodes.2
  have hpath : path = [node "u2", node "u1"] := by
    rw [← hwalks.1]
    exact hlineage.climbs.unique (hreachable.sound.wellFormed.climbs_climb hnodes.2)
  exact ⟨hreachable, hnodes.1, hnodes.2, path, hancestors, hlineage, horder,
    hagree.mpr (.inr (by simp [hpath])), hpath, hwalks.2⟩

end StoreState

end ContentRules
