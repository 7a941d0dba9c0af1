import Mathlib.Data.List.Nodup
import ContentRules.NodeStore.Basic

/-!
# Walks through the tree

A place is kept twice, with the child and in the list of its parent.  `Linked` says that the two
agree and that every way up ends.  It says nothing about where it ends, so it also holds while a
node is taken away from its parent and has not been put elsewhere.

Two loops walk through the tree, and the definitions of `climb` and `descend` count down a number of
steps.  `Climbs` and `Descends` are the loops themselves, without a count.  In a linked store the
number of nodes is enough for both:

* `Linked.climbs_climb`: the parents met on a way up are distinct existing nodes;
* `Linked.descends_subtree`: the walk down meets the nodes at and beneath its start, each once.
-/

namespace ContentRules.NodeStore

variable {nodes : NodeStore}

/-- The loop up from a node: the parents that it meets until a node has none. -/
inductive Climbs (nodes : NodeStore) : NodeRef → List NodeRef → Prop
  | top {node : NodeRef} (hplace : nodes.parents[node]? = none) : Climbs nodes node []
  | up {node : NodeRef} {place : ChildAssociation} {path : List NodeRef}
      (hplace : nodes.parents[node]? = some place) (hclimbs : Climbs nodes place.parent path) :
      Climbs nodes node (place.parent :: path)

/-- The loop down from a queue of nodes: each node that it takes from the queue, whose children it
puts last, until the queue is empty. -/
inductive Descends (nodes : NodeStore) : List NodeRef → List NodeRef → Prop
  | done : Descends nodes [] []
  | visit {node : NodeRef} {queue visited : List NodeRef}
      (hdescends : Descends nodes
        (queue ++ (nodes.children.itemsOf node).map ChildAssociation.child) visited) :
      Descends nodes (node :: queue) (node :: visited)

/-- The node is `top`, or lies somewhere beneath it. -/
def Within (nodes : NodeStore) (top node : NodeRef) : Prop :=
  node = top ∨ ∃ path, nodes.Climbs node path ∧ top ∈ path

/-- Both records of the places agree, places are among existing nodes, and every way up ends. -/
structure Linked (nodes : NodeStore) : Prop where
  place_child : ∀ {node : NodeRef} {place : ChildAssociation},
    nodes.parents[node]? = some place → place.child = node
  hasNode_child : ∀ {node : NodeRef} {place : ChildAssociation},
    nodes.parents[node]? = some place → nodes.hasNode node
  hasNode_parent : ∀ {node : NodeRef} {place : ChildAssociation},
    nodes.parents[node]? = some place → nodes.hasNode place.parent
  mem_itemsOf_iff : ∀ {parent : NodeRef} {place : ChildAssociation},
    place ∈ nodes.children.itemsOf parent ↔
      place.parent = parent ∧ nodes.parents[place.child]? = some place
  nodup_itemsOf : ∀ parent : NodeRef, (nodes.children.itemsOf parent).Nodup
  children_ne_nil : ∀ parent : NodeRef, nodes.children[parent]? ≠ some []
  exists_climbs : ∀ {node : NodeRef}, nodes.hasNode node → ∃ path, nodes.Climbs node path

/-- Distinct existing nodes are no more than there are nodes. -/
theorem length_le_size {list : List NodeRef} (hnodup : list.Nodup)
    (hexists : ∀ node ∈ list, nodes.hasNode node) : list.length ≤ nodes.size := by
  have hsubset : list ⊆ nodes.records.keys := by
    intro node hnode
    exact Std.ExtTreeMap.mem_keys.mpr (Std.ExtTreeMap.mem_iff_contains.mpr (hexists node hnode))
  calc list.length ≤ nodes.records.keys.length := hnodup.length_le_of_subset hsubset
    _ = nodes.size := Std.ExtTreeMap.length_keys

/-! ## The way up -/

theorem Climbs.unique {node : NodeRef} {first second : List NodeRef}
    (hfirst : nodes.Climbs node first) (hsecond : nodes.Climbs node second) : first = second := by
  induction hfirst generalizing second with
  | top hplace =>
      cases hsecond with
      | top => rfl
      | up hother => rw [hplace] at hother; cases hother
  | up hplace _ ih =>
      cases hsecond with
      | top hother => rw [hplace] at hother; cases hother
      | up hother hrest =>
          obtain rfl : _ = _ := Option.some.inj (hplace.symm.trans hother)
          rw [ih hrest]

/-- The way up from a node on a way up is the rest of it. -/
theorem Climbs.of_mem {node above : NodeRef} {path : List NodeRef}
    (hclimbs : nodes.Climbs node path) (habove : above ∈ path) :
    ∃ rest, nodes.Climbs above rest ∧ rest.length < path.length ∧ rest ⊆ path := by
  induction hclimbs with
  | top => cases habove
  | @up _ place path _ hrest ih =>
      rcases List.mem_cons.mp habove with rfl | habove
      · exact ⟨path, hrest, Nat.lt_succ_self _, List.subset_cons_self _ _⟩
      · obtain ⟨rest, hclimbs, hlength, hsubset⟩ := ih habove
        exact ⟨rest, hclimbs, Nat.lt_succ_of_lt hlength,
          List.Subset.trans hsubset (List.subset_cons_self _ _)⟩

/-- No way up comes back to its start. -/
theorem Climbs.not_mem {node : NodeRef} {path : List NodeRef} (hclimbs : nodes.Climbs node path) :
    node ∉ path := by
  intro hmem
  obtain ⟨rest, hrest, hlength, -⟩ := hclimbs.of_mem hmem
  rw [hrest.unique hclimbs] at hlength
  exact Nat.lt_irrefl _ hlength

/-- What is handed on from child to parent holds all along a way up. -/
theorem Climbs.forall_mem {holds : NodeRef → Prop} {node : NodeRef} {path : List NodeRef}
    (hclimbs : nodes.Climbs node path)
    (hparent : ∀ {child : NodeRef} {place : ChildAssociation},
      nodes.parents[child]? = some place → holds child → holds place.parent)
    (hnode : holds node) : ∀ passed ∈ node :: path, holds passed := by
  induction hclimbs with
  | top => simpa using hnode
  | up hplace _ ih => exact List.forall_mem_cons.mpr ⟨hnode, ih (hparent hplace hnode)⟩

theorem Climbs.nodup {node : NodeRef} {path : List NodeRef} (hclimbs : nodes.Climbs node path) :
    path.Nodup := by
  induction hclimbs with
  | top => exact List.nodup_nil
  | up _ hrest ih => exact List.nodup_cons.mpr ⟨hrest.not_mem, ih⟩

/-- A way up ends at a node that has no parent. -/
theorem Climbs.getLast_top {node : NodeRef} {path : List NodeRef}
    (hclimbs : nodes.Climbs node path) :
    nodes.parents[(node :: path).getLast (List.cons_ne_nil node path)]? = none := by
  induction hclimbs with
  | top hplace => simpa using hplace
  | up _ _ ih => simpa using ih

theorem Climbs.climb_eq {node : NodeRef} {path : List NodeRef} (hclimbs : nodes.Climbs node path) :
    ∀ {steps : Nat}, path.length ≤ steps → nodes.climb steps node = path := by
  induction hclimbs with
  | top hplace =>
      intro steps _
      cases steps with
      | zero => rfl
      | succ steps => simp [climb, hplace]
  | up hplace _ ih =>
      intro steps hsteps
      cases steps with
      | zero => simp at hsteps
      | succ steps =>
          simp only [climb, hplace]
          rw [ih (Nat.le_of_succ_le_succ hsteps)]

namespace Linked

/-- A way up passes existing nodes only. -/
theorem forall_hasNode (hlinked : nodes.Linked) {node : NodeRef} {path : List NodeRef}
    (hnode : nodes.hasNode node) (hclimbs : nodes.Climbs node path) :
    ∀ passed ∈ node :: path, nodes.hasNode passed := by
  refine hclimbs.forall_mem ?_ hnode
  intro child place hplace _
  exact hlinked.hasNode_parent hplace

theorem length_lt_size (hlinked : nodes.Linked) {node : NodeRef} {path : List NodeRef}
    (hnode : nodes.hasNode node) (hclimbs : nodes.Climbs node path) :
    path.length < nodes.size :=
  length_le_size (List.nodup_cons.mpr ⟨hclimbs.not_mem, hclimbs.nodup⟩)
    (hlinked.forall_hasNode hnode hclimbs)

/-- The number of nodes is enough for every way up. -/
theorem climbs_climb (hlinked : nodes.Linked) {node : NodeRef} (hnode : nodes.hasNode node) :
    nodes.Climbs node (nodes.climb nodes.size node) := by
  obtain ⟨path, hclimbs⟩ := hlinked.exists_climbs hnode
  rwa [hclimbs.climb_eq (Nat.le_of_lt (hlinked.length_lt_size hnode hclimbs))]

theorem mem_climb_iff (hlinked : nodes.Linked) {node above : NodeRef}
    (hnode : nodes.hasNode node) :
    above ∈ nodes.climb nodes.size node ↔ ∃ path, nodes.Climbs node path ∧ above ∈ path := by
  have hclimbs := hlinked.climbs_climb hnode
  constructor
  · intro habove
    exact ⟨_, hclimbs, habove⟩
  · intro hwithin
    obtain ⟨path, hpath, habove⟩ := hwithin
    rwa [hclimbs.unique hpath]

/-- A child of a node within a tree is within it. -/
theorem within_of_parent {top node : NodeRef} {place : ChildAssociation}
    (hlinked : nodes.Linked) (hplace : nodes.parents[node]? = some place)
    (hparent : nodes.Within top place.parent) : nodes.Within top node := by
  right
  rcases hparent with hparent | ⟨path, hclimbs, hmem⟩
  · obtain ⟨path, hclimbs⟩ := hlinked.exists_climbs (hlinked.hasNode_parent hplace)
    exact ⟨_, .up hplace hclimbs, by simp [hparent]⟩
  · exact ⟨_, .up hplace hclimbs, List.mem_cons_of_mem _ hmem⟩

/-- The parent of a node does not lie within the node's own tree. -/
theorem not_within_parent (hlinked : nodes.Linked) {top : NodeRef} {place : ChildAssociation}
    (hplace : nodes.parents[top]? = some place) : ¬ nodes.Within top place.parent := by
  intro hwithin
  rcases hwithin with hparent | ⟨path, hclimbs, hmem⟩
  · obtain ⟨path, hclimbs⟩ := hlinked.exists_climbs (hlinked.hasNode_parent hplace)
    exact (Climbs.up hplace hclimbs).not_mem (by simp [hparent])
  · exact (Climbs.up hplace hclimbs).not_mem (List.mem_cons_of_mem _ hmem)

theorem mem_map_child_iff (hlinked : nodes.Linked) {parent child : NodeRef} :
    child ∈ (nodes.children.itemsOf parent).map ChildAssociation.child ↔
      ∃ place, nodes.parents[child]? = some place ∧ place.parent = parent := by
  rw [List.mem_map]
  constructor
  · intro hlisted
    obtain ⟨place, hmem, rfl⟩ := hlisted
    obtain ⟨hparent, hplace⟩ := hlinked.mem_itemsOf_iff.mp hmem
    exact ⟨place, hplace, hparent⟩
  · intro hplaced
    obtain ⟨place, hplace, hparent⟩ := hplaced
    have hchild := hlinked.place_child hplace
    exact ⟨place, hlinked.mem_itemsOf_iff.mpr ⟨hparent, by rw [hchild, hplace]⟩, hchild⟩

/-- No child stands twice in a list. -/
theorem nodup_map_child (hlinked : nodes.Linked) (parent : NodeRef) :
    ((nodes.children.itemsOf parent).map ChildAssociation.child).Nodup := by
  refine List.Nodup.map_on ?_ (hlinked.nodup_itemsOf parent)
  intro first hfirst second hsecond hchild
  have hfirst := (hlinked.mem_itemsOf_iff.mp hfirst).2
  have hsecond := (hlinked.mem_itemsOf_iff.mp hsecond).2
  rw [hchild, hsecond] at hfirst
  exact (Option.some.inj hfirst).symm

end Linked

/-! ## The way down -/

/-- How far a walk down from `top` has come: it has visited some nodes and holds others in its
queue.  The invariant is that what it has met is a part of the tree beneath `top` that has with each
visited node all children, and with each node but `top` the parent. -/
structure Descent (nodes : NodeStore) (top : NodeRef) (visited queue : List NodeRef) : Prop where
  top_mem : top ∈ visited ++ queue
  nodup : (visited ++ queue).Nodup
  hasNode_of_mem : ∀ node ∈ visited ++ queue, nodes.hasNode node
  within_of_mem : ∀ node ∈ visited ++ queue, nodes.Within top node
  parent_visited : ∀ node ∈ visited ++ queue, node = top ∨
    ∃ place, nodes.parents[node]? = some place ∧ place.parent ∈ visited
  child_met : ∀ {node : NodeRef} {place : ChildAssociation},
    nodes.parents[node]? = some place → place.parent ∈ visited → node ∈ visited ++ queue

namespace Descent

variable {top node : NodeRef} {visited queue : List NodeRef}

theorem start (hnode : nodes.hasNode top) : nodes.Descent top [] [top] where
  top_mem := by simp
  nodup := by simp
  hasNode_of_mem := by simpa using hnode
  within_of_mem := by simp [Within]
  parent_visited := by simp
  child_met := by simp

/-- The children of the next node in the queue have not been met. -/
theorem not_met (hlinked : nodes.Linked) (hdescent : nodes.Descent top visited (node :: queue))
    {child : NodeRef} {place : ChildAssociation} (hplace : nodes.parents[child]? = some place)
    (hparent : place.parent = node) : child ∉ visited ++ node :: queue := by
  intro hmem
  rcases hdescent.parent_visited child hmem with rfl | ⟨other, hother, hvisited⟩
  · refine hlinked.not_within_parent hplace ?_
    rw [hparent]
    exact hdescent.within_of_mem node (by simp)
  · obtain rfl := Option.some.inj (hplace.symm.trans hother)
    rw [hparent] at hvisited
    exact List.disjoint_of_nodup_append hdescent.nodup hvisited (by simp)

theorem visit (hlinked : nodes.Linked) (hdescent : nodes.Descent top visited (node :: queue)) :
    nodes.Descent top (visited ++ [node])
      (queue ++ (nodes.children.itemsOf node).map ChildAssociation.child) := by
  have hsplit : visited ++ [node] ++
      (queue ++ (nodes.children.itemsOf node).map ChildAssociation.child) =
      visited ++ node :: queue ++ (nodes.children.itemsOf node).map ChildAssociation.child := by
    simp
  have hmet : ∀ other, other ∈ visited ++ node :: queue ++
      (nodes.children.itemsOf node).map ChildAssociation.child ↔
      other ∈ visited ++ node :: queue ∨
        ∃ place, nodes.parents[other]? = some place ∧ place.parent = node := by
    intro other
    rw [List.mem_append, hlinked.mem_map_child_iff]
  constructor
  · rw [hsplit, hmet]
    exact .inl hdescent.top_mem
  · rw [hsplit]
    refine List.Nodup.append hdescent.nodup (hlinked.nodup_map_child node) ?_
    intro other hother hchild
    obtain ⟨place, hplace, hparent⟩ := hlinked.mem_map_child_iff.mp hchild
    exact hdescent.not_met hlinked hplace hparent hother
  · intro other hother
    rw [hsplit, hmet] at hother
    rcases hother with hother | ⟨place, hplace, -⟩
    · exact hdescent.hasNode_of_mem other hother
    · exact hlinked.hasNode_child hplace
  · intro other hother
    rw [hsplit, hmet] at hother
    rcases hother with hother | ⟨place, hplace, hparent⟩
    · exact hdescent.within_of_mem other hother
    · refine hlinked.within_of_parent hplace ?_
      rw [hparent]
      exact hdescent.within_of_mem node (by simp)
  · intro other hother
    rw [hsplit, hmet] at hother
    rcases hother with hother | ⟨place, hplace, hparent⟩
    · refine (hdescent.parent_visited other hother).imp_right ?_
      intro hparent
      obtain ⟨place, hplace, hvisited⟩ := hparent
      exact ⟨place, hplace, List.mem_append_left _ hvisited⟩
    · exact .inr ⟨place, hplace, by simp [hparent]⟩
  · intro other place hplace hvisited
    rw [hsplit, hmet]
    rcases List.mem_append.mp hvisited with hvisited | hlast
    · exact .inl (hdescent.child_met hplace hvisited)
    · exact .inr ⟨place, hplace, List.mem_singleton.mp hlast⟩

/-- A walk for which there are as many steps left as nodes to visit comes to its end. -/
theorem finish (hlinked : nodes.Linked) :
    ∀ (steps : Nat) (visited queue : List NodeRef), nodes.Descent top visited queue →
      nodes.size ≤ visited.length + steps →
      nodes.Descends queue (nodes.descend steps queue) ∧
        nodes.Descent top (visited ++ nodes.descend steps queue) [] := by
  intro steps
  induction steps with
  | zero =>
      intro visited queue hdescent hsize
      have hlength := length_le_size hdescent.nodup hdescent.hasNode_of_mem
      rw [List.length_append] at hlength
      obtain rfl : queue = [] := List.eq_nil_of_length_eq_zero (by omega)
      exact ⟨.done, by simpa [descend] using hdescent⟩
  | succ steps ih =>
      intro visited queue hdescent hsize
      cases queue with
      | nil => exact ⟨.done, by simpa [descend] using hdescent⟩
      | cons node queue =>
          obtain ⟨hdescends, hend⟩ := ih _ _ (hdescent.visit hlinked) (by simp; omega)
          exact ⟨.visit hdescends, by simpa [descend] using hend⟩

/-- A walk that has come to its end has visited the whole tree beneath `top`. -/
theorem mem_iff_within (hdescent : nodes.Descent top visited []) :
    node ∈ visited ↔ nodes.Within top node := by
  have hmet : ∀ other, other ∈ visited ++ [] ↔ other ∈ visited := by simp
  constructor
  · intro hnode
    exact hdescent.within_of_mem node ((hmet node).mpr hnode)
  · intro hwithin
    rcases hwithin with rfl | ⟨path, hclimbs, htop⟩
    · exact (hmet _).mp hdescent.top_mem
    · induction hclimbs with
      | top => cases htop
      | up hplace _ ih =>
          refine (hmet _).mp (hdescent.child_met hplace ?_)
          rcases List.mem_cons.mp htop with hparent | htop
          · rw [← hparent]
            exact (hmet _).mp hdescent.top_mem
          · exact ih htop

end Descent

namespace Linked

theorem descent_subtree (hlinked : nodes.Linked) {top : NodeRef} (hnode : nodes.hasNode top) :
    nodes.Descends [top] (nodes.subtree top) ∧ nodes.Descent top (nodes.subtree top) [] :=
  Descent.finish hlinked nodes.size [] [top] (.start hnode) (by simp)

/-- The number of nodes is enough for every way down. -/
theorem descends_subtree (hlinked : nodes.Linked) {top : NodeRef} (hnode : nodes.hasNode top) :
    nodes.Descends [top] (nodes.subtree top) :=
  (hlinked.descent_subtree hnode).1

theorem mem_subtree_iff (hlinked : nodes.Linked) {top node : NodeRef}
    (hnode : nodes.hasNode top) : node ∈ nodes.subtree top ↔ nodes.Within top node :=
  (hlinked.descent_subtree hnode).2.mem_iff_within

theorem nodup_subtree (hlinked : nodes.Linked) {top : NodeRef} (hnode : nodes.hasNode top) :
    (nodes.subtree top).Nodup := by
  simpa using (hlinked.descent_subtree hnode).2.nodup

end Linked

end ContentRules.NodeStore
