import ContentRules.Proofs.NodeStore.Forest

/-!
# What a removal takes away

A node is removed with all that lies beneath it.  It is taken away from its parent first, and the
walk down that finds the nodes to remove is made in what is left.  The nodes that it meets are those
that lay within the tree of the node before (`mem_subtree_detach_iff`), so what can be looked up
after a removal is said in terms of the store before it.
-/

namespace ContentRules.NodeStore

variable {nodes : NodeStore} {top node : NodeRef}

/-! ## Trees within the store -/

/-- What holds of a node, and is handed on from parent to child, holds of all nodes within its
tree. -/
theorem Within.induction (holds : NodeRef → Prop) (hwithin : nodes.Within top node)
    (htop : holds top)
    (hchild : ∀ {child : NodeRef} {place : ChildAssociation},
      nodes.parents[child]? = some place → holds place.parent → holds child) : holds node := by
  rcases hwithin with rfl | ⟨path, hclimbs, hmem⟩
  · exact htop
  · induction hclimbs with
    | top => cases hmem
    | @up node place path hplace _ ih =>
        have hparent : holds place.parent := by
          rcases List.mem_cons.mp hmem with rfl | hmem
          · exact htop
          · exact ih hmem
        exact hchild hplace hparent

theorem Linked.within_trans (hlinked : nodes.Linked) {middle : NodeRef}
    (hmiddle : nodes.Within top middle) (hnode : nodes.Within middle node) :
    nodes.Within top node := by
  refine hnode.induction _ hmiddle ?_
  intro child place hplace hparent
  exact hlinked.within_of_parent hplace hparent

theorem Linked.hasNode_of_within (hlinked : nodes.Linked) (htop : nodes.hasNode top)
    (hwithin : nodes.Within top node) : nodes.hasNode node :=
  hwithin.induction (fun node => nodes.hasNode node) htop
    fun hplace _ => hlinked.hasNode_child hplace

/-- A node with a parent lies within its own tree and within those that its parent lies within. -/
theorem Linked.within_iff_of_parent (hlinked : nodes.Linked) {place : ChildAssociation}
    (hplace : nodes.parents[node]? = some place) :
    nodes.Within top node ↔ node = top ∨ nodes.Within top place.parent := by
  constructor
  · intro hwithin
    rcases hwithin with hnode | ⟨path, hclimbs, hmem⟩
    · exact .inl hnode
    · cases hclimbs with
      | top hnone => cases hmem
      | up hother hrest =>
          obtain rfl := Option.some.inj (hplace.symm.trans hother)
          rcases List.mem_cons.mp hmem with hparent | hmem
          · exact .inr (.inl hparent.symm)
          · exact .inr (.inr ⟨_, hrest, hmem⟩)
  · intro hparts
    rcases hparts with rfl | hparent
    · exact .inl rfl
    · exact hlinked.within_of_parent hplace hparent

/-- Whether a node lies within a tree can be told from its ancestors. -/
theorem Linked.within_iff_mem_climb (hlinked : nodes.Linked) (hnode : nodes.hasNode node) :
    nodes.Within top node ↔ node = top ∨ top ∈ nodes.climb nodes.size node := by
  rw [hlinked.mem_climb_iff hnode]
  rfl

/-- The ancestors of a node are what is met on the way up from it. -/
theorem Linked.ancestorsOf_eq_ok_iff (hlinked : nodes.Linked) {path : List NodeRef} :
    nodes.ancestorsOf node = .ok path ↔ nodes.hasNode node ∧ nodes.Climbs node path := by
  constructor
  · intro hancestors
    cases hrecord : nodes.recordOf node with
    | error error =>
        rw [ancestorsOf, hrecord] at hancestors
        cases hancestors
    | ok record =>
        have hnode := hasNode_of_recordOf hrecord
        obtain rfl := Except.ok.inj ((ancestorsOf_eq hrecord).symm.trans hancestors)
        exact ⟨hnode, hlinked.climbs_climb hnode⟩
  · intro hpath
    obtain ⟨hnode, hclimbs⟩ := hpath
    obtain ⟨record, hrecord⟩ := hasNode_iff_recordOf.mp hnode
    rw [ancestorsOf_eq hrecord, (hlinked.climbs_climb hnode).unique hclimbs]

/-- A node lies within a tree if it is the top of it or has the top among its ancestors. -/
theorem Linked.within_iff_ancestorsOf (hlinked : nodes.Linked) (hnode : nodes.hasNode node) :
    nodes.Within top node ↔
      node = top ∨ ∃ path, nodes.ancestorsOf node = .ok path ∧ top ∈ path := by
  simp only [hlinked.ancestorsOf_eq_ok_iff, hnode, true_and]
  rfl

/-- A node that is taken away from its parent keeps its tree. -/
theorem Linked.within_detach_iff (hlinked : nodes.Linked) :
    (nodes.detach top).Within top node ↔ nodes.Within top node := by
  constructor
  · intro hwithin
    refine hwithin.induction _ (.inl rfl) ?_
    intro child place hplace hparent
    rw [hlinked.parents_detach] at hplace
    split at hplace
    · cases hplace
    · exact hlinked.within_of_parent hplace hparent
  -- The only place that is lost is that of the node itself, which lies within its tree anyway.
  · intro hwithin
    refine hwithin.induction _ (.inl rfl) ?_
    intro child place hplace hparent
    by_cases htop : top = child
    · exact .inl htop.symm
    · refine (hlinked.detach top).within_of_parent ?_ hparent
      rw [hlinked.parents_detach, if_neg htop, hplace]

/-! ## Lists of children -/

/-- Where a node stands it is found in the list of its parent. -/
theorem Linked.place_mem (hlinked : nodes.Linked) {place : ChildAssociation}
    (hplace : nodes.parents[node]? = some place) :
    place ∈ nodes.children.itemsOf place.parent :=
  hlinked.mem_itemsOf_iff.mpr ⟨rfl, by rw [hlinked.place_child hplace, hplace]⟩

/-- Nothing stands beneath a node that does not exist. -/
theorem Linked.itemsOf_eq_nil (hlinked : nodes.Linked) (hnode : ¬ nodes.hasNode node) :
    nodes.children.itemsOf node = [] := by
  refine List.eq_nil_iff_forall_not_mem.mpr fun entry hentry => hnode ?_
  obtain ⟨rfl, hplace⟩ := hlinked.mem_itemsOf_iff.mp hentry
  exact hlinked.hasNode_parent hplace

/-- The entry of a node in any list is its place. -/
theorem Linked.child_eq_iff (hlinked : nodes.Linked) {parent : NodeRef}
    {place entry : ChildAssociation} (hplace : nodes.parents[node]? = some place)
    (hentry : entry ∈ nodes.children.itemsOf parent) : entry.child = node ↔ entry = place := by
  constructor
  · intro hchild
    have hstands := (hlinked.mem_itemsOf_iff.mp hentry).2
    rw [hchild, hplace] at hstands
    exact (Option.some.inj hstands).symm
  · rintro rfl
    exact hlinked.place_child hplace

/-- A list without a node is the list without its place. -/
theorem Linked.filter_child_ne_eq_erase (hlinked : nodes.Linked) {place : ChildAssociation}
    (hplace : nodes.parents[node]? = some place) (parent : NodeRef) :
    (nodes.children.itemsOf parent).filter (fun entry => entry.child ≠ node) =
      (nodes.children.itemsOf parent).erase place := by
  rw [(hlinked.nodup_itemsOf parent).erase_eq_filter]
  refine List.filter_congr fun entry hentry => ?_
  rw [Bool.eq_iff_iff, decide_eq_true_iff, bne_iff_ne]
  exact not_congr (hlinked.child_eq_iff hplace hentry)

/-- A node stands in no list but that of its parent. -/
theorem Linked.filter_child_ne_eq_self (hlinked : nodes.Linked) {parent : NodeRef}
    (hother : ∀ place, nodes.parents[node]? = some place → place.parent ≠ parent) :
    (nodes.children.itemsOf parent).filter (fun entry => entry.child ≠ node) =
      nodes.children.itemsOf parent := by
  refine List.filter_eq_self.mpr fun entry hentry => decide_eq_true ?_
  rintro rfl
  obtain ⟨hparent, hplace⟩ := hlinked.mem_itemsOf_iff.mp hentry
  exact hother entry hplace hparent

/-- A node that is taken away from its parent is taken out of every list. -/
theorem Linked.itemsOf_unlink_place (hlinked : nodes.Linked) {place : ChildAssociation}
    (hplace : nodes.parents[node]? = some place) (parent : NodeRef) :
    (nodes.unlink place).children.itemsOf parent =
      (nodes.children.itemsOf parent).filter fun entry => entry.child ≠ node := by
  rw [itemsOf_unlink, hlinked.place_child hplace]
  split
  · simp
  · rename_i hother
    refine (hlinked.filter_child_ne_eq_self ?_).symm
    intro found hfound
    obtain rfl := Option.some.inj (hplace.symm.trans hfound)
    exact hother

theorem detach_eq {place : ChildAssociation} (hplace : nodes.parents[node]? = some place) :
    nodes.detach node = nodes.unlink place := by
  simp [detach, hplace]

/-! ## Removed trees -/

/-- The walk down from a node that was taken away from its parent meets its former tree. -/
theorem Linked.mem_subtree_detach_iff (hlinked : nodes.Linked) (htop : nodes.hasNode top) :
    node ∈ (nodes.detach top).subtree top ↔ nodes.Within top node := by
  have hexists : (nodes.detach top).hasNode top := by rwa [hasNode_detach]
  rw [(hlinked.detach top).mem_subtree_iff hexists, hlinked.within_detach_iff]

theorem Linked.hasNode_removeTree (hlinked : nodes.Linked) (htop : nodes.hasNode top) :
    (nodes.removeTree top).hasNode node ↔ nodes.hasNode node ∧ ¬ nodes.Within top node := by
  unfold removeTree
  rw [hasNode_removeAll, hlinked.mem_subtree_detach_iff htop, hasNode_detach, and_comm]

open Classical in
/-- Nodes that stay keep their places. -/
theorem Linked.parents_removeTree (hlinked : nodes.Linked) (htop : nodes.hasNode top)
    (node : NodeRef) :
    (nodes.removeTree top).parents[node]? =
      if nodes.Within top node then none else nodes.parents[node]? := by
  unfold removeTree
  rw [parents_removeAll, hlinked.parents_detach]
  by_cases hwithin : nodes.Within top node
  · rw [if_pos hwithin, if_pos ((hlinked.mem_subtree_detach_iff htop).mpr hwithin)]
  · have hne : top ≠ node := fun hsame => hwithin (.inl hsame.symm)
    rw [if_neg hwithin, if_neg (mt (hlinked.mem_subtree_detach_iff htop).mp hwithin), if_neg hne]

end ContentRules.NodeStore
