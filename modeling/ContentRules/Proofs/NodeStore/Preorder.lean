import Mathlib.Data.List.Flatten
import ContentRules.Proofs.NodeStore.Removal

/-!
# Trees in preorder

The preorder of a node lists the node, and then for each of its children in turn the preorder of
that one.  In a linked store the number of nodes is enough levels to count down, and then this is an
equation (`Linked.preorder_eq`).

* `Linked.mem_preorder_iff` and `Linked.nodup_preorder`: the preorder has each node within the tree,
  and has it once;
* `Linked.infix_preorder`: the tree of a node within the tree is a part of it without gaps;
* `Linked.filter_preorder`: the children of a node stand in it in their order.

Two trees without a common node are told apart by `Linked.within_or_within`: of two nodes above a
third, one lies above the other.
-/

namespace ContentRules.NodeStore

/-- A node and what is beneath it, each node before its children and these in their order, at most
`levels` generations. -/
def preorderFrom (nodes : NodeStore) : Nat → NodeRef → List NodeRef
  | 0, _ => []
  | levels + 1, node =>
    node :: (nodes.children.itemsOf node).flatMap fun entry =>
      nodes.preorderFrom levels entry.child

/-- A node and all that is beneath it, each node before its children and these in their order. -/
def preorder (nodes : NodeStore) (node : NodeRef) : List NodeRef :=
  nodes.preorderFrom nodes.size node

variable {nodes : NodeStore} {top node : NodeRef} {levels : Nat}

/-- A node beneath another one has a parent within the same tree. -/
theorem Within.exists_place (hwithin : nodes.Within top node) (hne : node ≠ top) :
    ∃ place, nodes.parents[node]? = some place ∧ nodes.Within top place.parent := by
  rcases hwithin with hsame | ⟨path, hclimbs, hmem⟩
  · exact absurd hsame hne
  · cases hclimbs with
    | top hplace => cases hmem
    | up hplace hrest =>
        rcases List.mem_cons.mp hmem with htop | hmem
        · exact ⟨_, hplace, .inl htop.symm⟩
        · exact ⟨_, hplace, .inr ⟨_, hrest, hmem⟩⟩

namespace Linked

/-! ## Trees that meet -/

/-- Of two nodes that a third lies beneath, one lies beneath the other. -/
theorem within_or_within (hlinked : nodes.Linked) {first second : NodeRef}
    (hfirst : nodes.Within first node) (hsecond : nodes.Within second node) :
    nodes.Within first second ∨ nodes.Within second first := by
  have hboth : nodes.Within first node ∧ (nodes.Within second node →
      nodes.Within first second ∨ nodes.Within second first) := by
    refine hfirst.induction (fun node => nodes.Within first node ∧ (nodes.Within second node →
      nodes.Within first second ∨ nodes.Within second first)) ⟨.inl rfl, .inr⟩ ?_
    intro child place hplace hparent
    obtain ⟨hwithin, hmeet⟩ := hparent
    have hchild := hlinked.within_of_parent hplace hwithin
    refine ⟨hchild, ?_⟩
    intro hsecond
    rcases (hlinked.within_iff_of_parent hplace).mp hsecond with rfl | hsecond
    · exact .inl hchild
    · exact hmeet hsecond
  exact hboth.2 hsecond

/-- The trees of two children of a node have no node in common. -/
theorem eq_of_within_children (hlinked : nodes.Linked) {first second : ChildAssociation}
    (hfirst : first ∈ nodes.children.itemsOf top) (hsecond : second ∈ nodes.children.itemsOf top)
    (hwithinFirst : nodes.Within first.child node)
    (hwithinSecond : nodes.Within second.child node) : first = second := by
  have hapart : ∀ {one other : ChildAssociation}, one ∈ nodes.children.itemsOf top →
      other ∈ nodes.children.itemsOf top → nodes.Within one.child other.child → other = one := by
    intro one other hone hother hwithin
    obtain ⟨hparent, hplace⟩ := hlinked.mem_itemsOf_iff.mp hone
    obtain ⟨hotherParent, hotherPlace⟩ := hlinked.mem_itemsOf_iff.mp hother
    rcases (hlinked.within_iff_of_parent hotherPlace).mp hwithin with hchild | habove
    · exact (hlinked.child_eq_iff hplace hother).mp hchild
    · rw [hotherParent, ← hparent] at habove
      exact absurd habove (hlinked.not_within_parent hplace)
  rcases hlinked.within_or_within hwithinFirst hwithinSecond with hwithin | hwithin
  · exact (hapart hfirst hsecond hwithin).symm
  · exact hapart hsecond hfirst hwithin

/-! ## A number of levels -/

theorem within_of_mem_preorderFrom (hlinked : nodes.Linked)
    (hmem : node ∈ nodes.preorderFrom levels top) : nodes.Within top node := by
  induction levels generalizing top with
  | zero => cases hmem
  | succ levels ih =>
      rcases List.mem_cons.mp hmem with rfl | hbeneath
      · exact .inl rfl
      · obtain ⟨entry, hentry, hmem⟩ := List.mem_flatMap.mp hbeneath
        obtain ⟨hparent, hplace⟩ := hlinked.mem_itemsOf_iff.mp hentry
        exact hlinked.within_trans (hlinked.within_of_parent hplace (.inl hparent)) (ih hmem)

theorem nodup_preorderFrom (hlinked : nodes.Linked) :
    (nodes.preorderFrom levels top).Nodup := by
  induction levels generalizing top with
  | zero => exact List.nodup_nil
  | succ levels ih =>
      refine List.nodup_cons.mpr ⟨?_, List.nodup_flatMap.mpr ⟨fun entry _ => ih, ?_⟩⟩
      -- The node is the parent of its children, so it does not lie within their trees.
      · intro hmem
        obtain ⟨entry, hentry, hmem⟩ := List.mem_flatMap.mp hmem
        obtain ⟨hparent, hplace⟩ := hlinked.mem_itemsOf_iff.mp hentry
        refine hlinked.not_within_parent hplace ?_
        rw [hparent]
        exact hlinked.within_of_mem_preorderFrom hmem
      · refine (hlinked.nodup_itemsOf top).imp_of_mem ?_
        intro first second hfirst hsecond hne node hnodeFirst hnodeSecond
        exact hne (hlinked.eq_of_within_children hfirst hsecond
          (hlinked.within_of_mem_preorderFrom hnodeFirst)
          (hlinked.within_of_mem_preorderFrom hnodeSecond))

/-- The way up from a child. -/
theorem climbs_child (hlinked : nodes.Linked) {path : List NodeRef}
    (hclimbs : nodes.Climbs node path) {entry : ChildAssociation}
    (hentry : entry ∈ nodes.children.itemsOf node) :
    nodes.Climbs entry.child (node :: path) := by
  obtain ⟨rfl, hplace⟩ := hlinked.mem_itemsOf_iff.mp hentry
  exact .up hplace hclimbs

/-- Levels beyond those that the nodes above leave make no difference. -/
theorem preorderFrom_eq (hlinked : nodes.Linked) (hnode : nodes.hasNode node)
    {path : List NodeRef} (hclimbs : nodes.Climbs node path) {more : Nat}
    (hlevels : nodes.size ≤ path.length + levels) (hmore : nodes.size ≤ path.length + more) :
    nodes.preorderFrom levels node = nodes.preorderFrom more node := by
  have hlength := hlinked.length_lt_size hnode hclimbs
  induction levels generalizing node path more with
  | zero => omega
  | succ levels ih =>
      obtain ⟨more, rfl⟩ : ∃ fewer, more = fewer + 1 := ⟨more - 1, by omega⟩
      have hbeneath : ∀ entry ∈ nodes.children.itemsOf node,
          nodes.preorderFrom levels entry.child = nodes.preorderFrom more entry.child := by
        intro entry hentry
        have hchild := hlinked.hasNode_child (hlinked.mem_itemsOf_iff.mp hentry).2
        have hway := hlinked.climbs_child hclimbs hentry
        refine ih hchild hway ?_ ?_ (hlinked.length_lt_size hchild hway)
        · rw [List.length_cons]
          omega
        · rw [List.length_cons]
          omega
      simp only [preorderFrom]
      rw [List.flatMap_congr hbeneath]

/-! ## Whole trees -/

/-- A node comes before its children, and these in their order, each with its own tree. -/
theorem preorder_eq (hlinked : nodes.Linked) (hnode : nodes.hasNode node) :
    nodes.preorder node =
      node :: (nodes.children.itemsOf node).flatMap fun entry => nodes.preorder entry.child := by
  obtain ⟨path, hclimbs⟩ := hlinked.exists_climbs hnode
  have hlength := hlinked.length_lt_size hnode hclimbs
  obtain ⟨levels, hsize⟩ : ∃ levels, nodes.size = levels + 1 := ⟨nodes.size - 1, by omega⟩
  have hbeneath : ∀ entry ∈ nodes.children.itemsOf node,
      nodes.preorderFrom levels entry.child = nodes.preorder entry.child := by
    intro entry hentry
    refine hlinked.preorderFrom_eq (hlinked.hasNode_child (hlinked.mem_itemsOf_iff.mp hentry).2)
      (hlinked.climbs_child hclimbs hentry) ?_ (Nat.le_add_left ..)
    rw [List.length_cons]
    omega
  calc nodes.preorder node
      = node :: (nodes.children.itemsOf node).flatMap fun entry =>
          nodes.preorderFrom levels entry.child := by rw [preorder, hsize, preorderFrom]
    _ = _ := by rw [List.flatMap_congr hbeneath]

theorem nodup_preorder (hlinked : nodes.Linked) : (nodes.preorder top).Nodup :=
  hlinked.nodup_preorderFrom

/-- The tree of a node within a tree is found there without gaps. -/
theorem infix_preorder (hlinked : nodes.Linked) (hwithin : nodes.Within top node) :
    nodes.preorder node <:+: nodes.preorder top := by
  refine hwithin.induction (fun node => nodes.preorder node <:+: nodes.preorder top)
    (List.infix_refl _) ?_
  intro child place hplace hparent
  have hentry := hlinked.place_mem hplace
  have hpart : nodes.preorder child <:+:
      (nodes.children.itemsOf place.parent).flatMap fun entry => nodes.preorder entry.child := by
    rw [List.flatMap_def]
    refine List.infix_of_mem_flatten (List.mem_map.mpr ⟨place, hentry, ?_⟩)
    rw [hlinked.place_child hplace]
  have hbeneath : nodes.preorder child <:+: nodes.preorder place.parent := by
    rw [hlinked.preorder_eq (hlinked.hasNode_parent hplace)]
    exact hpart.trans (List.suffix_cons ..).isInfix
  exact hbeneath.trans hparent

theorem mem_preorder_self (hlinked : nodes.Linked) (hnode : nodes.hasNode node) :
    node ∈ nodes.preorder node := by
  rw [hlinked.preorder_eq hnode]
  exact List.mem_cons_self

/-- The preorder has the nodes within the tree. -/
theorem mem_preorder_iff (hlinked : nodes.Linked) (htop : nodes.hasNode top) :
    node ∈ nodes.preorder top ↔ nodes.Within top node := by
  constructor
  · exact hlinked.within_of_mem_preorderFrom
  · intro hwithin
    exact (hlinked.infix_preorder hwithin).subset
      (hlinked.mem_preorder_self (hlinked.hasNode_of_within htop hwithin))

/-- The children of a node within a tree come in their order there. -/
theorem sublist_preorder (hlinked : nodes.Linked) (htop : nodes.hasNode top)
    (hwithin : nodes.Within top node) :
    ((nodes.children.itemsOf node).map ChildAssociation.child).Sublist (nodes.preorder top) := by
  have hbeneath : ((nodes.children.itemsOf node).flatMap (pure ∘ ChildAssociation.child)).Sublist
      ((nodes.children.itemsOf node).flatMap fun entry => nodes.preorder entry.child) := by
    refine List.Sublist.flatMap_right _ fun entry hentry => List.singleton_sublist.mpr ?_
    exact hlinked.mem_preorder_self (hlinked.hasNode_child (hlinked.mem_itemsOf_iff.mp hentry).2)
  rw [List.flatMap_pure_eq_map] at hbeneath
  refine List.Sublist.trans ?_ (hlinked.infix_preorder hwithin).sublist
  rw [hlinked.preorder_eq (hlinked.hasNode_of_within htop hwithin)]
  exact hbeneath.cons _

/-- Among the nodes of a tree those that are children of one node are its list of children. -/
theorem filter_preorder (hlinked : nodes.Linked) (htop : nodes.hasNode top)
    (hwithin : nodes.Within top node) :
    (nodes.preorder top).filter
        (fun other => other ∈ (nodes.children.itemsOf node).map ChildAssociation.child) =
      (nodes.children.itemsOf node).map ChildAssociation.child := by
  have hsublist := (hlinked.sublist_preorder htop hwithin).filter
    fun other => other ∈ (nodes.children.itemsOf node).map ChildAssociation.child
  rw [List.filter_eq_self.mpr fun other hother => decide_eq_true hother] at hsublist
  have hlength : ((nodes.preorder top).filter fun other =>
        other ∈ (nodes.children.itemsOf node).map ChildAssociation.child).length ≤
      ((nodes.children.itemsOf node).map ChildAssociation.child).length := by
    refine (hlinked.nodup_preorder.filter _).length_le_of_subset fun other hother => ?_
    exact of_decide_eq_true (List.mem_filter.mp hother).2
  exact (hsublist.eq_of_length_le hlength).symm

end Linked

end ContentRules.NodeStore
