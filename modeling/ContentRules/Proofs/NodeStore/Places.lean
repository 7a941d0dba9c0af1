import ContentRules.Proofs.NodeStore.Updates
import ContentRules.Proofs.NodeStore.Walks

/-!
# Places after a change

Each update of the tree keeps a store linked, under the conditions that are checked before it.

Ways up are carried over from one store to another along the nodes that they pass: linking a node
makes some of them longer, unlinking one cuts some of them off, and removing a set of nodes that is
closed under parents and children leaves all others as they were.
-/

namespace ContentRules.NodeStore

variable {nodes : NodeStore}

/-! ## Ways up -/

/-- A way up is the same in a store that has the same places along it. -/
theorem Climbs.of_parents_eq {other : NodeStore} {node : NodeRef} {path : List NodeRef}
    (hclimbs : nodes.Climbs node path)
    (hplaces : ∀ passed ∈ node :: path, other.parents[passed]? = nodes.parents[passed]?) :
    other.Climbs node path := by
  induction hclimbs with
  | top hplace => exact .top (by rw [hplaces _ (by simp), hplace])
  | up hplace _ ih =>
      refine .up (by rw [hplaces _ (by simp), hplace]) (ih ?_)
      intro passed hpassed
      exact hplaces passed (List.mem_cons_of_mem _ hpassed)

/-- Linking a node makes the ways up that end at it longer, and no other ones. -/
theorem Climbs.link {assoc : ChildAssociation} {node : NodeRef} {path above : List NodeRef}
    (hclimbs : nodes.Climbs node path) (hfree : nodes.parents[assoc.child]? = none)
    (habove : nodes.Climbs assoc.parent above) (hout : assoc.child ∉ assoc.parent :: above) :
    ∃ path, (nodes.link assoc).Climbs node path := by
  have hkept : (nodes.link assoc).Climbs assoc.parent above := by
    refine habove.of_parents_eq ?_
    intro passed hpassed
    rw [parents_link, if_neg]
    rintro rfl
    exact hout hpassed
  induction hclimbs with
  | @top node hplace =>
      by_cases hnode : assoc.child = node
      · exact ⟨_, .up (by rw [parents_link, if_pos hnode]) hkept⟩
      · exact ⟨_, .top (by rw [parents_link, if_neg hnode, hplace])⟩
  | @up node place path hplace _ ih =>
      obtain ⟨path, hpath⟩ := ih
      refine ⟨_, .up (?_ : _ = some place) hpath⟩
      rw [parents_link, if_neg, hplace]
      rintro rfl
      rw [hfree] at hplace
      cases hplace

/-- Unlinking a node cuts off the ways up that pass it. -/
theorem Climbs.unlink {assoc : ChildAssociation} {node : NodeRef} {path : List NodeRef}
    (hclimbs : nodes.Climbs node path) : ∃ path, (nodes.unlink assoc).Climbs node path := by
  induction hclimbs with
  | top hplace =>
      refine ⟨_, .top ?_⟩
      rw [parents_unlink, hplace, ite_self]
  | @up node place path hplace _ ih =>
      by_cases hnode : assoc.child = node
      · exact ⟨_, .top (by rw [parents_unlink, if_pos hnode])⟩
      · obtain ⟨path, hpath⟩ := ih
        exact ⟨_, .up (by rw [parents_unlink, if_neg hnode, hplace]) hpath⟩

/-- What a node that stays passes on its way up stays too, so its way up is the old one. -/
theorem Climbs.removeAll {removed : List NodeRef} {node : NodeRef} {path : List NodeRef}
    (hclimbs : nodes.Climbs node path)
    (hclosed : ∀ {node : NodeRef} {place : ChildAssociation},
      nodes.parents[node]? = some place → (place.parent ∈ removed ↔ node ∈ removed))
    (hkept : node ∉ removed) : (removed.foldl removeNode nodes).Climbs node path := by
  have hstays : ∀ passed ∈ node :: path, passed ∉ removed := by
    refine hclimbs.forall_mem ?_ hkept
    intro child place hplace hchild
    rwa [hclosed hplace]
  refine hclimbs.of_parents_eq ?_
  intro passed hpassed
  rw [parents_removeAll, if_neg (hstays passed hpassed)]

/-- A node with no place is within no tree but its own. -/
theorem eq_of_within {top node : NodeRef} (hplace : nodes.parents[node]? = none)
    (hwithin : nodes.Within top node) : node = top := by
  rcases hwithin with hnode | ⟨path, hclimbs, htop⟩
  · exact hnode
  · rw [hclimbs.unique (.top hplace)] at htop
    cases htop

/-- Beneath a node with no place, the parent of a node is within its tree with the node itself. -/
theorem Linked.within_parent_iff (hlinked : nodes.Linked) {top node : NodeRef}
    {place : ChildAssociation} (htop : nodes.parents[top]? = none)
    (hplace : nodes.parents[node]? = some place) :
    nodes.Within top place.parent ↔ nodes.Within top node := by
  constructor
  · exact hlinked.within_of_parent hplace
  · intro hwithin
    rcases hwithin with rfl | ⟨path, hclimbs, hmem⟩
    · rw [htop] at hplace
      cases hplace
    · cases hclimbs with
      | top hnone => cases hmem
      | up hother hrest =>
          obtain rfl := Option.some.inj (hplace.symm.trans hother)
          rcases List.mem_cons.mp hmem with hparent | hmem
          · exact .inl hparent.symm
          · exact .inr ⟨_, hrest, hmem⟩

/-! ## Linked stores -/

namespace Linked

/-- Being linked is a matter of places and of which nodes exist. -/
theorem congr (hlinked : nodes.Linked) {other : NodeStore}
    (hparents : other.parents = nodes.parents)
    (hchildren : other.children = nodes.children)
    (hnodes : ∀ node, other.hasNode node = nodes.hasNode node) : other.Linked := by
  constructor
  · rw [hparents]
    exact hlinked.place_child
  · rw [hparents]
    intro node place hplace
    rw [hnodes]
    exact hlinked.hasNode_child hplace
  · rw [hparents]
    intro node place hplace
    rw [hnodes]
    exact hlinked.hasNode_parent hplace
  · rw [hparents, hchildren]
    exact hlinked.mem_itemsOf_iff
  · rw [hchildren]
    exact hlinked.nodup_itemsOf
  · rw [hchildren]
    exact hlinked.children_ne_nil
  · intro node hnode
    rw [hnodes] at hnode
    obtain ⟨path, hclimbs⟩ := hlinked.exists_climbs hnode
    refine ⟨path, hclimbs.of_parents_eq ?_⟩
    intro passed _
    rw [hparents]

theorem parents_of_not_hasNode (hlinked : nodes.Linked) {node : NodeRef}
    (hnode : ¬ nodes.hasNode node) : nodes.parents[node]? = none := by
  cases hplace : nodes.parents[node]? with
  | none => rfl
  | some place => exact absurd (hlinked.hasNode_child hplace) hnode

/-- Putting a record makes a node at most, and a new node has no place yet. -/
theorem putRecord (hlinked : nodes.Linked) (node : NodeRef) (record : NodeRecord) :
    (nodes.putRecord node record).Linked := by
  refine ⟨hlinked.place_child, ?_, ?_, hlinked.mem_itemsOf_iff, hlinked.nodup_itemsOf,
    hlinked.children_ne_nil, ?_⟩
  · intro child place hplace
    exact (hasNode_putRecord ..).mpr (.inr (hlinked.hasNode_child hplace))
  · intro child place hplace
    exact (hasNode_putRecord ..).mpr (.inr (hlinked.hasNode_parent hplace))
  · intro other _
    have hpath : ∃ path, nodes.Climbs other path := by
      by_cases hother : nodes.hasNode other
      · exact hlinked.exists_climbs hother
      · exact ⟨_, .top (hlinked.parents_of_not_hasNode hother)⟩
    obtain ⟨path, hclimbs⟩ := hpath
    exact ⟨path, hclimbs.of_parents_eq fun _ _ => rfl⟩

/-- A node without a place stands in no list. -/
theorem child_ne_of_mem (hlinked : nodes.Linked) {node parent : NodeRef} {place : ChildAssociation}
    (hfree : nodes.parents[node]? = none) (hmem : place ∈ nodes.children.itemsOf parent) :
    place.child ≠ node := by
  rintro rfl
  have hplace := (hlinked.mem_itemsOf_iff.mp hmem).2
  rw [hfree] at hplace
  cases hplace

/-- When a node without a place is linked, both records of it are made, and those of all other nodes
are kept. -/
theorem mem_itemsOf_link_iff (hlinked : nodes.Linked) {assoc place : ChildAssociation}
    (hfree : nodes.parents[assoc.child]? = none) {parent : NodeRef} :
    place ∈ (nodes.link assoc).children.itemsOf parent ↔
      place.parent = parent ∧ (nodes.link assoc).parents[place.child]? = some place := by
  rw [itemsOf_link, parents_link]
  by_cases hsame : assoc.child = place.child
  · rw [if_pos hsame]
    constructor
    · intro hmem
      split at hmem
      · rename_i hparent
        rcases List.mem_append.mp hmem with hmem | hmem
        · exact absurd hsame.symm (hlinked.child_ne_of_mem hfree hmem)
        · obtain rfl := List.mem_singleton.mp hmem
          exact ⟨hparent, rfl⟩
      · exact absurd hsame.symm (hlinked.child_ne_of_mem hfree hmem)
    · intro hplaced
      obtain ⟨rfl, hplace⟩ := hplaced
      obtain rfl := Option.some.inj hplace
      simp
  · rw [if_neg hsame, ← hlinked.mem_itemsOf_iff]
    have hother : place ≠ assoc := fun hplace => hsame (by rw [hplace])
    split
    · simp [hother]
    · rfl

/-- A node without a place may be linked beneath a node outside its own tree. -/
theorem link (hlinked : nodes.Linked) {assoc : ChildAssociation}
    (hchild : nodes.hasNode assoc.child) (hparent : nodes.hasNode assoc.parent)
    (hfree : nodes.parents[assoc.child]? = none) (hout : ¬ nodes.Within assoc.child assoc.parent) :
    (nodes.link assoc).Linked := by
  have hplaces : ∀ {node : NodeRef} {place : ChildAssociation},
      (nodes.link assoc).parents[node]? = some place →
        node = assoc.child ∧ place = assoc ∨ nodes.parents[node]? = some place := by
    intro node place hplace
    rw [parents_link] at hplace
    split at hplace
    · rename_i hnode
      exact .inl ⟨hnode.symm, (Option.some.inj hplace).symm⟩
    · exact .inr hplace
  constructor
  · intro node place hplace
    rcases hplaces hplace with ⟨rfl, rfl⟩ | hplace
    · rfl
    · exact hlinked.place_child hplace
  · intro node place hplace
    rcases hplaces hplace with ⟨rfl, rfl⟩ | hplace
    · exact hchild
    · exact hlinked.hasNode_child hplace
  · intro node place hplace
    rcases hplaces hplace with ⟨rfl, rfl⟩ | hplace
    · exact hparent
    · exact hlinked.hasNode_parent hplace
  · exact hlinked.mem_itemsOf_link_iff hfree
  · intro parent
    rw [itemsOf_link]
    split
    · refine (hlinked.nodup_itemsOf parent).append (List.nodup_singleton assoc) ?_
      intro place hmem hlast
      obtain rfl := List.mem_singleton.mp hlast
      exact hlinked.child_ne_of_mem hfree hmem rfl
    · exact hlinked.nodup_itemsOf parent
  · exact NodeIndex.push_ne_nil hlinked.children_ne_nil assoc.parent assoc
  · intro node hnode
    obtain ⟨path, hclimbs⟩ := hlinked.exists_climbs hnode
    obtain ⟨above, habove⟩ := hlinked.exists_climbs hparent
    refine hclimbs.link hfree habove ?_
    intro hmem
    rcases List.mem_cons.mp hmem with hmem | hmem
    · exact hout (.inl hmem.symm)
    · exact hout (.inr ⟨above, habove, hmem⟩)

/-- When a node is unlinked, both records of it are gone, and those of all other nodes are kept. -/
theorem mem_itemsOf_unlink_iff (hlinked : nodes.Linked) {node : NodeRef}
    {place kept : ChildAssociation} (hplace : nodes.parents[node]? = some place)
    {parent : NodeRef} :
    kept ∈ (nodes.unlink place).children.itemsOf parent ↔
      kept.parent = parent ∧ (nodes.unlink place).parents[kept.child]? = some kept := by
  rw [itemsOf_unlink, parents_unlink]
  by_cases hsame : place.child = kept.child
  · rw [if_pos hsame]
    constructor
    · intro hmem
      split at hmem
      · simp [hsame] at hmem
      · rename_i hparent
        obtain ⟨rfl, hkept⟩ := hlinked.mem_itemsOf_iff.mp hmem
        rw [← hsame, hlinked.place_child hplace, hplace] at hkept
        exact absurd (by rw [Option.some.inj hkept]) hparent
    · intro hplaced
      obtain ⟨-, hkept⟩ := hplaced
      cases hkept
  · rw [if_neg hsame, ← hlinked.mem_itemsOf_iff]
    split
    · simp [Ne.symm hsame]
    · rfl

/-- A node may be taken away from its parent. -/
theorem unlink (hlinked : nodes.Linked) {node : NodeRef} {place : ChildAssociation}
    (hplace : nodes.parents[node]? = some place) : (nodes.unlink place).Linked := by
  have hplaces : ∀ {other : NodeRef} {kept : ChildAssociation},
      (nodes.unlink place).parents[other]? = some kept → nodes.parents[other]? = some kept := by
    intro other kept hkept
    rw [parents_unlink] at hkept
    split at hkept
    · cases hkept
    · exact hkept
  constructor
  · intro other kept hkept
    exact hlinked.place_child (hplaces hkept)
  · intro other kept hkept
    exact hlinked.hasNode_child (hplaces hkept)
  · intro other kept hkept
    exact hlinked.hasNode_parent (hplaces hkept)
  · exact hlinked.mem_itemsOf_unlink_iff hplace
  · intro parent
    rw [itemsOf_unlink]
    split
    · exact (hlinked.nodup_itemsOf parent).filter _
    · exact hlinked.nodup_itemsOf parent
  · exact NodeIndex.removeWhere_ne_nil hlinked.children_ne_nil place.parent _
  · intro other hother
    obtain ⟨path, hclimbs⟩ := hlinked.exists_climbs hother
    exact hclimbs.unlink

theorem detach (hlinked : nodes.Linked) (node : NodeRef) : (nodes.detach node).Linked := by
  unfold NodeStore.detach
  split
  · rename_i place hplace
    exact hlinked.unlink hplace
  · exact hlinked

/-- A node that was taken away from its parent has no place, and all others have their own. -/
theorem parents_detach (hlinked : nodes.Linked) (node other : NodeRef) :
    (nodes.detach node).parents[other]? =
      if node = other then none else nodes.parents[other]? := by
  unfold NodeStore.detach
  split
  · rename_i place hplace
    rw [parents_unlink, hlinked.place_child hplace]
  · rename_i hplace
    by_cases hnode : node = other
    · rw [if_pos hnode, ← hnode, hplace]
    · rw [if_neg hnode]

/-- When nodes are removed together that no place joins with others, both records of the others are
kept. -/
theorem mem_itemsOf_removeAll_iff (hlinked : nodes.Linked) {removed : List NodeRef}
    (hclosed : ∀ {node : NodeRef} {place : ChildAssociation},
      nodes.parents[node]? = some place → (place.parent ∈ removed ↔ node ∈ removed))
    {parent : NodeRef} {place : ChildAssociation} :
    place ∈ (removed.foldl removeNode nodes).children.itemsOf parent ↔
      place.parent = parent ∧
        (removed.foldl removeNode nodes).parents[place.child]? = some place := by
  rw [itemsOf_removeAll, parents_removeAll]
  constructor
  · intro hmem
    split at hmem
    · cases hmem
    · rename_i hkept
      obtain ⟨rfl, hplace⟩ := hlinked.mem_itemsOf_iff.mp hmem
      rw [hclosed hplace] at hkept
      exact ⟨rfl, by rw [if_neg hkept, hplace]⟩
  · intro hplaced
    obtain ⟨rfl, hplace⟩ := hplaced
    split at hplace
    · cases hplace
    · rename_i hkept
      rw [← hclosed hplace] at hkept
      rw [if_neg hkept]
      exact hlinked.mem_itemsOf_iff.mpr ⟨rfl, hplace⟩

/-- Nodes may be removed together if with each of them all its children are, and of the others
no child. -/
theorem removeAll (hlinked : nodes.Linked) {removed : List NodeRef}
    (hclosed : ∀ {node : NodeRef} {place : ChildAssociation},
      nodes.parents[node]? = some place → (place.parent ∈ removed ↔ node ∈ removed)) :
    (removed.foldl removeNode nodes).Linked := by
  have hplaces : ∀ {node : NodeRef} {place : ChildAssociation},
      (removed.foldl removeNode nodes).parents[node]? = some place →
        node ∉ removed ∧ nodes.parents[node]? = some place := by
    intro node place hplace
    rw [parents_removeAll] at hplace
    split at hplace
    · cases hplace
    · exact ⟨‹_›, hplace⟩
  constructor
  · intro node place hplace
    exact hlinked.place_child (hplaces hplace).2
  · intro node place hplace
    obtain ⟨hkept, hplace⟩ := hplaces hplace
    exact (hasNode_removeAll ..).mpr ⟨hkept, hlinked.hasNode_child hplace⟩
  · intro node place hplace
    obtain ⟨hkept, hplace⟩ := hplaces hplace
    refine (hasNode_removeAll ..).mpr ⟨?_, hlinked.hasNode_parent hplace⟩
    rwa [hclosed hplace]
  · exact hlinked.mem_itemsOf_removeAll_iff hclosed
  · intro parent
    rw [itemsOf_removeAll]
    split
    · exact List.nodup_nil
    · exact hlinked.nodup_itemsOf parent
  · intro parent
    rw [children_removeAll]
    split
    · simp
    · exact hlinked.children_ne_nil parent
  · intro node hnode
    obtain ⟨hkept, hnode⟩ := (hasNode_removeAll ..).mp hnode
    obtain ⟨path, hclimbs⟩ := hlinked.exists_climbs hnode
    exact ⟨path, hclimbs.removeAll hclosed hkept⟩

end Linked

end ContentRules.NodeStore
