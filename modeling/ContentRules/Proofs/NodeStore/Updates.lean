import ContentRules.NodeStore.Change

/-!
# Single updates

A change of the nodes is put together from a few updates: a record is put, a child is linked or
unlinked, nodes are removed.  For each of them, one lemma for each map that it touches says what can
be looked up afterwards.
-/

namespace ContentRules

/-! ## Lists that are not empty -/

namespace NodeIndex

variable {α : Type} {index : NodeIndex α}

theorem push_ne_nil (hindex : ∀ other : NodeRef, index[other]? ≠ some []) (node : NodeRef)
    (item : α)
    (other : NodeRef) : (index.push node item)[other]? ≠ some [] := by
  rw [push, Std.ExtTreeMap.getElem?_insert]
  split
  · simp
  · exact hindex other

theorem removeWhere_ne_nil (hindex : ∀ other : NodeRef, index[other]? ≠ some []) (node : NodeRef)
    (dropped : α → Bool) (other : NodeRef) :
    (index.removeWhere node dropped)[other]? ≠ some [] := by
  unfold removeWhere
  split
  · exact hindex other
  · split
    · rw [Std.ExtTreeMap.getElem?_erase]
      split
      · simp
      · exact hindex other
    · rename_i hkept
      rw [Std.ExtTreeMap.getElem?_insert]
      split
      · intro hempty
        exact hkept (Option.some.inj hempty)
      · exact hindex other

end NodeIndex

namespace NodeStore

variable {nodes : NodeStore}

/-! ## Single updates -/

section Updates

variable (nodes : NodeStore)

theorem hasNode_putRecord (node other : NodeRef) (record : NodeRecord) :
    (nodes.putRecord node record).hasNode other ↔ node = other ∨ nodes.hasNode other := by
  simp [hasNode, putRecord]

theorem parents_link (assoc : ChildAssociation) (node : NodeRef) :
    (nodes.link assoc).parents[node]? =
      if assoc.child = node then some assoc else nodes.parents[node]? := by
  simp [link, Std.ExtTreeMap.getElem?_insert]

theorem itemsOf_link (assoc : ChildAssociation) (parent : NodeRef) :
    (nodes.link assoc).children.itemsOf parent =
      if assoc.parent = parent then nodes.children.itemsOf parent ++ [assoc]
      else nodes.children.itemsOf parent :=
  nodes.children.itemsOf_push assoc.parent parent assoc

theorem parents_unlink (assoc : ChildAssociation) (node : NodeRef) :
    (nodes.unlink assoc).parents[node]? =
      if assoc.child = node then none else nodes.parents[node]? := by
  simp [unlink, Std.ExtTreeMap.getElem?_erase]

theorem itemsOf_unlink (assoc : ChildAssociation) (parent : NodeRef) :
    (nodes.unlink assoc).children.itemsOf parent =
      if assoc.parent = parent then
        (nodes.children.itemsOf parent).filter fun other => !(other.child = assoc.child : Bool)
      else nodes.children.itemsOf parent :=
  nodes.children.itemsOf_removeWhere assoc.parent parent _

@[simp] theorem records_detach (node : NodeRef) : (nodes.detach node).records = nodes.records := by
  unfold detach
  split <;> rfl

@[simp] theorem roots_detach (node : NodeRef) : (nodes.detach node).roots = nodes.roots := by
  unfold detach
  split <;> rfl

@[simp] theorem hasNode_detach (node other : NodeRef) :
    (nodes.detach node).hasNode other = nodes.hasNode other := by
  simp [hasNode]

/-! ## Removing a number of nodes -/

variable (removed : List NodeRef)

@[simp] theorem roots_removeAll : (removed.foldl removeNode nodes).roots = nodes.roots := by
  induction removed generalizing nodes with
  | nil => rfl
  | cons node removed ih => exact ih (nodes.removeNode node)

/-- What is looked up after nodes were removed, if each removal takes one node out. -/
private theorem lookUp_removeAll {α : Type} (lookUp : NodeStore → NodeRef → Option α)
    (hremove : ∀ (nodes : NodeStore) (first node : NodeRef),
      lookUp (nodes.removeNode first) node = if first = node then none else lookUp nodes node)
    (node : NodeRef) :
    lookUp (removed.foldl removeNode nodes) node =
      if node ∈ removed then none else lookUp nodes node := by
  induction removed generalizing nodes with
  | nil => simp
  | cons first removed ih =>
      rw [List.foldl_cons, ih (nodes.removeNode first), hremove]
      by_cases hfirst : first = node
      · simp [hfirst]
      · simp [hfirst, Ne.symm hfirst]

theorem records_removeAll (node : NodeRef) :
    (removed.foldl removeNode nodes).records[node]? =
      if node ∈ removed then none else nodes.records[node]? :=
  lookUp_removeAll nodes removed (fun nodes node => nodes.records[node]?)
    (by simp [removeNode, Std.ExtTreeMap.getElem?_erase]) node

theorem parents_removeAll (node : NodeRef) :
    (removed.foldl removeNode nodes).parents[node]? =
      if node ∈ removed then none else nodes.parents[node]? :=
  lookUp_removeAll nodes removed (fun nodes node => nodes.parents[node]?)
    (by simp [removeNode, Std.ExtTreeMap.getElem?_erase]) node

theorem children_removeAll (parent : NodeRef) :
    (removed.foldl removeNode nodes).children[parent]? =
      if parent ∈ removed then none else nodes.children[parent]? :=
  lookUp_removeAll nodes removed (fun nodes parent => nodes.children[parent]?)
    (by simp [removeNode, Std.ExtTreeMap.getElem?_erase]) parent

theorem hasNode_removeAll (node : NodeRef) :
    (removed.foldl removeNode nodes).hasNode node ↔ node ∉ removed ∧ nodes.hasNode node := by
  unfold hasNode
  rw [Std.ExtTreeMap.contains_eq_isSome_getElem?, Std.ExtTreeMap.contains_eq_isSome_getElem?,
    records_removeAll]
  by_cases hnode : node ∈ removed <;> simp [hnode]

theorem itemsOf_removeAll (parent : NodeRef) :
    (removed.foldl removeNode nodes).children.itemsOf parent =
      if parent ∈ removed then [] else nodes.children.itemsOf parent := by
  rw [NodeIndex.itemsOf_eq, NodeIndex.itemsOf_eq, children_removeAll]
  by_cases hparent : parent ∈ removed <;> simp [hparent]

end Updates

end NodeStore

end ContentRules
