import ContentRules.Reference.Basic

/-!
# Lists of items by node

An index keeps for each node a list of items in the order in which they were added.  No list in it
is empty: a node whose last item goes is dropped.
-/

namespace ContentRules

/-- Items by node, in the order in which they were added. -/
abbrev NodeIndex (α : Type) := Std.ExtTreeMap NodeRef (List α)

namespace NodeIndex

variable {α : Type}

/-- The items of a node, none if it has no list. -/
def itemsOf (index : NodeIndex α) (node : NodeRef) : List α :=
  index.getD node []

/-- Appends an item to the list of a node. -/
def push (index : NodeIndex α) (node : NodeRef) (item : α) : NodeIndex α :=
  index.insert node (index.itemsOf node ++ [item])

/-- Removes the items of a node for which `dropped` holds. -/
def removeWhere (index : NodeIndex α) (node : NodeRef) (dropped : α → Bool) : NodeIndex α :=
  match index[node]? with
  | none => index
  | some items =>
    match items.filter fun item => !dropped item with
    | [] => index.erase node
    | kept => index.insert node kept

/-! ## Lists after a change -/

theorem itemsOf_eq (index : NodeIndex α) (node : NodeRef) :
    index.itemsOf node = index[node]?.getD [] := by
  simp [itemsOf, Std.ExtTreeMap.getD_eq_getD_getElem?]

@[simp] theorem itemsOf_empty (node : NodeRef) : (∅ : NodeIndex α).itemsOf node = [] := by
  simp [itemsOf_eq]

theorem itemsOf_push (index : NodeIndex α) (node other : NodeRef) (item : α) :
    (index.push node item).itemsOf other =
      if node = other then index.itemsOf other ++ [item] else index.itemsOf other := by
  rw [itemsOf_eq, push, Std.ExtTreeMap.getElem?_insert]
  by_cases h : node = other
  · simp [h]
  · simp [h, itemsOf_eq]

theorem itemsOf_erase (index : NodeIndex α) (node other : NodeRef) :
    itemsOf (index.erase node) other = if node = other then [] else index.itemsOf other := by
  rw [itemsOf_eq, Std.ExtTreeMap.getElem?_erase]
  by_cases h : node = other
  · simp [h]
  · simp [h, itemsOf_eq]

theorem itemsOf_removeWhere (index : NodeIndex α) (node other : NodeRef) (dropped : α → Bool) :
    (index.removeWhere node dropped).itemsOf other =
      if node = other then (index.itemsOf other).filter (fun item => !dropped item)
      else index.itemsOf other := by
  unfold removeWhere
  split
  · rename_i habsent
    by_cases h : node = other
    · subst h
      simp [itemsOf_eq, habsent]
    · simp [h]
  · rename_i items hpresent
    split
    · rename_i hempty
      rw [itemsOf_erase]
      by_cases h : node = other
      · subst h
        simp [itemsOf_eq, hpresent, hempty]
      · simp [h]
    · rename_i kept hkept
      rw [itemsOf_eq, Std.ExtTreeMap.getElem?_insert]
      by_cases h : node = other
      · subst h
        simp [itemsOf_eq, hpresent]
      · simp [h, itemsOf_eq]

end NodeIndex

end ContentRules
