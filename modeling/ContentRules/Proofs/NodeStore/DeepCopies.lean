import ContentRules.Proofs.NodeStore.CopyPlans
import ContentRules.Proofs.NodeStore.Peers

/-!
# What a deep copy is

Copying a node with all that is beneath it makes a second tree of the same shape.  `DeepCopy`
compares the store with the one before: which nodes are new, what they hold and where they stand,
and that nothing else has changed but the list of children of one node.

**Strategy.**  The copies are known before the first is made: the copy of a node has the id that is
drawn at the position of the node in the preorder (`plannedCopy`), and its place is that of the
node, read with copies (`copyPlan`).  The plan fits the tree (`fits_copyPlan`), so what copying
leaves is the plan carried out (`Sound.copied`).  Then `DeepCopy` is read off, map by map.
-/

namespace ContentRules

namespace StoreState

/-! ## The plan -/

/-- The copy of a node of the tree to be copied. -/
def plannedCopy (state : StoreState) (source parent node : NodeRef) : NodeRef :=
  ⟨parent.store, state.ids.idAt (state.ids.drawn + (state.nodes.preorder source).idxOf node)⟩

/-- The plan for copying a tree beneath a parent. -/
def copyPlan (state : StoreState) (source parent : NodeRef) (relation name : QualifiedName) :
    CopyPlan where
  place node :=
    match state.nodes.parents[node]? with
    | some place =>
      if node = source then ⟨relation, parent, name, state.plannedCopy source parent node⟩
      else ⟨place.relation, state.plannedCopy source parent place.parent, place.name,
        state.plannedCopy source parent node⟩
    | none => ⟨relation, parent, name, state.plannedCopy source parent node⟩
  record node :=
    (state.nodes.records[node]?.getD { nodeType := Vocabulary.storeRootType }).copiedFrom node

section Plan

variable {state : StoreState} {source parent node : NodeRef} {relation name : QualifiedName}

@[simp] theorem copyOf_copyPlan :
    (state.copyPlan source parent relation name).copyOf node =
      state.plannedCopy source parent node := by
  simp only [CopyPlan.copyOf, copyPlan]
  split
  · split <;> rfl
  · rfl

theorem map_copyOf_copyPlan (list : List NodeRef) :
    list.map (state.copyPlan source parent relation name).copyOf =
      list.map (state.plannedCopy source parent) :=
  List.map_congr_left fun _ _ => copyOf_copyPlan

theorem place_copyPlan_source :
    (state.copyPlan source parent relation name).place source =
      ⟨relation, parent, name, state.plannedCopy source parent source⟩ := by
  simp only [copyPlan, if_true]
  split <;> rfl

theorem place_copyPlan {place : ChildAssociation} (hne : node ≠ source)
    (hplace : state.nodes.parents[node]? = some place) :
    (state.copyPlan source parent relation name).place node =
      ⟨place.relation, state.plannedCopy source parent place.parent, place.name,
        state.plannedCopy source parent node⟩ := by
  simp only [copyPlan, hplace, if_neg hne]

/-- The copies are the next nodes, in preorder. -/
theorem map_plannedCopy (hsound : state.Sound) :
    (state.nodes.preorder source).map (state.plannedCopy source parent) =
      state.ids.upcoming parent.store (state.nodes.preorder source).length := by
  refine List.ext_getElem (by simp) fun position hposition _ => ?_
  have hindex := hsound.wellFormed.nodup_preorder.idxOf_getElem position
    (by simpa using hposition)
  simp [plannedCopy, IdSupply.upcoming, hindex]

/-- No two of the copies are one node. -/
theorem nodup_plannedCopy (hsound : state.Sound) :
    ((state.nodes.preorder source).map (state.plannedCopy source parent)).Nodup := by
  rw [map_plannedCopy hsound]
  exact state.ids.nodup_upcoming ..

/-- Copies are new nodes. -/
theorem not_hasNode_plannedCopy (hsound : state.Sound) :
    ¬ state.nodes.hasNode (state.plannedCopy source parent node) := by
  intro hexists
  obtain ⟨number, hnumber, hid⟩ := hsound.hasDrawn hexists
  have hsame := state.ids.fresh hid
  omega

theorem fits_copyPlan (hsound : state.Sound) (hsource : state.nodes.hasNode source)
    (hout : ¬ state.nodes.Within source parent) :
    (state.copyPlan source parent relation name).Fits state.nodes source := by
  have hlinked := hsound.wellFormed.toLinked
  have hnew : ∀ node, ¬ state.nodes.Within source (state.plannedCopy source parent node) := by
    intro node hwithin
    exact not_hasNode_plannedCopy hsound (hlinked.hasNode_of_within hsource hwithin)
  refine ⟨?_, ?_, ?_⟩
  · intro node record _ hrecord
    simp only [copyPlan, hrecord, Option.getD_some]
  · intro node entry hwithin hentry
    obtain ⟨rfl, hplace⟩ := hlinked.mem_itemsOf_iff.mp hentry
    -- The source does not stand beneath a node of its own tree.
    have hne : entry.child ≠ source := by
      intro hsame
      rw [hsame] at hplace
      exact hlinked.not_within_parent hplace hwithin
    rw [place_copyPlan hne hplace, copyOf_copyPlan, copyOf_copyPlan]
  · intro node _
    rw [copyOf_copyPlan]
    refine ⟨hnew node, ?_⟩
    simp only [copyPlan]
    split
    · split
      · exact hout
      · exact hnew _
    · exact hout

/-- What copying a tree leaves. -/
def afterCopy (state : StoreState) (source parent : NodeRef) (relation name : QualifiedName) :
    StoreState :=
  (state.copyPlan source parent relation name).carryOut state (state.nodes.preorder source)

/-- Copying a tree is carrying out the plan. -/
theorem Sound.copied (hsound : state.Sound) (hsource : state.nodes.hasNode source)
    (hparent : state.nodes.hasNode parent) (hout : ¬ state.nodes.Within source parent)
    (relation name : QualifiedName) :
    (Change.copyNode source parent relation name true).outcome state =
      (.ok (state.plannedCopy source parent source),
        state.afterCopy source parent relation name) := by
  have hlinked := hsound.wellFormed.toLinked
  have hmay : Change.MayCopy state source parent true := ⟨hsource, hparent, fun _ => hout⟩
  obtain ⟨copy, _, after, houtcome, -⟩ := Change.outcome_copyNode hsound hmay relation name
  obtain ⟨path, hclimbs⟩ := hlinked.exists_climbs hsource
  have hfits : (state.copyPlan source parent relation name).Fits state.nodes source :=
    fits_copyPlan hsound hsource hout
  have hforesees := hfits.foresees hlinked hsource (.inl rfl) hclimbs (Nat.le_add_left ..)
  rw [CopyPlan.Foresees, place_copyPlan_source] at hforesees
  have hids : (state.nodes.preorder source).map
      (state.copyPlan source parent relation name).copyOf =
        state.ids.upcoming parent.store (state.nodes.preorder source).length :=
    (map_copyOf_copyPlan _).trans (map_plannedCopy hsound)
  have hlevels : (Change.copyLevels state.nodes.size source parent relation name).outcome state =
      (.ok copy, after) := by
    simpa [Change.copyNode, Change.outcome_bind] using houtcome
  obtain ⟨rfl, rfl⟩ := hforesees (fun _ _ => ⟨rfl, rfl⟩) hids hlevels
  rw [houtcome, copyOf_copyPlan, afterCopy]

end Plan

/-! ## The copied tree -/

/-- A tree was copied beneath a parent: the state after that, compared with the state before.  The
nodes of the tree are taken in preorder; `copyOf` says which node is the copy of each, and `placeOf`
where it stands. -/
structure DeepCopy (before after : StoreState) (source parent : NodeRef)
    (relation name : QualifiedName) (copyOf : NodeRef → NodeRef)
    (placeOf : NodeRef → ChildAssociation) : Prop where
  nodup : (before.nodes.preorder source).Nodup
  mem_iff : ∀ node, node ∈ before.nodes.preorder source ↔ before.nodes.Within source node
  /-- The copies are the next nodes, in preorder, and none of them is there yet. -/
  copies : (before.nodes.preorder source).map copyOf =
    before.ids.upcoming parent.store (before.nodes.preorder source).length
  nodup_copies : ((before.nodes.preorder source).map copyOf).Nodup
  new : ∀ node ∈ before.nodes.preorder source, ¬ before.nodes.hasNode (copyOf node)
  ids : after.ids = before.ids.skip (before.nodes.preorder source).length
  hasNode_iff : ∀ node, after.nodes.hasNode node ↔
    before.nodes.hasNode node ∨ node ∈ (before.nodes.preorder source).map copyOf
  records : ∀ node ∈ before.nodes.preorder source, ∃ record,
    before.nodes.records[node]? = some record ∧
      after.nodes.records[copyOf node]? = some (record.copiedFrom node)
  parents : ∀ node ∈ before.nodes.preorder source,
    after.nodes.parents[copyOf node]? = some (placeOf node)
  place_top : placeOf source = ⟨relation, parent, name, copyOf source⟩
  place_beneath : ∀ node ∈ before.nodes.preorder source, node ≠ source →
    ∃ place, before.nodes.parents[node]? = some place ∧
      placeOf node = ⟨place.relation, copyOf place.parent, place.name, copyOf node⟩
  children : ∀ node ∈ before.nodes.preorder source,
    after.nodes.children.itemsOf (copyOf node) =
      (before.nodes.children.itemsOf node).map fun entry =>
        ⟨entry.relation, copyOf node, entry.name, copyOf entry.child⟩
  /-- The copy of the top comes last beneath the parent. -/
  children_parent : after.nodes.children.itemsOf parent =
    before.nodes.children.itemsOf parent ++ [placeOf source]
  events : after.nodes.events = before.nodes.events ++
    (before.nodes.preorder source).map fun node => .copied node (placeOf node)
  /-- What was there stays as it was. -/
  kept : ∀ node, before.nodes.hasNode node →
    after.nodes.records[node]? = before.nodes.records[node]? ∧
      after.nodes.parents[node]? = before.nodes.parents[node]? ∧
      (node ≠ parent → after.nodes.children.itemsOf node = before.nodes.children.itemsOf node)
  roots : after.nodes.roots = before.nodes.roots
  targets : after.nodes.targets = before.nodes.targets
  sources : after.nodes.sources = before.nodes.sources

section Copied

variable {state : StoreState} {source parent node other : NodeRef} {relation name : QualifiedName}

/-- The copies of two nodes of the tree are two nodes. -/
theorem plannedCopy_inj (hsound : state.Sound) (hsource : state.nodes.hasNode source)
    (hnode : state.nodes.Within source node) (hother : state.nodes.Within source other)
    (hsame : state.plannedCopy source parent node = state.plannedCopy source parent other) :
    node = other := by
  have hmem {node : NodeRef} :
      node ∈ state.nodes.preorder source ↔ state.nodes.Within source node :=
    hsound.wellFormed.toLinked.mem_preorder_iff hsource
  exact List.inj_on_of_nodup_map (nodup_plannedCopy hsound) (hmem.mpr hnode) (hmem.mpr hother) hsame

/-- The copy of a node stands beneath the copy of another one if the node stands beneath that. -/
theorem parent_place_eq_copy_iff (hsound : state.Sound) (hsource : state.nodes.hasNode source)
    (hparent : state.nodes.hasNode parent) (hnode : state.nodes.Within source node)
    (hother : state.nodes.Within source other) :
    ((state.copyPlan source parent relation name).place other).parent =
        state.plannedCopy source parent node ↔
      other ∈ (state.nodes.children.itemsOf node).map ChildAssociation.child := by
  have hlinked := hsound.wellFormed.toLinked
  rw [hlinked.mem_map_child_iff]
  by_cases hne : other = source
  · subst hne
    rw [place_copyPlan_source]
    refine iff_of_false ?_ ?_
    · intro hsame
      have hnew : ¬ state.nodes.hasNode (state.plannedCopy other parent node) :=
        not_hasNode_plannedCopy hsound
      rw [← hsame] at hnew
      exact hnew hparent
    · rintro ⟨place, hplace, rfl⟩
      exact hlinked.not_within_parent hplace hnode
  · obtain ⟨place, hplace, hwithin⟩ := hother.exists_place hne
    rw [place_copyPlan hne hplace]
    constructor
    · intro hsame
      exact ⟨place, hplace, plannedCopy_inj hsound hsource hwithin hnode hsame⟩
    · rintro ⟨found, hfound, rfl⟩
      rw [Option.some.inj (hplace.symm.trans hfound)]

/-- Of the nodes that were there only the given parent gets a child, the copy of the top. -/
theorem parent_place_eq_iff (hsound : state.Sound) (hnode : state.nodes.hasNode node)
    (hother : state.nodes.Within source other) :
    ((state.copyPlan source parent relation name).place other).parent = node ↔
      other = source ∧ node = parent := by
  by_cases hne : other = source
  · subst hne
    rw [place_copyPlan_source, eq_comm]
    exact ⟨fun hsame => ⟨rfl, hsame⟩, And.right⟩
  · obtain ⟨place, hplace, -⟩ := hother.exists_place hne
    rw [place_copyPlan hne hplace]
    refine iff_of_false ?_ fun htop => hne htop.1
    rintro rfl
    exact not_hasNode_plannedCopy hsound hnode

/-- The children of a copy are the copies of the children, in their order. -/
theorem planned_children (hsound : state.Sound) (hsource : state.nodes.hasNode source)
    (hparent : state.nodes.hasNode parent) (hout : ¬ state.nodes.Within source parent)
    (hnode : state.nodes.Within source node) :
    ((state.nodes.preorder source).map (state.copyPlan source parent relation name).place).filter
        (fun place => place.parent = state.plannedCopy source parent node) =
      (state.nodes.children.itemsOf node).map fun entry =>
        ⟨entry.relation, state.plannedCopy source parent node, entry.name,
          state.plannedCopy source parent entry.child⟩ := by
  have hlinked := hsound.wellFormed.toLinked
  have hfits : (state.copyPlan source parent relation name).Fits state.nodes source :=
    fits_copyPlan hsound hsource hout
  set place := (state.copyPlan source parent relation name).place with hplaces
  have hchildren : ∀ other ∈ state.nodes.preorder source,
      decide ((place other).parent = state.plannedCopy source parent node) =
        decide (other ∈ (state.nodes.children.itemsOf node).map ChildAssociation.child) := by
    intro other hother
    rw [hlinked.mem_preorder_iff hsource] at hother
    exact decide_eq_decide.mpr (parent_place_eq_copy_iff hsound hsource hparent hnode hother)
  calc _ = ((state.nodes.preorder source).filter fun other =>
        (place other).parent = state.plannedCopy source parent node).map place := List.filter_map
    _ = ((state.nodes.children.itemsOf node).map ChildAssociation.child).map place := by
      rw [List.filter_congr hchildren, hlinked.filter_preorder hsource hnode]
    _ = _ := by
      rw [List.map_map]
      refine List.map_congr_left fun entry hentry => (hfits.place hnode hentry).trans ?_
      simp

theorem planned_children_of_hasNode (hsound : state.Sound) (hsource : state.nodes.hasNode source)
    (hnode : state.nodes.hasNode node) :
    ((state.nodes.preorder source).map (state.copyPlan source parent relation name).place).filter
        (fun place => place.parent = node) =
      if node = parent then [(state.copyPlan source parent relation name).place source]
      else [] := by
  have hlinked := hsound.wellFormed.toLinked
  have hparents : ∀ other ∈ state.nodes.preorder source,
      ((state.copyPlan source parent relation name).place other).parent = node ↔
        other = source ∧ node = parent := by
    intro other hother
    rw [hlinked.mem_preorder_iff hsource] at hother
    exact parent_place_eq_iff hsound hnode hother
  have hnodup : (state.nodes.preorder source).Nodup := hlinked.nodup_preorder
  rw [hlinked.preorder_eq hsource] at hparents hnodup ⊢
  set beneath := (state.nodes.children.itemsOf source).flatMap fun entry =>
    state.nodes.preorder entry.child
  obtain ⟨htop, hbeneath⟩ := List.forall_mem_cons.mp hparents
  have hrest : (beneath.map (state.copyPlan source parent relation name).place).filter
      (fun place => place.parent = node) = [] := by
    refine List.filter_eq_nil_iff.mpr (List.forall_mem_map.mpr fun other hother => ?_)
    rw [decide_eq_true_iff]
    intro hsame
    rw [((hbeneath other hother).mp hsame).1] at hother
    exact (List.nodup_cons.mp hnodup).1 hother
  rw [List.map_cons, List.filter_cons, hrest]
  simp only [decide_eq_true_iff, htop, true_and]

/-! ### What copying leaves -/

theorem not_mem_copies (hsound : state.Sound) (hnode : state.nodes.hasNode node)
    (list : List NodeRef) :
    node ∉ list.map (state.copyPlan source parent relation name).copyOf := by
  intro hcopy
  rw [map_copyOf_copyPlan] at hcopy
  obtain ⟨other, -, rfl⟩ := List.mem_map.mp hcopy
  exact not_hasNode_plannedCopy hsound hnode

theorem records_afterCopy (hsound : state.Sound) (hsource : state.nodes.hasNode source)
    (hout : ¬ state.nodes.Within source parent) (hnode : node ∈ state.nodes.preorder source) :
    ∃ record, state.nodes.records[node]? = some record ∧
      (state.afterCopy source parent relation name).nodes.records[
        state.plannedCopy source parent node]? = some (record.copiedFrom node) := by
  have hlinked := hsound.wellFormed.toLinked
  have hfits : (state.copyPlan source parent relation name).Fits state.nodes source :=
    fits_copyPlan hsound hsource hout
  have hwithin := (hlinked.mem_preorder_iff hsource).mp hnode
  obtain ⟨record, hrecord⟩ :=
    NodeStore.hasNode_iff_recordOf.mp (hlinked.hasNode_of_within hsource hwithin)
  have hfound := NodeStore.getElem?_of_recordOf hrecord
  refine ⟨record, hfound, ?_⟩
  rw [← hfits.record hwithin hfound, ← copyOf_copyPlan]
  refine CopyPlan.records_carryOut_copyOf _ state _ ?_ hnode
  rw [map_copyOf_copyPlan]
  exact nodup_plannedCopy hsound

theorem hasNode_afterCopy_iff (hsound : state.Sound) (hsource : state.nodes.hasNode source)
    (hout : ¬ state.nodes.Within source parent) :
    (state.afterCopy source parent relation name).nodes.hasNode node ↔
      state.nodes.hasNode node ∨
        node ∈ (state.nodes.preorder source).map (state.plannedCopy source parent) := by
  unfold NodeStore.hasNode
  rw [Std.ExtTreeMap.contains_eq_isSome_getElem?, Std.ExtTreeMap.contains_eq_isSome_getElem?]
  by_cases hcopy : node ∈ (state.nodes.preorder source).map (state.plannedCopy source parent)
  · refine iff_of_true ?_ (.inr hcopy)
    obtain ⟨other, hother, rfl⟩ := List.mem_map.mp hcopy
    obtain ⟨record, -, hrecord⟩ := records_afterCopy hsound hsource hout hother
    rw [hrecord, Option.isSome_some]
  · rw [afterCopy, CopyPlan.records_carryOut_of_not_mem _ state _ (by rwa [map_copyOf_copyPlan])]
    exact (or_iff_left hcopy).symm

/-- Of the nodes that were there the given parent gets the copy of the top, and no other gets a
child. -/
theorem itemsOf_afterCopy (hsound : state.Sound) (hsource : state.nodes.hasNode source)
    (hnode : state.nodes.hasNode node) :
    (state.afterCopy source parent relation name).nodes.children.itemsOf node =
      state.nodes.children.itemsOf node ++
        if node = parent then [(state.copyPlan source parent relation name).place source]
        else [] := by
  rw [afterCopy, CopyPlan.itemsOf_carryOut, planned_children_of_hasNode hsound hsource hnode]

theorem Sound.deepCopy_afterCopy (hsound : state.Sound) (hsource : state.nodes.hasNode source)
    (hparent : state.nodes.hasNode parent) (hout : ¬ state.nodes.Within source parent)
    (relation name : QualifiedName) :
    state.DeepCopy (state.afterCopy source parent relation name) source parent relation name
      (state.plannedCopy source parent) (state.copyPlan source parent relation name).place where
  nodup := hsound.wellFormed.nodup_preorder
  mem_iff _ := hsound.wellFormed.mem_preorder_iff hsource
  copies := map_plannedCopy hsound
  nodup_copies := nodup_plannedCopy hsound
  new _ _ := not_hasNode_plannedCopy hsound
  ids := by rw [afterCopy, CopyPlan.ids_carryOut]
  hasNode_iff _ := hasNode_afterCopy_iff hsound hsource hout
  records _ hnode := records_afterCopy hsound hsource hout hnode
  parents node hnode := by
    rw [← copyOf_copyPlan]
    refine CopyPlan.parents_carryOut_copyOf _ state _ ?_ hnode
    rw [map_copyOf_copyPlan]
    exact nodup_plannedCopy hsound
  place_top := place_copyPlan_source
  place_beneath node hnode hne := by
    have hwithin := (hsound.wellFormed.mem_preorder_iff hsource).mp hnode
    obtain ⟨place, hplace, -⟩ := hwithin.exists_place hne
    exact ⟨place, hplace, place_copyPlan hne hplace⟩
  children node hnode := by
    -- Nothing stood beneath the copy before.
    rw [afterCopy, CopyPlan.itemsOf_carryOut,
      hsound.wellFormed.itemsOf_eq_nil (not_hasNode_plannedCopy hsound), List.nil_append]
    exact planned_children hsound hsource hparent hout
      ((hsound.wellFormed.mem_preorder_iff hsource).mp hnode)
  children_parent := by rw [itemsOf_afterCopy hsound hsource hparent, if_pos rfl]
  events := CopyPlan.events_carryOut _ state _
  kept node hnode := by
    have hold : node ∉ (state.nodes.preorder source).map
        (state.copyPlan source parent relation name).copyOf := not_mem_copies hsound hnode _
    refine ⟨CopyPlan.records_carryOut_of_not_mem _ state _ hold,
      CopyPlan.parents_carryOut_of_not_mem _ state _ hold, fun hother => ?_⟩
    rw [itemsOf_afterCopy hsound hsource hnode, if_neg hother, List.append_nil]
  roots := CopyPlan.roots_carryOut _ state _
  targets := CopyPlan.targets_carryOut _ state _
  sources := CopyPlan.sources_carryOut _ state _

end Copied

/-! ## Reachable states -/

/-- **A deep copy is a second tree of the same shape.**  Whatever edits went before, a node may be
copied with all that is beneath it if the parent of the copy exists and lies outside the tree.  Each
node of the tree gets one copy then, a new node; ids are drawn and events are recorded in preorder.
A copy has the type, the aspects and the properties of its source, is marked as a copy and refers to
its source, and stands beneath the copy of the parent, by the same relation and name and in the same
order.  Only the copy of the top stands elsewhere, last beneath the parent that was given.  No peer
association is made, and nothing that was there changes but the children of that parent. -/
theorem copied_of_reachable {state : StoreState} (hreachable : state.Reachable)
    {source parent : NodeRef} (hsource : state.nodes.hasNode source)
    (hparent : state.nodes.hasNode parent) (hout : ¬ state.nodes.Within source parent)
    (relation name : QualifiedName) :
    ∃ copyOf placeOf after,
      (Edit.copyNode source parent relation name true).run state = (.ok (copyOf source), after) ∧
        state.DeepCopy after source parent relation name copyOf placeOf := by
  have hsound := hreachable.sound
  exact ⟨state.plannedCopy source parent, _, _,
    hsound.copied hsource hparent hout relation name,
    hsound.deepCopy_afterCopy hsource hparent hout relation name⟩

/-- Of the nodes in `joined` the upper one is copied beneath the node outside, with the one beneath
it.  The two copies have the same names, and no associations. -/
theorem copied_joined :
    let node (id : String) : NodeRef := ⟨⟨"workspace", "main"⟩, id⟩
    let name : QualifiedName := { space := "model", localName := "contains" }
    joined.Reachable ∧ joined.nodes.hasNode (node "u2") ∧ joined.nodes.hasNode (node "u4") ∧
      ¬ joined.nodes.Within (node "u2") (node "u4") ∧
      ∃ copyOf placeOf after,
        (Edit.copyNode (node "u2") (node "u4") name name true).run joined =
          (.ok (copyOf (node "u2")), after) ∧
        joined.DeepCopy after (node "u2") (node "u4") name name copyOf placeOf ∧
        joined.nodes.preorder (node "u2") = [node "u2", node "u3"] ∧
        copyOf (node "u2") = node "u5" ∧ copyOf (node "u3") = node "u6" ∧
        after.nodes.children.itemsOf (node "u5") = [⟨name, node "u5", name, node "u6"⟩] := by
  intro node name
  have hreachable : joined.Reachable := (Reachable.empty _).edits _
  have hnodes : joined.nodes.hasNode (node "u2") ∧ joined.nodes.hasNode (node "u4") ∧
      node "u2" ∉ node "u4" :: joined.nodes.climb joined.nodes.size (node "u4") := by
    decide +kernel
  obtain ⟨hsource, hparent, hout⟩ := hnodes
  have houtside : ¬ joined.nodes.Within (node "u2") (node "u4") := by
    rw [hreachable.sound.wellFormed.within_iff_mem_climb hparent]
    simpa [eq_comm] using hout
  obtain ⟨copyOf, placeOf, after, hcopied, hcopy⟩ :=
    copied_of_reachable hreachable hsource hparent houtside name name
  have horder : joined.nodes.preorder (node "u2") = [node "u2", node "u3"] := by decide +kernel
  have hids : joined.ids.upcoming (node "u4").store 2 = [node "u5", node "u6"] := by decide +kernel
  have hchildren : joined.nodes.children.itemsOf (node "u2") =
      [⟨name, node "u2", name, node "u3"⟩] := by decide +kernel
  have hcopies := hcopy.copies
  rw [horder] at hcopies
  obtain ⟨hfirst, hrest⟩ := List.cons.inj (hcopies.trans hids)
  obtain ⟨hsecond, -⟩ := List.cons.inj hrest
  have hbeneath := hcopy.children (node "u2") (by simp [horder])
  rw [hchildren, hfirst] at hbeneath
  refine ⟨hreachable, hsource, hparent, houtside, copyOf, placeOf, after, hcopied, hcopy, horder,
    hfirst, hsecond, ?_⟩
  rw [hbeneath, List.map_singleton, hsecond]

end StoreState

end ContentRules
