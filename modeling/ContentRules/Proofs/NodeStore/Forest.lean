import Mathlib.Order.Defs.PartialOrder
import ContentRules.Proofs.NodeStore.Places
import ContentRules.Proofs.NodeStore.Steps

/-!
# The nodes form a forest

Each store is a tree beneath its root, whatever edits were made and whichever of them failed.

**Strategy.**  `WellFormed` adds to `Linked` where the ways up end: at a node without a place, which
is the root of its store.  Every kind of step keeps it (`Sound.step`), since a new node has an id
that no node has, a moved node does not come to lie beneath itself, and what is removed is closed
under children.  `Forest` spells out what a well-formed store is, in terms of both maps of places
and of the two loops that walk through the tree.
-/

namespace ContentRules

/-! ## Ids -/

namespace IdSupply

/-- One supply comes before another if the latter has gone on with the same ids. -/
instance : Preorder IdSupply where
  le ids later := later.idAt = ids.idAt ∧ ids.drawn ≤ later.drawn
  le_refl ids := ⟨rfl, Nat.le_refl ids.drawn⟩
  le_trans _ _ _ hfirst hsecond :=
    ⟨hsecond.1.trans hfirst.1, Nat.le_trans hfirst.2 hsecond.2⟩

/-- The id was drawn from the supply. -/
def HasDrawn (ids : IdSupply) (id : String) : Prop :=
  ∃ number < ids.drawn, id = ids.idAt number

variable {ids : IdSupply} {id : String}

theorem le_draw (ids : IdSupply) : ids ≤ ids.draw.2 :=
  ⟨rfl, Nat.le_succ ids.drawn⟩

theorem HasDrawn.mono {later : IdSupply} (hdrawn : ids.HasDrawn id) (hlater : ids ≤ later) :
    later.HasDrawn id := by
  obtain ⟨number, hnumber, hid⟩ := hdrawn
  exact ⟨number, Nat.lt_of_lt_of_le hnumber hlater.2, hlater.1 ▸ hid⟩

theorem HasDrawn.draw (hdrawn : ids.HasDrawn id) : ids.draw.2.HasDrawn id :=
  hdrawn.mono ids.le_draw

theorem hasDrawn_draw (ids : IdSupply) : ids.draw.2.HasDrawn ids.draw.1 :=
  ⟨ids.drawn, Nat.lt_succ_self ids.drawn, rfl⟩

/-- The next id is a new one, since no two ids of a supply are the same. -/
theorem not_hasDrawn_draw (ids : IdSupply) : ¬ ids.HasDrawn ids.draw.1 := by
  intro hdrawn
  obtain ⟨number, hnumber, hid⟩ := hdrawn
  have hsame : ids.drawn = number := ids.fresh hid
  omega

end IdSupply

/-! ## Well-formed stores -/

namespace NodeStore

variable {nodes : NodeStore}

/-- A linked store in which the nodes without a place are just the roots of the stores. -/
structure WellFormed (nodes : NodeStore) : Prop extends nodes.Linked where
  store_root : ∀ {store : StoreRef} {root : NodeRef},
    nodes.roots[store]? = some root → root.store = store
  hasNode_root : ∀ {store : StoreRef} {root : NodeRef},
    nodes.roots[store]? = some root → nodes.hasNode root
  parents_root : ∀ {store : StoreRef} {root : NodeRef},
    nodes.roots[store]? = some root → nodes.parents[root]? = none
  exists_root : ∀ {node : NodeRef},
    nodes.hasNode node → ∃ root, nodes.roots[node.store]? = some root
  isRoot_of_top : ∀ {node : NodeRef},
    nodes.hasNode node → nodes.parents[node]? = none → nodes.isRoot node

namespace WellFormed

theorem empty : NodeStore.empty.WellFormed where
  place_child := by simp [NodeStore.empty]
  hasNode_child := by simp [NodeStore.empty]
  hasNode_parent := by simp [NodeStore.empty]
  mem_itemsOf_iff := by simp [NodeStore.empty]
  nodup_itemsOf := by simp [NodeStore.empty]
  children_ne_nil := by simp [NodeStore.empty]
  exists_climbs := by simp [NodeStore.empty, hasNode]
  store_root := by simp [NodeStore.empty]
  hasNode_root := by simp [NodeStore.empty]
  parents_root := by simp [NodeStore.empty]
  exists_root := by simp [NodeStore.empty, hasNode]
  isRoot_of_top := by simp [NodeStore.empty, hasNode]

/-- Being well formed is a matter of places, of roots and of which nodes exist. -/
theorem congr (hnodes : nodes.WellFormed) {other : NodeStore} (hroots : other.roots = nodes.roots)
    (hparents : other.parents = nodes.parents) (hchildren : other.children = nodes.children)
    (hsame : ∀ node, other.hasNode node = nodes.hasNode node) : other.WellFormed := by
  refine ⟨hnodes.toLinked.congr hparents hchildren hsame, ?_, ?_, ?_, ?_, ?_⟩
  · rw [hroots]
    exact hnodes.store_root
  · intro store root hroot
    rw [hroots] at hroot
    rw [hsame]
    exact hnodes.hasNode_root hroot
  · rw [hroots, hparents]
    exact hnodes.parents_root
  · intro node hnode
    rw [hsame] at hnode
    rw [hroots]
    exact hnodes.exists_root hnode
  · intro node hnode hplace
    rw [hsame] at hnode
    rw [hparents] at hplace
    unfold isRoot
    rw [hroots]
    exact hnodes.isRoot_of_top hnode hplace

/-- A store may be made, with a new node as its root. -/
theorem found (hnodes : nodes.WellFormed) {root : NodeRef} (hfresh : ¬ nodes.hasNode root)
    (hvacant : root.store ∉ nodes.roots) (record : NodeRecord) :
    { nodes.putRecord root record with
      roots := nodes.roots.insert root.store root }.WellFormed := by
  have hroots : ∀ {store : StoreRef} {other : NodeRef},
      (nodes.roots.insert root.store root)[store]? = some other →
        store = root.store ∧ other = root ∨ nodes.roots[store]? = some other := by
    intro store other hother
    rw [Std.ExtTreeMap.getElem?_insert] at hother
    split at hother
    · rename_i hstore
      exact .inl ⟨(Std.compare_eq_iff_eq.mp hstore).symm, (Option.some.inj hother).symm⟩
    · exact .inr hother
  have hput := hnodes.toLinked.putRecord root record
  refine ⟨hput.congr rfl rfl fun _ => rfl, ?_, ?_, ?_, ?_, ?_⟩
  · intro store other hother
    rcases hroots hother with ⟨rfl, rfl⟩ | hother
    · rfl
    · exact hnodes.store_root hother
  · intro store other hother
    refine (hasNode_putRecord ..).mpr ?_
    rcases hroots hother with ⟨rfl, rfl⟩ | hother
    · exact .inl rfl
    · exact .inr (hnodes.hasNode_root hother)
  · intro store other hother
    rcases hroots hother with ⟨rfl, rfl⟩ | hother
    · exact hnodes.parents_of_not_hasNode hfresh
    · exact hnodes.parents_root hother
  · intro node hnode
    by_cases hstore : root.store = node.store
    · exact ⟨root, by rw [hstore, Std.ExtTreeMap.getElem?_insert_self]⟩
    · rcases (hasNode_putRecord ..).mp hnode with rfl | hnode
      · exact absurd rfl hstore
      · obtain ⟨other, hother⟩ := hnodes.exists_root hnode
        exact ⟨other, by simpa [Std.ExtTreeMap.getElem?_insert, hstore] using hother⟩
  · intro node hnode hplace
    rcases (hasNode_putRecord ..).mp hnode with rfl | hnode
    · simp [isRoot]
    · have hroot : nodes.roots[node.store]? = some node := by
        simpa [isRoot] using hnodes.isRoot_of_top hnode hplace
      have hstore : root.store ≠ node.store := by
        intro hstore
        rw [hstore, Std.ExtTreeMap.mem_iff_isSome_getElem?, hroot] at hvacant
        exact hvacant rfl
      simpa [isRoot, Std.ExtTreeMap.getElem?_insert, hstore] using hroot

/-- A new node may be put beneath a node. -/
theorem attach (hnodes : nodes.WellFormed) {assoc : ChildAssociation}
    (hparent : nodes.hasNode assoc.parent) (hfresh : ¬ nodes.hasNode assoc.child)
    (hstore : assoc.child.store = assoc.parent.store) (record : NodeRecord) :
    ((nodes.putRecord assoc.child record).link assoc).WellFormed := by
  have hput := hnodes.toLinked.putRecord assoc.child record
  have hfree := hnodes.parents_of_not_hasNode hfresh
  have hexists {node : NodeRef} :
      ((nodes.putRecord assoc.child record).link assoc).hasNode node ↔
        assoc.child = node ∨ nodes.hasNode node := hasNode_putRecord ..
  have hplace {node : NodeRef} :
      ((nodes.putRecord assoc.child record).link assoc).parents[node]? =
        if assoc.child = node then some assoc else nodes.parents[node]? := parents_link ..
  have hout : ¬ (nodes.putRecord assoc.child record).Within assoc.child assoc.parent := by
    -- All that is passed on the way up from the parent was there before.
    obtain ⟨path, hclimbs⟩ := hnodes.exists_climbs hparent
    have hpassed := hnodes.forall_hasNode hparent hclimbs
    intro hwithin
    rcases hwithin with hsame | ⟨other, hother, hmem⟩
    · rw [hsame] at hparent
      exact hfresh hparent
    · rw [hother.unique (hclimbs.of_parents_eq fun _ _ => rfl)] at hmem
      exact hfresh (hpassed _ (List.mem_cons_of_mem _ hmem))
  refine ⟨hput.link ((hasNode_putRecord ..).mpr (.inl rfl))
    ((hasNode_putRecord ..).mpr (.inr hparent)) hfree hout, hnodes.store_root, ?_, ?_, ?_, ?_⟩
  · intro store root hroot
    exact hexists.mpr (.inr (hnodes.hasNode_root hroot))
  · intro store root hroot
    rw [hplace, if_neg, hnodes.parents_root hroot]
    rintro rfl
    exact hfresh (hnodes.hasNode_root hroot)
  · intro node hnode
    rcases hexists.mp hnode with rfl | hnode
    · rw [hstore]
      exact hnodes.exists_root hparent
    · exact hnodes.exists_root hnode
  · intro node hnode htop
    rw [hplace] at htop
    split at htop
    · cases htop
    · rcases hexists.mp hnode with hchild | hnode
      · exact absurd hchild ‹_›
      · exact hnodes.isRoot_of_top hnode htop

/-- A node with a place may be put beneath a node that it does not lie above. -/
theorem move (hnodes : nodes.WellFormed) {origin destination : ChildAssociation}
    (hparent : nodes.hasNode destination.parent)
    (hout : ¬ nodes.Within destination.child destination.parent)
    (horigin : nodes.parents[destination.child]? = some origin) :
    ((nodes.unlink origin).link destination).WellFormed := by
  have hchild := hnodes.place_child horigin
  have hunlinked := hnodes.toLinked.unlink horigin
  have hplace {node : NodeRef} :
      ((nodes.unlink origin).link destination).parents[node]? =
        if destination.child = node then some destination else nodes.parents[node]? := by
    rw [parents_link, parents_unlink, hchild]
    split <;> rfl
  have houtside : ¬ (nodes.unlink origin).Within destination.child destination.parent := by
    -- The way up from the new parent does not pass the node, so it is the way it was before.
    obtain ⟨path, hclimbs⟩ := hnodes.exists_climbs hparent
    have hpassed : destination.child ∉ destination.parent :: path := by
      intro hmem
      rcases List.mem_cons.mp hmem with hmem | hmem
      · exact hout (.inl hmem.symm)
      · exact hout (.inr ⟨path, hclimbs, hmem⟩)
    have hkept : (nodes.unlink origin).Climbs destination.parent path := by
      refine hclimbs.of_parents_eq ?_
      intro node hnode
      rw [parents_unlink, hchild, if_neg]
      rintro rfl
      exact hpassed hnode
    intro hwithin
    rcases hwithin with hsame | ⟨other, hother, hmem⟩
    · exact hout (.inl hsame)
    · rw [hother.unique hkept] at hmem
      exact hpassed (List.mem_cons_of_mem _ hmem)
  refine ⟨hunlinked.link (hnodes.hasNode_child horigin) hparent
    (by rw [parents_unlink, hchild, if_pos rfl]) houtside, hnodes.store_root, hnodes.hasNode_root,
    ?_, hnodes.exists_root, ?_⟩
  · intro store root hroot
    rw [hplace, if_neg, hnodes.parents_root hroot]
    rintro rfl
    rw [hnodes.parents_root hroot] at horigin
    cases horigin
  · intro node hnode htop
    rw [hplace] at htop
    split at htop
    · cases htop
    · exact hnodes.isRoot_of_top hnode htop

/-- A node that is not a root may be removed with all beneath it. -/
theorem removeTree (hnodes : nodes.WellFormed) {node : NodeRef} (hnode : nodes.hasNode node)
    (hroot : ¬ nodes.isRoot node) : (nodes.removeTree node).WellFormed := by
  have hdetached := hnodes.toLinked.detach node
  have hplace := hnodes.parents_detach node
  have hexists : (nodes.detach node).hasNode node := by rwa [hasNode_detach]
  have hremoved {other : NodeRef} :
      other ∈ (nodes.detach node).subtree node ↔ (nodes.detach node).Within node other :=
    hdetached.mem_subtree_iff hexists
  have hkept : ∀ {other : NodeRef}, (nodes.detach node).parents[other]? = none → other ≠ node →
      other ∉ (nodes.detach node).subtree node := by
    intro other htop hother hmem
    exact hother (eq_of_within htop (hremoved.mp hmem))
  have hroots : ∀ {store : StoreRef} {root : NodeRef}, nodes.roots[store]? = some root →
      root ∉ (nodes.detach node).subtree node := by
    intro store root hfound
    refine hkept (by rw [hplace, hnodes.parents_root hfound, ite_self]) ?_
    rintro rfl
    rw [isRoot, hnodes.store_root hfound, hfound] at hroot
    exact hroot (decide_eq_true rfl)
  unfold NodeStore.removeTree
  refine ⟨hdetached.removeAll ?_, ?_, ?_, ?_, ?_, ?_⟩
  · intro other place hother
    rw [hremoved, hremoved]
    exact hdetached.within_parent_iff (by rw [hplace, if_pos rfl]) hother
  · rw [roots_removeAll, roots_detach]
    exact hnodes.store_root
  · intro store root hfound
    rw [roots_removeAll, roots_detach] at hfound
    refine (hasNode_removeAll ..).mpr ⟨hroots hfound, ?_⟩
    rw [hasNode_detach]
    exact hnodes.hasNode_root hfound
  · intro store root hfound
    rw [roots_removeAll, roots_detach] at hfound
    rw [parents_removeAll, hplace, hnodes.parents_root hfound, ite_self, ite_self]
  · intro other hother
    rw [roots_removeAll, roots_detach]
    have hother := ((hasNode_removeAll ..).mp hother).2
    rw [hasNode_detach] at hother
    exact hnodes.exists_root hother
  · intro other hother htop
    obtain ⟨hstays, hother⟩ := (hasNode_removeAll ..).mp hother
    rw [hasNode_detach] at hother
    rw [parents_removeAll, if_neg hstays, hplace] at htop
    unfold isRoot
    rw [roots_removeAll, roots_detach]
    split at htop
    · rename_i hsame
      rw [← hsame, hremoved] at hstays
      exact absurd (.inl rfl) hstays
    · exact hnodes.isRoot_of_top hother htop

end WellFormed

/-! ## Forests -/

/-- The nodes of each store are a tree beneath its root.  A root exists and lies in its store, has
no parent and stands in no list of children; every other node has one place, which is its only entry
in all lists of children; the lists of children are not empty, name existing nodes and name none
twice; and both loops through the tree come to their ends, the way up at a root. -/
structure Forest (nodes : NodeStore) : Prop where
  root : ∀ {store : StoreRef} {root : NodeRef}, nodes.roots[store]? = some root →
    nodes.hasNode root ∧ root.store = store ∧ nodes.parents[root]? = none ∧
      ∀ (parent : NodeRef), ∀ entry ∈ nodes.children.itemsOf parent, entry.child ≠ root
  exists_root : ∀ {node : NodeRef}, nodes.hasNode node →
    ∃ root, nodes.roots[node.store]? = some root
  place : ∀ {node : NodeRef}, nodes.hasNode node → ¬ nodes.isRoot node →
    ∃ place, nodes.parents[node]? = some place ∧ nodes.hasNode place.parent ∧
      ∀ (parent : NodeRef) (entry : ChildAssociation),
        entry ∈ nodes.children.itemsOf parent ∧ entry.child = node ↔
          parent = place.parent ∧ entry = place
  children : ∀ {parent : NodeRef} {entries : List ChildAssociation},
    nodes.children[parent]? = some entries →
      nodes.hasNode parent ∧ entries ≠ [] ∧ (∀ entry ∈ entries, nodes.hasNode entry.child) ∧
        (entries.map ChildAssociation.child).Nodup
  ancestors : ∀ {node : NodeRef}, nodes.hasNode node →
    ∃ path, nodes.ancestorsOf node = .ok path ∧ nodes.Climbs node path ∧ node ∉ path ∧
      nodes.isRoot ((node :: path).getLast (List.cons_ne_nil node path))
  subtree : ∀ {node : NodeRef}, nodes.hasNode node →
    nodes.Descends [node] (nodes.subtree node)
  /-- The way down that is taken when the node is removed. -/
  detached : ∀ {node : NodeRef}, nodes.hasNode node →
    (nodes.detach node).Descends [node] ((nodes.detach node).subtree node)

theorem WellFormed.forest (hnodes : nodes.WellFormed) : nodes.Forest := by
  have hentry {parent : NodeRef} {entry : ChildAssociation}
      (hmem : entry ∈ nodes.children.itemsOf parent) :
      entry.parent = parent ∧ nodes.parents[entry.child]? = some entry :=
    hnodes.mem_itemsOf_iff.mp hmem
  constructor
  · intro store root hroot
    refine ⟨hnodes.hasNode_root hroot, hnodes.store_root hroot, hnodes.parents_root hroot, ?_⟩
    intro parent entry hmem
    exact hnodes.child_ne_of_mem (hnodes.parents_root hroot) hmem
  · exact hnodes.exists_root
  · intro node hnode hroot
    cases hplace : nodes.parents[node]? with
    | none => exact absurd (hnodes.isRoot_of_top hnode hplace) hroot
    | some place =>
        refine ⟨place, rfl, hnodes.hasNode_parent hplace, ?_⟩
        intro parent entry
        constructor
        · intro hmember
          obtain ⟨hmem, hchild⟩ := hmember
          obtain ⟨hparent, hsame⟩ := hentry hmem
          rw [hchild, hplace] at hsame
          obtain rfl := Option.some.inj hsame
          exact ⟨hparent.symm, rfl⟩
        · intro hplaced
          obtain ⟨rfl, rfl⟩ := hplaced
          have hchild := hnodes.place_child hplace
          exact ⟨hnodes.mem_itemsOf_iff.mpr ⟨rfl, by rw [hchild, hplace]⟩, hchild⟩
  · intro parent entries hentries
    have hitems : nodes.children.itemsOf parent = entries := by
      rw [NodeIndex.itemsOf_eq, hentries, Option.getD_some]
    have hnonempty : entries ≠ [] := by
      rintro rfl
      exact hnodes.children_ne_nil parent hentries
    have hplaced : ∀ entry ∈ entries, entry.parent = parent ∧
        nodes.parents[entry.child]? = some entry := by
      intro entry hmem
      exact hentry (by rwa [hitems])
    refine ⟨?_, hnonempty, ?_, ?_⟩
    · obtain ⟨entry, hmem⟩ := List.exists_mem_of_ne_nil entries hnonempty
      obtain ⟨rfl, hplace⟩ := hplaced entry hmem
      exact hnodes.hasNode_parent hplace
    · intro entry hmem
      exact hnodes.hasNode_child (hplaced entry hmem).2
    · rw [← hitems]
      exact hnodes.nodup_map_child parent
  · intro node hnode
    obtain ⟨record, hrecord⟩ := hasNode_iff_recordOf.mp hnode
    have hclimbs := hnodes.climbs_climb hnode
    refine ⟨_, ancestorsOf_eq hrecord, hclimbs, hclimbs.not_mem, ?_⟩
    exact hnodes.isRoot_of_top
      (hnodes.forall_hasNode hnode hclimbs _ (List.getLast_mem _)) hclimbs.getLast_top
  · exact hnodes.descends_subtree
  · intro node hnode
    refine (hnodes.toLinked.detach node).descends_subtree ?_
    rwa [hasNode_detach]

end NodeStore

/-! ## Reachable states -/

namespace StoreState

variable {state after : StoreState}

/-- The nodes are well formed, and their ids were drawn from the supply. -/
structure Sound (state : StoreState) : Prop where
  wellFormed : state.nodes.WellFormed
  hasDrawn : ∀ {node : NodeRef}, state.nodes.hasNode node → state.ids.HasDrawn node.id

/-- A node with the next id does not exist yet. -/
theorem Sound.not_hasNode_draw (hsound : state.Sound) {node : NodeRef}
    (hid : node.id = state.ids.draw.1) : ¬ state.nodes.hasNode node := by
  intro hnode
  have hdrawn := hsound.hasDrawn hnode
  rw [hid] at hdrawn
  exact state.ids.not_hasDrawn_draw hdrawn

/-- Each step of an edit keeps the nodes well formed. -/
theorem Sound.step (hsound : state.Sound) (hstep : state.Step after) : after.Sound := by
  have hnodes := hsound.wellFormed
  have hnew {node child : NodeRef} (hid : child.id = state.ids.draw.1)
      (hnode : child = node ∨ state.nodes.hasNode node) : state.ids.draw.2.HasDrawn node.id := by
    rcases hnode with rfl | hnode
    · rw [hid]
      exact state.ids.hasDrawn_draw
    · exact (hsound.hasDrawn hnode).draw
  cases hstep with
  | @found store root hvacant hroot =>
      have hid : root.id = state.ids.draw.1 := by rw [hroot]
      have hstore : store = root.store := by rw [hroot]
      subst hstore
      refine ⟨hnodes.found (hsound.not_hasNode_draw hid) hvacant _, ?_⟩
      intro node hnode
      exact hnew hid ((NodeStore.hasNode_putRecord ..).mp hnode)
  | attach assoc record hparent hchild =>
      have hid : assoc.child.id = state.ids.draw.1 := by rw [hchild]
      have hattach := hnodes.attach hparent (hsound.not_hasNode_draw hid) (by rw [hchild]) record
      refine ⟨hattach.congr rfl rfl rfl fun _ => rfl, ?_⟩
      intro node hnode
      exact hnew hid ((NodeStore.hasNode_putRecord ..).mp hnode)
  | @remove node hnode hroot =>
      refine ⟨(hnodes.removeTree hnode hroot).congr rfl rfl rfl fun _ => rfl, ?_⟩
      intro other hother
      have hother := ((NodeStore.hasNode_removeAll ..).mp hother).2
      rw [NodeStore.hasNode_detach] at hother
      exact hsound.hasDrawn hother
  | move destination hnode hparent hout horigin =>
      refine ⟨(hnodes.move hparent ?_ horigin).congr rfl rfl rfl fun _ => rfl, hsound.hasDrawn⟩
      intro hwithin
      rcases hwithin with hsame | hwithin
      · exact hout (by simp [hsame])
      · rw [← hnodes.mem_climb_iff hparent] at hwithin
        exact hout (List.mem_cons_of_mem _ hwithin)
  | @amend node record hnode =>
      have hsame (other : NodeRef) :
          (state.nodes.putRecord node record).hasNode other = state.nodes.hasNode other := by
        rw [Bool.eq_iff_iff, NodeStore.hasNode_putRecord]
        constructor
        · intro hexists
          rcases hexists with rfl | hother
          · exact hnode
          · exact hother
        · exact .inr
      refine ⟨hnodes.congr rfl rfl rfl hsame, ?_⟩
      intro other hother
      rw [hsame] at hother
      exact hsound.hasDrawn hother
  | tell => exact ⟨hnodes.congr rfl rfl rfl fun _ => rfl, hsound.hasDrawn⟩
  | join => exact ⟨hnodes.congr rfl rfl rfl fun _ => rfl, hsound.hasDrawn⟩
  | part => exact ⟨hnodes.congr rfl rfl rfl fun _ => rfl, hsound.hasDrawn⟩

theorem Sound.steps (hsound : state.Sound) (hsteps : state.Steps after) : after.Sound := by
  induction hsteps with
  | refl => exact hsound
  | tail _ hstep ih => exact ih.step hstep

/-- The states that come about when edits follow one another, some of which may fail, beginning with
no nodes at all and any supply of ids.  The events may be taken away at any time, and ids may be
drawn for other nodes. -/
inductive Reachable : StoreState → Prop
  | empty (ids : IdSupply) : Reachable { ids, nodes := .empty }
  | edit {state : StoreState} (hreachable : Reachable state) (edit : Edit) :
      Reachable (edit.run state).2
  | takeEvents {state : StoreState} (hreachable : Reachable state) :
      Reachable { state with nodes := state.nodes.takeEvents.2 }
  | drawn {state : StoreState} (hreachable : Reachable state) {ids : IdSupply}
      (hlater : state.ids ≤ ids) : Reachable { state with ids }

theorem Reachable.sound (hreachable : state.Reachable) : state.Sound := by
  induction hreachable with
  | empty ids => exact ⟨.empty, by simp [NodeStore.empty, NodeStore.hasNode]⟩
  | edit _ edit ih => exact ih.steps (edit.steps_run _)
  | takeEvents _ ih =>
      exact ⟨ih.wellFormed.congr rfl rfl rfl fun _ => rfl, ih.hasDrawn⟩
  | drawn _ hlater ih =>
      refine ⟨ih.wellFormed, ?_⟩
      intro node hnode
      exact (ih.hasDrawn hnode).mono hlater

theorem Reachable.edits (hreachable : state.Reachable) (edits : List Edit) :
    Reachable (edits.foldl (fun state edit => (edit.run state).2) state) := by
  induction edits generalizing state with
  | nil => exact hreachable
  | cons edit edits ih => exact ih (hreachable.edit edit)

/-- **The nodes are a forest.**  Whatever edits follow one another, beginning with no nodes at all,
and whichever of them fail, what they leave is a forest: a tree for each store, in which both
records of the places agree and no way up comes back. -/
theorem forest_of_reachable (hreachable : state.Reachable) : state.nodes.Forest :=
  hreachable.sound.wellFormed.forest

/-- A small tree: of four nodes one is moved, with what is beneath it, and copied then, and the one
moved is removed.  A move beneath the node itself and the removal of the root fail. -/
def prunedTree : StoreState :=
  let store : StoreRef := { protocol := "workspace", identifier := "main" }
  let node (id : String) : NodeRef := { store, id }
  let name : QualifiedName := { space := "model", localName := "contains" }
  let edits : List Edit :=
    [.createStore "workspace" "main", .createNode (node "u1") name name name [],
      .createNode (node "u2") name name name [], .createNode (node "u1") name name name [],
      .moveNode (node "u2") (node "u4") name name, .moveNode (node "u4") (node "u3") name name,
      .copyNode (node "u4") (node "u1") name name true, .deleteNode (node "u2"),
      .deleteNode (node "u1")]
  edits.foldl (fun state edit => (edit.run state).2) { ids := {}, nodes := .empty }

theorem forest_prunedTree :
    prunedTree.Reachable ∧ prunedTree.nodes.size = 5 ∧ prunedTree.nodes.Forest := by
  have hreachable : prunedTree.Reachable := (Reachable.empty _).edits _
  exact ⟨hreachable, by decide +kernel, forest_of_reachable hreachable⟩

end StoreState

end ContentRules
