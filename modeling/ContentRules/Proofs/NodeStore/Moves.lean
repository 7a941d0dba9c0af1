import ContentRules.Proofs.NodeStore.Deletions

/-!
# Where nodes stand after a move

A move changes the place of one node, and with it the ways up from all nodes beneath it.
`MovedTree` says what is met on each way up then, and what each list of children is.

**Strategy.**  A way up that does not pass the moved node is what it was.  One that passes it is
what it was as far as the node, and goes on from there as the way up from the new parent does
(`Climbs.splice`).  The new parent does not lie within the moved tree, so its own way up is of the
first kind.
-/

namespace ContentRules

namespace NodeStore

variable {nodes other : NodeStore} {node top : NodeRef}

/-! ## Ways up -/

/-- A way up that passes a node goes on from there as the way up from that node does. -/
theorem Climbs.splice {below rest path : List NodeRef}
    (hclimbs : nodes.Climbs node (below ++ top :: rest)) (htop : other.Climbs top path)
    (hplaces : ∀ passed ∈ node :: below, other.parents[passed]? = nodes.parents[passed]?) :
    other.Climbs node (below ++ top :: path) := by
  induction below generalizing node with
  | nil =>
      cases hclimbs with
      | up hplace _ => exact .up ((hplaces node List.mem_cons_self).trans hplace) htop
  | cons first below ih =>
      cases hclimbs with
      | up hplace hrest =>
          refine .up ((hplaces node List.mem_cons_self).trans hplace) (ih hrest ?_)
          intro passed hpassed
          exact hplaces passed (List.mem_cons_of_mem _ hpassed)

/-- What is passed before a node on a way up is another node. -/
theorem Climbs.ne_of_mem {below rest : List NodeRef}
    (hclimbs : nodes.Climbs node (below ++ top :: rest)) :
    ∀ passed ∈ node :: below, passed ≠ top := by
  have hway : (node :: (below ++ top :: rest)).Nodup :=
    List.nodup_cons.mpr ⟨hclimbs.not_mem, hclimbs.nodup⟩
  rintro passed hpassed rfl
  have hdisjoint := List.disjoint_of_nodup_append (show ((node :: below) ++ passed :: rest).Nodup
    from hway)
  exact hdisjoint hpassed List.mem_cons_self

theorem ancestorsOf_of_not_hasNode (hnode : ¬ nodes.hasNode node) :
    nodes.ancestorsOf node = (Cause.nodeNotFound node).raise := by
  rw [ancestorsOf, recordOf_of_not_hasNode hnode]
  rfl

/-- A node that has the same way up in two stores has the same ancestors. -/
theorem Linked.ancestorsOf_congr (hnodes : nodes.Linked) (hother : other.Linked)
    (hexists : other.hasNode node = nodes.hasNode node)
    (hplaces : ∀ path, nodes.ancestorsOf node = .ok path →
      ∀ passed ∈ node :: path, other.parents[passed]? = nodes.parents[passed]?) :
    other.ancestorsOf node = nodes.ancestorsOf node := by
  by_cases hnode : nodes.hasNode node
  · obtain ⟨path, hclimbs⟩ := hnodes.exists_climbs hnode
    have hpath := hnodes.ancestorsOf_eq_ok_iff.mpr ⟨hnode, hclimbs⟩
    rw [hpath]
    exact hother.ancestorsOf_eq_ok_iff.mpr
      ⟨hexists.trans hnode, hclimbs.of_parents_eq (hplaces path hpath)⟩
  · rw [ancestorsOf_of_not_hasNode hnode]
    exact ancestorsOf_of_not_hasNode (hexists ▸ hnode)

/-! ## A moved tree -/

/-- A store in which a node was moved from one place to another, compared with the store before:
the ancestors of each node, and what is kept of it. -/
structure MovedTree (before after : NodeStore) (origin destination : ChildAssociation) : Prop where
  /-- The ancestors of the node itself are the new parent and that one's ancestors.  A node beneath
  it keeps its ancestors as far as the moved node. -/
  ancestors_moved : ∃ above, before.ancestorsOf destination.parent = .ok above ∧
    after.ancestorsOf destination.child = .ok (destination.parent :: above) ∧
    ∀ node below rest, before.ancestorsOf node = .ok (below ++ destination.child :: rest) →
      after.ancestorsOf node = .ok (below ++ destination.child :: destination.parent :: above)
  ancestors_other : ∀ node, node ≠ destination.child →
    (∀ path, before.ancestorsOf node = .ok path → destination.child ∉ path) →
      after.ancestorsOf node = before.ancestorsOf node
  parents : ∀ node, after.parents[node]? =
    if node = destination.child then some destination else before.parents[node]?
  /-- The node comes last beneath the new parent, also if it stood there before. -/
  children_destination : after.children.itemsOf destination.parent =
    (before.children.itemsOf destination.parent).filter
      (fun entry => entry.child ≠ destination.child) ++ [destination]
  origin_mem : origin ∈ before.children.itemsOf origin.parent
  children_origin : origin.parent ≠ destination.parent →
    after.children.itemsOf origin.parent = (before.children.itemsOf origin.parent).erase origin
  children_other : ∀ node, node ≠ destination.parent → node ≠ origin.parent →
    after.children.itemsOf node = before.children.itemsOf node
  records : after.records = before.records
  roots : after.roots = before.roots
  targets : after.targets = before.targets
  sources : after.sources = before.sources

/-! ### What a move does to the places -/

section Places

variable {origin destination : ChildAssociation} (hlinked : nodes.Linked)
  (horigin : nodes.parents[destination.child]? = some origin)

include hlinked horigin

theorem parents_move (node : NodeRef) :
    ((nodes.unlink origin).link destination).parents[node]? =
      if node = destination.child then some destination else nodes.parents[node]? := by
  rw [parents_link, parents_unlink, hlinked.place_child horigin]
  by_cases hnode : destination.child = node
  · rw [if_pos hnode, if_pos hnode.symm]
  · rw [if_neg hnode, if_neg hnode, if_neg (Ne.symm hnode)]

theorem itemsOf_move (parent : NodeRef) :
    ((nodes.unlink origin).link destination).children.itemsOf parent =
      if destination.parent = parent then
        (nodes.children.itemsOf parent).filter (fun entry => entry.child ≠ destination.child)
          ++ [destination]
      else (nodes.children.itemsOf parent).filter fun entry => entry.child ≠ destination.child := by
  rw [itemsOf_link, hlinked.itemsOf_unlink_place horigin]

/-- Only the moved node has another place. -/
theorem parents_move_of_not_mem {path : List NodeRef} (hnode : node ≠ destination.child)
    (hpath : destination.child ∉ path) :
    ∀ passed ∈ node :: path,
      ((nodes.unlink origin).link destination).parents[passed]? = nodes.parents[passed]? := by
  intro passed hpassed
  rw [parents_move hlinked horigin, if_neg]
  rintro rfl
  exact (List.mem_cons.mp hpassed).elim (fun hsame => hnode hsame.symm) hpath

/-- The way up from the new parent is what it was, since it does not pass the moved node. -/
theorem climbs_move {above : List NodeRef} (habove : nodes.Climbs destination.parent above)
    (hout : ¬ nodes.Within destination.child destination.parent) :
    ((nodes.unlink origin).link destination).Climbs destination.child
      (destination.parent :: above) := by
  refine .up (by rw [parents_move hlinked horigin, if_pos rfl]) (habove.of_parents_eq ?_)
  exact parents_move_of_not_mem hlinked horigin (fun hsame => hout (.inl hsame))
    fun hmem => hout (.inr ⟨above, habove, hmem⟩)

end Places

theorem movedTree_link (hnodes : nodes.WellFormed) {origin destination : ChildAssociation}
    (hparent : nodes.hasNode destination.parent)
    (hout : ¬ nodes.Within destination.child destination.parent)
    (horigin : nodes.parents[destination.child]? = some origin) (event : NodeEvent) :
    nodes.MovedTree (((nodes.unlink origin).link destination).note event) origin destination := by
  have hlinked := hnodes.toLinked
  set after := ((nodes.unlink origin).link destination).note event
  have hafter : after.Linked :=
    (hnodes.move hparent hout horigin).toLinked.congr rfl rfl fun _ => rfl
  obtain ⟨above, habove⟩ := hlinked.exists_climbs hparent
  have hmoved : after.Climbs destination.child (destination.parent :: above) :=
    (climbs_move hlinked horigin habove hout).of_parents_eq fun _ _ => rfl
  have hplaces := parents_move hlinked horigin
  have hitems := itemsOf_move hlinked horigin
  refine ⟨⟨above, ?_, ?_, ?_⟩, ?_, hplaces, ?_, hlinked.place_mem horigin, ?_, ?_, rfl, rfl, rfl,
    rfl⟩
  · exact hlinked.ancestorsOf_eq_ok_iff.mpr ⟨hparent, habove⟩
  · exact hafter.ancestorsOf_eq_ok_iff.mpr ⟨hlinked.hasNode_child horigin, hmoved⟩
  · intro node below rest hpath
    obtain ⟨hnode, hclimbs⟩ := hlinked.ancestorsOf_eq_ok_iff.mp hpath
    refine hafter.ancestorsOf_eq_ok_iff.mpr ⟨hnode, hclimbs.splice hmoved ?_⟩
    have hbefore := hclimbs.ne_of_mem
    exact parents_move_of_not_mem hlinked horigin (hbefore node List.mem_cons_self)
      fun hmem => hbefore _ (.tail _ hmem) rfl
  · intro node hnode hpath
    refine hlinked.ancestorsOf_congr hafter rfl fun path hancestors => ?_
    exact parents_move_of_not_mem hlinked horigin hnode (hpath path hancestors)
  · exact (hitems _).trans (if_pos rfl)
  · intro hother
    refine (hitems _).trans ?_
    rw [if_neg (Ne.symm hother), hlinked.filter_child_ne_eq_erase horigin]
  · intro parent hdestination hsource
    refine (hitems _).trans ?_
    rw [if_neg (Ne.symm hdestination), hlinked.filter_child_ne_eq_self]
    intro found hfound
    obtain rfl := Option.some.inj (horigin.symm.trans hfound)
    exact Ne.symm hsource

end NodeStore

namespace Change

variable {state : StoreState} {node parent : NodeRef}

/-! ## When a move is made -/

theorem outcome_moveNode (hsound : state.Sound) {origin : ChildAssociation}
    (hparent : state.nodes.hasNode parent) (hout : ¬ state.nodes.Within node parent)
    (horigin : state.nodes.parents[node]? = some origin) (relation name : QualifiedName) :
    (moveNode node parent relation name).outcome state =
      (.ok ⟨relation, parent, name, node⟩, { state with
        nodes := ((state.nodes.unlink origin).link ⟨relation, parent, name, node⟩).note
          (.moved origin ⟨relation, parent, name, node⟩) }) := by
  have hnode := hsound.wellFormed.hasNode_child horigin
  obtain ⟨record, hrecord⟩ := NodeStore.hasNode_iff_recordOf.mp hnode
  obtain ⟨parentRecord, hparentRecord⟩ := NodeStore.hasNode_iff_recordOf.mp hparent
  rw [hsound.wellFormed.within_iff_mem_climb hparent] at hout
  simp only [moveNode, outcome_bind, outcome_discard, outcome_recordOf, hrecord, hparentRecord,
    Except.map, outcome_nodes, outcome_lift, NodeStore.ancestorsOf_eq hparentRecord, if_neg hout,
    horigin, outcome_update, outcome_pure]

theorem outcome_moveNode_of_not (hsound : state.Sound)
    (hrefused : ¬ (state.nodes.hasNode node ∧ state.nodes.hasNode parent ∧
      ¬ state.nodes.isRoot node ∧ ¬ state.nodes.Within node parent))
    (relation name : QualifiedName) :
    ∃ error, (moveNode node parent relation name).outcome state = (.error error, state) := by
  cases hrecord : state.nodes.recordOf node with
  | error error => exact ⟨error, by simp [moveNode, outcome_bind, hrecord, Except.map]⟩
  | ok record =>
  cases hparentRecord : state.nodes.recordOf parent with
  | error error =>
      exact ⟨error, by simp [moveNode, outcome_bind, hrecord, hparentRecord, Except.map]⟩
  | ok parentRecord =>
  have hnode := NodeStore.hasNode_of_recordOf hrecord
  have hparent := NodeStore.hasNode_of_recordOf hparentRecord
  have hancestors := NodeStore.ancestorsOf_eq hparentRecord
  by_cases hwithin : state.nodes.Within node parent
  · rw [hsound.wellFormed.within_iff_mem_climb hparent] at hwithin
    refine ⟨{ cause := .invalidOperation (.movesBeneathItself node) }, ?_⟩
    simp [moveNode, outcome_bind, hrecord, hparentRecord, hancestors, hwithin, Except.map]
  -- Both nodes exist and the parent lies outside, so the node is a root.
  · have hroot : state.nodes.isRoot node := by
      by_contra hroot
      exact hrefused ⟨hnode, hparent, hroot, hwithin⟩
    have htop := hsound.wellFormed.parents_root (of_decide_eq_true hroot)
    rw [hsound.wellFormed.within_iff_mem_climb hparent] at hwithin
    refine ⟨{ cause := .invalidOperation (.movesRoot node) }, ?_⟩
    simp [moveNode, outcome_bind, hrecord, hparentRecord, hancestors, hwithin, htop, Except.map]

end Change

/-! ## Reachable states -/

namespace StoreState

variable {state : StoreState}

/-- **A move takes a tree along and changes nothing else.**  Whatever edits went before, a move is
made exactly if both nodes exist, the one to be moved is no root, and the new parent is neither that
node nor beneath it.  The node comes last beneath the new parent then, where it may have stood
before, and is taken out of the list in which it stood.  The ancestors of the nodes of the moved
tree are what they were as far as its top, and from there on the new parent with its ancestors; all
other nodes keep theirs.  One event is recorded, with the old place and the new one. -/
theorem moved_of_reachable (hreachable : state.Reachable) (node parent : NodeRef)
    (relation name : QualifiedName) :
    ((∃ place, ((Edit.moveNode node parent relation name).run state).1 = .ok place) ↔
      state.nodes.hasNode node ∧ state.nodes.hasNode parent ∧ ¬ state.nodes.isRoot node ∧
        ¬ state.nodes.Within node parent) ∧
    ∀ destination after,
      (Edit.moveNode node parent relation name).run state = (.ok destination, after) →
        destination = ⟨relation, parent, name, node⟩ ∧
        ∃ origin, state.nodes.parents[node]? = some origin ∧ origin.child = node ∧
          state.nodes.MovedTree after.nodes origin destination ∧
          after.nodes.events = state.nodes.events ++ [.moved origin destination] ∧
          after.ids = state.ids := by
  have hsound := hreachable.sound
  rw [Edit.run_eq_outcome, Edit.perform]
  by_cases hallowed : state.nodes.hasNode node ∧ state.nodes.hasNode parent ∧
      ¬ state.nodes.isRoot node ∧ ¬ state.nodes.Within node parent
  · obtain ⟨hnode, hparent, hroot, hout⟩ := hallowed
    obtain ⟨origin, horigin⟩ := hsound.exists_place hnode hroot
    have houtcome := Change.outcome_moveNode hsound hparent hout horigin relation name
    rw [houtcome]
    refine ⟨iff_of_true ⟨_, rfl⟩ ⟨hnode, hparent, hroot, hout⟩, ?_⟩
    rintro destination after hrun
    obtain ⟨hanswer, rfl⟩ := Prod.mk.inj hrun
    obtain rfl := Except.ok.inj hanswer
    have hmoved : state.nodes.MovedTree _ origin ⟨relation, parent, name, node⟩ :=
      NodeStore.movedTree_link hsound.wellFormed hparent hout horigin
        (.moved origin ⟨relation, parent, name, node⟩)
    exact ⟨rfl, origin, horigin, hsound.wellFormed.place_child horigin, hmoved, rfl, rfl⟩
  · obtain ⟨error, houtcome⟩ := Change.outcome_moveNode_of_not hsound hallowed relation name
    rw [houtcome]
    refine ⟨iff_of_false ?_ hallowed, ?_⟩
    · rintro ⟨_, hanswer⟩
      cases hanswer
    · intro destination after hrun
      cases congrArg Prod.fst hrun

/-- Of the nodes in `joined` the upper one is moved beneath the node outside, with the one beneath
it. -/
theorem moved_joined :
    let node (id : String) : NodeRef := ⟨⟨"workspace", "main"⟩, id⟩
    let name : QualifiedName := { space := "model", localName := "contains" }
    joined.Reachable ∧ ∃ destination after origin,
      (Edit.moveNode (node "u2") (node "u4") name name).run joined = (.ok destination, after) ∧
        joined.nodes.MovedTree after.nodes origin destination ∧ origin.parent = node "u1" ∧
        (joined.nodes.ancestorsOf (node "u3")).toOption = some [node "u2", node "u1"] ∧
        (after.nodes.ancestorsOf (node "u3")).toOption =
          some [node "u2", node "u4", node "u1"] := by
  intro node name
  have hreachable : joined.Reachable := (Reachable.empty _).edits _
  obtain ⟨hallowed, hmoves⟩ := moved_of_reachable hreachable (node "u2") (node "u4") name name
  have hnodes : joined.nodes.hasNode (node "u2") ∧ joined.nodes.hasNode (node "u4") ∧
      ¬ joined.nodes.isRoot (node "u2") ∧
      node "u2" ∉ node "u4" :: joined.nodes.climb joined.nodes.size (node "u4") := by
    decide +kernel
  obtain ⟨hnode, hparent, hroot, hout⟩ := hnodes
  have houtside : ¬ joined.nodes.Within (node "u2") (node "u4") := by
    rw [hreachable.sound.wellFormed.within_iff_mem_climb hparent]
    simpa [eq_comm] using hout
  obtain ⟨destination, hanswer⟩ := hallowed.mpr ⟨hnode, hparent, hroot, houtside⟩
  have hafter : (((Edit.moveNode (node "u2") (node "u4") name name).run joined).2.nodes.ancestorsOf
      (node "u3")).toOption = some [node "u2", node "u4", node "u1"] := by
    decide +kernel
  rcases hrun : (Edit.moveNode (node "u2") (node "u4") name name).run joined with ⟨answer, after⟩
  rw [hrun] at hanswer hafter
  obtain rfl : answer = .ok destination := hanswer
  obtain ⟨-, origin, horigin, -, hmoved, -⟩ := hmoves destination after hrun
  have hstood : joined.nodes.parents[node "u2"]? = some ⟨name, node "u1", name, node "u2"⟩ := by
    decide +kernel
  obtain rfl := Option.some.inj (hstood.symm.trans horigin)
  exact ⟨hreachable, destination, after, _, rfl, hmoved, rfl, by decide +kernel, hafter⟩

end StoreState

end ContentRules
