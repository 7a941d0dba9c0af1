import ContentRules.Proofs.NodeStore.Forest

/-!
# Changes that only add

Making a node, giving one an aspect and joining two of them leave alone what was there: the nodes
keep their types and their places, and so the ways up from them stay as they were.  None of the
three fails if the nodes exist that it is about.
-/

namespace ContentRules

namespace NodeStore

variable {nodes : NodeStore} {node : NodeRef}

theorem typeOf_eq_of_getElem? {record : NodeRecord} (hrecord : nodes.records[node]? = some record) :
    nodes.typeOf node = .ok record.nodeType := by
  simp only [typeOf, recordOf, hrecord]
  rfl

/-- The type of a node is a matter of its record. -/
theorem typeOf_congr {other : NodeStore} (hrecord : other.records[node]? = nodes.records[node]?) :
    other.typeOf node = nodes.typeOf node := by
  simp only [typeOf, recordOf, hrecord]

theorem hasNode_iff_typeOf : nodes.hasNode node ↔ ∃ nodeType, nodes.typeOf node = .ok nodeType := by
  rw [hasNode_iff_recordOf]
  constructor
  · intro hrecord
    obtain ⟨record, hrecord⟩ := hrecord
    exact ⟨record.nodeType, by simp only [typeOf, hrecord]; rfl⟩
  · intro htype
    cases hrecord : nodes.recordOf node with
    | error error =>
        obtain ⟨_, htype⟩ := htype
        simp only [typeOf, hrecord] at htype
        cases htype
    | ok record => exact ⟨record, rfl⟩

end NodeStore

namespace StoreState

variable {before after last : StoreState}

/-- Nodes that could exist before have the same type and the same place, if they exist at all. -/
structure Adds (before after : StoreState) : Prop where
  ids_le : before.ids ≤ after.ids
  typeOf : ∀ {node : NodeRef}, before.ids.HasDrawn node.id →
    after.nodes.typeOf node = before.nodes.typeOf node
  parents : ∀ {node : NodeRef}, before.ids.HasDrawn node.id →
    after.nodes.parents[node]? = before.nodes.parents[node]?

namespace Adds

theorem refl (state : StoreState) : state.Adds state :=
  ⟨le_rfl, fun _ => rfl, fun _ => rfl⟩

theorem trans (hafter : before.Adds after) (hlast : after.Adds last) : before.Adds last where
  ids_le := le_trans hafter.ids_le hlast.ids_le
  typeOf hdrawn := (hlast.typeOf (hdrawn.mono hafter.ids_le)).trans (hafter.typeOf hdrawn)
  parents hdrawn := (hlast.parents (hdrawn.mono hafter.ids_le)).trans (hafter.parents hdrawn)

theorem hasNode_iff (hafter : before.Adds after) {node : NodeRef}
    (hdrawn : before.ids.HasDrawn node.id) :
    after.nodes.hasNode node ↔ before.nodes.hasNode node := by
  rw [NodeStore.hasNode_iff_typeOf, NodeStore.hasNode_iff_typeOf, hafter.typeOf hdrawn]

/-- The ways up stay as they were. -/
theorem climb_eq (hafter : before.Adds after) (hbefore : before.Sound)
    (hsound : after.Sound) {node : NodeRef} (hnode : before.nodes.hasNode node) :
    after.nodes.climb after.nodes.size node = before.nodes.climb before.nodes.size node := by
  have hclimbs := hbefore.wellFormed.climbs_climb hnode
  have hkept : after.nodes.Climbs node (before.nodes.climb before.nodes.size node) := by
    refine hclimbs.of_parents_eq ?_
    intro passed hpassed
    exact hafter.parents
      (hbefore.hasDrawn (hbefore.wellFormed.forall_hasNode hnode hclimbs passed hpassed))
  have hexists := (hafter.hasNode_iff (hbefore.hasDrawn hnode)).mpr hnode
  exact (hsound.wellFormed.climbs_climb hexists).unique hkept

end Adds

/-- A node that is attached under the next id is none that could exist before, so no other node's
record or place changes. -/
theorem adds_attach {state : StoreState} (assoc : ChildAssociation) (record : NodeRecord)
    (event : NodeEvent) (hchild : assoc.child = ⟨assoc.parent.store, state.ids.draw.1⟩) :
    state.Adds
      { ids := state.ids.draw.2
        nodes := ((state.nodes.putRecord assoc.child record).link assoc).note event } := by
  have hne {node : NodeRef} (hdrawn : state.ids.HasDrawn node.id) : assoc.child ≠ node := by
    rintro rfl
    rw [hchild] at hdrawn
    exact state.ids.not_hasDrawn_draw hdrawn
  refine ⟨state.ids.le_draw, ?_, ?_⟩
  · intro node hdrawn
    refine NodeStore.typeOf_congr ?_
    simp [NodeStore.note, NodeStore.link, NodeStore.putRecord, Std.ExtTreeMap.getElem?_insert,
      hne hdrawn]
  · intro node hdrawn
    exact (NodeStore.parents_link ..).trans (if_neg (hne hdrawn))

end StoreState

namespace Edit

open StoreState Change

variable {state : StoreState}

/-- A node may be made beneath one that exists. -/
theorem run_createNode {parent : NodeRef} (hparent : state.nodes.hasNode parent)
    (relation name nodeType : QualifiedName) (properties : List (QualifiedName × Value)) :
    (createNode parent relation name nodeType properties).run state =
      let child : NodeRef := ⟨parent.store, state.ids.draw.1⟩
      let assoc : ChildAssociation := { relation, parent, name, child }
      (.ok assoc,
        { ids := state.ids.draw.2
          nodes := ((state.nodes.putRecord child
            { nodeType, properties := Std.ExtTreeMap.insertMany ∅ properties }).link assoc).note
              (.created assoc) }) := by
  obtain ⟨record, hrecord⟩ := NodeStore.hasNode_iff_recordOf.mp hparent
  simp only [run_eq_outcome, perform, Change.createNode, outcome_bind, outcome_discard,
    outcome_recordOf, hrecord, Except.map, outcome_drawNode, outcome_update, outcome_pure]

theorem adds_createNode {parent : NodeRef} (hparent : state.nodes.hasNode parent)
    (relation name nodeType : QualifiedName) (properties : List (QualifiedName × Value)) :
    state.Adds ((createNode parent relation name nodeType properties).run state).2 := by
  rw [run_createNode hparent]
  let child : NodeRef := ⟨parent.store, state.ids.draw.1⟩
  exact adds_attach { relation, parent, name, child } _ _ rfl

/-- The node that is made has its type and its place, and no other comes into being. -/
theorem made_of_createNode {parent : NodeRef} (hparent : state.nodes.hasNode parent)
    (relation name nodeType : QualifiedName) (properties : List (QualifiedName × Value)) :
    let after := ((createNode parent relation name nodeType properties).run state).2
    let child : NodeRef := ⟨parent.store, state.ids.draw.1⟩
    after.nodes.typeOf child = .ok nodeType ∧
      after.nodes.parents[child]? = some { relation, parent, name, child } ∧
      ∀ node, after.nodes.hasNode node ↔ child = node ∨ state.nodes.hasNode node := by
  rw [run_createNode hparent]
  refine ⟨?_, (NodeStore.parents_link ..).trans (if_pos rfl),
    fun node => NodeStore.hasNode_putRecord ..⟩
  unfold NodeStore.typeOf NodeStore.recordOf
  simp [NodeStore.note, NodeStore.link, NodeStore.putRecord]

/-- It is the last child of its parent. -/
theorem children_createNode {parent : NodeRef} (hparent : state.nodes.hasNode parent)
    (relation name nodeType : QualifiedName) (properties : List (QualifiedName × Value)) :
    ((createNode parent relation name nodeType properties).run
        state).2.nodes.children.itemsOf parent =
      state.nodes.children.itemsOf parent ++
        [⟨relation, parent, name, ⟨parent.store, state.ids.draw.1⟩⟩] := by
  rw [run_createNode hparent]
  exact (NodeStore.itemsOf_link ..).trans (if_pos rfl)

theorem targets_createNode {parent : NodeRef} (hparent : state.nodes.hasNode parent)
    (relation name nodeType : QualifiedName) (properties : List (QualifiedName × Value)) :
    ((createNode parent relation name nodeType properties).run state).2.nodes.targets =
      state.nodes.targets := by
  rw [run_createNode hparent]
  rfl

/-- A node that exists may be given an aspect. -/
theorem run_addAspect {node : NodeRef} {record : NodeRecord}
    (hrecord : state.nodes.records[node]? = some record) (aspect : QualifiedName) :
    ∃ events, (∀ event ∈ events, event = .aspectAdded node aspect) ∧
      (addAspect node aspect []).run state =
        (.ok (), { state with
          nodes :=
            { state.nodes.putRecord node
                { record with aspects := record.aspects.insert aspect } with
              events := state.nodes.events ++ events } }) := by
  have hfound : state.nodes.recordOf node = .ok record := by
    unfold NodeStore.recordOf
    rw [hrecord]
  simp only [run_eq_outcome, perform, Change.addAspect, outcome_bind, outcome_recordOf, hfound,
    outcome_update, NodeRecord.assign]
  split
  · exact ⟨[], nofun, by simp [NodeStore.putRecord]⟩
  · exact ⟨[.aspectAdded node aspect], by simp, rfl⟩

/-- A record of the same type may take the place of a node's. -/
theorem adds_putRecord {node : NodeRef} {record amended : NodeRecord}
    (hrecord : state.nodes.records[node]? = some record)
    (htype : amended.nodeType = record.nodeType) :
    state.Adds { state with nodes := state.nodes.putRecord node amended } := by
  refine ⟨le_rfl, ?_, fun _ => rfl⟩
  intro other _
  by_cases hsame : node = other
  · subst hsame
    rw [NodeStore.typeOf_eq_of_getElem? hrecord, ← htype]
    exact NodeStore.typeOf_eq_of_getElem? (by simp [NodeStore.putRecord])
  · exact NodeStore.typeOf_congr
      (by simp [NodeStore.putRecord, Std.ExtTreeMap.getElem?_insert, hsame])

theorem adds_addAspect {node : NodeRef} {record : NodeRecord}
    (hrecord : state.nodes.records[node]? = some record) (aspect : QualifiedName) :
    state.Adds ((addAspect node aspect []).run state).2 := by
  obtain ⟨events, -, hrun⟩ := run_addAspect hrecord aspect
  have hadds : state.Adds { state with
      nodes := state.nodes.putRecord node
        { record with aspects := record.aspects.insert aspect } } :=
    adds_putRecord hrecord rfl
  rw [hrun]
  exact ⟨hadds.ids_le, hadds.typeOf, hadds.parents⟩

theorem ids_addAspect {node : NodeRef} {record : NodeRecord}
    (hrecord : state.nodes.records[node]? = some record) (aspect : QualifiedName) :
    ((addAspect node aspect []).run state).2.ids = state.ids := by
  obtain ⟨events, -, hrun⟩ := run_addAspect hrecord aspect
  rw [hrun]

theorem targets_addAspect {node : NodeRef} {record : NodeRecord}
    (hrecord : state.nodes.records[node]? = some record) (aspect : QualifiedName) :
    ((addAspect node aspect []).run state).2.nodes.targets = state.nodes.targets := by
  obtain ⟨events, -, hrun⟩ := run_addAspect hrecord aspect
  rw [hrun]
  rfl

/-- The node has the aspect then. -/
theorem records_addAspect {node : NodeRef} {record : NodeRecord}
    (hrecord : state.nodes.records[node]? = some record) (aspect : QualifiedName) :
    ((addAspect node aspect []).run state).2.nodes.records[node]? =
      some { record with aspects := record.aspects.insert aspect } := by
  obtain ⟨events, -, hrun⟩ := run_addAspect hrecord aspect
  rw [hrun]
  exact Std.ExtTreeMap.getElem?_insert_self

/-- Two nodes that exist may be joined; they may be joined already. -/
theorem run_createAssociation {source target : NodeRef} (hsource : state.nodes.hasNode source)
    (htarget : state.nodes.hasNode target) (relation : QualifiedName) :
    let assoc : PeerAssociation := { source, target, relation }
    (createAssociation source target relation).run state =
      (.ok assoc,
        if assoc ∈ state.nodes.targets.itemsOf source then state
        else { state with
          nodes :=
            { state.nodes with
              targets := state.nodes.targets.push source assoc
              sources := state.nodes.sources.push target assoc }.note
                (.associationCreated assoc) }) := by
  obtain ⟨_, hsourceRecord⟩ := NodeStore.hasNode_iff_recordOf.mp hsource
  obtain ⟨_, htargetRecord⟩ := NodeStore.hasNode_iff_recordOf.mp htarget
  simp only [run_eq_outcome, perform, Change.createAssociation, outcome_bind, outcome_discard,
    outcome_recordOf, hsourceRecord, htargetRecord, Except.map, outcome_nodes]
  split <;> rfl

theorem adds_createAssociation {source target : NodeRef} (hsource : state.nodes.hasNode source)
    (htarget : state.nodes.hasNode target) (relation : QualifiedName) :
    state.Adds ((createAssociation source target relation).run state).2 := by
  rw [run_createAssociation hsource htarget]
  dsimp only
  split
  · exact .refl _
  · exact ⟨le_rfl, fun _ => rfl, fun _ => rfl⟩

theorem ids_createAssociation {source target : NodeRef} (hsource : state.nodes.hasNode source)
    (htarget : state.nodes.hasNode target) (relation : QualifiedName) :
    ((createAssociation source target relation).run state).2.ids = state.ids := by
  rw [run_createAssociation hsource htarget]
  dsimp only
  split <;> rfl

/-- Joining them leaves the records alone. -/
theorem records_createAssociation {source target : NodeRef} (hsource : state.nodes.hasNode source)
    (htarget : state.nodes.hasNode target) (relation : QualifiedName) :
    ((createAssociation source target relation).run state).2.nodes.records =
      state.nodes.records := by
  rw [run_createAssociation hsource htarget]
  dsimp only
  split <;> rfl

/-- Nodes that were not joined so far are joined last. -/
theorem targets_createAssociation {source target : NodeRef} (hsource : state.nodes.hasNode source)
    (htarget : state.nodes.hasNode target) {relation : QualifiedName}
    (hapart : ⟨source, target, relation⟩ ∉ state.nodes.targets.itemsOf source) :
    ((createAssociation source target relation).run state).2.nodes.targets.itemsOf source =
      state.nodes.targets.itemsOf source ++ [⟨source, target, relation⟩] := by
  rw [run_createAssociation hsource htarget]
  dsimp only
  rw [if_neg hapart]
  exact (NodeIndex.itemsOf_push ..).trans (if_pos rfl)

end Edit

end ContentRules
