import ContentRules.Proofs.NodeStore.Atomic

/-!
# Nodes and their types

No edit but a removal takes a node away, and none gives a node another type.  A removal records
what it takes.

A record is written for a new node, which has an id that no node has, or it takes the place of a
record of the same type.  Copying writes many records, all of them for new nodes.
-/

namespace ContentRules

/-- The edit removes nodes. -/
def Edit.isRemoval : Edit → Bool
  | deleteNode _ => true
  | _ => false

/-- Nothing of a record but its properties is assigned. -/
theorem NodeRecord.assign_frame (record : NodeRecord) (properties : List (QualifiedName × Value)) :
    (record.assign properties).1 =
      { record with properties := (record.assign properties).1.properties } := by
  induction properties generalizing record with
  | nil => rfl
  | cons property properties ih =>
      obtain ⟨name, value⟩ := property
      unfold assign
      split
      · exact ih record
      · exact ih { record with properties := record.properties.insert name value }

/-- Properties may be set, and the type stays what it is. -/
theorem NodeRecord.nodeType_assign (record : NodeRecord)
    (properties : List (QualifiedName × Value)) :
    (record.assign properties).1.nodeType = record.nodeType := by
  rw [assign_frame]

namespace StoreState

variable {before after last state : StoreState}

/-- The nodes of the first state are there in the second, and have the types that they had. -/
def KeepsTypes (before after : StoreState) : Prop :=
  ∀ ⦃node : NodeRef⦄, before.nodes.hasNode node →
    after.nodes.typeOf node = before.nodes.typeOf node

namespace KeepsTypes

theorem refl (state : StoreState) : state.KeepsTypes state :=
  fun _ _ => rfl

theorem hasNode (hafter : before.KeepsTypes after) {node : NodeRef}
    (hnode : before.nodes.hasNode node) : after.nodes.hasNode node := by
  rw [NodeStore.hasNode_iff_typeOf, hafter hnode]
  exact NodeStore.hasNode_iff_typeOf.mp hnode

theorem trans (hafter : before.KeepsTypes after) (hlast : after.KeepsTypes last) :
    before.KeepsTypes last :=
  fun _ hnode => (hlast (hafter.hasNode hnode)).trans (hafter hnode)

/-- What only adds keeps what was there. -/
theorem of_adds (hbefore : before.Sound) (hadds : before.Adds after) : before.KeepsTypes after :=
  fun _ hnode => hadds.typeOf (hbefore.hasDrawn hnode)

/-- Types are a matter of records. -/
theorem of_records_eq (hrecords : after.nodes.records = before.nodes.records) :
    before.KeepsTypes after :=
  fun _ _ => NodeStore.typeOf_congr (by rw [hrecords])

/-- A record may be written for a node that does not exist yet. -/
theorem of_new {node : NodeRef} {record : NodeRecord} (hnew : ¬ before.nodes.hasNode node)
    (hrecords : after.nodes.records = before.nodes.records.insert node record) :
    before.KeepsTypes after := by
  intro other hother
  have hne : node ≠ other := by
    rintro rfl
    exact hnew hother
  exact NodeStore.typeOf_congr (by simp [hrecords, Std.ExtTreeMap.getElem?_insert, hne])

/-- A record may take the place of one of the same type. -/
theorem of_amended {node : NodeRef} {record amended : NodeRecord}
    (hrecord : before.nodes.recordOf node = .ok record)
    (hrecords : after.nodes.records = before.nodes.records.insert node amended)
    (htype : amended.nodeType = record.nodeType) : before.KeepsTypes after := by
  intro other _
  by_cases hsame : node = other
  · subst hsame
    rw [NodeStore.typeOf_eq_of_getElem? (NodeStore.getElem?_of_recordOf hrecord), ← htype]
    exact NodeStore.typeOf_eq_of_getElem? (by simp [hrecords])
  · exact NodeStore.typeOf_congr (by simp [hrecords, Std.ExtTreeMap.getElem?_insert, hsame])

end KeepsTypes

end StoreState

/-! ## Changes -/

namespace Change

open StoreState

variable {α : Type} {state : StoreState}

/-- Whatever the change comes to, no node is lost and none has another type. -/
def KeepsTypes (change : Change α) (state : StoreState) : Prop :=
  state.KeepsTypes (change.outcome state).2

theorem KeepsTypes.of_recordOf {node : NodeRef} {next : NodeRecord → Change α}
    (hnext : ∀ record, state.nodes.recordOf node = .ok record → (next record).KeepsTypes state) :
    (recordOf node >>= next).KeepsTypes state := by
  unfold KeepsTypes
  rcases outcome_recordOf_bind node next state with ⟨_, houtcome⟩ | ⟨record, hrecord, houtcome⟩
  · rw [houtcome]
    exact .refl state
  · rw [houtcome]
    exact hnext record hrecord

theorem KeepsTypes.of_check {node : NodeRef} {next : Unit → Change α}
    (hnext : state.nodes.hasNode node → (next ()).KeepsTypes state) :
    (discard (recordOf node) >>= next).KeepsTypes state := by
  unfold KeepsTypes
  rcases outcome_check_bind node next state with ⟨_, houtcome⟩ | ⟨hnode, houtcome⟩
  · rw [houtcome]
    exact .refl state
  · rw [houtcome]
    exact hnext hnode

theorem KeepsTypes.of_outcome {change : Change α} {answer : Except Error α} {after : StoreState}
    (houtcome : change.outcome state = (answer, after)) (hafter : state.KeepsTypes after) :
    change.KeepsTypes state := by
  unfold KeepsTypes
  rw [houtcome]
  exact hafter

theorem KeepsTypes.of_update {f : NodeStore → NodeStore} {next : Unit → Change α}
    (hupdate : state.KeepsTypes { state with nodes := f state.nodes })
    (hnext : (next ()).KeepsTypes { state with nodes := f state.nodes }) :
    (update f >>= next).KeepsTypes state := by
  unfold KeepsTypes
  rw [outcome_bind, outcome_update]
  exact hupdate.trans hnext

/-! ### Nodes -/

theorem keepsTypes_createStore (hsound : state.Sound) (protocol identifier : String) :
    (createStore protocol identifier).KeepsTypes state := by
  unfold KeepsTypes
  by_cases hvacant : (⟨protocol, identifier⟩ : StoreRef) ∈ state.nodes.roots
  · simpa [createStore, outcome_bind, outcome_ite, hvacant] using StoreState.KeepsTypes.refl state
  · simp only [createStore, outcome_bind, outcome_nodes, outcome_drawNode,
      outcome_update, outcome_pure, Std.ExtTreeMap.contains_iff_mem, if_neg hvacant]
    exact .of_new (hsound.not_hasNode_draw rfl) rfl

theorem keepsTypes_createNode (hsound : state.Sound) (parent : NodeRef)
    (relation name nodeType : QualifiedName) (properties : List (QualifiedName × Value)) :
    (createNode parent relation name nodeType properties).KeepsTypes state := by
  refine .of_check fun _ => ?_
  exact .of_new (hsound.not_hasNode_draw rfl) rfl

theorem keepsTypes_moveNode (node parent : NodeRef) (relation name : QualifiedName)
    (state : StoreState) : (moveNode node parent relation name).KeepsTypes state := by
  refine .of_check fun hnode => .of_check fun hparent => ?_
  obtain ⟨record, hrecord⟩ := NodeStore.hasNode_iff_recordOf.mp hparent
  have hancestors := NodeStore.ancestorsOf_eq hrecord
  unfold KeepsTypes
  by_cases hout : parent = node ∨ node ∈ state.nodes.climb state.nodes.size parent
  · simpa [outcome_bind, hancestors, hout] using StoreState.KeepsTypes.refl state
  · cases horigin : state.nodes.parents[node]? with
    | none =>
        simpa [outcome_bind, hancestors, hout, horigin] using StoreState.KeepsTypes.refl state
    | some origin =>
        simp only [outcome_bind, outcome_nodes, outcome_lift, hancestors, if_neg hout, horigin,
          outcome_pure, outcome_update]
        exact .of_records_eq rfl

theorem keepsTypes_copyNode (hsound : state.Sound) (source parent : NodeRef)
    (relation name : QualifiedName) (deep : Bool) :
    (copyNode source parent relation name deep).KeepsTypes state := by
  by_cases hmay : MayCopy state source parent deep
  · obtain ⟨copy, events, after, houtcome, hgrown⟩ := outcome_copyNode hsound hmay relation name
    exact .of_outcome houtcome (.of_adds hsound hgrown.adds)
  · obtain ⟨error, houtcome⟩ := outcome_copyNode_of_not hsound hmay relation name
    exact .of_outcome houtcome (.refl state)

/-! ### Aspects and properties -/

private theorem keepsTypes_noteUnless {skipped : Prop} [Decidable skipped] (event : NodeEvent)
    (state : StoreState) :
    (if skipped then pure () else update fun nodes => nodes.note event : Change Unit).KeepsTypes
      state := by
  split
  · exact .refl state
  · exact .of_records_eq rfl

theorem keepsTypes_addAspect (node : NodeRef) (aspect : QualifiedName)
    (properties : List (QualifiedName × Value)) (state : StoreState) :
    (addAspect node aspect properties).KeepsTypes state := by
  refine .of_recordOf fun record hrecord => ?_
  have htype := NodeRecord.nodeType_assign
    { record with aspects := record.aspects.insert aspect } properties
  dsimp only
  refine .of_update (.of_amended hrecord rfl htype) ?_
  split
  · exact keepsTypes_noteUnless ..
  · exact .of_update (.of_records_eq rfl) (keepsTypes_noteUnless ..)

theorem keepsTypes_setProperties (node : NodeRef) (properties : List (QualifiedName × Value))
    (state : StoreState) : (setProperties node properties).KeepsTypes state := by
  refine .of_recordOf fun record hrecord => ?_
  have htype := NodeRecord.nodeType_assign record properties
  exact .of_update (.of_amended hrecord rfl htype) (keepsTypes_noteUnless ..)

theorem keepsTypes_removeAspect (node : NodeRef) (aspect : QualifiedName) (state : StoreState) :
    (removeAspect node aspect).KeepsTypes state := by
  refine .of_recordOf fun record hrecord => ?_
  split
  · exact .of_update (.of_amended hrecord rfl rfl) (.refl _)
  · exact .refl state

theorem keepsTypes_removeProperty (node : NodeRef) (name : QualifiedName) (state : StoreState) :
    (removeProperty node name).KeepsTypes state := by
  refine .of_recordOf fun record hrecord => ?_
  dsimp only
  split
  · exact .of_update (.of_amended hrecord rfl rfl) (.refl _)
  · exact .refl state

/-! ### Peer associations -/

theorem keepsTypes_createAssociation (source target : NodeRef) (relation : QualifiedName)
    (state : StoreState) : (createAssociation source target relation).KeepsTypes state := by
  refine .of_check fun _ => .of_check fun _ => ?_
  unfold KeepsTypes
  simp only [outcome_bind, outcome_nodes]
  split
  · exact .refl state
  · exact .of_records_eq rfl

theorem keepsTypes_removeAssociation (source target : NodeRef) (relation : QualifiedName)
    (state : StoreState) : (removeAssociation source target relation).KeepsTypes state := by
  unfold KeepsTypes
  simp only [removeAssociation, outcome_bind, outcome_nodes]
  split
  · exact .of_records_eq rfl
  · exact .refl state

end Change

/-- **Only removals lose nodes.**  An edit that is none keeps each node and its type, whether it
succeeds or fails. -/
theorem StoreState.Sound.keepsTypes_run {state : StoreState} (hsound : state.Sound) {edit : Edit}
    (hedit : ¬ edit.isRemoval) : state.KeepsTypes (edit.run state).2 := by
  rw [Edit.run_eq_outcome]
  cases edit with
  | createStore => exact Change.keepsTypes_createStore hsound ..
  | createNode => exact Change.keepsTypes_createNode hsound ..
  | deleteNode => exact absurd rfl hedit
  | moveNode => exact Change.keepsTypes_moveNode ..
  | copyNode => exact Change.keepsTypes_copyNode hsound ..
  | addAspect => exact Change.keepsTypes_addAspect ..
  | removeAspect => exact Change.keepsTypes_removeAspect ..
  | setProperties => exact Change.keepsTypes_setProperties ..
  | removeProperty => exact Change.keepsTypes_removeProperty ..
  | createAssociation => exact Change.keepsTypes_createAssociation ..
  | removeAssociation => exact Change.keepsTypes_removeAssociation ..

/-- **A node that is lost is told of.**  An edit keeps a node that exists, or it removes a tree in
which the node lay and records this. -/
theorem StoreState.Sound.hasNode_run_or_deleted {state : StoreState} (hsound : state.Sound)
    (edit : Edit) {node : NodeRef} (hnode : state.nodes.hasNode node) :
    (edit.run state).2.nodes.hasNode node ∨
      ∃ top, state.nodes.Within top node ∧ .deleted top state.nodes.parents[top]? ∈
        (edit.run state).2.nodes.events.drop state.nodes.events.length := by
  by_cases hremoval : edit.isRemoval
  case neg => exact .inl ((hsound.keepsTypes_run hremoval).hasNode hnode)
  cases edit with
  | deleteNode top =>
      rw [Edit.run_eq_outcome, Edit.perform]
      by_cases hperformed : state.nodes.hasNode top ∧ ¬ state.nodes.isRoot top
      · rw [Change.outcome_deleteNode hperformed.1 hperformed.2]
        by_cases hwithin : state.nodes.Within top node
        · refine .inr ⟨top, hwithin, ?_⟩
          simp [NodeStore.note, NodeStore.events_removeTree]
        · exact .inl ((hsound.wellFormed.hasNode_removeTree hperformed.1).mpr ⟨hnode, hwithin⟩)
      · obtain ⟨error, houtcome⟩ := Change.outcome_deleteNode_of_not hperformed
        rw [houtcome]
        exact .inl hnode
  | createStore | createNode | moveNode | copyNode | addAspect | removeAspect | setProperties
    | removeProperty | createAssociation | removeAssociation => cases hremoval

end ContentRules
