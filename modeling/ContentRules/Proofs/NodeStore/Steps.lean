import Mathlib.Logic.Relation
import ContentRules.Proofs.NodeStore.Outcome
import ContentRules.Proofs.NodeStore.Updates

/-!
# What a change does to the nodes

Every edit, whether it succeeds or fails, is a sequence of steps of a few kinds.  `Step` lists them
with what was checked before; a property that each of them keeps is one that every edit keeps
(`Edit.steps_run`).  Only copying takes many steps, one for each node that it copies, and it may end
between two of them.
-/

namespace ContentRules

/-- One step of an edit: what is done to the nodes, what is recorded of it, and what was checked. -/
inductive StoreState.Step : StoreState → StoreState → Prop
  | found {state : StoreState} {store : StoreRef} {root : NodeRef}
      (hvacant : store ∉ state.nodes.roots)
      (hroot : root = ⟨store, state.ids.draw.1⟩) :
      Step state
        { ids := state.ids.draw.2
          nodes :=
            { state.nodes.putRecord root { nodeType := Vocabulary.storeRootType } with
              roots := state.nodes.roots.insert store root } }
  | attach {state : StoreState} (assoc : ChildAssociation) (record : NodeRecord) {event : NodeEvent}
      (hparent : state.nodes.hasNode assoc.parent)
      (hchild : assoc.child = ⟨assoc.parent.store, state.ids.draw.1⟩)
      (hevent : event = .created assoc ∨ ∃ source, event = .copied source assoc) :
      Step state
        { ids := state.ids.draw.2
          nodes := ((state.nodes.putRecord assoc.child record).link assoc).note event }
  | remove {state : StoreState} {node : NodeRef} (hnode : state.nodes.hasNode node)
      (hroot : ¬ state.nodes.isRoot node) :
      Step state
        { state with
          nodes := (state.nodes.removeTree node).note (.deleted node state.nodes.parents[node]?) }
  | move {state : StoreState} (destination : ChildAssociation) {origin : ChildAssociation}
      (hnode : state.nodes.hasNode destination.child)
      (hparent : state.nodes.hasNode destination.parent)
      (hout : destination.child ∉
        destination.parent :: state.nodes.climb state.nodes.size destination.parent)
      (horigin : state.nodes.parents[destination.child]? = some origin) :
      Step state
        { state with
          nodes :=
            ((state.nodes.unlink origin).link destination).note (.moved origin destination) }
  | amend {state : StoreState} {node : NodeRef} {record : NodeRecord}
      (hnode : state.nodes.hasNode node) :
      Step state { state with nodes := state.nodes.putRecord node record }
  | tell {state : StoreState} {event : NodeEvent} (hnode : state.nodes.hasNode event.node)
      (hevent : event.newNode? = none) :
      Step state { state with nodes := state.nodes.note event }
  | join {state : StoreState} {assoc : PeerAssociation}
      (hsource : state.nodes.hasNode assoc.source) (htarget : state.nodes.hasNode assoc.target)
      (hapart : assoc ∉ state.nodes.targets.itemsOf assoc.source) :
      Step state
        { state with
          nodes :=
            { state.nodes with
              targets := state.nodes.targets.push assoc.source assoc
              sources := state.nodes.sources.push assoc.target assoc }.note
                (.associationCreated assoc) }
  | part {state : StoreState} {assoc : PeerAssociation}
      (hjoined : assoc ∈ state.nodes.targets.itemsOf assoc.source) :
      Step state
        { state with
          nodes :=
            { state.nodes with
              targets := state.nodes.targets.removeWhere assoc.source (· = assoc)
              sources := state.nodes.sources.removeWhere assoc.target (· = assoc) }.note
                (.associationRemoved assoc) }

/-- Any number of steps. -/
abbrev StoreState.Steps : StoreState → StoreState → Prop :=
  Relation.ReflTransGen StoreState.Step

namespace NodeStore

variable {nodes : NodeStore} {node : NodeRef}

theorem hasNode_iff_getElem? :
    nodes.hasNode node ↔ ∃ record, nodes.records[node]? = some record := by
  rw [hasNode, Std.ExtTreeMap.contains_eq_isSome_getElem?]
  exact Option.isSome_iff_exists

theorem hasNode_of_recordOf {record : NodeRecord} (hrecord : nodes.recordOf node = .ok record) :
    nodes.hasNode node := by
  unfold recordOf at hrecord
  split at hrecord
  · rename_i hfound
    exact hasNode_iff_getElem?.mpr ⟨_, hfound⟩
  · cases hrecord

theorem hasNode_iff_recordOf :
    nodes.hasNode node ↔ ∃ record, nodes.recordOf node = .ok record := by
  constructor
  · intro hnode
    obtain ⟨record, hfound⟩ := hasNode_iff_getElem?.mp hnode
    exact ⟨record, by rw [recordOf, hfound]⟩
  · intro hfound
    obtain ⟨record, hrecord⟩ := hfound
    exact hasNode_of_recordOf hrecord

/-- A node that does not exist is named in the error. -/
theorem recordOf_of_not_hasNode (hnode : ¬ nodes.hasNode node) :
    nodes.recordOf node = .error { cause := .nodeNotFound node } := by
  unfold recordOf
  split
  · rename_i record hfound
    exact absurd (hasNode_iff_getElem?.mpr ⟨record, hfound⟩) hnode
  · rfl

theorem ancestorsOf_eq {record : NodeRecord} (hrecord : nodes.recordOf node = .ok record) :
    nodes.ancestorsOf node = .ok (nodes.climb nodes.size node) := by
  unfold ancestorsOf
  rw [hrecord]
  rfl

end NodeStore

namespace Change

open StoreState Relation

variable {α : Type}

/-! ## Checks -/

/-- A change that reads a record fails if there is none, and has done nothing so far. -/
theorem outcome_recordOf_bind (node : NodeRef) (next : NodeRecord → Change α) (state : StoreState) :
    (∃ error, (recordOf node >>= next).outcome state = (.error error, state)) ∨
      ∃ record, state.nodes.recordOf node = .ok record ∧
        (recordOf node >>= next).outcome state = (next record).outcome state := by
  rw [outcome_bind, outcome_recordOf]
  cases state.nodes.recordOf node with
  | error error => exact .inl ⟨error, rfl⟩
  | ok record => exact .inr ⟨record, rfl, rfl⟩

/-- So does one that checks for a node. -/
theorem outcome_check_bind (node : NodeRef) (next : Unit → Change α) (state : StoreState) :
    (∃ error, (discard (recordOf node) >>= next).outcome state = (.error error, state)) ∨
      state.nodes.hasNode node ∧
        (discard (recordOf node) >>= next).outcome state = (next ()).outcome state := by
  rw [outcome_bind, outcome_discard, outcome_recordOf]
  cases hrecord : state.nodes.recordOf node with
  | error error => exact .inl ⟨error, rfl⟩
  | ok record => exact .inr ⟨NodeStore.hasNode_of_recordOf hrecord, rfl⟩

theorem steps_of_recordOf {node : NodeRef} {next : NodeRecord → Change α} {state : StoreState}
    (hnext : state.nodes.hasNode node → ∀ record, state.Steps ((next record).outcome state).2) :
    state.Steps ((recordOf node >>= next).outcome state).2 := by
  rcases outcome_recordOf_bind node next state with ⟨_, houtcome⟩ | ⟨record, hrecord, houtcome⟩
  · rw [houtcome]
  · rw [houtcome]
    exact hnext (NodeStore.hasNode_of_recordOf hrecord) record

theorem steps_of_check {node : NodeRef} {next : Unit → Change α} {state : StoreState}
    (hnext : state.nodes.hasNode node → state.Steps ((next ()).outcome state).2) :
    state.Steps ((discard (recordOf node) >>= next).outcome state).2 := by
  rcases outcome_check_bind node next state with ⟨_, houtcome⟩ | ⟨hnode, houtcome⟩
  · rw [houtcome]
  · rw [houtcome]
    exact hnext hnode

/-! ## Changes of one step -/

theorem steps_createStore (protocol identifier : String) (state : StoreState) :
    state.Steps ((createStore protocol identifier).outcome state).2 := by
  by_cases hvacant : (⟨protocol, identifier⟩ : StoreRef) ∈ state.nodes.roots
  · simpa [createStore, outcome_bind, outcome_ite, hvacant] using ReflTransGen.refl
  · simpa [createStore, outcome_bind, outcome_ite, hvacant] using
      ReflTransGen.single (StoreState.Step.found hvacant rfl)

theorem steps_createNode (parent : NodeRef) (relation name nodeType : QualifiedName)
    (properties : List (QualifiedName × Value)) (state : StoreState) :
    state.Steps ((createNode parent relation name nodeType properties).outcome state).2 := by
  refine steps_of_check fun hparent => ?_
  simp only [outcome_bind, outcome_drawNode, outcome_update, outcome_pure]
  exact .single (.attach { relation, parent, name, child := _ } _ hparent rfl (.inl rfl))

theorem steps_deleteNode (node : NodeRef) (state : StoreState) :
    state.Steps ((deleteNode node).outcome state).2 := by
  refine steps_of_check fun hnode => ?_
  by_cases hroot : state.nodes.isRoot node
  · simpa [outcome_bind, outcome_ite, hroot] using ReflTransGen.refl
  · simpa [outcome_bind, outcome_ite, hroot] using ReflTransGen.single (.remove hnode hroot)

theorem steps_moveNode (node parent : NodeRef) (relation name : QualifiedName)
    (state : StoreState) :
    state.Steps ((moveNode node parent relation name).outcome state).2 := by
  refine steps_of_check fun hnode => steps_of_check fun hparent => ?_
  obtain ⟨record, hrecord⟩ := NodeStore.hasNode_iff_recordOf.mp hparent
  have hancestors := NodeStore.ancestorsOf_eq hrecord
  by_cases hout : parent = node ∨ node ∈ state.nodes.climb state.nodes.size parent
  · simpa [outcome_bind, outcome_ite, hancestors, hout] using ReflTransGen.refl
  · cases horigin : state.nodes.parents[node]? with
    | none => simpa [outcome_bind, outcome_ite, hancestors, hout, horigin] using ReflTransGen.refl
    | some origin =>
        simp only [outcome_bind, outcome_nodes, outcome_lift, hancestors, if_neg hout, horigin,
          outcome_pure, outcome_update]
        refine .single (.move { relation, parent, name, child := node } hnode hparent ?_ horigin)
        simpa [eq_comm] using hout

theorem steps_copyAlone (source parent : NodeRef) (relation name : QualifiedName) (deep : Bool)
    (state : StoreState) :
    state.Steps ((copyAlone source parent relation name deep).outcome state).2 := by
  refine steps_of_recordOf fun hsource record => steps_of_check fun hparent => ?_
  obtain ⟨parentRecord, hrecord⟩ := NodeStore.hasNode_iff_recordOf.mp hparent
  have hancestors := NodeStore.ancestorsOf_eq hrecord
  by_cases hout :
      deep ∧ (parent = source ∨ source ∈ state.nodes.climb state.nodes.size parent)
  · simpa [outcome_bind, outcome_ite, hancestors, hout] using ReflTransGen.refl
  · simp only [outcome_bind, outcome_nodes, outcome_lift, hancestors, if_neg hout, outcome_update,
      outcome_drawNode, outcome_pure]
    exact .single (.attach { relation, parent, name, child := ⟨parent.store, state.ids.draw.1⟩ } _
      hparent rfl (.inr ⟨source, rfl⟩))

/-! ## Copies -/

/-- One change after the other takes the steps of both. -/
theorem steps_bind {β : Type} {change : Change α} {next : α → Change β} {state : StoreState}
    (hchange : state.Steps (change.outcome state).2)
    (hnext : ∀ (result : α) (after : StoreState), after.Steps ((next result).outcome after).2) :
    state.Steps ((change >>= next).outcome state).2 := by
  rw [outcome_bind]
  rcases houtcome : change.outcome state with ⟨answer, after⟩
  rw [houtcome] at hchange
  cases answer with
  | error error => exact hchange
  | ok result => exact hchange.trans (hnext result after)

theorem steps_forM {items : List α} {body : α → Change Unit}
    (hbody : ∀ (item : α) (state : StoreState), state.Steps ((body item).outcome state).2)
    (state : StoreState) : state.Steps ((items.forM body).outcome state).2 := by
  induction items generalizing state with
  | nil => exact .refl
  | cons item items ih => exact steps_bind (hbody item state) fun _ after => ih after

theorem steps_copyLevels (levels : Nat) (source parent : NodeRef) (relation name : QualifiedName)
    (state : StoreState) :
    state.Steps ((copyLevels levels source parent relation name).outcome state).2 := by
  induction levels generalizing source parent relation name state with
  | zero => exact steps_copyAlone source parent relation name false state
  | succ levels ih =>
      unfold copyLevels
      refine steps_bind .refl fun current after => ?_
      refine steps_bind (steps_copyAlone ..) fun copy after => ?_
      refine steps_bind (steps_forM ?_ after) fun _ _ => .refl
      intro child state
      rw [outcome_discard]
      exact ih child.child copy child.relation child.name state

theorem steps_copyNode (source parent : NodeRef) (relation name : QualifiedName) (deep : Bool)
    (state : StoreState) :
    state.Steps ((copyNode source parent relation name deep).outcome state).2 := by
  rw [copyNode, outcome_bind, outcome_nodes]
  exact steps_copyLevels _ source parent relation name state

/-! ## Aspects and properties -/

private theorem steps_noteUnless {skipped : Prop} [Decidable skipped] {event : NodeEvent}
    {state : StoreState} (hnode : state.nodes.hasNode event.node) (hevent : event.newNode? = none) :
    state.Steps
      ((if skipped then pure () else update fun nodes => nodes.note event : Change Unit).outcome
        state).2 := by
  split
  · exact .refl
  · exact .single (.tell hnode hevent)

theorem steps_addAspect (node : NodeRef) (aspect : QualifiedName)
    (properties : List (QualifiedName × Value)) (state : StoreState) :
    state.Steps ((addAspect node aspect properties).outcome state).2 := by
  refine steps_of_recordOf fun hnode record => ?_
  simp only [outcome_bind, outcome_update]
  have hamend (assigned : NodeRecord) :
      state.Step { state with nodes := state.nodes.putRecord node assigned } := .amend hnode
  have hkept (assigned : NodeRecord) : (state.nodes.putRecord node assigned).hasNode node :=
    (NodeStore.hasNode_putRecord ..).mpr (.inl rfl)
  split
  · exact .head (hamend _) (steps_noteUnless (hkept _) rfl)
  · rw [outcome_bind]
    exact .head (hamend _) (.head (.tell (hkept _) rfl) (steps_noteUnless (hkept _) rfl))

theorem steps_removeAspect (node : NodeRef) (aspect : QualifiedName) (state : StoreState) :
    state.Steps ((removeAspect node aspect).outcome state).2 := by
  refine steps_of_recordOf fun hnode record => ?_
  split
  · simp only [outcome_bind, outcome_update, outcome_pure]
    exact .head (.amend hnode)
      (.single (.tell ((NodeStore.hasNode_putRecord ..).mpr (.inl rfl)) rfl))
  · exact .refl

theorem steps_setProperties (node : NodeRef) (properties : List (QualifiedName × Value))
    (state : StoreState) : state.Steps ((setProperties node properties).outcome state).2 := by
  refine steps_of_recordOf fun hnode record => ?_
  simp only [outcome_bind, outcome_update]
  exact .head (.amend hnode)
    (steps_noteUnless ((NodeStore.hasNode_putRecord ..).mpr (.inl rfl)) rfl)

theorem steps_removeProperty (node : NodeRef) (name : QualifiedName) (state : StoreState) :
    state.Steps ((removeProperty node name).outcome state).2 := by
  refine steps_of_recordOf fun hnode record => ?_
  dsimp only
  split
  · simp only [outcome_bind, outcome_update, outcome_pure]
    exact .head (.amend hnode)
      (.single (.tell ((NodeStore.hasNode_putRecord ..).mpr (.inl rfl)) rfl))
  · exact .refl

/-! ## Peer associations -/

theorem steps_createAssociation (source target : NodeRef) (relation : QualifiedName)
    (state : StoreState) :
    state.Steps ((createAssociation source target relation).outcome state).2 := by
  refine steps_of_check fun hsource => steps_of_check fun htarget => ?_
  simp only [outcome_bind, outcome_nodes]
  split
  · exact .refl
  · rename_i hapart
    exact .single (.join hsource htarget hapart)

theorem steps_removeAssociation (source target : NodeRef) (relation : QualifiedName)
    (state : StoreState) :
    state.Steps ((removeAssociation source target relation).outcome state).2 := by
  simp only [removeAssociation, outcome_bind, outcome_nodes]
  split
  · rename_i hjoined
    exact .single (.part hjoined)
  · exact .refl

end Change

/-- An edit is a sequence of steps, also if it fails. -/
theorem Edit.steps_run (edit : Edit) (state : StoreState) : state.Steps (edit.run state).2 := by
  rw [Edit.run_eq_outcome]
  cases edit with
  | createStore => exact Change.steps_createStore ..
  | createNode => exact Change.steps_createNode ..
  | deleteNode => exact Change.steps_deleteNode ..
  | moveNode => exact Change.steps_moveNode ..
  | copyNode => exact Change.steps_copyNode ..
  | addAspect => exact Change.steps_addAspect ..
  | removeAspect => exact Change.steps_removeAspect ..
  | setProperties => exact Change.steps_setProperties ..
  | removeProperty => exact Change.steps_removeProperty ..
  | createAssociation => exact Change.steps_createAssociation ..
  | removeAssociation => exact Change.steps_removeAssociation ..

end ContentRules
