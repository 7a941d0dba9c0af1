import ContentRules.Proofs.NodeStore.Copying

/-!
# All or nothing

A change checks its nodes before it does anything, so one that fails has done nothing.  The events
tell of all that the others do: a change that records no event has changed nothing either, except
one that makes a store.

Most changes make their checks and then one step.  What is written of a record may need two events,
or none if the record stays what it is (`logged_amend`).
-/

namespace ContentRules

/-! ## Records -/

namespace NodeRecord

/-- Where no property gets another value, the record stays what it is. -/
theorem assign_eq_of_unchanged {record : NodeRecord} {properties : List (QualifiedName × Value)}
    (hunchanged : (record.assign properties).2 = []) : (record.assign properties).1 = record := by
  induction properties generalizing record with
  | nil => rfl
  | cons property properties ih =>
      obtain ⟨name, value⟩ := property
      unfold assign at hunchanged ⊢
      split
      · rename_i hsame
        rw [if_pos hsame] at hunchanged
        exact ih hunchanged
      · rename_i hother
        rw [if_neg hother] at hunchanged
        cases hunchanged

end NodeRecord

namespace NodeStore

variable {nodes : NodeStore} {node : NodeRef} {record : NodeRecord}

theorem getElem?_of_recordOf (hrecord : nodes.recordOf node = .ok record) :
    nodes.records[node]? = some record := by
  unfold recordOf at hrecord
  split at hrecord
  · rename_i found hfound
    rw [hfound, Except.ok.inj hrecord]
  · cases hrecord

/-- A record that is put once more changes nothing. -/
theorem putRecord_eq_self (hrecord : nodes.recordOf node = .ok record) :
    nodes.putRecord node record = nodes := by
  have hsame : nodes.records.insert node record = nodes.records := by
    refine Std.ExtTreeMap.ext_getElem? fun other => ?_
    rw [Std.ExtTreeMap.getElem?_insert]
    split
    · rename_i hother
      rw [← Std.compare_eq_iff_eq.mp hother, getElem?_of_recordOf hrecord]
    · rfl
  unfold putRecord
  rw [hsame]

theorem putRecord_putRecord (node : NodeRef) (first record : NodeRecord) :
    (nodes.putRecord node first).putRecord node record = nodes.putRecord node record := by
  have hsame : (nodes.records.insert node first).insert node record =
      nodes.records.insert node record := by
    refine Std.ExtTreeMap.ext_getElem? fun other => ?_
    simp only [Std.ExtTreeMap.getElem?_insert]
    split <;> rfl
  unfold putRecord
  rw [hsame]

end NodeStore

/-! ## Changes -/

namespace Change

open StoreState

variable {state : StoreState}

/-! ### Nodes -/

theorem allOrNothing_createNode (parent : NodeRef) (relation name nodeType : QualifiedName)
    (properties : List (QualifiedName × Value)) (state : StoreState) :
    (createNode parent relation name nodeType properties).AllOrNothing state := by
  refine .of_check fun hparent => ?_
  let assoc : ChildAssociation :=
    { relation, parent, name, child := ⟨parent.store, state.ids.draw.1⟩ }
  refine .logged assoc ?_ (.attach assoc
    { nodeType, properties := Std.ExtTreeMap.insertMany ∅ properties } hparent rfl (.inl rfl))
  simp only [outcome_bind, outcome_drawNode, outcome_update, outcome_pure, assoc]

/-- A node that exists and is no root is removed. -/
theorem outcome_deleteNode {node : NodeRef} (hnode : state.nodes.hasNode node)
    (hroot : ¬ state.nodes.isRoot node) :
    (deleteNode node).outcome state = (.ok (), { state with
      nodes := (state.nodes.removeTree node).note (.deleted node state.nodes.parents[node]?) }) := by
  obtain ⟨record, hrecord⟩ := NodeStore.hasNode_iff_recordOf.mp hnode
  simp [deleteNode, outcome_bind, hrecord, hroot, Except.map]

/-- A node that does not exist is not removed, and neither is a root. -/
theorem outcome_deleteNode_of_not {node : NodeRef}
    (hrefused : ¬ (state.nodes.hasNode node ∧ ¬ state.nodes.isRoot node)) :
    ∃ error, (deleteNode node).outcome state = (.error error, state) := by
  cases hrecord : state.nodes.recordOf node with
  | error error => exact ⟨error, by simp [deleteNode, outcome_bind, hrecord, Except.map]⟩
  | ok record =>
      have hnode : state.nodes.hasNode node := NodeStore.hasNode_iff_recordOf.mpr ⟨record, hrecord⟩
      have hroot : state.nodes.isRoot node := by_contra fun hroot => hrefused ⟨hnode, hroot⟩
      exact ⟨{ cause := .invalidOperation (.deletesRoot node) },
        by simp [deleteNode, outcome_bind, hrecord, hroot, Except.map]⟩

theorem allOrNothing_deleteNode (node : NodeRef) (state : StoreState) :
    (deleteNode node).AllOrNothing state := by
  refine .of_check fun hnode => ?_
  by_cases hroot : state.nodes.isRoot node
  · exact .failed { cause := .invalidOperation (.deletesRoot node) }
      (by simp [outcome_bind, hroot])
  · exact .logged () (by simp [outcome_bind, hroot]) (.remove hnode hroot)

theorem allOrNothing_moveNode (node parent : NodeRef) (relation name : QualifiedName)
    (state : StoreState) : (moveNode node parent relation name).AllOrNothing state := by
  refine .of_check fun hnode => .of_check fun hparent => ?_
  obtain ⟨record, hrecord⟩ := NodeStore.hasNode_iff_recordOf.mp hparent
  have hancestors := NodeStore.ancestorsOf_eq hrecord
  by_cases hout : parent = node ∨ node ∈ state.nodes.climb state.nodes.size parent
  · exact .failed { cause := .invalidOperation (.movesBeneathItself node) }
      (by simp [outcome_bind, hancestors, hout])
  cases horigin : state.nodes.parents[node]? with
  | none =>
      exact .failed { cause := .invalidOperation (.movesRoot node) }
        (by simp [outcome_bind, hancestors, hout, horigin])
  | some origin =>
      let destination : ChildAssociation := { relation, parent, name, child := node }
      refine .logged destination ?_ (.move destination hnode hparent ?_ horigin)
      · simp only [outcome_bind, outcome_nodes, outcome_lift, hancestors, if_neg hout, horigin,
          outcome_pure, outcome_update, destination]
      · simpa [destination, eq_comm] using hout

/-! ### Aspects and properties -/

/-- A record is put, and events tell of it.  If there are none, it is the record that was there. -/
theorem logged_amend {node : NodeRef} {record : NodeRecord} {events : List NodeEvent}
    (hnode : state.nodes.hasNode node)
    (hevents : ∀ event ∈ events, event.node = node ∧ event.isContent)
    (hsame : events = [] → state.nodes.recordOf node = .ok record) :
    state.Logged events
      { state with nodes := events.foldl NodeStore.note (state.nodes.putRecord node record) } := by
  induction events generalizing state with
  | nil =>
      rw [List.foldl_nil, NodeStore.putRecord_eq_self (hsame rfl)]
      exact .nil state
  | cons event events ih =>
      obtain ⟨⟨habout, hcontent⟩, hrest⟩ := List.forall_mem_cons.mp hevents
      -- The record comes with the first event.  With each of the others it is put once more.
      let middle : StoreState :=
        { state with nodes := (state.nodes.putRecord node record).note event }
      have hput : middle.nodes.putRecord node record = middle.nodes := by
        show ((state.nodes.putRecord node record).putRecord node record).note event = _
        rw [NodeStore.putRecord_putRecord]
      have hmiddle : middle.Logged events
          { middle with nodes := events.foldl NodeStore.note middle.nodes } := by
        rw [← hput]
        refine ih ((NodeStore.hasNode_putRecord ..).mpr (.inl rfl)) hrest fun _ => ?_
        simp [NodeStore.recordOf, middle, NodeStore.note, NodeStore.putRecord]
      exact .cons (.amend node record event hnode habout hcontent) hmiddle

private theorem outcome_noteUnless {skipped : Prop} [Decidable skipped] (event : NodeEvent)
    (state : StoreState) :
    outcome (if skipped then pure () else update fun nodes => nodes.note event : Change Unit) state =
      (.ok (), { state with
        nodes := (if skipped then [] else [event]).foldl NodeStore.note state.nodes }) := by
  split <;> rfl

theorem allOrNothing_addAspect (node : NodeRef) (aspect : QualifiedName)
    (properties : List (QualifiedName × Value)) (state : StoreState) :
    (addAspect node aspect properties).AllOrNothing state := by
  refine .of_recordOf fun record hrecord => ?_
  let amended : NodeRecord := { record with aspects := record.aspects.insert aspect }
  let changed := (amended.assign properties).2
  let added : List NodeEvent :=
    if record.aspects.contains aspect then [] else [.aspectAdded node aspect]
  let updated : List NodeEvent :=
    if changed.isEmpty then [] else [.propertiesUpdated node changed]
  refine .inr ⟨(), added ++ updated, { state with
    nodes := (added ++ updated).foldl NodeStore.note
      (state.nodes.putRecord node (amended.assign properties).1) }, ?_,
    logged_amend (NodeStore.hasNode_of_recordOf hrecord) ?_ ?_⟩
  · rw [List.foldl_append]
    simp only [outcome_bind, outcome_update]
    by_cases haspect : record.aspects.contains aspect
    · rw [if_pos haspect, show added = [] from if_pos haspect]
      exact outcome_noteUnless ..
    · rw [if_neg haspect, outcome_bind, outcome_update,
        show added = [.aspectAdded node aspect] from if_neg haspect]
      exact outcome_noteUnless ..
  · refine List.forall_mem_append.mpr ⟨?_, ?_⟩
    · simp only [added]
      split <;> simp [NodeEvent.isContent, NodeEvent.node]
    · simp only [updated]
      split <;> simp [NodeEvent.isContent, NodeEvent.node]
  · intro hnone
    obtain ⟨hadded, hupdated⟩ := List.append_eq_nil_iff.mp hnone
    have haspect : aspect ∈ record.aspects := by simpa [added] using hadded
    have hunchanged : changed = [] := by simpa [updated] using hupdated
    have hamended : amended = record := by
      have hkept : record.aspects.insert aspect = record.aspects := by
        refine Std.ExtTreeSet.ext_mem fun other => ?_
        rw [Std.ExtTreeSet.mem_insert, Std.compare_eq_iff_eq, or_iff_right_iff_imp]
        rintro rfl
        exact haspect
      simp only [amended, hkept]
    rw [NodeRecord.assign_eq_of_unchanged hunchanged, hamended, hrecord]

theorem allOrNothing_setProperties (node : NodeRef) (properties : List (QualifiedName × Value))
    (state : StoreState) : (setProperties node properties).AllOrNothing state := by
  refine .of_recordOf fun record hrecord => ?_
  let changed := (record.assign properties).2
  let updated : List NodeEvent :=
    if changed.isEmpty then [] else [.propertiesUpdated node changed]
  refine .inr ⟨(), updated, { state with
    nodes := updated.foldl NodeStore.note
      (state.nodes.putRecord node (record.assign properties).1) }, ?_,
    logged_amend (NodeStore.hasNode_of_recordOf hrecord) ?_ ?_⟩
  · simp only [outcome_bind, outcome_update]
    exact outcome_noteUnless ..
  · simp only [updated]
    split <;> simp [NodeEvent.isContent, NodeEvent.node]
  · intro hnone
    have hunchanged : changed = [] := by simpa [updated] using hnone
    rw [NodeRecord.assign_eq_of_unchanged hunchanged, hrecord]

theorem allOrNothing_removeAspect (node : NodeRef) (aspect : QualifiedName) (state : StoreState) :
    (removeAspect node aspect).AllOrNothing state := by
  refine .of_recordOf fun record hrecord => ?_
  by_cases haspect : aspect ∈ record.aspects
  · refine .logged true ?_ (.amend node
      { record with aspects := record.aspects.erase aspect } (.aspectRemoved node aspect)
      (NodeStore.hasNode_of_recordOf hrecord) rfl rfl)
    simp [haspect, Except.map]
  · exact .idle false (by simp [haspect])

theorem allOrNothing_removeProperty (node : NodeRef) (name : QualifiedName) (state : StoreState) :
    (removeProperty node name).AllOrNothing state := by
  refine .of_recordOf fun record hrecord => ?_
  by_cases hproperty : name ∈ record.properties
  · refine .logged record.properties[name]? ?_ (.amend node
      { record with properties := record.properties.erase name }
      (.propertiesUpdated node [name]) (NodeStore.hasNode_of_recordOf hrecord) rfl rfl)
    simp [hproperty, Except.map]
  · exact .idle record.properties[name]? (by simp [hproperty])

/-! ### Peer associations -/

theorem allOrNothing_createAssociation (source target : NodeRef) (relation : QualifiedName)
    (state : StoreState) : (createAssociation source target relation).AllOrNothing state := by
  refine .of_check fun hsource => .of_check fun htarget => ?_
  let assoc : PeerAssociation := { source, target, relation }
  by_cases hjoined : assoc ∈ state.nodes.targets.itemsOf source
  · exact .idle assoc (by simp [outcome_bind, assoc, hjoined])
  · refine .logged assoc ?_ (.join hsource htarget hjoined)
    simp [outcome_bind, assoc, hjoined, Except.map]

theorem allOrNothing_removeAssociation (source target : NodeRef) (relation : QualifiedName)
    (state : StoreState) : (removeAssociation source target relation).AllOrNothing state := by
  let assoc : PeerAssociation := { source, target, relation }
  by_cases hjoined : assoc ∈ state.nodes.targets.itemsOf source
  · refine .logged () ?_ (.part hjoined)
    simp [removeAssociation, outcome_bind, assoc, hjoined]
  · exact .failed { cause := .associationNotFound source relation.text target }
      (by simp [removeAssociation, outcome_bind, assoc, hjoined])

end Change

/-! ## Edits -/

/-- The edit makes a store, of which no event tells. -/
def Edit.foundsStore : Edit → Bool
  | createStore .. => true
  | _ => false

namespace StoreState

open Change

variable {state : StoreState}

theorem Sound.allOrNothing (hsound : state.Sound) {edit : Edit} (hedit : ¬ edit.foundsStore) :
    edit.perform.AllOrNothing state := by
  cases edit with
  | createStore => exact absurd rfl hedit
  | createNode => exact allOrNothing_createNode ..
  | deleteNode => exact allOrNothing_deleteNode ..
  | moveNode => exact allOrNothing_moveNode ..
  | copyNode => exact allOrNothing_copyNode hsound ..
  | addAspect => exact allOrNothing_addAspect ..
  | removeAspect => exact allOrNothing_removeAspect ..
  | setProperties => exact allOrNothing_setProperties ..
  | removeProperty => exact allOrNothing_removeProperty ..
  | createAssociation => exact allOrNothing_createAssociation ..
  | removeAssociation => exact allOrNothing_removeAssociation ..

/-- A store that is there already is not made again. -/
theorem run_createStore_of_error {protocol identifier : String} {error : Error}
    (herror : ((Edit.createStore protocol identifier).run state).1 = .error error) :
    ((Edit.createStore protocol identifier).run state).2 = state := by
  rw [Edit.run_eq_outcome, Edit.perform] at herror ⊢
  by_cases hvacant : (⟨protocol, identifier⟩ : StoreRef) ∈ state.nodes.roots
  · simp [createStore, outcome_bind, hvacant]
  · simp [createStore, outcome_bind, hvacant, Except.map] at herror

theorem Sound.eq_of_error (hsound : state.Sound) {edit : Edit} {error : Error}
    (herror : (edit.run state).1 = .error error) : (edit.run state).2 = state := by
  by_cases hedit : edit.foundsStore
  · cases edit with
    | createStore => exact run_createStore_of_error herror
    | _ => cases hedit
  · rw [Edit.run_eq_outcome] at herror ⊢
    rcases hsound.allOrNothing hedit with ⟨_, houtcome⟩ | ⟨_, _, _, houtcome, -⟩
    · rw [houtcome]
    · rw [houtcome] at herror
      cases herror

/-- Events record all that an edit does, whether it succeeds or fails. -/
theorem Sound.logged_run (hsound : state.Sound) {edit : Edit} (hedit : ¬ edit.foundsStore) :
    ∃ events, state.Logged events (edit.run state).2 := by
  rw [Edit.run_eq_outcome]
  rcases hsound.allOrNothing hedit with ⟨error, houtcome⟩ | ⟨_, events, after, houtcome, hlogged⟩
  · rw [houtcome]
    exact ⟨[], .nil state⟩
  · rw [houtcome]
    exact ⟨events, hlogged⟩

theorem Sound.eq_of_events_eq (hsound : state.Sound) {edit : Edit} (hedit : ¬ edit.foundsStore)
    (hevents : (edit.run state).2.nodes.events = state.nodes.events) :
    (edit.run state).2 = state := by
  obtain ⟨events, hlogged⟩ := hsound.logged_run hedit
  exact hlogged.eq_of_events_eq hevents

/-- **All or nothing.**  Whatever edits went before, one that fails leaves everything as it was, and
so does one that records no event, unless it makes a store.  In particular a copy, however deep,
fails only at the checks that are made before its first node: both nodes must exist, and what is
copied with all that is beneath it may not hold the place of the copy. -/
theorem unchanged_of_reachable (hreachable : state.Reachable) :
    (∀ (edit : Edit) (error : Error),
      (edit.run state).1 = .error error → (edit.run state).2 = state) ∧
    (∀ (source parent : NodeRef) (relation name : QualifiedName) (deep : Bool),
      (∃ copy, ((Edit.copyNode source parent relation name deep).run state).1 = .ok copy) ↔
        state.nodes.hasNode source ∧ state.nodes.hasNode parent ∧
          (deep → ¬ state.nodes.Within source parent)) ∧
    ∀ edit : Edit, ¬ edit.foundsStore → (∃ answer, (edit.run state).1 = .ok answer) →
      (edit.run state).2.nodes.events = state.nodes.events → (edit.run state).2 = state := by
  have hsound := hreachable.sound
  refine ⟨fun edit error => hsound.eq_of_error, ?_,
    fun edit hedit _ => hsound.eq_of_events_eq hedit⟩
  intro source parent relation name deep
  rw [Edit.run_eq_outcome, Edit.perform]
  constructor
  · intro hcopied
    obtain ⟨copy, hcopied⟩ := hcopied
    by_cases hmay : MayCopy state source parent deep
    · exact ⟨hmay.hasNode_source, hmay.hasNode_parent, hmay.not_within⟩
    · obtain ⟨error, houtcome⟩ := outcome_copyNode_of_not hsound hmay relation name
      rw [houtcome] at hcopied
      cases hcopied
  · rintro ⟨hsource, hparent, hout⟩
    obtain ⟨copy, _, _, houtcome, -⟩ :=
      outcome_copyNode hsound ⟨hsource, hparent, hout⟩ relation name
    exact ⟨copy, by rw [houtcome]⟩

/-- Two nodes, one beneath the other, beneath the root of a store. -/
def nested : StoreState :=
  let node (id : String) : NodeRef := ⟨⟨"workspace", "main"⟩, id⟩
  let name : QualifiedName := { space := "model", localName := "contains" }
  let edits : List Edit :=
    [.createStore "workspace" "main", .createNode (node "u1") name name name [],
      .createNode (node "u2") name name name []]
  edits.foldl (fun state edit => (edit.run state).2) { ids := {}, nodes := .empty }

/-- The upper node cannot be copied beneath the lower one with all that is beneath it, and an aspect
that it does not have is not taken from it. -/
theorem unchanged_nested :
    let upper : NodeRef := ⟨⟨"workspace", "main"⟩, "u2"⟩
    let lower : NodeRef := ⟨⟨"workspace", "main"⟩, "u3"⟩
    let name : QualifiedName := { space := "model", localName := "contains" }
    let copied := (Edit.copyNode upper lower name name true).run nested
    let idle := (Edit.removeAspect upper name).run nested
    nested.Reachable ∧ (copied.1.isOk = false ∧ copied.2 = nested) ∧
      nested.nodes.Within upper lower ∧ idle.1.isOk ∧ idle.2 = nested := by
  intro upper lower name copied idle
  have hreachable : nested.Reachable := (Reachable.empty _).edits _
  obtain ⟨hfailed, hcopies, hsilent⟩ := unchanged_of_reachable hreachable
  have hrefused : copied.1.isOk = false := by decide +kernel
  have hnodes : nested.nodes.hasNode upper ∧ nested.nodes.hasNode lower := by decide +kernel
  have hidle : idle.1.isOk := by decide +kernel
  refine ⟨hreachable, ⟨hrefused, ?_⟩, ?_, hidle, ?_⟩
  · cases hcopied : copied.1 with
    | ok copy => simp [hcopied, Except.isOk, Except.toBool] at hrefused
    | error error => exact hfailed _ error hcopied
  · by_contra hout
    obtain ⟨copy, hcopied⟩ :=
      (hcopies upper lower name name true).mpr ⟨hnodes.1, hnodes.2, fun _ => hout⟩
    simp [copied, hcopied, Except.isOk, Except.toBool] at hrefused
  · cases hanswer : idle.1 with
    | error error => simp [hanswer, Except.isOk, Except.toBool] at hidle
    | ok answer => exact hsilent _ (by decide) ⟨answer, hanswer⟩ (by decide +kernel)

end StoreState

end ContentRules
