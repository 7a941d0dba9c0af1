import ContentRules.Proofs.NodeStore.Atomic
import ContentRules.Proofs.NodeStore.Peers

/-!
# Nodes are checked

What is done to nodes, and what is asked of them, fails for want of a node exactly if a node that it
was given does not exist.  The error names such a node, and the state is the one that there was.
Taking away a peer association is the exception: it fails for want of the association.

**Strategy.**  Each change begins with the checks of its nodes, in an order of its own.  So a
statement about the rest of it, which is made where all nodes exist, is carried back over one check
after the other (`ChecksNodes.of_recordOf`, `ChecksNodes.of_check`).  A copy with all that is beneath
it checks nodes again on its way.  There it has been shown that a copy that was begun is finished.
-/

namespace ContentRules

/-- The nodes that an edit is given. -/
def Edit.arguments : Edit → List NodeRef
  | createStore .. => []
  | createNode parent .. => [parent]
  | deleteNode node => [node]
  | moveNode node parent .. => [node, parent]
  | copyNode source parent .. => [source, parent]
  | addAspect node .. => [node]
  | removeAspect node _ => [node]
  | setProperties node _ => [node]
  | removeProperty node _ => [node]
  | createAssociation source target _ => [source, target]
  | removeAssociation source target _ => [source, target]

/-- The edit takes a peer association away. -/
def Edit.isParting : Edit → Bool
  | removeAssociation .. => true
  | _ => false

/-! ## Queries -/

/-- A question about a node with its arguments. -/
inductive Query where
  | typeOf (node : NodeRef)
  | hasAspect (node : NodeRef) (aspect : QualifiedName)
  | aspectsOf (node : NodeRef)
  | property (node : NodeRef) (name : QualifiedName)
  | propertiesOf (node : NodeRef)
  | parentOf (node : NodeRef)
  | childrenOf (node : NodeRef) (name : Option QualifiedName)
  | ancestorsOf (node : NodeRef)
  | targetsOf (node : NodeRef) (relation : Option QualifiedName)
  | sourcesOf (node : NodeRef) (relation : Option QualifiedName)
deriving DecidableEq, Repr

namespace Query

/-- The node that is asked about. -/
def node : Query → NodeRef
  | typeOf node | hasAspect node _ | aspectsOf node | property node _ | propertiesOf node
  | parentOf node | childrenOf node _ | ancestorsOf node | targetsOf node _ | sourcesOf node _ =>
    node

/-- What is answered about a node that exists. -/
@[reducible] def Answer : Query → Type
  | typeOf _ => QualifiedName
  | hasAspect .. => Bool
  | aspectsOf _ => List QualifiedName
  | property .. => Option Value
  | propertiesOf _ => List (QualifiedName × Value)
  | parentOf _ => Option ChildAssociation
  | childrenOf .. => List ChildAssociation
  | ancestorsOf _ => List NodeRef
  | targetsOf .. | sourcesOf .. => List PeerAssociation

/-- Puts the question to the nodes. -/
def ask (nodes : NodeStore) : (query : Query) → Except Error query.Answer
  | typeOf node => nodes.typeOf node
  | hasAspect node aspect => nodes.hasAspect node aspect
  | aspectsOf node => nodes.aspectsOf node
  | property node name => nodes.property? node name
  | propertiesOf node => nodes.propertiesOf node
  | parentOf node => nodes.parentOf? node
  | childrenOf node name => nodes.childrenOf node name
  | ancestorsOf node => nodes.ancestorsOf node
  | targetsOf node relation => nodes.targetsOf node relation
  | sourcesOf node relation => nodes.sourcesOf node relation

end Query

/-! ## Checks -/

/-- An outcome that tells of missing nodes: without one of these nodes it names one that there is
not, and nothing was done, and if there are all of them it names none. -/
structure ChecksNodes {α : Type} (state : StoreState) (arguments : List NodeRef)
    (outcome : Except Error α × StoreState) : Prop where
  missing : ∀ node ∈ arguments, ¬ state.nodes.hasNode node →
    ∃ first ∈ arguments, ¬ state.nodes.hasNode first ∧
      outcome = (.error { cause := .nodeNotFound first }, state)
  found : (∀ node ∈ arguments, state.nodes.hasNode node) →
    ∀ error, outcome.1 = .error error → ∀ node, error.cause ≠ .nodeNotFound node

namespace ChecksNodes

open Change

variable {α : Type} {state : StoreState} {arguments : List NodeRef}
  {outcome : Except Error α × StoreState}

/-- Where there is nothing to check, nothing may be missed. -/
theorem of_found
    (hfound : ∀ error, outcome.1 = .error error → ∀ node, error.cause ≠ .nodeNotFound node) :
    ChecksNodes state [] outcome where
  missing := by
    intro node hnode
    cases hnode
  found := fun _ => hfound

theorem of_ok {result : α} (hresult : outcome.1 = .ok result) : ChecksNodes state [] outcome := by
  refine of_found fun error herror => ?_
  rw [hresult] at herror
  cases herror

theorem of_cause {cause : Cause} (hraised : outcome.1 = .error { cause })
    (hcause : ∀ node, cause ≠ .nodeNotFound node) : ChecksNodes state [] outcome := by
  refine of_found fun error herror => ?_
  rw [hraised] at herror
  cases herror
  exact hcause

/-- The first node that is missing is the one that is named. -/
theorem cons_of_not {node : NodeRef} (hnone : ¬ state.nodes.hasNode node) :
    ChecksNodes state (node :: arguments)
      ((.error { cause := .nodeNotFound node }, state) : Except Error α × StoreState) where
  missing := fun _ _ _ => ⟨node, List.mem_cons_self, hnone, rfl⟩
  found := fun hall => absurd (hall node List.mem_cons_self) hnone

/-- A node that exists is not named. -/
theorem cons {node : NodeRef} (hnode : state.nodes.hasNode node)
    (hchecks : ChecksNodes state arguments outcome) :
    ChecksNodes state (node :: arguments) outcome where
  missing := by
    intro other hother hmissing
    obtain rfl | hother := List.mem_cons.mp hother
    · exact absurd hnode hmissing
    · obtain ⟨first, hfirst, hgone, houtcome⟩ := hchecks.missing other hother hmissing
      exact ⟨first, List.mem_cons_of_mem node hfirst, hgone, houtcome⟩
  found := fun hall => hchecks.found (List.forall_mem_cons.mp hall).2

theorem of_recordOf {node : NodeRef} {next : NodeRecord → Change α}
    (hnext : ∀ record, state.nodes.recordOf node = .ok record →
      ChecksNodes state arguments ((next record).outcome state)) :
    ChecksNodes state (node :: arguments) ((recordOf node >>= next).outcome state) := by
  rw [outcome_bind, outcome_recordOf]
  by_cases hnode : state.nodes.hasNode node
  · obtain ⟨record, hrecord⟩ := NodeStore.hasNode_iff_recordOf.mp hnode
    rw [hrecord]
    exact .cons hnode (hnext record hrecord)
  · rw [NodeStore.recordOf_of_not_hasNode hnode]
    exact .cons_of_not hnode

theorem of_check {node : NodeRef} {next : Unit → Change α}
    (hnext : state.nodes.hasNode node → ChecksNodes state arguments ((next ()).outcome state)) :
    ChecksNodes state (node :: arguments) ((discard (recordOf node) >>= next).outcome state) := by
  rw [outcome_bind, outcome_discard, outcome_recordOf]
  by_cases hnode : state.nodes.hasNode node
  · obtain ⟨record, hrecord⟩ := NodeStore.hasNode_iff_recordOf.mp hnode
    rw [hrecord]
    exact .cons hnode (hnext hnode)
  · rw [NodeStore.recordOf_of_not_hasNode hnode]
    exact .cons_of_not hnode

end ChecksNodes

/-! ## What is asked -/

namespace Query

variable {nodes : NodeStore} {query : Query}

/-- A question looks up the record of its node, and does no more that may fail. -/
theorem exists_ask_eq (nodes : NodeStore) (query : Query) :
    ∃ answer : NodeRecord → query.Answer,
      query.ask nodes = (nodes.recordOf query.node).map answer := by
  have hread {α : Type} (node : NodeRef) (answer : NodeRecord → α) :
      (do return answer (← nodes.recordOf node) : Except Error α) =
        (nodes.recordOf node).map answer := by
    cases nodes.recordOf node <;> rfl
  have hchecked {α : Type} (node : NodeRef) (answer : α) :
      (do discard <| nodes.recordOf node; return answer : Except Error α) =
        (nodes.recordOf node).map fun _ => answer := by
    cases nodes.recordOf node <;> rfl
  cases query with
  | typeOf node => exact ⟨_, hread node _⟩
  | hasAspect node aspect => exact ⟨_, hread node _⟩
  | aspectsOf node => exact ⟨_, hread node _⟩
  | property node name => exact ⟨_, hread node _⟩
  | propertiesOf node => exact ⟨_, hread node _⟩
  | parentOf node => exact ⟨_, hchecked node _⟩
  | childrenOf node name => exact ⟨_, hchecked node _⟩
  | ancestorsOf node => exact ⟨_, hchecked node _⟩
  | targetsOf node relation => exact ⟨_, hchecked node _⟩
  | sourcesOf node relation => exact ⟨_, hchecked node _⟩

/-- Every question about a node that exists is answered. -/
theorem exists_answer (hnode : nodes.hasNode query.node) :
    ∃ answer, query.ask nodes = .ok answer := by
  obtain ⟨record, hrecord⟩ := NodeStore.hasNode_iff_recordOf.mp hnode
  obtain ⟨answer, hask⟩ := exists_ask_eq nodes query
  exact ⟨answer record, by rw [hask, hrecord]; rfl⟩

theorem checksNodes (state : StoreState) (query : Query) :
    ChecksNodes state [query.node] (query.ask state.nodes, state) := by
  by_cases hnode : state.nodes.hasNode query.node
  · obtain ⟨answer, hanswer⟩ := exists_answer hnode
    exact .cons hnode (.of_ok hanswer)
  · obtain ⟨answer, hask⟩ := exists_ask_eq state.nodes query
    rw [hask, NodeStore.recordOf_of_not_hasNode hnode]
    exact .cons_of_not hnode

end Query

/-! ## What is done -/

namespace Change

variable {state : StoreState}

theorem checksNodes_createStore (protocol identifier : String) (state : StoreState) :
    ChecksNodes state [] ((createStore protocol identifier).outcome state) := by
  unfold createStore
  rw [outcome_bind, outcome_nodes]
  dsimp only
  split
  · exact .of_cause rfl nofun
  · exact .of_ok rfl

theorem checksNodes_createNode (parent : NodeRef) (relation name nodeType : QualifiedName)
    (properties : List (QualifiedName × Value)) (state : StoreState) :
    ChecksNodes state [parent]
      ((createNode parent relation name nodeType properties).outcome state) :=
  .of_check fun _ => .of_ok rfl

theorem checksNodes_deleteNode (node : NodeRef) (state : StoreState) :
    ChecksNodes state [node] ((deleteNode node).outcome state) := by
  refine .of_check fun _ => ?_
  rw [outcome_bind, outcome_nodes]
  dsimp only
  split
  · exact .of_cause rfl nofun
  · exact .of_ok rfl

theorem checksNodes_moveNode (node parent : NodeRef) (relation name : QualifiedName)
    (state : StoreState) :
    ChecksNodes state [node, parent] ((moveNode node parent relation name).outcome state) := by
  refine .of_check fun _ => .of_check fun hparent => ?_
  obtain ⟨record, hrecord⟩ := NodeStore.hasNode_iff_recordOf.mp hparent
  simp only [outcome_bind, outcome_nodes, outcome_lift, NodeStore.ancestorsOf_eq hrecord]
  split
  · exact .of_cause rfl nofun
  · split
    · exact .of_cause rfl nofun
    · exact .of_ok rfl

theorem checksNodes_copyAlone (source parent : NodeRef) (relation name : QualifiedName)
    (deep : Bool) (state : StoreState) :
    ChecksNodes state [source, parent]
      ((copyAlone source parent relation name deep).outcome state) := by
  refine .of_recordOf fun sourceRecord _ => .of_check fun hparent => ?_
  obtain ⟨record, hrecord⟩ := NodeStore.hasNode_iff_recordOf.mp hparent
  simp only [outcome_bind, outcome_nodes, outcome_lift, NodeStore.ancestorsOf_eq hrecord]
  split
  · exact .of_cause rfl nofun
  · exact .of_ok rfl

/-- What is checked for the first node was checked for all that are copied. -/
theorem checksNodes_copyNode (hsound : state.Sound) (source parent : NodeRef)
    (relation name : QualifiedName) (deep : Bool) :
    ChecksNodes state [source, parent]
      ((copyNode source parent relation name deep).outcome state) := by
  rw [copyNode, outcome_bind, outcome_nodes]
  let levels := if deep then state.nodes.size else 0
  by_cases hmay : MayCopy state source parent (levels != 0)
  · obtain ⟨copy, events, after, houtcome, -⟩ :=
      outcome_copyLevels levels hsound hmay relation name
    exact .cons hmay.hasNode_source (.cons hmay.hasNode_parent (.of_ok (congrArg Prod.fst houtcome)))
  · obtain ⟨error, hfirst⟩ := outcome_copyAlone_of_not hsound hmay relation name
    have hchecks := checksNodes_copyAlone source parent relation name (levels != 0) state
    rw [hfirst, ← outcome_copyLevels_of_error levels hfirst] at hchecks
    exact hchecks

theorem checksNodes_addAspect (node : NodeRef) (aspect : QualifiedName)
    (properties : List (QualifiedName × Value)) (state : StoreState) :
    ChecksNodes state [node] ((addAspect node aspect properties).outcome state) := by
  refine .of_recordOf fun record _ => .of_ok (?_ : _ = Except.ok ())
  simp only [outcome_bind, outcome_update]
  by_cases haspect : record.aspects.contains aspect
  · rw [if_pos haspect]
    split <;> rfl
  · rw [if_neg haspect, outcome_bind, outcome_update]
    dsimp only
    split <;> rfl

theorem checksNodes_removeAspect (node : NodeRef) (aspect : QualifiedName) (state : StoreState) :
    ChecksNodes state [node] ((removeAspect node aspect).outcome state) := by
  refine .of_recordOf fun record _ => ?_
  split
  · exact .of_ok rfl
  · exact .of_ok rfl

theorem checksNodes_setProperties (node : NodeRef) (properties : List (QualifiedName × Value))
    (state : StoreState) :
    ChecksNodes state [node] ((setProperties node properties).outcome state) := by
  refine .of_recordOf fun record _ => .of_ok (?_ : _ = Except.ok ())
  simp only [outcome_bind, outcome_update]
  split <;> rfl

theorem checksNodes_removeProperty (node : NodeRef) (name : QualifiedName) (state : StoreState) :
    ChecksNodes state [node] ((removeProperty node name).outcome state) := by
  refine .of_recordOf fun record _ => .of_ok (?_ : _ = Except.ok record.properties[name]?)
  dsimp only
  split <;> rfl

theorem checksNodes_createAssociation (source target : NodeRef) (relation : QualifiedName)
    (state : StoreState) :
    ChecksNodes state [source, target]
      ((createAssociation source target relation).outcome state) := by
  refine .of_check fun _ => .of_check fun _ => .of_ok (?_ : _ = Except.ok ⟨source, target, relation⟩)
  rw [outcome_bind, outcome_nodes]
  dsimp only
  split <;> rfl

/-- What is taken away must be there, and this is all that is checked. -/
theorem outcome_removeAssociation {source target : NodeRef} {relation : QualifiedName}
    (hjoined : ⟨source, target, relation⟩ ∈ state.nodes.targets.itemsOf source) :
    ((removeAssociation source target relation).outcome state).1 = .ok () := by
  rw [removeAssociation, outcome_bind, outcome_nodes]
  dsimp only
  rw [if_pos hjoined]
  rfl

theorem outcome_removeAssociation_of_not {source target : NodeRef} {relation : QualifiedName}
    (hapart : ⟨source, target, relation⟩ ∉ state.nodes.targets.itemsOf source) :
    (removeAssociation source target relation).outcome state =
      (.error { cause := .associationNotFound source relation.text target }, state) := by
  rw [removeAssociation, outcome_bind, outcome_nodes]
  dsimp only
  rw [if_neg hapart]
  rfl

end Change

namespace StoreState

variable {state : StoreState}

theorem Sound.checksNodes_run (hsound : state.Sound) {edit : Edit} (hedit : ¬ edit.isParting) :
    ChecksNodes state edit.arguments (edit.run state) := by
  rw [Edit.run_eq_outcome]
  cases edit with
  | createStore protocol identifier => exact Change.checksNodes_createStore ..
  | createNode parent relation name nodeType properties => exact Change.checksNodes_createNode ..
  | deleteNode node => exact Change.checksNodes_deleteNode ..
  | moveNode node parent relation name => exact Change.checksNodes_moveNode ..
  | copyNode source parent relation name deep => exact Change.checksNodes_copyNode hsound ..
  | addAspect node aspect properties => exact Change.checksNodes_addAspect ..
  | removeAspect node aspect => exact Change.checksNodes_removeAspect ..
  | setProperties node properties => exact Change.checksNodes_setProperties ..
  | removeProperty node name => exact Change.checksNodes_removeProperty ..
  | createAssociation source target relation => exact Change.checksNodes_createAssociation ..
  | removeAssociation source target relation => exact absurd rfl hedit

/-- **Nodes are checked.**  Whatever edits there were, beginning with no nodes at all: an edit that
is given a node that does not exist fails, names such a node and leaves all as it was, and no edit
whose nodes exist fails in that way.  So it is with all questions, and about a node that exists
each is answered.  An edit that takes a peer association away is given two nodes and does not check
them.  It fails exactly if the association is not there, which is so if one of the nodes does not
exist, and says that it is the association that is missing. -/
theorem nodesChecked_of_reachable (hreachable : state.Reachable) :
    (∀ edit : Edit, ¬ edit.isParting → ChecksNodes state edit.arguments (edit.run state)) ∧
    (∀ query : Query, ChecksNodes state [query.node] (query.ask state.nodes, state) ∧
      (state.nodes.hasNode query.node → ∃ answer, query.ask state.nodes = .ok answer)) ∧
    ∀ (source target : NodeRef) (relation : QualifiedName),
      let parted := (Edit.removeAssociation source target relation).run state
      (parted.1 = .ok () ↔
        ∃ found, state.nodes.targetsOf source = .ok found ∧ ⟨source, target, relation⟩ ∈ found) ∧
      (parted.1 ≠ .ok () → parted =
        (.error { cause := .associationNotFound source relation.text target }, state)) ∧
      (parted.1 = .ok () → state.nodes.hasNode source ∧ state.nodes.hasNode target) := by
  refine ⟨fun edit => hreachable.sound.checksNodes_run, ?_, ?_⟩
  · exact fun query => ⟨query.checksNodes state, Query.exists_answer⟩
  · intro source target relation parted
    by_cases hjoined : ⟨source, target, relation⟩ ∈ state.nodes.targets.itemsOf source
    · have hparted : parted.1 = .ok () := Change.outcome_removeAssociation hjoined
      obtain ⟨hsource, htarget⟩ := hreachable.paired.hasNode hjoined
      refine ⟨iff_of_true hparted ⟨_, ?_, hjoined⟩, absurd hparted, fun _ => ⟨hsource, htarget⟩⟩
      exact NodeStore.targetsOf_eq_ok_iff.mpr ⟨hsource, rfl⟩
    · have hparted : parted = (.error
        { cause := .associationNotFound source relation.text target }, state) :=
          Change.outcome_removeAssociation_of_not hjoined
      have hfailed : parted.1 ≠ .ok () := by
        rw [hparted]
        nofun
      refine ⟨iff_of_false hfailed ?_, fun _ => hparted, fun hok => absurd hok hfailed⟩
      rintro ⟨found, hfound, hmem⟩
      obtain ⟨-, rfl⟩ := NodeStore.targetsOf_eq_ok_iff.mp hfound
      exact hjoined hmem

/-- A node that does not exist in these examples. -/
def goneNode : NodeRef :=
  ⟨⟨"workspace", "main"⟩, "gone"⟩

/-- A missing parent is named, and a node that is there is not.  An association that is there is
taken away, and one with a missing node is not found. -/
theorem nodesChecked_joined :
    let node (id : String) : NodeRef := ⟨⟨"workspace", "main"⟩, id⟩
    let name : QualifiedName := { space := "model", localName := "contains" }
    joined.Reachable ∧
      (Edit.moveNode (node "u4") goneNode name name).run joined =
        (.error { cause := .nodeNotFound goneNode }, joined) ∧
      (∀ error, ((Edit.moveNode (node "u2") (node "u3") name name).run joined).1 = .error error →
        ∀ node, error.cause ≠ .nodeNotFound node) ∧
      (∃ answer, (Query.ancestorsOf (node "u3")).ask joined.nodes = .ok answer) ∧
      ((Edit.removeAssociation (node "u4") (node "u1") name).run joined).1 = .ok () ∧
      (Edit.removeAssociation (node "u4") goneNode name).run joined =
        (.error { cause := .associationNotFound (node "u4") name.text goneNode }, joined) := by
  intro node name
  have hreachable : joined.Reachable := (Reachable.empty _).edits _
  have hnodes : joined.nodes.hasNode (node "u2") ∧ joined.nodes.hasNode (node "u3") ∧
      joined.nodes.hasNode (node "u4") := by decide +kernel
  have hgone : ¬ joined.nodes.hasNode goneNode := by decide +kernel
  obtain ⟨hedits, hqueries, hparts⟩ := nodesChecked_of_reachable hreachable
  refine ⟨hreachable, ?_, ?_, ?_, ?_, ?_⟩
  · obtain ⟨first, hfirst, hmissing, hfailed⟩ :=
      (hedits (.moveNode (node "u4") goneNode name name) (by decide)).missing goneNode
        (by decide) hgone
    obtain rfl | rfl : first = node "u4" ∨ first = goneNode := by simpa [Edit.arguments] using hfirst
    · exact absurd hnodes.2.2 hmissing
    · exact hfailed
  · refine (hedits (.moveNode (node "u2") (node "u3") name name) (by decide)).found ?_
    exact List.forall_mem_cons.mpr ⟨hnodes.1, List.forall_mem_singleton.mpr hnodes.2.1⟩
  · exact (hqueries (.ancestorsOf (node "u3"))).2 hnodes.2.1
  · refine (hparts (node "u4") (node "u1") name).1.mpr ⟨_, NodeStore.targetsOf_eq_ok_iff.mpr
      ⟨hnodes.2.2, rfl⟩, by decide +kernel⟩
  · refine (hparts (node "u4") goneNode name).2.1 fun hok => ?_
    exact hgone ((hparts (node "u4") goneNode name).2.2 hok).2

/-- A peer association with a node that does not exist is taken away in vain, and the error does not
name the node. -/
theorem not_checksNodes_removeAssociation :
    let root : NodeRef := ⟨⟨"workspace", "main"⟩, "u1"⟩
    let name : QualifiedName := { space := "model", localName := "contains" }
    let edit : Edit := .removeAssociation root goneNode name
    joined.Reachable ∧ joined.nodes.hasNode root ∧ ¬ joined.nodes.hasNode goneNode ∧
      goneNode ∈ edit.arguments ∧ (edit.run joined).1 =
        .error { cause := .associationNotFound root name.text goneNode } ∧
      ¬ ChecksNodes joined edit.arguments (edit.run joined) := by
  intro root name edit
  have hgone : ¬ joined.nodes.hasNode goneNode := by decide +kernel
  have hfailed : (edit.run joined).1 =
      .error { cause := .associationNotFound root name.text goneNode } := by decide +kernel
  refine ⟨(Reachable.empty _).edits _, by decide +kernel, hgone, by decide, hfailed, ?_⟩
  intro hchecks
  obtain ⟨first, -, -, hnamed⟩ := hchecks.missing goneNode (by decide) hgone
  rw [hnamed] at hfailed
  cases hfailed

end StoreState

end ContentRules
