import Std.Data.String.ToNat
import ContentRules.NodeStore.Basic
import ContentRules.Vocabulary

/-!
# Changes of a node store

A change may draw ids, changes the store, records events, and fails with an error.  What it has done
when it fails stays done; that no change fails after it has done something is a fact about the
definitions below and not of their form.

Every change checks its nodes first.  Moving and copying also check that the tree stays a tree.
-/

namespace ContentRules

/-- The ids "u1", "u2" and so on. -/
def numberedId (number : Nat) : String :=
  "u" ++ toString (number + 1)

theorem numberedId_injective : Function.Injective numberedId := by
  intro first second hsame
  have hnumbers : toString (first + 1) = toString (second + 1) :=
    String.append_right_inj "u" |>.mp hsame
  exact Nat.succ.inj (Nat.repr_injective hnumbers)

/-- Ids in the order in which they are drawn.  They may be any ids, as long as none is drawn twice;
the numbered ones are those that are drawn if nothing else is said. -/
structure IdSupply where
  idAt : Nat → String := numberedId
  fresh : Function.Injective idAt := by exact numberedId_injective
  /-- How many ids have been drawn. -/
  drawn : Nat := 0

/-- The next id. -/
def IdSupply.draw (ids : IdSupply) : String × IdSupply :=
  (ids.idAt ids.drawn, { ids with drawn := ids.drawn + 1 })

/-- A node store with the ids for its new nodes. -/
structure StoreState where
  ids : IdSupply := {}
  nodes : NodeStore := {}

/-- A change of a node store. -/
abbrev Change (α : Type) := ExceptT Error (StateM StoreState) α

namespace NodeStore

/-! ## Parts of changes -/

/-- Records an event. -/
def note (nodes : NodeStore) (event : NodeEvent) : NodeStore :=
  { nodes with events := nodes.events ++ [event] }

def putRecord (nodes : NodeStore) (node : NodeRef) (record : NodeRecord) : NodeStore :=
  { nodes with records := nodes.records.insert node record }

/-- Puts the child of the association last beneath its parent. -/
def link (nodes : NodeStore) (assoc : ChildAssociation) : NodeStore :=
  { nodes with
    parents := nodes.parents.insert assoc.child assoc
    children := nodes.children.push assoc.parent assoc }

/-- Takes the child of the association away from its parent. -/
def unlink (nodes : NodeStore) (assoc : ChildAssociation) : NodeStore :=
  { nodes with
    parents := nodes.parents.erase assoc.child
    children := nodes.children.removeWhere assoc.parent fun other => other.child = assoc.child }

/-- Removes all that is kept of a node: its record, its place and its children's, and every peer
association from or to it. -/
def removeNode (nodes : NodeStore) (node : NodeRef) : NodeStore :=
  let sources := (nodes.targets.itemsOf node).foldl
    (fun sources assoc => NodeIndex.removeWhere sources assoc.target (· = assoc)) nodes.sources
  let targets := (NodeIndex.itemsOf sources node).foldl
    (fun targets assoc => NodeIndex.removeWhere targets assoc.source (· = assoc))
    (nodes.targets.erase node)
  { nodes with
    records := nodes.records.erase node
    children := nodes.children.erase node
    parents := nodes.parents.erase node
    targets
    sources := sources.erase node }

/-- Takes a node away from its parent, if it has one. -/
def detach (nodes : NodeStore) (node : NodeRef) : NodeStore :=
  match nodes.parents[node]? with
  | some place => nodes.unlink place
  | none => nodes

/-- Removes a node and all beneath it. -/
def removeTree (nodes : NodeStore) (node : NodeRef) : NodeStore :=
  let detached := nodes.detach node
  (detached.subtree node).foldl removeNode detached

end NodeStore

namespace Change

open Vocabulary

/-- The nodes as they are now. -/
def nodes : Change NodeStore := do
  return (← get).nodes

/-- Replaces the nodes by a function of them. -/
def update (f : NodeStore → NodeStore) : Change Unit :=
  modify fun state => { state with nodes := f state.nodes }

/-- The record of a node that must exist. -/
def recordOf (node : NodeRef) : Change NodeRecord := do
  (← nodes).recordOf node

/-- A new node of a store. -/
def drawNode (store : StoreRef) : Change NodeRef := do
  let state ← get
  let (id, ids) := state.ids.draw
  set { state with ids }
  return ⟨store, id⟩

/-! ## Stores and nodes -/

/-- Makes a store with its root.  No event is recorded. -/
def createStore (protocol identifier : String) : Change StoreRef := do
  let store : StoreRef := ⟨protocol, identifier⟩
  if (← nodes).roots.contains store then
    (Cause.invalidOperation (.storeExists store)).raise
  let root ← drawNode store
  update fun nodes =>
    { nodes.putRecord root { nodeType := storeRootType } with
      roots := nodes.roots.insert store root }
  return store

/-- Makes a node with properties, last beneath its parent. -/
def createNode (parent : NodeRef) (relation name nodeType : QualifiedName)
    (properties : List (QualifiedName × Value)) : Change ChildAssociation := do
  discard <| recordOf parent
  let child ← drawNode parent.store
  let assoc : ChildAssociation := { relation, parent, name, child }
  update fun nodes =>
    ((nodes.putRecord child
      { nodeType, properties := Std.ExtTreeMap.insertMany ∅ properties }).link assoc).note
        (.created assoc)
  return assoc

/-- Removes a node and all beneath it, with every peer association that touches one of them. -/
def deleteNode (node : NodeRef) : Change Unit := do
  discard <| recordOf node
  if (← nodes).isRoot node then
    (Cause.invalidOperation (.deletesRoot node)).raise
  update fun nodes => (nodes.removeTree node).note (.deleted node nodes.parents[node]?)

/-- Puts a node, with all beneath it, last beneath another parent. -/
def moveNode (node parent : NodeRef) (relation name : QualifiedName) :
    Change ChildAssociation := do
  discard <| recordOf node
  discard <| recordOf parent
  let current ← nodes
  if parent = node ∨ node ∈ (← current.ancestorsOf parent) then
    (Cause.invalidOperation (.movesBeneathItself node)).raise
  match current.parents[node]? with
  | none => (Cause.invalidOperation (.movesRoot node)).raise
  | some origin =>
    let destination : ChildAssociation := { relation, parent, name, child := node }
    update fun nodes => ((nodes.unlink origin).link destination).note (.moved origin destination)
    return destination

/-- Copies one node beneath a parent, which may be no part of what is copied if more is to be copied
beneath it.  A copy has the type, the aspects and the properties of its source, is marked as a copy
and refers to its source. -/
def copyAlone (source parent : NodeRef) (relation name : QualifiedName) (deep : Bool) :
    Change NodeRef := do
  let record ← recordOf source
  discard <| recordOf parent
  let current ← nodes
  if deep ∧ (parent = source ∨ source ∈ (← current.ancestorsOf parent)) then
    (Cause.invalidOperation (.copiesBeneathItself source)).raise
  let copy ← drawNode parent.store
  let assoc : ChildAssociation := { relation, parent, name, child := copy }
  update fun nodes =>
    ((nodes.putRecord copy
      { record with
        aspects := record.aspects.insert copiedFromAspect
        properties := record.properties.insert copyReferenceProperty (.node source) }).link
          assoc).note (.copied source assoc)
  return copy

/-- Copies a node beneath a parent, and `levels` generations of what is beneath it.  The children to
copy are those that the source had before it was copied. -/
def copyLevels : Nat → NodeRef → NodeRef → QualifiedName → QualifiedName → Change NodeRef
  | 0, source, parent, relation, name => copyAlone source parent relation name false
  | levels + 1, source, parent, relation, name => do
    let children := (← nodes).children.itemsOf source
    let copy ← copyAlone source parent relation name true
    children.forM fun child =>
      discard <| copyLevels levels child.child copy child.relation child.name
    return copy

/-- Copies a node beneath a parent, alone or with all that is beneath it. -/
def copyNode (source parent : NodeRef) (relation name : QualifiedName) (deep : Bool) :
    Change NodeRef := do
  let current ← nodes
  copyLevels (if deep then current.size else 0) source parent relation name

/-! ## Aspects and properties -/

/-- Gives a node an aspect and sets properties. -/
def addAspect (node : NodeRef) (aspect : QualifiedName)
    (properties : List (QualifiedName × Value)) : Change Unit := do
  let record ← recordOf node
  let (assigned, changed) :=
    { record with aspects := record.aspects.insert aspect }.assign properties
  update fun nodes => nodes.putRecord node assigned
  unless record.aspects.contains aspect do
    update fun nodes => nodes.note (.aspectAdded node aspect)
  unless changed.isEmpty do
    update fun nodes => nodes.note (.propertiesUpdated node changed)

/-- Takes an aspect from a node; says whether the node had it. -/
def removeAspect (node : NodeRef) (aspect : QualifiedName) : Change Bool := do
  let record ← recordOf node
  if record.aspects.contains aspect then
    update fun nodes =>
      (nodes.putRecord node { record with aspects := record.aspects.erase aspect }).note
        (.aspectRemoved node aspect)
    return true
  return false

/-- Sets properties; the event names those that got another value, and there is none if no property
did. -/
def setProperties (node : NodeRef) (properties : List (QualifiedName × Value)) : Change Unit := do
  let record ← recordOf node
  let (assigned, changed) := record.assign properties
  update fun nodes => nodes.putRecord node assigned
  unless changed.isEmpty do
    update fun nodes => nodes.note (.propertiesUpdated node changed)

/-- Removes a property; answers the value that it had. -/
def removeProperty (node : NodeRef) (name : QualifiedName) : Change (Option Value) := do
  let record ← recordOf node
  let old := record.properties[name]?
  if old.isSome then
    update fun nodes =>
      (nodes.putRecord node { record with properties := record.properties.erase name }).note
        (.propertiesUpdated node [name])
  return old

/-! ## Peer associations -/

/-- Joins two nodes; does nothing if they are already joined so. -/
def createAssociation (source target : NodeRef) (relation : QualifiedName) :
    Change PeerAssociation := do
  discard <| recordOf source
  discard <| recordOf target
  let assoc : PeerAssociation := { source, target, relation }
  unless assoc ∈ (← nodes).targets.itemsOf source do
    update fun nodes =>
      { nodes with
        targets := nodes.targets.push source assoc
        sources := nodes.sources.push target assoc }.note (.associationCreated assoc)
  return assoc

/-- Removes a peer association, which must be there. -/
def removeAssociation (source target : NodeRef) (relation : QualifiedName) : Change Unit := do
  let assoc : PeerAssociation := { source, target, relation }
  unless assoc ∈ (← nodes).targets.itemsOf source do
    (Cause.associationNotFound source relation.text target).raise
  update fun nodes =>
    { nodes with
      targets := nodes.targets.removeWhere source (· = assoc)
      sources := nodes.sources.removeWhere target (· = assoc) }.note (.associationRemoved assoc)

end Change

end ContentRules
