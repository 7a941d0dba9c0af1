import Std.Data.ExtTreeSet
import ContentRules.Error
import ContentRules.NodeEvent
import ContentRules.NodeStore.Index

/-!
# Node stores

A node store holds a number of stores, each a tree of nodes beneath its root, with the peer
associations between nodes and the events recorded since they were last taken.  Where a node stands
is kept twice: with the node, as its parent association, and with the parent, in the order in which
children came.  A peer association is kept with its source and with its target.

Walks up and down the tree count down the number of nodes, which no walk in a tree exceeds.
-/

namespace ContentRules

/-- What is kept of a node besides its place: its type, its aspects and its properties, both in the
order of names. -/
structure NodeRecord where
  nodeType : QualifiedName
  aspects : Std.ExtTreeSet QualifiedName := ∅
  properties : Std.ExtTreeMap QualifiedName Value := ∅

/-- The nodes of all stores, and the events recorded. -/
structure NodeStore where
  roots : Std.ExtTreeMap StoreRef NodeRef := ∅
  records : Std.ExtTreeMap NodeRef NodeRecord := ∅
  children : NodeIndex ChildAssociation := ∅
  parents : Std.ExtTreeMap NodeRef ChildAssociation := ∅
  targets : NodeIndex PeerAssociation := ∅
  sources : NodeIndex PeerAssociation := ∅
  events : List NodeEvent := []

namespace NodeRecord

/-- Sets properties one after the other; also the names of those that got another value, in that
order. -/
def assign (record : NodeRecord) :
    List (QualifiedName × Value) → NodeRecord × List QualifiedName
  | [] => (record, [])
  | (name, value) :: rest =>
    if record.properties[name]? = some value then record.assign rest
    else
      let (assigned, changed) :=
        { record with properties := record.properties.insert name value }.assign rest
      (assigned, name :: changed)

end NodeRecord

namespace NodeStore

/-- The store of no nodes. -/
def empty : NodeStore := {}

instance : Inhabited NodeStore := ⟨empty⟩

/-! ## Nodes -/

/-- The stores in order. -/
def stores (nodes : NodeStore) : List StoreRef :=
  nodes.roots.keys

def rootOf (nodes : NodeStore) (store : StoreRef) : Except Error NodeRef :=
  match nodes.roots[store]? with
  | some root => .ok root
  | none => (Cause.storeNotFound store).raise

/-- The node is the root of the store that its reference names. -/
def isRoot (nodes : NodeStore) (node : NodeRef) : Bool :=
  nodes.roots[node.store]? = some node

def hasNode (nodes : NodeStore) (node : NodeRef) : Bool :=
  nodes.records.contains node

/-- The number of nodes in all stores. -/
def size (nodes : NodeStore) : Nat :=
  nodes.records.size

def recordOf (nodes : NodeStore) (node : NodeRef) : Except Error NodeRecord :=
  match nodes.records[node]? with
  | some record => .ok record
  | none => (Cause.nodeNotFound node).raise

def typeOf (nodes : NodeStore) (node : NodeRef) : Except Error QualifiedName := do
  return (← nodes.recordOf node).nodeType

def hasAspect (nodes : NodeStore) (node : NodeRef) (aspect : QualifiedName) :
    Except Error Bool := do
  return (← nodes.recordOf node).aspects.contains aspect

/-- The aspects of a node in the order of their names. -/
def aspectsOf (nodes : NodeStore) (node : NodeRef) : Except Error (List QualifiedName) := do
  return (← nodes.recordOf node).aspects.toList

def property? (nodes : NodeStore) (node : NodeRef) (name : QualifiedName) :
    Except Error (Option Value) := do
  return (← nodes.recordOf node).properties[name]?

/-- The properties of a node in the order of their names. -/
def propertiesOf (nodes : NodeStore) (node : NodeRef) :
    Except Error (List (QualifiedName × Value)) := do
  return (← nodes.recordOf node).properties.toList

/-! ## Places -/

/-- The place of a node; a root has none. -/
def parentOf? (nodes : NodeStore) (node : NodeRef) : Except Error (Option ChildAssociation) := do
  discard <| nodes.recordOf node
  return nodes.parents[node]?

/-- The children of a node in the order in which they came, all or those with a given name. -/
def childrenOf (nodes : NodeStore) (node : NodeRef) (name : Option QualifiedName := none) :
    Except Error (List ChildAssociation) := do
  discard <| nodes.recordOf node
  return (nodes.children.itemsOf node).filter fun assoc => name.all (assoc.name = ·)

/-- The parents met on the way up from a node, at most `steps` of them, the nearest first. -/
def climb (nodes : NodeStore) : Nat → NodeRef → List NodeRef
  | 0, _ => []
  | steps + 1, node =>
    match nodes.parents[node]? with
    | some assoc => assoc.parent :: nodes.climb steps assoc.parent
    | none => []

/-- The ancestors of a node, from its parent to the root. -/
def ancestorsOf (nodes : NodeStore) (node : NodeRef) : Except Error (List NodeRef) := do
  discard <| nodes.recordOf node
  return nodes.climb nodes.size node

/-- The nodes of a queue and all beneath them level by level, at most `steps` nodes. -/
def descend (nodes : NodeStore) : Nat → List NodeRef → List NodeRef
  | 0, _ => []
  | _ + 1, [] => []
  | steps + 1, node :: queue =>
    node :: nodes.descend steps
      (queue ++ (nodes.children.itemsOf node).map ChildAssociation.child)

/-- A node and all nodes beneath it, level by level. -/
def subtree (nodes : NodeStore) (node : NodeRef) : List NodeRef :=
  nodes.descend nodes.size [node]

/-! ## Peer associations -/

/-- The peer associations from a node, all or those of one kind. -/
def targetsOf (nodes : NodeStore) (node : NodeRef) (relation : Option QualifiedName := none) :
    Except Error (List PeerAssociation) := do
  discard <| nodes.recordOf node
  return (nodes.targets.itemsOf node).filter fun assoc => relation.all (assoc.relation = ·)

/-- The peer associations to a node, all or those of one kind. -/
def sourcesOf (nodes : NodeStore) (node : NodeRef) (relation : Option QualifiedName := none) :
    Except Error (List PeerAssociation) := do
  discard <| nodes.recordOf node
  return (nodes.sources.itemsOf node).filter fun assoc => relation.all (assoc.relation = ·)

/-! ## Events -/

def hasEvents (nodes : NodeStore) : Bool :=
  !nodes.events.isEmpty

/-- The events recorded, oldest first, and the store without them. -/
def takeEvents (nodes : NodeStore) : List NodeEvent × NodeStore :=
  (nodes.events, { nodes with events := [] })

end NodeStore

end ContentRules
