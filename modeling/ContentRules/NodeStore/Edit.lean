import ContentRules.NodeStore.Change

/-!
# Edits

The public changes of a node store as data, so that a sequence of them can be quantified over.
-/

namespace ContentRules

/-- A change of a node store with its arguments. -/
inductive Edit where
  | createStore (protocol identifier : String)
  | createNode (parent : NodeRef) (relation name nodeType : QualifiedName)
      (properties : List (QualifiedName × Value))
  | deleteNode (node : NodeRef)
  | moveNode (node parent : NodeRef) (relation name : QualifiedName)
  | copyNode (source parent : NodeRef) (relation name : QualifiedName) (deep : Bool)
  | addAspect (node : NodeRef) (aspect : QualifiedName) (properties : List (QualifiedName × Value))
  | removeAspect (node : NodeRef) (aspect : QualifiedName)
  | setProperties (node : NodeRef) (properties : List (QualifiedName × Value))
  | removeProperty (node : NodeRef) (name : QualifiedName)
  | createAssociation (source target : NodeRef) (relation : QualifiedName)
  | removeAssociation (source target : NodeRef) (relation : QualifiedName)
deriving DecidableEq, Repr

namespace Edit

/-- What an edit answers if it succeeds. -/
@[reducible] def Answer : Edit → Type
  | createStore .. => StoreRef
  | createNode .. => ChildAssociation
  | deleteNode .. => Unit
  | moveNode .. => ChildAssociation
  | copyNode .. => NodeRef
  | addAspect .. => Unit
  | removeAspect .. => Bool
  | setProperties .. => Unit
  | removeProperty .. => Option Value
  | createAssociation .. => PeerAssociation
  | removeAssociation .. => Unit

/-- The change that an edit is. -/
def perform : (edit : Edit) → Change edit.Answer
  | createStore protocol identifier => Change.createStore protocol identifier
  | createNode parent relation name nodeType properties =>
    Change.createNode parent relation name nodeType properties
  | deleteNode node => Change.deleteNode node
  | moveNode node parent relation name => Change.moveNode node parent relation name
  | copyNode source parent relation name deep => Change.copyNode source parent relation name deep
  | addAspect node aspect properties => Change.addAspect node aspect properties
  | removeAspect node aspect => Change.removeAspect node aspect
  | setProperties node properties => Change.setProperties node properties
  | removeProperty node name => Change.removeProperty node name
  | createAssociation source target relation => Change.createAssociation source target relation
  | removeAssociation source target relation => Change.removeAssociation source target relation

/-- The outcome of an edit, and the state that it leaves. -/
def run (edit : Edit) (state : StoreState) : Except Error edit.Answer × StoreState :=
  edit.perform.run.run state

end Edit

end ContentRules
