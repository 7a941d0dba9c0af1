import ContentRules.Association

/-!
# Lifecycle events

Each change of a node store records what happened as an event, which behaviours are told of later.
-/

namespace ContentRules

/-- One change of a node store. -/
inductive NodeEvent where
  | created (assoc : ChildAssociation)
  | deleted (node : NodeRef) (place : Option ChildAssociation)
  | moved (origin destination : ChildAssociation)
  | copied (source : NodeRef) (copy : ChildAssociation)
  | propertiesUpdated (node : NodeRef) (changed : List QualifiedName)
  | aspectAdded (node : NodeRef) (aspect : QualifiedName)
  | aspectRemoved (node : NodeRef) (aspect : QualifiedName)
  | associationCreated (assoc : PeerAssociation)
  | associationRemoved (assoc : PeerAssociation)
deriving DecidableEq, Repr

/-- What a behaviour is bound to. -/
inductive EventKind where
  | nodeCreated
  | nodeDeleted
  | nodeMoved
  | nodeCopied
  | propertiesUpdated
  | aspectAdded
  | aspectRemoved
  | associationCreated
  | associationRemoved
deriving DecidableEq, Repr

namespace EventKind

/-- All kinds. -/
def all : List EventKind :=
  [nodeCreated, nodeDeleted, nodeMoved, nodeCopied, propertiesUpdated, aspectAdded, aspectRemoved,
    associationCreated, associationRemoved]

def text : EventKind → String
  | nodeCreated => "NodeCreated"
  | nodeDeleted => "NodeDeleted"
  | nodeMoved => "NodeMoved"
  | nodeCopied => "NodeCopied"
  | propertiesUpdated => "PropertiesUpdated"
  | aspectAdded => "AspectAdded"
  | aspectRemoved => "AspectRemoved"
  | associationCreated => "AssociationCreated"
  | associationRemoved => "AssociationRemoved"

/-- The kind with the given text. -/
def ofText? (text : String) : Option EventKind :=
  all.find? fun kind => kind.text = text

end EventKind

namespace NodeEvent

def kind : NodeEvent → EventKind
  | created _ => .nodeCreated
  | deleted .. => .nodeDeleted
  | moved .. => .nodeMoved
  | copied .. => .nodeCopied
  | propertiesUpdated .. => .propertiesUpdated
  | aspectAdded .. => .aspectAdded
  | aspectRemoved .. => .aspectRemoved
  | associationCreated _ => .associationCreated
  | associationRemoved _ => .associationRemoved

/-- The node that the event is about; the source of a peer association. -/
def node : NodeEvent → NodeRef
  | created assoc => assoc.child
  | deleted node _ => node
  | moved _ destination => destination.child
  | copied _ copy => copy.child
  | propertiesUpdated node _ => node
  | aspectAdded node _ => node
  | aspectRemoved node _ => node
  | associationCreated assoc => assoc.source
  | associationRemoved assoc => assoc.source

/-- The node that the event brings into being. -/
def newNode? : NodeEvent → Option NodeRef
  | created assoc => some assoc.child
  | copied _ copy => some copy.child
  | _ => none

/-- What follows the kind of an event in JSON. -/
def content : NodeEvent → Json
  | created assoc => .ofMembers [("assoc", assoc.toJson)]
  | deleted node place =>
    .ofMembers
      [("node", node.toJson),
        ("primary_parent", match place with
          | some assoc => assoc.toJson
          | none => .null)]
  | moved origin destination =>
    .ofMembers [("from", origin.toJson), ("to", destination.toJson)]
  | copied source copy => .ofMembers [("source", source.toJson), ("copy", copy.toJson)]
  | propertiesUpdated node changed =>
    .ofMembers [("node", node.toJson), ("changed", .arr (changed.map QualifiedName.toJson))]
  | aspectAdded node aspect => .ofMembers [("node", node.toJson), ("aspect", aspect.toJson)]
  | aspectRemoved node aspect => .ofMembers [("node", node.toJson), ("aspect", aspect.toJson)]
  | associationCreated assoc => assoc.toJson
  | associationRemoved assoc => assoc.toJson

def toJson (event : NodeEvent) : Json :=
  .tagged event.kind.text event.content

end NodeEvent

end ContentRules
