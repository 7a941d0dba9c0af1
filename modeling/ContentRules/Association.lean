import ContentRules.Reference.Json

/-!
# Associations

A child association places a node beneath its parent under a name; every node but a store root has
one.  A peer association joins a source with a target and changes nothing about where they are.
-/

namespace ContentRules

/-- A node's place: the parent, the kind of relation to it, and the name there. -/
structure ChildAssociation where
  relation : QualifiedName
  parent : NodeRef
  name : QualifiedName
  child : NodeRef
deriving DecidableEq, Repr

/-- A directed link between two nodes. -/
structure PeerAssociation where
  source : NodeRef
  target : NodeRef
  relation : QualifiedName
deriving DecidableEq, Repr

namespace ChildAssociation

def text (assoc : ChildAssociation) : String :=
  assoc.parent.text ++ " -[" ++ assoc.relation.text ++ " " ++ assoc.name.text ++ "]-> " ++
    assoc.child.text

def toJson (assoc : ChildAssociation) : Json :=
  .ofMembers
    [("assoc_type", assoc.relation.toJson), ("parent", assoc.parent.toJson),
      ("qname", assoc.name.toJson), ("child", assoc.child.toJson)]

end ChildAssociation

namespace PeerAssociation

def text (assoc : PeerAssociation) : String :=
  assoc.source.text ++ " -[" ++ assoc.relation.text ++ "]-> " ++ assoc.target.text

def toJson (assoc : PeerAssociation) : Json :=
  .ofMembers
    [("source", assoc.source.toJson), ("target", assoc.target.toJson),
      ("assoc_type", assoc.relation.toJson)]

end PeerAssociation

end ContentRules
