import ContentRules.Engine.Script

/-!
# Actionable nodes

A node with rules has a folder of its own for their configuration, beneath a system folder that the
root of its store has under a fixed name.
-/

namespace ContentRules.Actionable

open Vocabulary

/-- The configuration folder of a node: the target of its first association of that kind. -/
def configurationFolder? (nodes : NodeStore) (node : NodeRef) : Except Error (Option NodeRef) := do
  return ((← nodes.targetsOf node (some configurationsRelation)).head?).map PeerAssociation.target

def isActionable (nodes : NodeStore) (node : NodeRef) : Except Error Bool :=
  nodes.hasAspect node actionableAspect

/-- The system folder of the store that a root belongs to, made if it is missing. -/
def systemFolder (root : NodeRef) : Script NodeRef := do
  let children ← (← Script.nodes).childrenOf root (some systemConfigurationChild)
  match children.find? (·.relation = childrenRelation) with
  | some assoc => return assoc.child
  | none =>
    let assoc ← Script.apply
      (.createNode root childrenRelation systemConfigurationChild systemFolderType [])
    return assoc.child

/-- The configuration folder of a node, made if it is missing.  Making it marks the node as
actionable. -/
def makeActionable (node : NodeRef) : Script NodeRef := do
  let nodes ← Script.nodes
  match ← configurationFolder? nodes node with
  | some folder => return folder
  | none =>
    let root ← nodes.rootOf node.store
    let system ← systemFolder root
    let assoc ← Script.apply
      (.createNode system containsRelation configurationsChild configurationsType [])
    Script.apply (.addAspect node actionableAspect [])
    discard <| Script.apply (.createAssociation node assoc.child configurationsRelation)
    return assoc.child

/-- Has the rules of a copied node copied at the commit, if it has any and the copy is still
there. -/
def copyRulesWithNode : NodeEvent → Script Unit
  | .copied source copy => do
    let view ← Script.view
    if view.rules.hasRules source && view.work.nodes.hasNode copy.child then
      discard <| makeActionable copy.child
      Script.copyRulesAtCommit source copy.child
  | _ => return ()

end ContentRules.Actionable
