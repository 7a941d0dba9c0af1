import ContentRules.NodeStore.Basic

/-!
# Outlines

The outline of a node store lists all of its nodes: store by store, each node before its children,
and children in the order in which they came.
-/

namespace ContentRules

/-- A node where an outline comes to it: how deep it lies beneath its root, and the name of its
place, or of its store if it is a root. -/
structure OutlineEntry where
  depth : Nat
  name : String
  node : NodeRef
deriving DecidableEq, Repr

namespace NodeStore

/-- A node and all beneath it, at most `levels` generations. -/
def outlineFrom (nodes : NodeStore) : Nat → OutlineEntry → List OutlineEntry
  | 0, _ => []
  | levels + 1, entry =>
    entry :: (nodes.children.itemsOf entry.node).flatMap fun assoc =>
      nodes.outlineFrom levels
        { depth := entry.depth + 1, name := assoc.name.text, node := assoc.child }

/-- All nodes.  No branch of a tree has more generations than there are nodes. -/
def outline (nodes : NodeStore) : List OutlineEntry :=
  nodes.roots.toList.flatMap fun (store, root) =>
    nodes.outlineFrom nodes.size { depth := 0, name := store.text, node := root }

end NodeStore

end ContentRules
