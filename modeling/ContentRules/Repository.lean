import ContentRules.NodeStore.Change

/-!
# The repository

The repository holds the node store that was committed last, with a version that counts commits.  A
unit of work takes a copy with the version, changes it alone, and commits it only if nobody
committed in between.
-/

namespace ContentRules

/-- The committed nodes and the number of commits that led to them. -/
structure Repository where
  nodes : NodeStore := {}
  version : Nat := 0

namespace Repository

/-- A repository that begins with these nodes. -/
def ofNodes (nodes : NodeStore) : Repository :=
  { nodes }

/-- A repository that begins with one store. -/
def withStore (protocol identifier : String) (ids : IdSupply) :
    Except Error (Repository × StoreRef) × IdSupply :=
  let (answer, state) := (Change.createStore protocol identifier).run.run { ids }
  (answer.map fun store => (ofNodes state.nodes.takeEvents.2, store), state.ids)

/-- Makes `nodes`, without its events, the committed nodes, if the version is still `base`. -/
def commit (repository : Repository) (base : Nat) (nodes : NodeStore) : Except Error Repository :=
  if repository.version = base then
    .ok { nodes := nodes.takeEvents.2, version := repository.version + 1 }
  else
    (Cause.concurrentModification base repository.version).raise

end Repository

end ContentRules
