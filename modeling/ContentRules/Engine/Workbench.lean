import ContentRules.Engine.Session

/-!
# Workbenches

A workbench is a session in which several parties take turns, each at a desk that goes by a name.
On a desk lies a unit of work, or a bare copy of the nodes with the version that they had.  What is
done at one desk shows at another only once it is committed, and only to a party that begins then.
-/

namespace ContentRules

/-- What lies on a desk. -/
inductive Desk where
  | work (work : UnitOfWork)
  | copy (base : Nat) (nodes : NodeStore)

/-- A session and the desks of those who take part in it. -/
structure Workbench where
  session : Session := {}
  desks : Std.ExtTreeMap String Desk := ∅

namespace Desk

def nodes : Desk → NodeStore
  | work unit => unit.nodes
  | copy _ nodes => nodes

/-- The version that the nodes were copied from. -/
def base : Desk → Nat
  | work unit => unit.baseVersion
  | copy base _ => base

/-- A bare copy of what lies on the desk, from the same version. -/
def bareCopy (desk : Desk) : Desk :=
  .copy desk.base desk.nodes

/-- The desk with other nodes on it. -/
def withNodes (nodes : NodeStore) : Desk → Desk
  | work unit => .work { unit with nodes }
  | copy base _ => .copy base nodes

end Desk

namespace Workbench

instance : Inhabited Workbench := ⟨{}⟩

/-- Lays something on a desk, in place of what lay there. -/
def put (bench : Workbench) (name : String) (desk : Desk) : Workbench :=
  { bench with desks := bench.desks.insert name desk }

/-- Clears a desk; the work on it is lost. -/
def clear (bench : Workbench) (name : String) : Workbench :=
  { bench with desks := bench.desks.erase name }

/-- Begins a unit of work. -/
def begin (bench : Workbench) (name : String) : Workbench :=
  bench.put name (.work bench.session.begin)

/-- Copies what is committed. -/
def checkOut (bench : Workbench) (name : String) : Workbench :=
  bench.put name (.copy bench.session.repository.version bench.session.repository.nodes)

/-- Performs an edit on the nodes of a desk; `none` if nothing lies there. -/
def edit (bench : Workbench) (name : String) (edit : Edit) :
    Option (Except Error edit.Answer × Workbench) :=
  bench.desks[name]?.map fun desk =>
    let (answer, { ids, nodes }) := edit.run { ids := bench.session.ids, nodes := desk.nodes }
    (answer, { bench with session := { bench.session with ids } }.put name (desk.withNodes nodes))

/-- Runs a routine on the unit of work of a desk; `none` if there is none, or if the budget of the
routine did not suffice. -/
def run {α : Type} (bench : Workbench) (name : String) (routine : Routine α) :
    Option (Except Error α × Workbench) :=
  match bench.desks[name]? with
  | some (.work work) => do
    let (outcome, work, session) ← bench.session.within work routine
    return (outcome, { bench with session }.put name (.work work))
  | _ => none

/-- Commits what lies on a desk and clears it; `none` if nothing lies there, or if the budget did
not suffice.  A bare copy has no rules to run. -/
def commit (bench : Workbench) (service : RuleService) (budget : Nat) (name : String) :
    Option (Except Error CommitReceipt × Workbench) :=
  let cleared := bench.clear name
  match bench.desks[name]? with
  | some (.work work) => do
    let (outcome, session) ← bench.session.commit service budget work
    return (outcome, { cleared with session })
  | some (.copy base nodes) =>
    match bench.session.repository.commit base nodes with
    | .ok repository =>
      some (.ok { version := repository.version, report := {} },
        { cleared with session := { bench.session with repository } })
    | .error error => some (.error error, cleared)
  | none => none

end Workbench

end ContentRules
