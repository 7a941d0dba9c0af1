import ContentRules.Engine.Handler

/-!
# Built-in rule types

Rules are triggered by what happens to the contents of the folder that they are attached to:

| Rule type  | Event                                             | Folder        |
|------------|---------------------------------------------------|---------------|
| `inbound`  | a node was created, copied or moved into a folder | the new one   |
| `outbound` | a node was moved out of a folder                  | the former one|
| `update`   | properties of a node changed that is not new      | its folder    |

Only the relation between a folder and what it contains counts, and the folders that belong to the
repository itself trigger nothing.  A move within a folder is neither inbound nor outbound.
-/

namespace ContentRules.Builtin.Triggers

open Vocabulary

def inbound : String := "inbound"

def outbound : String := "outbound"

def update : String := "update"

/-- The names of the adapters. -/
def names : List String :=
  [inbound, outbound, update]

/-- When the rules of a type are triggered. -/
inductive Trigger where
  | inbound
  | outbound
  | update
deriving DecidableEq, Repr

namespace Trigger

/-- The kinds of events that are listened to. -/
def kinds : Trigger → List EventKind
  | inbound => [.nodeCreated, .nodeCopied, .nodeMoved]
  | outbound => [.nodeMoved]
  | update => [.propertiesUpdated]

/-- The place whose folder has its rules triggered by an event, if any has. -/
def place? (trigger : Trigger) (work : UnitOfWork) (event : NodeEvent) :
    Option ChildAssociation :=
  match trigger, event with
  | inbound, .created assoc => some assoc
  | inbound, .copied _ copy => some copy
  | inbound, .moved origin destination =>
    if origin.parent = destination.parent then none else some destination
  | outbound, .moved origin destination =>
    if origin.parent = destination.parent then none else some origin
  | update, .propertiesUpdated node _ =>
    if work.nodes.hasNode node ∧ ¬ work.isNew node then work.nodes.parents[node]? else none
  | _, _ => none

end Trigger

/-- Whether a node of this type belongs to the repository itself. -/
def isInternalType (nodeType : QualifiedName) : Bool :=
  nodeType = configurationsType || nodeType = systemFolderType

/-- Whether the rules of the folder of a place are triggered for the node there. -/
def triggers (work : UnitOfWork) (place : ChildAssociation) : Bool :=
  place.relation = containsRelation && work.nodes.hasNode place.parent &&
    (match work.nodes.records[place.child]? with
      | some record => !isInternalType record.nodeType
      | none => false) &&
    work.rulesEnabled place.parent

/-- Queues the rules of a type that an event triggers. -/
def react (trigger : Trigger) (ruleType : String) (event : NodeEvent) : Script Unit := do
  let view ← Script.view
  match trigger.place? view.work event with
  | none => return ()
  | some place =>
    if triggers view.work place then
      (view.rules.getByType view.work.nodes place.parent ruleType).forM fun rule =>
        discard <| Script.queue place.parent place.child rule

/-- The adapter that triggers the rules of a type. -/
def makeAdapter (trigger : Trigger) (ruleType : RuleType) : Except Error Adapter :=
  .ok {
    ruleType
    behaviours := trigger.kinds.map fun kind =>
      { kind, react := react trigger ruleType.name } }

/-- The registry with these adapters. -/
def register (registry : HandlerRegistry) : HandlerRegistry :=
  registry
    |>.addAdapter inbound (makeAdapter .inbound)
    |>.addAdapter outbound (makeAdapter .outbound)
    |>.addAdapter update (makeAdapter .update)

end ContentRules.Builtin.Triggers
