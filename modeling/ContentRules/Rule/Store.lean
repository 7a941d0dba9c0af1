import ContentRules.NodeStore.Basic
import ContentRules.Rule.Basic

/-!
# Rules by node

The rule store keeps the rules attached to each node in the order in which they were attached, each
id once.  The rules in force at a node are those of its ancestors that apply to children, from the
root down, and then its own; of several with one id the first is in force.
-/

namespace ContentRules

/-- The rules attached to nodes. -/
structure RuleStore where
  attached : NodeIndex Rule := ∅

namespace RuleStore

instance : Inhabited RuleStore := ⟨{}⟩

/-- The rules attached to a node itself. -/
def own (rules : RuleStore) (node : NodeRef) : List Rule :=
  rules.attached.itemsOf node

def hasRules (rules : RuleStore) (node : NodeRef) : Bool :=
  !(rules.own node).isEmpty

/-- The rule instead of the one with its id, or last if there is none. -/
def place (rule : Rule) : List Rule → List Rule
  | [] => [rule]
  | other :: rest => if other.id = rule.id then rule :: rest else other :: place rule rest

/-- Attaches a rule to a node. -/
def put (rules : RuleStore) (node : NodeRef) (rule : Rule) : RuleStore :=
  ⟨rules.attached.insert node (place rule (rules.own node))⟩

/-- Whether a rule with this id is attached to the node. -/
def isAttached (rules : RuleStore) (node : NodeRef) (id : String) : Bool :=
  (rules.own node).any (·.id = id)

/-- Detaches the rule with this id from a node. -/
def remove (rules : RuleStore) (node : NodeRef) (id : String) : RuleStore :=
  ⟨rules.attached.removeWhere node (·.id = id)⟩

/-- Detaches the rule with this id from a node, and says whether that left the node fewer rules. -/
def detach (rules : RuleStore) (node : NodeRef) (id : String) : Bool × RuleStore :=
  let before := rules.own node
  let detached := rules.remove node id
  ((detached.own node).length ≠ before.length, detached)

/-- Attaches the rules of a node to another one, in their order. -/
def copyRules (rules : RuleStore) (source target : NodeRef) : RuleStore :=
  (rules.own source).foldl (fun rules rule => rules.put target rule) rules

/-! ## Rules in force -/

/-- The rules without those whose id came earlier. -/
def firstById (rules : List Rule) : List Rule :=
  rules.foldl (fun kept rule => if kept.any (·.id = rule.id) then kept else kept ++ [rule]) []

/-- The rules that a node has from its ancestors, from the root down. -/
def inherited (rules : RuleStore) (nodes : NodeStore) (node : NodeRef) : List Rule :=
  if nodes.hasNode node then
    (nodes.climb nodes.size node).reverse.flatMap fun ancestor =>
      (rules.own ancestor).filter Rule.appliesToChildren
  else []

/-- The rules at a node, with or without inherited ones. -/
def get (rules : RuleStore) (nodes : NodeStore) (node : NodeRef) (includeInherited : Bool) :
    List Rule :=
  firstById ((if includeInherited then rules.inherited nodes node else []) ++ rules.own node)

/-- The rule in force at a node that has this id. -/
def getById? (rules : RuleStore) (nodes : NodeStore) (node : NodeRef) (id : String) :
    Option Rule :=
  (rules.get nodes node true).find? (·.id = id)

/-- The rules in force at a node that are of a type. -/
def getByType (rules : RuleStore) (nodes : NodeStore) (node : NodeRef) (ruleType : String) :
    List Rule :=
  (rules.get nodes node true).filter (·.isOfType ruleType)

end RuleStore

end ContentRules
