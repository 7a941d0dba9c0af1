import ContentRules.Engine.Handler

/-!
# Built-in actions

Each action changes the node acted upon: its aspects, a property, or its place; or it copies it.
-/

namespace ContentRules.Builtin.Actions

open Vocabulary

/-! ## Names -/

def addFeatures : String := "add-features"

def removeFeatures : String := "remove-features"

def setPropertyValue : String := "set-property-value"

def copy : String := "copy"

def move : String := "move"

def aspectNameParameter : String := "aspect-name"

def propertyParameter : String := "property"

def valueParameter : String := "value"

def destinationFolderParameter : String := "destination-folder"

def deepCopyParameter : String := "deep-copy"

/-- The names of the actions. -/
def names : List String :=
  [addFeatures, removeFeatures, setPropertyValue, copy, move]

/-- The names of their parameters. -/
def parameterNames : List String :=
  [aspectNameParameter, propertyParameter, valueParameter, destinationFolderParameter,
    deepCopyParameter]

/-! ## Executors -/

def makeAddFeatures (action : Action) : Except Error Executor := do
  let aspect ← action.parameters.requireName action.definition.name aspectNameParameter
  return fun _ node => Script.apply (.addAspect node aspect [])

def makeRemoveFeatures (action : Action) : Except Error Executor := do
  let aspect ← action.parameters.requireName action.definition.name aspectNameParameter
  return fun _ node => discard <| Script.apply (.removeAspect node aspect)

def makeSetPropertyValue (action : Action) : Except Error Executor := do
  let property ← action.parameters.requireName action.definition.name propertyParameter
  let value ← action.parameters.requireValue action.definition.name valueParameter
  return fun _ node => Script.apply (.setProperties node [(property, value)])

/-- The name that a node has beneath its parent; a root goes by its id. -/
def nameOf (node : NodeRef) : Script QualifiedName := do
  match ← (← Script.nodes).parentOf? node with
  | some assoc => return assoc.name
  | none => return ⟨"", node.id⟩

def makeCopy (action : Action) : Except Error Executor := do
  let destination ←
    action.parameters.requireNode action.definition.name destinationFolderParameter
  let deep ← action.parameters.optionalBool action.definition.name deepCopyParameter
  return fun _ node => do
    let name ← nameOf node
    discard <| Script.apply
      (.copyNode node destination containsRelation name (deep.getD false))

def makeMove (action : Action) : Except Error Executor := do
  let destination ←
    action.parameters.requireNode action.definition.name destinationFolderParameter
  return fun _ node => do
    let name ← nameOf node
    discard <| Script.apply (.moveNode node destination containsRelation name)

/-- The registry with these executors. -/
def register (registry : HandlerRegistry) : HandlerRegistry :=
  registry
    |>.addExecutor addFeatures makeAddFeatures
    |>.addExecutor removeFeatures makeRemoveFeatures
    |>.addExecutor setPropertyValue makeSetPropertyValue
    |>.addExecutor copy makeCopy
    |>.addExecutor move makeMove

end ContentRules.Builtin.Actions
