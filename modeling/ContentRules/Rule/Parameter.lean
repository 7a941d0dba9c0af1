import ContentRules.Error

/-!
# Parameters

A definition declares parameters, each of a kind and mandatory or not; a rule gives them values.  A
value that is absent and one that is `null` count alike.  Reading a parameter by type and checking
it against its declaration are two things that handlers and definitions do on their own.
-/

namespace ContentRules

/-- What a parameter's value must be. -/
inductive ParameterKind where
  | text
  | name
  | node
  | bool
  | int
  | any
deriving DecidableEq, Repr

/-- A parameter that a definition declares. -/
structure ParameterDefinition where
  name : String
  kind : ParameterKind
  mandatory : Bool := false
  displayLabel : String := ""
deriving DecidableEq, Repr

/-- The values of parameters, in the order of their names. -/
structure ParameterValues where
  values : Std.ExtTreeMap String Value := ∅

namespace ParameterKind

/-- The kind in directories. -/
def word : ParameterKind → String
  | text => "text"
  | name => "name"
  | node => "node"
  | bool => "bool"
  | int => "int"
  | any => "any"

/-- The kind in messages. -/
def inspect : ParameterKind → String
  | text => "Text"
  | name => "Name"
  | node => "Node"
  | bool => "Bool"
  | int => "Int"
  | any => "Any"

/-- The kind that a word names. -/
def ofWord? (word : String) : Option ParameterKind :=
  [text, name, node, bool, int, any].find? fun kind => kind.word = word

/-- Whether a value is of the kind.  Text that reads as a name or a node reference is one. -/
def accepts : ParameterKind → Value → Bool
  | text, value => value.asText.isSome
  | name, value => value.asName.isSome
  | node, value => value.asNode.isSome
  | bool, value => value.asBool.isSome
  | int, value => value.asInt.isSome
  | any, _ => true

end ParameterKind

namespace ParameterValues

instance : Inhabited ParameterValues := ⟨{}⟩

def get? (parameters : ParameterValues) (name : String) : Option Value :=
  parameters.values[name]?

def insert (parameters : ParameterValues) (name : String) (value : Value) : ParameterValues :=
  ⟨parameters.values.insert name value⟩

def size (parameters : ParameterValues) : Nat :=
  parameters.values.size

def toList (parameters : ParameterValues) : List (String × Value) :=
  parameters.values.toList

def ofList (entries : List (String × Value)) : ParameterValues :=
  ⟨Std.ExtTreeMap.insertMany ∅ entries⟩

/-! ## Reading by type

`definition` is the definition that is blamed for a fault. -/

/-- The value as `read` takes it; `expected` says what it should have been. -/
def typed {α : Type} (parameters : ParameterValues) (expected : String) (read : Value → Option α)
    (definition name : String) : Except Error (Option α) :=
  match parameters.get? name with
  | none | some .null => .ok none
  | some value =>
    match read value with
    | some result => .ok (some result)
    | none => (Cause.invalidParameter definition name (.unexpected expected value)).raise

/-- A value that must be there. -/
def present {α : Type} (definition name : String) : Option α → Except Error α
  | some value => .ok value
  | none => (Cause.invalidParameter definition name .missing).raise

def optionalName (parameters : ParameterValues) (definition name : String) :
    Except Error (Option QualifiedName) :=
  parameters.typed "qualified name" Value.asName definition name

def requireName (parameters : ParameterValues) (definition name : String) :
    Except Error QualifiedName := do
  present definition name (← parameters.optionalName definition name)

def requireNode (parameters : ParameterValues) (definition name : String) :
    Except Error NodeRef := do
  present definition name (← parameters.typed "node reference" Value.asNode definition name)

def optionalText (parameters : ParameterValues) (definition name : String) :
    Except Error (Option String) :=
  parameters.typed "text" Value.asText definition name

def optionalBool (parameters : ParameterValues) (definition name : String) :
    Except Error (Option Bool) :=
  parameters.typed "boolean" Value.asBool definition name

/-- A value of any kind but `null`. -/
def requireValue (parameters : ParameterValues) (definition name : String) : Except Error Value :=
  present definition name ((parameters.get? name).filter fun value => !value.isNull)

end ParameterValues

namespace ParameterDefinition

/-- Checks the value of a declared parameter. -/
def check (declared : ParameterDefinition) (definition : String) :
    Option Value → Except Error Unit
  | none | some .null =>
    if declared.mandatory then
      (Cause.invalidParameter definition declared.name .missing).raise
    else .ok ()
  | some value =>
    if declared.kind.accepts value then .ok ()
    else
      (Cause.invalidParameter definition declared.name
        (.unexpected declared.kind.inspect value)).raise

/-- Checks the values of the declared parameters in their order; others are not looked at. -/
def checkAll (declared : List ParameterDefinition) (definition : String)
    (parameters : ParameterValues) : Except Error Unit :=
  declared.forM fun parameter => parameter.check definition (parameters.get? parameter.name)

end ParameterDefinition

end ContentRules
