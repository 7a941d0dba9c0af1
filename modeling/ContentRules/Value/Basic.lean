import ContentRules.Decimal.Layout
import ContentRules.Reference.Parser
import ContentRules.Text.Quoted

/-!
# Property values

A value is what a property of a node or a parameter of a rule holds.  Equality is that of the data:
two floats are equal if their bits are.  A value has a text that messages and text comparisons use,
and an inspection text that shows of which kind it is.
-/

namespace ContentRules

/-- The value of a property or of a rule's parameter. -/
inductive Value where
  | null
  | bool (value : Bool)
  | int (value : Int64)
  | float (value : Binary64)
  | text (value : String)
  | node (value : NodeRef)
  | name (value : QualifiedName)
  | list (items : List Value)
deriving Repr

namespace Value

instance : Inhabited Value := ⟨null⟩

/-! ## Equality -/

mutual

/-- Decides equality. -/
def same : Value → Value → Bool
  | null, null => true
  | bool a, bool b => a == b
  | int a, int b => a == b
  | float a, float b => decide (a = b)
  | text a, text b => a == b
  | node a, node b => decide (a = b)
  | name a, name b => decide (a = b)
  | list a, list b => sameAll a b
  | _, _ => false

/-- Decides equality of lists of values. -/
def sameAll : List Value → List Value → Bool
  | [], [] => true
  | a :: as, b :: bs => same a b && sameAll as bs
  | _, _ => false

end

mutual

theorem same_iff : ∀ a b : Value, same a b = true ↔ a = b
  | null, b => by cases b <;> simp [same]
  | bool a, b => by cases b <;> simp [same]
  | int a, b => by cases b <;> simp [same]
  | float a, b => by cases b <;> simp [same]
  | text a, b => by cases b <;> simp [same]
  | node a, b => by cases b <;> simp [same]
  | name a, b => by cases b <;> simp [same]
  | list a, b => by
    cases b with
    | list b => simp [same, sameAll_iff a b]
    | _ => simp [same]

theorem sameAll_iff : ∀ as bs : List Value, sameAll as bs = true ↔ as = bs
  | [], bs => by cases bs <;> simp [sameAll]
  | a :: as, bs => by
    cases bs with
    | nil => simp [sameAll]
    | cons b bs => simp [sameAll, same_iff a b, sameAll_iff as bs]

end

instance : DecidableEq Value := fun a b => decidable_of_iff _ (same_iff a b)

/-! ## Kinds -/

def isNull : Value → Bool
  | null => true
  | _ => false

def asBool : Value → Option Bool
  | bool value => some value
  | _ => none

def asInt : Value → Option Int64
  | int value => some value
  | _ => none

def asText : Value → Option String
  | text value => some value
  | _ => none

/-- A node reference, or text that reads as one. -/
def asNode : Value → Option NodeRef
  | node value => some value
  | text value => (NodeRef.parse value).toOption
  | _ => none

/-- A qualified name, or text that reads as one. -/
def asName : Value → Option QualifiedName
  | name value => some value
  | text value => (QualifiedName.parse value).toOption
  | _ => none

def asList : Value → Option (List Value)
  | list items => some items
  | _ => none

/-! ## Texts -/

mutual

/-- The text of a value in messages. -/
def display : Value → String
  | null => "null"
  | bool value => toString value
  | int value => toString value.toInt
  | float value => value.text
  | text value => value
  | node value => value.text
  | name value => value.text
  | list items => "[" ++ ", ".intercalate (displayAll items) ++ "]"

def displayAll : List Value → List String
  | [] => []
  | item :: items => display item :: displayAll items

end

mutual

/-- The text of a value with its kind. -/
def inspect : Value → String
  | null => "Null"
  | bool value => "Bool(" ++ toString value ++ ")"
  | int value => "Int(" ++ toString value.toInt ++ ")"
  | float value => "Float(" ++ value.text ++ ")"
  | text value => "Text(" ++ Text.quoted value ++ ")"
  | node value => "NodeRef(" ++ value.text ++ ")"
  | name value => "QName(" ++ value.text ++ ")"
  | list items => "[" ++ ", ".intercalate (inspectAll items) ++ "]"

def inspectAll : List Value → List String
  | [] => []
  | item :: items => inspect item :: inspectAll items

end

/-- The text that comparisons by text look at; `null` and lists have none. -/
def toText? : Value → Option String
  | null => none
  | list _ => none
  | value => some value.display

end Value

end ContentRules
