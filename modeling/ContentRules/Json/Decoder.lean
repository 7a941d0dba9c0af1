import ContentRules.Json.Reader

/-!
# Reading typed values from JSON

A decoder takes the number of arrays and objects that may still be entered, one inside the other,
and a document.  A record is an object, in which unknown members are skipped and a known one may
stand once, or an array of its fields in order.  A choice is a string, or an object with one member.
-/

namespace ContentRules

/-- Reads a value from a document, at most the given number of levels deep. -/
abbrev Decoder (α : Type) := Nat → Json → Option α

namespace Json

/-- How many arrays and objects may stand one inside the other. -/
def nestingLimit : Nat := 127

/-- Reads a text as a document and the document as a value. -/
def decode? {α : Type} (decoder : Decoder α) (text : String) : Option α :=
  (parse? text).bind (decoder nestingLimit)

end Json

namespace Decoder

/-- A string that denotes a text. -/
def string : Decoder String
  | _, .str content => content
  | _, _ => none

def bool : Decoder Bool
  | _, .bool value => some value
  | _, _ => none

/-- An integer between the bounds, both included. -/
def int (least greatest : Int) : Decoder Int
  | _, .num numeral => numeral.toInt?.filter fun n => least ≤ n && n ≤ greatest
  | _, _ => none

/-- A natural number that a 32-bit word holds. -/
def word32 : Decoder Nat := fun depth json =>
  (int 0 0xffffffff depth json).map Int.toNat

/-- A number, rounded; one that is out of range is refused. -/
def binary64 : Decoder Binary64
  | _, .num numeral => numeral.toBinary64?
  | _, _ => none

/-- `null` for an absent value. -/
def option {α : Type} (decoder : Decoder α) : Decoder (Option α)
  | _, .null => some none
  | depth, json => (decoder depth json).map some

/-- An array of values. -/
def list {α : Type} (decoder : Decoder α) : Decoder (List α)
  | depth + 1, .arr items => items.mapM (decoder depth)
  | _, _ => none

/-- One of several words, written as a string or as the key of `null`. -/
def choice {α : Type} (meaning : String → Option α) : Decoder α
  | _, .str (some word) => meaning word
  | _ + 1, .obj [(some word, .null)] => meaning word
  | _, _ => none

/-! ## Records -/

/-- The value of a member that may stand once: `none` if it stands twice, and `some none` if it
does not stand at all. -/
def member? (name : String) (members : List (Option String × Json)) : Option (Option Json) :=
  match members.filter fun (key, _) => key = some name with
  | [] => some none
  | [(_, value)] => some (some value)
  | _ => none

/-- The fields of a record by name, each one present or not. -/
def fields? (names : List String) : Json → Option (List (Option Json))
  | .obj members =>
    if members.any fun (key, _) => key.isNone then none
    else names.mapM (member? · members)
  | .arr items =>
    if names.length < items.length then none
    else some ((items.map some) ++ List.replicate (names.length - items.length) none)
  | _ => none

/-- A field that must be present. -/
def required {α : Type} (decoder : Decoder α) (depth : Nat) (field : Option Json) : Option α :=
  field.bind (decoder depth)

/-- A field with a value for when it is absent. -/
def optional {α : Type} (decoder : Decoder α) (missing : α) (depth : Nat) :
    Option Json → Option α
  | none => some missing
  | some json => decoder depth json

end Decoder

end ContentRules
