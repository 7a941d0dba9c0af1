import ContentRules.Reference.Json
import ContentRules.Value.Basic

/-!
# Property values in JSON

A value is written as its kind: `"Null"`, or an object whose one key is the kind.  A float that is
not finite is written `null` and is not read back.
-/

namespace ContentRules.Value

/-- The bounds of a 64-bit integer. -/
def leastInt : Int := -0x8000000000000000

@[inherit_doc leastInt] def greatestInt : Int := 0x7fffffffffffffff

mutual

def toJson : Value → Json
  | null => .ofString "Null"
  | bool value => .tagged "Bool" (.bool value)
  | int value => .tagged "Int" (.ofInt value.toInt)
  | float value =>
    .tagged "Float" (match value.numeral? Layout.json with
      | some numeral => .num numeral
      | none => .null)
  | text value => .tagged "Text" (.ofString value)
  | node value => .tagged "Node" value.toJson
  | name value => .tagged "Name" value.toJson
  | list items => .tagged "List" (.arr (toJsonAll items))

def toJsonAll : List Value → List Json
  | [] => []
  | item :: items => toJson item :: toJsonAll items

end

/-- A value of any kind but a list, from its kind and content. -/
def scalar? (depth : Nat) (kind : String) (content : Json) : Option Value :=
  match kind with
  | "Null" => match content with
    | .null => some null
    | _ => none
  | "Bool" => (Decoder.bool depth content).map bool
  | "Int" => (Decoder.int leastInt greatestInt depth content).map fun n => int (Int64.ofInt n)
  | "Float" => (Decoder.binary64 depth content).map float
  | "Text" => (Decoder.string depth content).map text
  | "Node" => (NodeRef.decoder depth content).map node
  | "Name" => (QualifiedName.decoder depth content).map name
  | _ => none

/-- A list takes two levels, one for its kind and one for its items. -/
def decoder : Decoder Value
  | depth + 2, .obj [(some "List", .arr items)] => (items.mapM (decoder depth)).map list
  | depth + 1, .obj [(some kind, content)] => scalar? depth kind content
  | _, .str (some "Null") => some null
  | _, _ => none

end ContentRules.Value
