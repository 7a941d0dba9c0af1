import ContentRules.Decimal.Numeral

/-!
# JSON documents

The syntax tree of a JSON text, with numbers as they are written and the members of an object in
their order, repeated keys included.
-/

namespace ContentRules

/-- A JSON document.  A string that escapes half of a surrogate pair is a string by syntax and
stands for no text; `none` is written for it. -/
inductive Json where
  | null
  | bool (value : Bool)
  | num (numeral : Numeral)
  | str (content : Option String)
  | arr (items : List Json)
  | obj (members : List (Option String × Json))

namespace Json

instance : Inhabited Json := ⟨null⟩

/-- A document that is a text. -/
def ofString (content : String) : Json :=
  .str (some content)

/-- An integer. -/
def ofInt (n : Int) : Json :=
  .num (.ofInt n)

/-- An object with the given members. -/
def ofMembers (members : List (String × Json)) : Json :=
  .obj (members.map fun (key, value) => (some key, value))

/-- An object with one member, as a choice between alternatives is written. -/
def tagged (tag : String) (content : Json) : Json :=
  ofMembers [(tag, content)]

end Json

end ContentRules
