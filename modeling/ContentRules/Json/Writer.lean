import ContentRules.Json.Basic

/-!
# Writing JSON

`Json.compact` writes a document without blanks.  In strings the double quote, the backslash and the
control characters are escaped, with the short escape where there is one.
-/

namespace ContentRules.Json

/-- A digit in base 16, lower case. -/
def hexDigit (n : Nat) : Char :=
  Nat.digitChar n

/-- How one character stands in a string. -/
def escapedChar (c : Char) : List Char :=
  match c with
  | '"' => ['\\', '"']
  | '\\' => ['\\', '\\']
  | '\n' => ['\\', 'n']
  | '\r' => ['\\', 'r']
  | '\t' => ['\\', 't']
  | '\x08' => ['\\', 'b']
  | '\x0c' => ['\\', 'f']
  | c =>
    if c.toNat < 0x20 then
      ['\\', 'u', '0', '0', hexDigit (c.toNat / 16), hexDigit (c.toNat % 16)]
    else [c]

/-- A string with its quotes; half of a surrogate pair where there is no text. -/
def quotedChars : Option String → List Char
  | some content => '"' :: (content.toList.flatMap escapedChar ++ ['"'])
  | none => ['"', '\\', 'u', 'd', '8', '0', '0', '"']

mutual

/-- The characters of a document. -/
def chars : Json → List Char
  | .null => ['n', 'u', 'l', 'l']
  | .bool true => ['t', 'r', 'u', 'e']
  | .bool false => ['f', 'a', 'l', 's', 'e']
  | .num numeral => numeral.chars
  | .str content => quotedChars content
  | .arr [] => ['[', ']']
  | .arr (item :: items) => '[' :: (chars item ++ itemChars items)
  | .obj [] => ['{', '}']
  | .obj ((key, value) :: members) =>
    '{' :: (quotedChars key ++ ':' :: (chars value ++ memberChars members))

/-- The items behind the first, and the closing bracket. -/
def itemChars : List Json → List Char
  | [] => [']']
  | item :: items => ',' :: (chars item ++ itemChars items)

/-- The members behind the first, and the closing brace. -/
def memberChars : List (Option String × Json) → List Char
  | [] => ['}']
  | (key, value) :: members =>
    ',' :: (quotedChars key ++ ':' :: (chars value ++ memberChars members))

end

/-- The text of a document, without blanks. -/
def compact (json : Json) : String :=
  String.ofList json.chars

end ContentRules.Json
