import ContentRules.Text.Unprintable

/-!
# Quoted text

The inspection form of a text: between double quotes, with a backslash before a double quote or a
backslash, the short escapes for tab, line feed, carriage return and the null character, and the
code point in braces for whatever else has no glyph of its own.
-/

namespace ContentRules.Text

/-- The digits of `n` in base 16, lower case. -/
def hexDigits (n : Nat) : String :=
  String.ofList (Nat.toDigits 16 n)

/-- How one character stands between the quotes. -/
def quotedChar (c : Char) : String :=
  match c with
  | '\x00' => "\\0"
  | '\t' => "\\t"
  | '\r' => "\\r"
  | '\n' => "\\n"
  | '"' => "\\\""
  | '\\' => "\\\\"
  | c => if isUnprintable c then "\\u\x7b" ++ hexDigits c.toNat ++ "\x7d" else c.toString

/-- The text between double quotes. -/
def quoted (text : String) : String :=
  "\"" ++ text.foldl (fun written c => written ++ quotedChar c) "" ++ "\""

end ContentRules.Text
