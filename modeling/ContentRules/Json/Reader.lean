import ContentRules.Json.Basic

/-!
# Reading JSON

`Json.parse?` reads a document that may have blanks around it and between its parts, and nothing
else.  Every reader below takes the characters that are left and returns what it read with the rest;
`none` means that the text is no JSON.  The readers of values count down a bound on their steps, and
the length of the text is always enough.
-/

namespace ContentRules.Json

/-- The blanks of JSON. -/
def isBlank (c : Char) : Bool :=
  c = ' ' || c = '\n' || c = '\t' || c = '\r'

/-- The text behind its leading blanks. -/
def skipBlanks (text : List Char) : List Char :=
  text.dropWhile isBlank

/-- A decimal digit. -/
def isDigit (c : Char) : Bool :=
  decide ('0' ≤ c) && decide (c ≤ '9')

/-- The digits at the front, at least one. -/
def readDigits (text : List Char) : Option (List Char × List Char) :=
  match text.takeWhile isDigit with
  | [] => none
  | digits => some (digits, text.dropWhile isDigit)

/-! ## Numbers -/

/-- The digits before the point: a single zero, or digits that begin with another one. -/
def readWhole (text : List Char) : Option (List Char × List Char) :=
  match readDigits text with
  | some ('0' :: _ :: _, _) => none
  | other => other

/-- The digits behind a point, if there is one. -/
def readFraction : List Char → Option (List Char × List Char)
  | '.' :: rest => readDigits rest
  | rest => some ([], rest)

/-- The sign of a power, which may be missing. -/
def readSign : List Char → Bool × List Char
  | '+' :: rest => (false, rest)
  | '-' :: rest => (true, rest)
  | rest => (false, rest)

/-- The power of ten, if its mark is there. -/
def readPower : List Char → Option (Option Power × List Char)
  | c :: rest =>
    if c = 'e' ∨ c = 'E' then
      let (negative, rest) := readSign rest
      (readDigits rest).map fun (digits, rest) => (some ⟨negative, digits⟩, rest)
    else some (none, c :: rest)
  | [] => some (none, [])

/-- A number without its minus sign. -/
def readUnsigned (negative : Bool) (text : List Char) : Option (Numeral × List Char) := do
  let (whole, rest) ← readWhole text
  let (fraction, rest) ← readFraction rest
  let (power, rest) ← readPower rest
  return (⟨negative, whole, fraction, power⟩, rest)

/-- A number. -/
def readNumber : List Char → Option (Numeral × List Char)
  | '-' :: rest => readUnsigned true rest
  | rest => readUnsigned false rest

/-! ## Strings -/

/-- The value of a digit in base 16. -/
def hexValue? (c : Char) : Option Nat :=
  if '0' ≤ c ∧ c ≤ '9' then some (c.toNat - '0'.toNat)
  else if 'a' ≤ c ∧ c ≤ 'f' then some (c.toNat - 'a'.toNat + 10)
  else if 'A' ≤ c ∧ c ≤ 'F' then some (c.toNat - 'A'.toNat + 10)
  else none

/-- The value of four digits in base 16. -/
def hexValue4? (a b c d : Char) : Option Nat := do
  let a ← hexValue? a
  let b ← hexValue? b
  let c ← hexValue? c
  let d ← hexValue? d
  return ((a * 16 + b) * 16 + c) * 16 + d

/-- What one unit of a string stands for: a character, or half of a surrogate pair. -/
inductive Unit16 where
  | char (c : Char)
  | high (n : Nat)
  | low (n : Nat)
deriving DecidableEq, Repr

/-- The unit of a four-digit escape. -/
def Unit16.ofNat (n : Nat) : Unit16 :=
  if 0xd800 ≤ n ∧ n ≤ 0xdbff then .high n
  else if 0xdc00 ≤ n ∧ n ≤ 0xdfff then .low n
  else .char (Char.ofNat n)

/-- The character of a short escape. -/
def shortEscape? : Char → Option Char
  | '"' => some '"'
  | '\\' => some '\\'
  | '/' => some '/'
  | 'b' => some '\x08'
  | 'f' => some '\x0c'
  | 'n' => some '\n'
  | 'r' => some '\r'
  | 't' => some '\t'
  | _ => none

/-- The units of a string whose opening quote was read, up to its closing quote. -/
def readUnits : List Char → Option (List Unit16 × List Char)
  | [] => none
  | '"' :: rest => some ([], rest)
  | '\\' :: 'u' :: a :: b :: c :: d :: rest => do
    let n ← hexValue4? a b c d
    let (units, rest) ← readUnits rest
    return (.ofNat n :: units, rest)
  | '\\' :: e :: rest => do
    let c ← shortEscape? e
    let (units, rest) ← readUnits rest
    return (.char c :: units, rest)
  | c :: rest =>
    if c = '\\' ∨ c.toNat < 0x20 then none
    else (readUnits rest).map fun (units, rest) => (.char c :: units, rest)

/-- The text of the units, if each half of a surrogate pair stands next to its other half. -/
def textOfUnits : List Unit16 → Option (List Char)
  | [] => some []
  | .char c :: units => (textOfUnits units).map (c :: ·)
  | .high h :: .low l :: units =>
    (textOfUnits units).map (Char.ofNat ((h - 0xd800) * 0x400 + (l - 0xdc00) + 0x10000) :: ·)
  | _ => none

/-- The rest of a string whose opening quote was read. -/
def readString (text : List Char) : Option (Option String × List Char) :=
  (readUnits text).map fun (units, rest) => ((textOfUnits units).map String.ofList, rest)

/-! ## Documents -/

/-- The text behind a word that it begins with. -/
def readWord : List Char → List Char → Option (List Char)
  | [], text => some text
  | w :: word, c :: text => if w = c then readWord word text else none
  | _ :: _, [] => none

mutual

/-- A value, at the first of its characters. -/
def readValue : Nat → List Char → Option (Json × List Char)
  | 0, _ => none
  | _ + 1, [] => none
  | bound + 1, c :: rest =>
    match c with
    | 'n' => (readWord ['u', 'l', 'l'] rest).map (Json.null, ·)
    | 't' => (readWord ['r', 'u', 'e'] rest).map (Json.bool true, ·)
    | 'f' => (readWord ['a', 'l', 's', 'e'] rest).map (Json.bool false, ·)
    | '"' => (readString rest).map fun (content, rest) => (Json.str content, rest)
    | '[' =>
      match skipBlanks rest with
      | ']' :: rest => some (.arr [], rest)
      | rest => do
        let (item, rest) ← readValue bound rest
        let (items, rest) ← readItems bound (skipBlanks rest)
        return (.arr (item :: items), rest)
    | '{' =>
      match skipBlanks rest with
      | '}' :: rest => some (.obj [], rest)
      | rest => do
        let (member, rest) ← readMember bound rest
        let (members, rest) ← readMembers bound (skipBlanks rest)
        return (.obj (member :: members), rest)
    | c => (readNumber (c :: rest)).map fun (numeral, rest) => (Json.num numeral, rest)

/-- The items behind the first, up to the closing bracket. -/
def readItems : Nat → List Char → Option (List Json × List Char)
  | 0, _ => none
  | _ + 1, ']' :: rest => some ([], rest)
  | bound + 1, ',' :: rest => do
    let (item, rest) ← readValue bound (skipBlanks rest)
    let (items, rest) ← readItems bound (skipBlanks rest)
    return (item :: items, rest)
  | _ + 1, _ => none

/-- A key and its value, at the key's opening quote. -/
def readMember : Nat → List Char → Option ((Option String × Json) × List Char)
  | 0, _ => none
  | bound + 1, '"' :: rest => do
    let (key, rest) ← readString rest
    match skipBlanks rest with
    | ':' :: rest =>
      let (value, rest) ← readValue bound (skipBlanks rest)
      return ((key, value), rest)
    | _ => none
  | _ + 1, _ => none

/-- The members behind the first, up to the closing brace. -/
def readMembers : Nat → List Char → Option (List (Option String × Json) × List Char)
  | 0, _ => none
  | _ + 1, '}' :: rest => some ([], rest)
  | bound + 1, ',' :: rest => do
    let (member, rest) ← readMember bound (skipBlanks rest)
    let (members, rest) ← readMembers bound (skipBlanks rest)
    return (member :: members, rest)
  | _ + 1, _ => none

end

/-- The document that the text is, if it is one. -/
def parse? (text : String) : Option Json :=
  let chars := text.toList
  match readValue (chars.length + 1) (skipBlanks chars) with
  | some (json, rest) => if skipBlanks rest = [] then some json else none
  | none => none

end ContentRules.Json
