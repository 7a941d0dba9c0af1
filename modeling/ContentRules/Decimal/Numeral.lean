import ContentRules.Decimal.Binary64

/-!
# Decimal numerals

A numeral is the parts of a decimal number as it is written: sign, whole digits, digits behind the
point and a power of ten.  It is read as an integer, or as a double-precision number.

The second reading keeps the digits in a 64-bit significand.  Digits that no longer fit are dropped,
those before the point counted as powers of ten, and the significand is scaled by one rounded
multiplication or division.  So a long numeral need not be read as the number nearest to it.
-/

namespace ContentRules

/-- The power of ten behind a numeral's mark `e`. -/
structure Power where
  negative : Bool
  digits : List Char
deriving DecidableEq, Repr

/-- A decimal number as it is written; no point stands in it if `fraction` is empty. -/
structure Numeral where
  negative : Bool
  whole : List Char
  fraction : List Char
  power : Option Power
deriving DecidableEq, Repr

namespace Numeral

/-- The natural number that decimal digits stand for. -/
def value (digits : List Char) : Nat :=
  Nat.ofDigitChars 10 digits 0

/-- The numeral's characters. -/
def chars (numeral : Numeral) : List Char :=
  (if numeral.negative then ['-'] else []) ++ numeral.whole ++
    (if numeral.fraction = [] then [] else '.' :: numeral.fraction) ++
    match numeral.power with
    | none => []
    | some power => 'e' :: (if power.negative then '-' else '+') :: power.digits

/-- The numeral of an integer. -/
def ofInt (n : Int) : Numeral :=
  ⟨decide (n < 0), Nat.toDigits 10 n.natAbs, [], none⟩

/-- The integer that the numeral stands for, if it has neither fraction nor power.  A negative zero
is no integer. -/
def toInt? (numeral : Numeral) : Option Int :=
  if numeral.fraction ≠ [] ∨ numeral.power.isSome then none
  else if numeral.negative then
    if value numeral.whole = 0 then none else some (-(value numeral.whole : Int))
  else some (value numeral.whole)

/-! ## Reading as a double-precision number -/

/-- The greatest significand. -/
def significandLimit : Nat := 0xffffffffffffffff

/-- Appends digits to a significand as long as the result fits; also the digits left over. -/
def accumulate (significand : Nat) : List Char → Nat × List Char
  | [] => (significand, [])
  | c :: rest =>
    let next := significand * 10 + (c.toNat - '0'.toNat)
    if next ≤ significandLimit then accumulate next rest else (significand, c :: rest)

/-- `10 ^ n` rounded to a double-precision number. -/
def powerOfTen (n : Nat) : Binary64 :=
  Binary64.ofRatio false (Nat.pow 10 n) 1

/-- Scales a nonnegative number by a negative power of ten: powers beyond 308 in steps of 308. -/
def scaleDown (x : Binary64) (power : Nat) : Binary64 :=
  if power ≤ 308 then x.dividedBy (powerOfTen power)
  else if x.isZero then x
  else scaleDown (x.dividedBy (powerOfTen 308)) (power - 308)
termination_by power

/-- `significand * 10 ^ power` by one rounded operation; `none` if that is out of range. -/
def scale (significand : Nat) (power : Int) : Option Binary64 :=
  let x := Binary64.ofRatio false significand 1
  if power < 0 then some (scaleDown x (-power).toNat)
  else if 308 < power then
    if x.isZero then some x else none
  else
    let scaled := x.times (powerOfTen power.toNat)
    if scaled.isInfinite then none else some scaled

/-- The greatest power of ten that is looked at. -/
def powerLimit : Nat := 0x7fffffff

/-- The magnitude that the significand and the numeral's power stand for.  A power beyond all limits
makes the number zero or, if the significand is positive, puts it out of range. -/
def magnitude (significand : Nat) (shift : Int) : Option Power → Option Binary64
  | none => scale significand shift
  | some power =>
    if powerLimit < value power.digits then
      if significand ≠ 0 ∧ ¬ power.negative then none else some ⟨0⟩
    else if power.negative then scale significand (shift - value power.digits)
    else scale significand (shift + value power.digits)

/-- The double-precision number that the numeral stands for, if it is in range. -/
def toBinary64? (numeral : Numeral) : Option Binary64 :=
  let (whole, dropped) := accumulate 0 numeral.whole
  let (significand, unread) := accumulate whole numeral.fraction
  let places := numeral.fraction.length - unread.length
  (magnitude significand ((dropped.length : Int) - places) numeral.power).map fun x =>
    if numeral.negative then x.negate else x

end Numeral

end ContentRules
