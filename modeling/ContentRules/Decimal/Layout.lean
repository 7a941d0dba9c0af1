import ContentRules.Decimal.Numeral
import ContentRules.Decimal.Shortest

/-!
# Writing double-precision numbers

A layout says which numbers are written positionally, whether an integral number keeps a zero behind
the point, and how a tie between two shortest decimals falls.  Two layouts are used: `Layout.plain`
in messages and in text comparisons, `Layout.json` in JSON.
-/

namespace ContentRules

/-- How finite double-precision numbers are written. -/
structure Layout where
  tie : Tie
  /-- Least and greatest power of the leading digit that is written positionally; `none` if all
  are. -/
  positional : Option (Int × Int)
  /-- The fraction of an integral number that is written positionally. -/
  integralFraction : List Char

namespace Layout

/-- Never a power of ten, and no point in an integral number. -/
def plain : Layout where
  tie := .up
  positional := none
  integralFraction := []

/-- Positional from `1e-5` to below `1e16`, and then with a fraction always. -/
def json : Layout where
  tie := .even
  positional := some (-5, 15)
  integralFraction := ['0']

/-- The digits with the point where it belongs. -/
def positionalNumeral (layout : Layout) (negative : Bool) (decimal : Decimal) : Numeral :=
  let digits := Nat.toDigits 10 decimal.digits
  if 0 ≤ decimal.exponent then
    ⟨negative, digits ++ List.replicate decimal.exponent.toNat '0', layout.integralFraction, none⟩
  else
    let places := (-decimal.exponent).toNat
    if places < digits.length then
      ⟨negative, digits.take (digits.length - places), digits.drop (digits.length - places), none⟩
    else
      ⟨negative, ['0'], List.replicate (places - digits.length) '0' ++ digits, none⟩

/-- One digit before the point, and the power of ten. -/
def scientificNumeral (negative : Bool) (decimal : Decimal) : Numeral :=
  let digits := Nat.toDigits 10 decimal.digits
  let power := decimal.exponent + digits.length - 1
  ⟨negative, digits.take 1, digits.drop 1, some ⟨decide (power < 0), Nat.toDigits 10 power.natAbs⟩⟩

/-- The numeral of a decimal, in the form that the power of its leading digit calls for. -/
def numeral (layout : Layout) (negative : Bool) (decimal : Decimal) : Numeral :=
  let power := decimal.exponent + Decimal.digitCount decimal.digits - 1
  match layout.positional with
  | none => layout.positionalNumeral negative decimal
  | some (least, greatest) =>
    if least ≤ power ∧ power ≤ greatest then layout.positionalNumeral negative decimal
    else scientificNumeral negative decimal

end Layout

namespace Binary64

/-- The shortest numeral of a finite number, with a sign also for a negative zero. -/
def numeral? (layout : Layout) (x : Binary64) : Option Numeral :=
  match x.reading with
  | .finite negative significand exponent =>
    some (layout.numeral negative (Decimal.shortest layout.tie significand exponent))
  | _ => none

/-- The text of a number in messages. -/
def text (x : Binary64) : String :=
  match x.reading with
  | .nan => "NaN"
  | .infinite negative => if negative then "-inf" else "inf"
  | .finite negative significand exponent =>
    String.ofList
      (Layout.plain.numeral negative (Decimal.shortest .up significand exponent)).chars

end Binary64

end ContentRules
