/-!
# Double-precision numbers

A double-precision number is its 64 bits.  Its value is read off the bits as a significand times a
power of two, and numbers are made by rounding an exact quotient of natural numbers to the nearest
one, a tie to the even significand.  All arithmetic here is exact, in `Nat` and `Int`.
-/

namespace ContentRules

/-- A double-precision number, held as its bits; numbers with different bits are different, so a
NaN equals itself and the two zeros differ. -/
structure Binary64 where
  bits : UInt64
deriving DecidableEq, Repr

/-- What a double-precision number stands for. -/
inductive Binary64.Reading where
  | nan
  | infinite (negative : Bool)
  | finite (negative : Bool) (significand : Nat) (exponent : Int)
deriving DecidableEq, Repr

namespace Binary64

/-- The least exponent of two that a significand is scaled by. -/
def leastExponent : Int := -1074

/-- The bits of positive infinity, above those of every positive finite number. -/
def infiniteBits : Nat := 0x7ff0000000000000

/-- `2 ^ 52`, the top bit of a full significand, which its bits leave out. -/
def hiddenBit : Nat := 0x10000000000000

/-- The bit that is set in negative numbers, as a natural number. -/
def signBit : Nat := 0x8000000000000000

/-- A finite number is `significand * 2 ^ exponent`, where the significand is below `2 ^ 53`, and
below `2 ^ 52` only for the least exponent. -/
def reading (x : Binary64) : Reading :=
  let bits : Nat := x.bits.toNat
  let negative := decide (signBit ≤ bits)
  let biased : Nat := bits / hiddenBit % 2048
  let fraction : Nat := bits % hiddenBit
  if biased = 2047 then
    if fraction = 0 then .infinite negative else .nan
  else if biased = 0 then
    .finite negative fraction leastExponent
  else
    .finite negative (hiddenBit + fraction) ((biased : Int) - 1075)

/-- The quotient rounded to the nearest natural number, a tie to the even one. -/
def roundQuotient (num den : Nat) : Nat :=
  let floor := num / den
  let rest := num % den
  if den < 2 * rest ∨ (2 * rest = den ∧ floor % 2 = 1) then floor + 1 else floor

/-- The greatest `b` with `2 ^ b ≤ num / den`, for positive `num` and `den`. -/
def floorLog2 (num den : Nat) : Int :=
  let guess : Int := (num.log2 : Int) - (den.log2 : Int)
  let reached :=
    if 0 ≤ guess then decide (den * Nat.pow 2 guess.toNat ≤ num)
    else decide (den ≤ num * Nat.pow 2 (-guess).toNat)
  if reached then guess else guess - 1

/-- The bits, without sign, of the number nearest to `num / den`; infinity if that is beyond the
greatest finite number by half a step or more. -/
def nearestBits (num den : Nat) : Nat :=
  if num = 0 then 0
  else
    let exponent := max leastExponent (floorLog2 num den - 52)
    let significand :=
      if 0 ≤ exponent then roundQuotient num (den * Nat.pow 2 exponent.toNat)
      else roundQuotient (num * Nat.pow 2 (-exponent).toNat) den
    let bits :=
      if significand < hiddenBit then significand
      else (exponent + 1075).toNat * hiddenBit + (significand - hiddenBit)
    min bits infiniteBits

/-- The number nearest to `num / den`, with the given sign. -/
def ofRatio (negative : Bool) (num den : Nat) : Binary64 :=
  ⟨UInt64.ofNat (nearestBits num den + if negative then signBit else 0)⟩

/-- The number is an infinity. -/
def isInfinite (x : Binary64) : Bool :=
  match x.reading with
  | .infinite _ => true
  | _ => false

/-- The number is a zero of either sign. -/
def isZero (x : Binary64) : Bool :=
  match x.reading with
  | .finite _ 0 _ => true
  | _ => false

/-- The magnitude of a finite number as an exact quotient; `none` for the others. -/
def ratio? (x : Binary64) : Option (Nat × Nat) :=
  match x.reading with
  | .finite _ significand exponent =>
    if 0 ≤ exponent then some (significand * Nat.pow 2 exponent.toNat, 1)
    else some (significand, Nat.pow 2 (-exponent).toNat)
  | _ => none

/-- The number with the other sign. -/
def negate (x : Binary64) : Binary64 :=
  ⟨x.bits ^^^ UInt64.ofNat signBit⟩

/-- The rounded product of two nonnegative numbers, infinite if one of them is. -/
def times (x y : Binary64) : Binary64 :=
  match x.ratio?, y.ratio? with
  | some (a, b), some (c, d) => ofRatio false (a * c) (b * d)
  | _, _ => ⟨UInt64.ofNat infiniteBits⟩

/-- The rounded quotient of two nonnegative numbers, the second finite and positive. -/
def dividedBy (x y : Binary64) : Binary64 :=
  match x.ratio?, y.ratio? with
  | some (a, b), some (c, d) => ofRatio false (a * d) (b * c)
  | _, _ => ⟨UInt64.ofNat infiniteBits⟩

end Binary64

end ContentRules
