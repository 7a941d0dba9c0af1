import ContentRules.Decimal.Binary64

/-!
# Shortest decimal digits

Every finite double-precision number is the nearest one to a whole interval of reals.  Its shortest
decimal is found on the grids of one, two, up to seventeen digits: the first grid with a point in
the interval wins, and of two points the one nearer to the number.  Where both are equally near, the
caller says which is taken.
-/

namespace ContentRules

/-- Which of two equally near decimals is taken. -/
inductive Tie where
  | up
  | even
deriving DecidableEq, Repr

/-- The decimal number `digits * 10 ^ exponent`. -/
structure Decimal where
  digits : Nat
  exponent : Int
deriving DecidableEq, Repr

namespace Decimal

/-- How many decimal digits a natural number is written with. -/
def digitCount (n : Nat) : Nat :=
  (Nat.toDigits 10 n).length

/-- The same number without trailing zeros in its digits; at most `fuel` of them are dropped. -/
def dropZeros : Nat → Decimal → Decimal
  | 0, d => d
  | fuel + 1, d =>
    if d.digits ≠ 0 ∧ d.digits % 10 = 0 then dropZeros fuel ⟨d.digits / 10, d.exponent + 1⟩ else d

/-- The power of ten of the leading digit of `num / den`, for positive `num` and `den`. -/
def leadingPower (num den : Nat) : Int :=
  let guess : Int := (digitCount num : Int) - (digitCount den : Int)
  let reached :=
    if 0 ≤ guess then decide (den * Nat.pow 10 guess.toNat ≤ num)
    else decide (den ≤ num * Nat.pow 10 (-guess).toNat)
  if reached then guess else guess - 1

/-- The reals between `low / den` and `high / den`, the ends included or not, around
`value / den`. -/
structure Interval where
  low : Nat
  value : Nat
  high : Nat
  den : Nat
  closed : Bool
deriving Repr

/-- The reals that round to `significand * 2 ^ exponent`.  Below a power of two the numbers are
twice as dense, so the interval reaches half as far down; its ends belong to it if the significand
is even. -/
def Interval.around (significand : Nat) (exponent : Int) : Interval :=
  let down := if significand = Binary64.hiddenBit ∧ Binary64.leastExponent < exponent then 1 else 2
  let shift := exponent - 2
  let scale := if 0 ≤ shift then Nat.pow 2 shift.toNat else 1
  { low := (4 * significand - down) * scale
    value := 4 * significand * scale
    high := (4 * significand + 2) * scale
    den := if 0 ≤ shift then 1 else Nat.pow 2 (-shift).toNat
    closed := significand % 2 = 0 }

/-- The point of the grid of multiples of `10 ^ exponent` that is chosen for the interval, if one of
the two neighbours of its value lies inside. -/
def Interval.onGrid (tie : Tie) (interval : Interval) (exponent : Int) : Option Decimal :=
  let up := if 0 ≤ exponent then 1 else Nat.pow 10 (-exponent).toNat
  let step := if 0 ≤ exponent then interval.den * Nat.pow 10 exponent.toNat else interval.den
  let value := interval.value * up
  let below := value / step
  let lowFits :=
    if interval.closed then decide (interval.low * up ≤ below * step)
    else decide (interval.low * up < below * step)
  let highFits :=
    if interval.closed then decide ((below + 1) * step ≤ interval.high * up)
    else decide ((below + 1) * step < interval.high * up)
  match lowFits, highFits with
  | false, false => none
  | true, false => some ⟨below, exponent⟩
  | false, true => some ⟨below + 1, exponent⟩
  | true, true =>
    let rest := value % step
    let roundsUp :=
      match tie with
      | .up => decide (step ≤ 2 * rest)
      | .even => decide (step < 2 * rest ∨ (2 * rest = step ∧ below % 2 = 1))
    some ⟨if roundsUp then below + 1 else below, exponent⟩

/-- Tries the grids of `count`, `count + 1`, ... digits, `fuel` of them, for a value whose leading
digit stands at `power`. -/
def Interval.shortestFrom (tie : Tie) (interval : Interval) (power : Int) :
    Nat → Nat → Decimal
  | 0, count => ⟨interval.value / interval.den, power - count⟩
  | fuel + 1, count =>
    match interval.onGrid tie (power - count + 1) with
    | some decimal => dropZeros 20 decimal
    | none => interval.shortestFrom tie power fuel (count + 1)

/-- The shortest decimal that reads back as `significand * 2 ^ exponent`, and of those the nearest;
seventeen digits always suffice. -/
def shortest (tie : Tie) (significand : Nat) (exponent : Int) : Decimal :=
  if significand = 0 then ⟨0, 0⟩
  else
    let interval := Interval.around significand exponent
    interval.shortestFrom tie (leadingPower interval.value interval.den) 17 1

end Decimal

end ContentRules
