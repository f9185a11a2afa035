/-!
# Double-precision numbers

A finite binary64 value is a sign and `significand * 2 ^ exponent`.  All
arithmetic here is exact arithmetic on natural numbers followed by one
rounding, so every result is determined by the definitions in this file.

`roundRatio` is that rounding: to the nearest representable value, a tie going
to the even significand.  It has no result when the rounded value is too large
to be finite.
-/

namespace QueryGateway

/--
A finite double.  `significand < 2 ^ 53`, `exponent ≥ -1074`, and the
significand is at least `2 ^ 52` unless the exponent is `-1074`.
-/
structure Binary64 where
  negative : Bool
  significand : Nat
  exponent : Int
deriving DecidableEq, Repr

namespace Binary64

/-- The least exponent: that of the subnormal values and of zero. -/
def leastExponent : Int := -1074

/-- The greatest exponent of a finite value. -/
def greatestExponent : Int := 971

/-- Zero with the given sign. -/
def zero (negative : Bool) : Binary64 :=
  ⟨negative, 0, leastExponent⟩

/-- Divide and round to the nearest integer, a tie going to the even one. -/
def divideToEven (numerator denominator : Nat) : Nat :=
  let quotient := numerator / denominator
  let twice := 2 * (numerator % denominator)
  if twice > denominator ∨ (twice = denominator ∧ quotient % 2 = 1) then
    quotient + 1
  else
    quotient

/-- `numerator / (denominator * 2 ^ exponent)` as a fraction of naturals. -/
def scaleDown (numerator denominator : Nat) (exponent : Int) : Nat × Nat :=
  if exponent ≥ 0 then
    (numerator, denominator * Nat.pow 2 exponent.toNat)
  else
    (numerator * Nat.pow 2 (-exponent).toNat, denominator)

/--
The exponent at which `numerator / denominator` has a significand of 53 bits,
or the least exponent for smaller values.
-/
def exponentOf (numerator denominator : Nat) : Int :=
  let guess : Int := (numerator.log2 : Int) - denominator.log2 - 52
  let (above, below) := scaleDown numerator denominator guess
  let exact := if above / below < Nat.pow 2 52 then guess - 1 else guess
  max exact leastExponent

/--
The nearest significand and exponent to a non-negative fraction, or nothing if
the nearest value is not finite.
-/
def roundMagnitude (numerator denominator : Nat) : Option (Nat × Int) :=
  if numerator = 0 then
    some (0, leastExponent)
  else
    let exponent := exponentOf numerator denominator
    let (above, below) := scaleDown numerator denominator exponent
    let rounded := divideToEven above below
    let (significand, exponent) :=
      if rounded = Nat.pow 2 53 then (Nat.pow 2 52, exponent + 1) else (rounded, exponent)
    if exponent > greatestExponent then none else some (significand, exponent)

/-- The nearest double to a signed fraction. -/
def roundRatio (negative : Bool) (numerator denominator : Nat) : Option Binary64 :=
  (roundMagnitude numerator denominator).map fun (significand, exponent) =>
    ⟨negative, significand, exponent⟩

/-- The magnitude of a double as a fraction of naturals. -/
def ratio (value : Binary64) : Nat × Nat :=
  if value.exponent ≥ 0 then
    (value.significand * Nat.pow 2 value.exponent.toNat, 1)
  else
    (value.significand, Nat.pow 2 (-value.exponent).toNat)

/-- The same magnitude with the given sign. -/
def withSign (value : Binary64) (negative : Bool) : Binary64 :=
  { value with negative }

/-- Is the value positive or negative zero? -/
def isZero (value : Binary64) : Bool :=
  value.significand == 0

/-- The nearest double to a natural number. -/
def ofNat (value : Nat) : Option Binary64 :=
  roundRatio false value 1

/-- The rounded product. -/
def mul (left right : Binary64) : Option Binary64 :=
  let (leftAbove, leftBelow) := left.ratio
  let (rightAbove, rightBelow) := right.ratio
  roundRatio (left.negative != right.negative)
    (leftAbove * rightAbove) (leftBelow * rightBelow)

/-- The rounded quotient; there is none by zero. -/
def div (left right : Binary64) : Option Binary64 :=
  if right.isZero then
    none
  else
    let (leftAbove, leftBelow) := left.ratio
    let (rightAbove, rightBelow) := right.ratio
    roundRatio (left.negative != right.negative)
      (leftAbove * rightBelow) (leftBelow * rightAbove)

/--
The nearest double to `digits * 10 ^ exponent`.  Values far outside the finite
range are recognised by the number of their digits, so that no power of ten
larger than the range needs is ever formed.
-/
def ofDecimal (negative : Bool) (digits : Nat) (exponent : Int) : Option Binary64 :=
  if digits = 0 then
    some (zero negative)
  else
    let magnitude : Int := (Nat.toDigits 10 digits).length + exponent
    if magnitude > 310 then
      none
    else if magnitude < -330 then
      some (zero negative)
    else if exponent ≥ 0 then
      roundRatio negative (digits * Nat.pow 10 exponent.toNat) 1
    else
      roundRatio negative digits (Nat.pow 10 (-exponent).toNat)

end Binary64

end QueryGateway
