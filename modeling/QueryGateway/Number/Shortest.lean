import QueryGateway.Number.Binary64

/-!
# The shortest decimal of a double

A double is written with the fewest decimal digits that still round back to
it; among decimals of that length the one nearest to the value is taken, a tie
going to the even last digit.

The decimals of a fixed length and position form a grid.  A grid point rounds
back to the value exactly if it lies in the rounding interval around it, whose
ends belong to it if the significand is even.  If any point of a grid lies in
the interval, one of the value's two neighbours on the grid does, so for each
number of digits only these two are tested.
-/

namespace QueryGateway

namespace Binary64

/-- A positive decimal number `digits * 10 ^ exponent`. -/
structure Decimal where
  digits : Nat
  exponent : Int
deriving DecidableEq, Repr

/-- The decimal as a fraction of naturals. -/
def Decimal.ratio (decimal : Decimal) : Nat × Nat :=
  if decimal.exponent ≥ 0 then
    (decimal.digits * Nat.pow 10 decimal.exponent.toNat, 1)
  else
    (decimal.digits, Nat.pow 10 (-decimal.exponent).toNat)

/--
The rounding interval of a positive double, in quarters of its last place:
the distances from the value to the lower and to the upper end.  Below a power
of two the neighbouring doubles lie twice as close.
-/
def reach (value : Binary64) : Nat × Nat :=
  if value.significand = Nat.pow 2 52 ∧ value.exponent > leastExponent then (1, 2) else (2, 2)

/-- Does the decimal round to the given positive double? -/
def holds (value : Binary64) (decimal : Decimal) : Bool :=
  let (below, above) := value.reach
  let (top, bottom) := decimal.ratio
  let (unitTop, unitBottom) :=
    (Binary64.mk false 1 value.exponent).ratio
  -- Compare `4 * decimal` with `(4 * significand ± reach) * unit`.
  let point := 4 * top * unitBottom
  let lower := (4 * value.significand - below) * unitTop * bottom
  let upper := (4 * value.significand + above) * unitTop * bottom
  if value.significand % 2 = 0 then
    lower ≤ point && point ≤ upper
  else
    lower < point && point < upper

/-- The number of decimal digits of a natural number. -/
def digitCount (value : Nat) : Nat :=
  (Nat.toDigits 10 value).length

/-- The exponent of the leading decimal digit of a positive fraction. -/
def leadingExponent (top bottom : Nat) : Int :=
  if top ≥ bottom then
    (digitCount (top / bottom) : Int) - 1
  else
    -(digitCount ((bottom + top - 1) / top - 1) : Int)

/-- The value's floor on the grid of multiples of `10 ^ exponent`, and the rest. -/
def onGrid (top bottom : Nat) (exponent : Int) : Nat × Nat × Nat :=
  let (above, below) :=
    if exponent ≥ 0 then
      (top, bottom * Nat.pow 10 exponent.toNat)
    else
      (top * Nat.pow 10 (-exponent).toNat, bottom)
  (above / below, above % below, below)

/-- The nearest decimal with `count` digits that rounds to the value, if there is one. -/
def decimalWith? (value : Binary64) (leading : Int) (count : Nat) : Option Decimal :=
  let (top, bottom) := value.ratio
  let exponent := leading - count + 1
  let (floor, rest, whole) := onGrid top bottom exponent
  let lower : Decimal := ⟨floor, exponent⟩
  let upper : Decimal := ⟨floor + 1, exponent⟩
  match value.holds lower, value.holds upper with
  | false, false => none
  | true, false => some lower
  | false, true => some upper
  | true, true =>
      if 2 * rest < whole ∨ (2 * rest = whole ∧ floor % 2 = 0) then
        some lower
      else
        some upper

/-- The shortest decimal of a positive double. -/
def shortest (value : Binary64) : Decimal :=
  let (top, bottom) := value.ratio
  let leading := leadingExponent top bottom
  ((List.range 17).findSome? fun index => value.decimalWith? leading (index + 1)).getD ⟨0, 0⟩

/-- Drop the trailing zeros of a list of digits. -/
def dropTrailingZeros (digits : List Char) : List Char :=
  (digits.reverse.dropWhile (· == '0')).reverse

/--
The significant digits of a positive decimal, without trailing zeros, and the
exponent of the first of them.
-/
def Decimal.scientific (decimal : Decimal) : List Char × Int :=
  let digits := Nat.toDigits 10 decimal.digits
  (dropTrailingZeros digits, decimal.exponent + digits.length - 1)

/-- How a decimal is laid out as text. -/
structure Layout where
  /-- The least exponent written positionally. -/
  positionalFrom : Int
  /-- The least exponent too large to be written positionally. -/
  positionalBelow : Int
  /-- What follows the digits of a positional integer. -/
  integerTail : List Char
  /-- The sign of an exponent that is not negative. -/
  positiveSign : List Char
deriving DecidableEq, Repr

/-- An exponent as text. -/
def Layout.exponentText (layout : Layout) (exponent : Int) : List Char :=
  if exponent < 0 then
    '-' :: Nat.toDigits 10 (-exponent).toNat
  else
    layout.positiveSign ++ Nat.toDigits 10 exponent.toNat

/-- Significant digits, the first of which counts `10 ^ exponent`, as text. -/
def Layout.digitsText (layout : Layout) (digits : List Char) (exponent : Int) : List Char :=
  if layout.positionalFrom ≤ exponent ∧ exponent < layout.positionalBelow then
    if exponent < 0 then
      '0' :: '.' :: (List.replicate ((-exponent).toNat - 1) '0' ++ digits)
    else
      let whole := exponent.toNat + 1
      if digits.length ≤ whole then
        digits ++ List.replicate (whole - digits.length) '0' ++ layout.integerTail
      else
        digits.take whole ++ '.' :: digits.drop whole
  else
    match digits with
    | [] => []
    | [digit] => digit :: 'e' :: layout.exponentText exponent
    | digit :: more => digit :: '.' :: (more ++ 'e' :: layout.exponentText exponent)

/-- A double as text: the shortest digits that read back, in the given layout. -/
def Layout.text (layout : Layout) (value : Binary64) : List Char :=
  let sign := if value.negative then ['-'] else []
  let (digits, exponent) :=
    if value.isZero then (['0'], 0) else value.shortest.scientific
  sign ++ layout.digitsText digits exponent

end Binary64

end QueryGateway
