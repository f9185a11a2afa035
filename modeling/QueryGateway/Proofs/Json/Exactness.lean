import QueryGateway.Proofs.Json.RoundTrip
import QueryGateway.Proofs.Number.Fidelity

/-!
# Numbers that keep their value

A number is held as an integer of 64 bits or as a double, and written anew.
Integers of 64 bits keep their value, and so do numbers of fifteen digits unless
they are very large or very small: they are rounded once when they are read, and
the shortest decimal of the double is the decimal that was read.
-/

namespace QueryGateway

namespace Binary64

/-! ## Numbers of fifteen digits are rounded once -/

theorem power_bounds :
    (2 : Rat) ^ (-900 : Int) ≤ 10 ^ (-22 : Int) ∧ (10 : Rat) ^ (37 : Int) ≤ 2 ^ (900 : Int) := by
  constructor
  · calc (2 : Rat) ^ (-900 : Int) ≤ 2 ^ (-74 : Int) :=
          zpow_le_zpow_right₀ (by norm_num) (by norm_num)
      _ ≤ 10 ^ (-22 : Int) := by norm_num
  · calc (10 : Rat) ^ (37 : Int) ≤ 2 ^ (123 : Int) := by norm_num
      _ ≤ 2 ^ (900 : Int) := zpow_le_zpow_right₀ (by norm_num) (by norm_num)

theorem cast_le_of_lt
    {number : Nat}
    (small : number < 2 ^ 128) :
    (number : Rat) ≤ 2 ^ (900 : Int) := by
  have power : (2 : Rat) ^ (128 : Int) ≤ 2 ^ (900 : Int) :=
    zpow_le_zpow_right₀ (by norm_num) (by norm_num)
  have small : (number : Rat) ≤ 2 ^ 128 := by exact_mod_cast small.le
  exact small.trans power

/-- A decimal that is neither very large nor very small. -/
structure Decimal.IsModest (decimal : Decimal) : Prop where
  positive : 0 < decimal.digits
  fits : decimal.digits < 10 ^ 15
  notSmall : -22 ≤ decimal.exponent
  notLarge : decimal.exponent ≤ 22

theorem Decimal.IsModest.bounds
    {decimal : Decimal}
    (isModest : decimal.IsModest) :
    2 ^ (-900 : Int) ≤ decimal.value ∧ decimal.value ≤ 2 ^ (900 : Int) := by
  rcases isModest with ⟨positive, fits, notSmall, notLarge⟩
  have one : (1 : Rat) ≤ decimal.digits := by exact_mod_cast positive
  have fits : (decimal.digits : Rat) ≤ 10 ^ 15 := by exact_mod_cast fits.le
  have lower : (10 : Rat) ^ (-22 : Int) ≤ 10 ^ decimal.exponent :=
    zpow_le_zpow_right₀ (by norm_num) notSmall
  have upper : (10 : Rat) ^ decimal.exponent ≤ 10 ^ (22 : Int) :=
    zpow_le_zpow_right₀ (by norm_num) notLarge
  have unit : (0 : Rat) < 10 ^ decimal.exponent := by positivity
  constructor
  · calc (2 : Rat) ^ (-900 : Int) ≤ 10 ^ (-22 : Int) := power_bounds.1
      _ ≤ 10 ^ decimal.exponent := lower
      _ ≤ decimal.value := le_mul_of_one_le_left unit.le one
  · calc decimal.value ≤ 10 ^ 15 * 10 ^ (22 : Int) :=
          mul_le_mul fits upper unit.le (by norm_num)
      _ = 10 ^ (37 : Int) := by norm_num
      _ ≤ 2 ^ (900 : Int) := power_bounds.2

/-- Natural numbers of 53 bits, times a power of two, are held as they are. -/
theorem exists_ofNat
    {number factor power : Nat}
    (positive : 0 < number)
    (notLarge : (number : Rat) ≤ 2 ^ (900 : Int))
    (fits : factor < 2 ^ 53)
    (isExact : number = factor * 2 ^ power) :
    ∃ value, ofNat number = some value ∧ value.magnitude = number := by
  have isFraction : fraction (number, 1) = number := by simp [fraction]
  have notSmall : 2 ^ (-900 : Int) ≤ fraction (number, 1) := by
    rw [isFraction]
    have one : (1 : Rat) ≤ number := by exact_mod_cast positive
    exact (zpow_le_one_of_nonpos₀ (by norm_num) (by norm_num)).trans one
  rw [← isFraction] at notLarge
  rcases exists_roundRatio positive Nat.one_pos false notSmall notLarge with ⟨value, rounded⟩
  refine ⟨value, rounded, ?_⟩
  rw [← isFraction]
  apply magnitude_of_roundRatio positive Nat.one_pos rounded notSmall notLarge fits
  rw [isFraction, isExact]
  push_cast
  rfl

/-- The top of the fraction of a positive double. -/
theorem ratio_pos_of_magnitude
    {value : Binary64}
    (positive : 0 < value.magnitude) :
    0 < value.ratio.1 := by
  rw [← fraction_ratio, fraction] at positive
  by_contra isZero
  rw [Nat.not_lt, Nat.le_zero] at isZero
  rw [isZero, Nat.cast_zero, zero_div] at positive
  exact lt_irrefl _ positive

theorem isZero_of_magnitude
    {value : Binary64}
    (positive : 0 < value.magnitude) :
    value.isZero = false := by
  rw [isZero, beq_eq_false_iff_ne]
  intro isZero
  rw [magnitude, isZero, Nat.cast_zero, zero_mul] at positive
  exact lt_irrefl _ positive

theorem fraction_mul
    (left right : Nat × Nat) :
    fraction (left.1 * right.1, left.2 * right.2) = fraction left * fraction right := by
  simp only [fraction]
  push_cast
  rw [div_mul_div_comm]

theorem fraction_div
    (left right : Nat × Nat) :
    fraction (left.1 * right.2, left.2 * right.1) = fraction left / fraction right := by
  simp only [fraction]
  push_cast
  rw [div_div_div_eq]

/-- What is near to a number of modest size is a normal double. -/
structure Rounds (value : Binary64) (number : Rat) : Prop where
  isNormal : 2 ^ 52 ≤ value.significand
  isNear : value.IsNear number

theorem exists_rounds_of_roundRatio
    (negative : Bool)
    {numerator denominator : Nat}
    (numeratorPos : 0 < numerator)
    (denominatorPos : 0 < denominator)
    {decimal : Decimal}
    (isModest : decimal.IsModest)
    (isFraction : fraction (numerator, denominator) = decimal.value) :
    ∃ value, roundRatio negative numerator denominator = some value ∧
      value.Rounds decimal.value := by
  rcases isModest.bounds with ⟨notSmall, notLarge⟩
  rw [← isFraction] at notSmall notLarge ⊢
  rcases exists_roundRatio numeratorPos denominatorPos negative notSmall notLarge with
    ⟨value, rounded⟩
  exact ⟨value, rounded,
    significand_of_roundRatio numeratorPos denominatorPos rounded notSmall notLarge,
    isNear_of_roundRatio numeratorPos denominatorPos rounded⟩

/-- Powers of ten up to the twenty-second are doubles. -/
theorem exists_power
    {exponent : Nat}
    (small : exponent ≤ 22) :
    ∃ power, ofNat (Nat.pow 10 exponent) = some power ∧ power.magnitude = 10 ^ exponent ∧
      0 < power.magnitude := by
  have notLarge := cast_le_of_lt
    ((Nat.pow_le_pow_right (by decide) small).trans_lt (by decide : Nat.pow 10 22 < 2 ^ 128))
  have fits : 5 ^ exponent < 2 ^ 53 :=
    (Nat.pow_le_pow_right (by decide) small).trans_lt (by decide)
  have isExact : Nat.pow 10 exponent = 5 ^ exponent * 2 ^ exponent := by
    rw [Nat.pow_eq, ← Nat.mul_pow]
  rcases exists_ofNat (Nat.pow_pos (by decide)) notLarge fits isExact with
    ⟨power, isPower, magnitude⟩
  have isTen : power.magnitude = 10 ^ exponent := by
    rw [magnitude]
    push_cast
    rfl
  refine ⟨power, isPower, isTen, ?_⟩
  rw [isTen]
  positivity

/-- Scaling a number of fifteen digits rounds once. -/
theorem exists_scale
    {decimal : Decimal}
    (isModest : decimal.IsModest)
    (steps : Nat)
    {value : Binary64}
    (isValue : value.magnitude = decimal.digits) :
    ∃ scaled, Json.Parser.scale steps value decimal.exponent = some scaled ∧
      scaled.Rounds decimal.value := by
  have digitsPos : (0 : Rat) < decimal.digits := Nat.cast_pos.mpr isModest.positive
  have valuePos : 0 < value.magnitude := isValue ▸ digitsPos
  have nonzero := isZero_of_magnitude valuePos
  have above := isModest.notSmall
  have below := isModest.notLarge
  rw [Json.Parser.scale.eq_def, if_neg (by simp [nonzero]), if_neg (by omega)]
  rcases lt_or_ge decimal.exponent 0 with isNegative | nonneg
  · rcases exists_power (show (-decimal.exponent).toNat ≤ 22 by omega) with
      ⟨power, isPower, magnitude, powerPos⟩
    have isFraction : fraction (value.ratio.1 * power.ratio.2, value.ratio.2 * power.ratio.1) =
        decimal.value := by
      rw [fraction_div, fraction_ratio, fraction_ratio, isValue, magnitude, Decimal.value,
        ← zpow_natCast, Int.toNat_of_nonneg (by omega), zpow_neg, div_inv_eq_mul]
    rcases exists_rounds_of_roundRatio (value.negative != power.negative)
      (Nat.mul_pos (ratio_pos_of_magnitude valuePos) power.ratio_pos)
      (Nat.mul_pos value.ratio_pos (ratio_pos_of_magnitude powerPos)) isModest isFraction with
      ⟨scaled, rounded, rounds⟩
    refine ⟨scaled, ?_, rounds⟩
    rw [if_neg (by omega), if_pos (by omega), isPower]
    simp only [Option.bind_eq_bind, Option.bind_some, div, isZero_of_magnitude powerPos,
      Bool.false_eq_true, if_false]
    exact rounded
  · rcases exists_power (show decimal.exponent.toNat ≤ 22 by omega) with
      ⟨power, isPower, magnitude, powerPos⟩
    have isFraction : fraction (value.ratio.1 * power.ratio.1, value.ratio.2 * power.ratio.2) =
        decimal.value := by
      rw [fraction_mul, fraction_ratio, fraction_ratio, isValue, magnitude, Decimal.value,
        ← zpow_natCast, Int.toNat_of_nonneg nonneg]
    rcases exists_rounds_of_roundRatio (value.negative != power.negative)
      (Nat.mul_pos (ratio_pos_of_magnitude valuePos) (ratio_pos_of_magnitude powerPos))
      (Nat.mul_pos value.ratio_pos power.ratio_pos) isModest isFraction with
      ⟨scaled, rounded, rounds⟩
    refine ⟨scaled, ?_, rounds⟩
    rw [if_pos nonneg, isPower]
    exact rounded

end Binary64

namespace Json

open Binary64 Json.Parser

/-- A number of fifteen digits is read to a normal double that it is near to. -/
theorem exists_doubleOf
    (negative : Bool)
    {decimal : Decimal}
    (isModest : decimal.IsModest) :
    ∃ value : Binary64, doubleOf negative decimal.digits decimal.exponent = some (.double value) ∧
      value.negative = negative ∧ value.Rounds decimal.value := by
  have notLarge := cast_le_of_lt (isModest.fits.trans (by decide : 10 ^ 15 < 2 ^ 128))
  have fits : decimal.digits < 2 ^ 53 := isModest.fits.trans (by decide)
  have isExact : decimal.digits = decimal.digits * 2 ^ 0 := (Nat.mul_one _).symm
  rcases exists_ofNat isModest.positive notLarge fits isExact with
    ⟨value, isValue, magnitude⟩
  rcases exists_scale isModest 3 magnitude with ⟨scaled, isScaled, rounds⟩
  refine ⟨scaled.withSign negative, ?_, rfl, rounds.isNormal, rounds.isNear⟩
  simp only [doubleOf, isValue, Option.bind_eq_bind, Option.bind_some, isScaled, Option.pure_def]

/-! ## The value that is written -/

/-- The sign of a value. -/
def signOf (negative : Bool) : Rat :=
  if negative then -1 else 1

/-- The value of a numeral without an exponent. -/
theorem value_of_decimals
    (negative : Bool)
    (whole decimals : List Char) :
    Numeral.value ⟨negative, whole, decimals, none⟩ =
      signOf negative * (Digits.natural (whole ++ decimals) * 10 ^ (-(decimals.length : Int))) := by
  simp only [Numeral.value, Numeral.significand, Numeral.scale, signOf, Option.map_none,
    Option.getD_none, zero_sub]

/-- However digits are laid out, their value is the same. -/
theorem value_layoutNumeral
    (negative : Bool)
    {digits : List Char}
    {exponent : Int}
    (significant : IsSignificant digits exponent) :
    (layoutNumeral negative digits exponent).value =
      signOf negative * (Digits.natural digits * 10 ^ (exponent - digits.length + 1)) := by
  have ten : (10 : Rat) ≠ 0 := by norm_num
  simp only [layoutNumeral]
  split
  case isTrue =>
    split
    case isTrue isNegative =>
      have zeros : ['0'] ++ (List.replicate ((-exponent).toNat - 1) '0' ++ digits) =
          List.replicate ((-exponent).toNat - 1 + 1) '0' ++ digits := by
        rw [List.replicate_succ]
        rfl
      have same : -(((-exponent).toNat - 1 + digits.length : Nat) : Int) =
          exponent - digits.length + 1 := by
        omega
      rw [value_of_decimals, zeros, Digits.natural_append, Digits.natural_zeros, Nat.zero_mul,
        Nat.zero_add, List.length_append, List.length_replicate, same]
    case isFalse notNegative =>
      split
      case isTrue fits =>
        have single : Digits.natural ['0'] = 0 := rfl
        have count : ((exponent.toNat + 1 - digits.length : Nat) : Int) =
            exponent - digits.length + 1 := by
          omega
        rw [value_of_decimals, Digits.natural_append, Digits.natural_append, Digits.natural_zeros,
          single, List.length_replicate, List.length_singleton, ← count, zpow_natCast]
        push_cast
        rw [zpow_neg, zpow_one]
        ring
      case isFalse exceeds =>
        have same : -((digits.length - (exponent.toNat + 1) : Nat) : Int) =
            exponent - digits.length + 1 := by
          omega
        rw [value_of_decimals, List.take_append_drop, List.length_drop, same]
  case isFalse outside =>
    have nonempty : digits ≠ [] := fun isEmpty => by
      have := significant.nonempty isEmpty
      omega
    have long : 1 ≤ digits.length := List.length_pos_of_ne_nil nonempty
    have written : Exponent.value
        ⟨'e', some (if exponent < 0 then '-' else '+'), Nat.toDigits 10 exponent.natAbs⟩ =
          exponent := by
      simp only [Exponent.value, Digits.natural_toDigits]
      split_ifs <;> first | omega | contradiction
    have same : exponent - ((digits.length - 1 : Nat) : Int) = exponent - digits.length + 1 := by
      omega
    simp only [Numeral.value, Numeral.significand, Numeral.scale, signOf, Option.map_some,
      Option.getD_some, written, List.take_append_drop, List.length_drop, same]

/-- The significant digits of a decimal have its value. -/
theorem value_scientific
    (decimal : Decimal) :
    (Digits.natural decimal.scientific.1 : Rat) *
        10 ^ (decimal.scientific.2 - decimal.scientific.1.length + 1) =
      decimal.value := by
  rcases dropTrailingZeros_append (Nat.toDigits 10 decimal.digits) with ⟨zeros, split⟩
  simp only [Decimal.scientific]
  generalize dropTrailingZeros (Nat.toDigits 10 decimal.digits) = kept at *
  have length := congrArg List.length split
  have number := congrArg Digits.natural split
  rw [List.length_append, List.length_replicate] at length
  rw [Digits.natural_toDigits, Digits.natural_append, Digits.natural_zeros, List.length_replicate,
    Nat.add_zero] at number
  have exponent : decimal.exponent + ((Nat.toDigits 10 decimal.digits).length : Int) - 1 -
      kept.length + 1 = zeros + decimal.exponent := by
    omega
  rw [exponent, zpow_add₀ (by norm_num), zpow_natCast, Decimal.value, number]
  push_cast
  ring

/-- What is written for a double has the value of its shortest decimal. -/
theorem value_numeral_double
    (value : Binary64) :
    (Number.numeral (.double value)).value =
      signOf value.negative * (if value.isZero then 0 else value.shortest.value) := by
  rw [Number.numeral]
  split
  case isTrue =>
    rw [value_layoutNumeral _ isSignificant_zero]
    simp [Digits.natural, Digits.value]
  case isFalse nonzero =>
    rw [Bool.not_eq_true] at nonzero
    rw [value_layoutNumeral _ (isSignificant_scientific (shortest_pos_or nonzero)),
      value_scientific]

theorem value_numeral_integer
    (value : Int) :
    (Number.numeral (.integer value)).value = value := by
  rw [Number.numeral, value_of_decimals, List.append_nil, Digits.natural_toDigits]
  simp only [signOf, decide_eq_true_eq, List.length_nil, Nat.cast_zero, neg_zero, zpow_zero,
    mul_one]
  split
  case isTrue negative =>
    have absolute : (value.natAbs : Int) = -value := by omega
    rw [← Int.cast_natCast, absolute, Int.cast_neg]
    ring
  case isFalse nonneg =>
    have absolute : (value.natAbs : Int) = value := by omega
    rw [← Int.cast_natCast, absolute, one_mul]

/-! ## Numerals that are kept -/

/-- The numeral has the same value when it is read and written. -/
inductive Numeral.IsKept (numeral : Numeral) : Prop where
  | zero (isZero : numeral.significand = 0)
  /-- An integer that fits the signed or the unsigned 64-bit range. -/
  | integer
      (noDecimals : numeral.decimals = [])
      (noExponent : numeral.exponent = none)
      (fits : numeral.significand < 2 ^ 64)
      (signedFits : numeral.negative = true → numeral.significand ≤ 2 ^ 63)
  /-- Fifteen digits, the last of which counts a power of ten that a double can hold. -/
  | short
      (fits : numeral.significand < 10 ^ 15)
      (notSmall : -22 ≤ numeral.scale)
      (notLarge : numeral.scale ≤ 22)
      (isEvaluated :
        ∀ exponent, numeral.exponent = some exponent →
          Digits.natural exponent.digits ≤ Parser.greatestExponent)

/-- Zero is read to zero, whatever its exponent. -/
theorem doubleOf_zero
    (negative : Bool)
    (exponent : Int) :
    doubleOf negative 0 exponent = some (.double (.zero negative)) := by
  rfl

theorem value_numeral_zero
    (negative : Bool) :
    (Number.numeral (.double (.zero negative))).value = 0 := by
  rw [value_numeral_double]
  simp [Binary64.zero, Binary64.isZero]

section

variable
    {numeral : Numeral}

/-- All digits of a numeral are taken if they fit 64 bits. -/
theorem absorb_of_significand
    (fits : numeral.significand < 2 ^ 64) :
    absorb 0 numeral.whole = (Digits.natural numeral.whole, []) ∧
      absorb (Digits.natural numeral.whole) numeral.decimals = (numeral.significand, []) := by
  have greatest : greatestSignificand = 2 ^ 64 - 1 := rfl
  rw [Numeral.significand, Digits.natural_append] at fits ⊢
  have wholeFits : Digits.natural numeral.whole ≤
      Digits.natural numeral.whole * 10 ^ numeral.decimals.length :=
    Nat.le_mul_of_pos_right _ (Nat.pow_pos (by decide))
  constructor
  · have absorbed := @absorb_of_fits 0 numeral.whole (by omega)
    rwa [Nat.zero_mul, Nat.zero_add] at absorbed
  · exact absorb_of_fits (by omega)

/-- What is read from a numeral with a point or an exponent, if its digits fit. -/
theorem number?_of_fits
    (fits : numeral.significand < 2 ^ 64)
    (goesOn : numeral.decimals ≠ [] ∨ numeral.exponent ≠ none) :
    numeral.number? =
      scaledNumber? numeral.negative numeral.significand (-(numeral.decimals.length : Int))
        numeral.exponent := by
  rcases absorb_of_significand fits with ⟨whole, all⟩
  rw [numeral.number?_of_exponent goesOn, whole, all]
  simp

theorem number?_of_integer
    (fits : numeral.significand < 2 ^ 64)
    (noDecimals : numeral.decimals = [])
    (noExponent : numeral.exponent = none) :
    numeral.number? = integerOf numeral.negative numeral.significand := by
  rcases absorb_of_significand fits with ⟨whole, all⟩
  rw [noDecimals, absorb] at all
  rw [Numeral.number?]
  simp only [noDecimals, noExponent, and_self, if_true, whole, List.isEmpty_nil,
    (Prod.mk.inj all).1]

theorem number?_of_zero
    (isZero : numeral.significand = 0) :
    numeral.number? = some (.integer 0) ∨
      numeral.number? = some (.double (.zero numeral.negative)) := by
  have fits : numeral.significand < 2 ^ 64 := by omega
  by_cases isInteger : numeral.decimals = [] ∧ numeral.exponent = none
  · rw [number?_of_integer fits isInteger.1 isInteger.2, isZero]
    cases numeral.negative with
    | true => exact .inr rfl
    | false => exact .inl rfl
  · right
    rw [number?_of_fits fits (by tauto), isZero]
    cases numeral.exponent with
    | none => exact doubleOf_zero _ _
    | some exponent =>
        rw [scaledNumber?, Exponent.number?]
        split
        case isTrue => rfl
        case isFalse => exact doubleOf_zero _ _

/-- An exponent that is evaluated counts with the decimals. -/
theorem scaledNumber?_of_evaluated
    (isEvaluated :
      ∀ exponent, numeral.exponent = some exponent →
        Digits.natural exponent.digits ≤ Parser.greatestExponent) :
    scaledNumber? numeral.negative numeral.significand (-(numeral.decimals.length : Int))
        numeral.exponent =
      doubleOf numeral.negative numeral.significand numeral.scale := by
  rw [Numeral.scale]
  cases written : numeral.exponent with
  | none =>
      rw [scaledNumber?, Option.map_none, Option.getD_none, zero_sub]
  | some exponent =>
      have notGreater := Nat.not_lt.mpr (isEvaluated exponent written)
      rw [scaledNumber?, Exponent.number?, if_neg notGreater, Option.map_some, Option.getD_some,
        neg_add_eq_sub]

theorem value_of_integer
    (noDecimals : numeral.decimals = [])
    (noExponent : numeral.exponent = none)
    (fits : numeral.significand < 2 ^ 64)
    (signedFits : numeral.negative = true → numeral.significand ≤ 2 ^ 63)
    (nonzero : numeral.significand ≠ 0)
    {number : Number}
    (made : numeral.number? = some number) :
    number.numeral.value = numeral.value := by
  rw [number?_of_integer fits noDecimals noExponent, integerOf] at made
  have isInteger : numeral.value = signOf numeral.negative * numeral.significand := by
    rw [Numeral.value, Numeral.scale, noDecimals, noExponent]
    simp [signOf]
  rw [isInteger]
  cases negative : numeral.negative with
  | true =>
      have small : numeral.significand ≤ Nat.pow 2 63 := signedFits negative
      simp only [negative, Bool.not_true, Bool.false_eq_true, if_false,
        if_pos (And.intro nonzero small)] at made
      cases made
      rw [value_numeral_integer]
      simp [signOf]
  | false =>
      simp only [negative, Bool.not_false, if_true] at made
      cases made
      rw [value_numeral_integer]
      simp [signOf]

/-- A numeral that is kept has the value of the numeral that is written for what it is read to. -/
theorem Numeral.IsKept.value_eq
    (isKept : numeral.IsKept)
    {number : Number}
    (made : numeral.number? = some number) :
    number.numeral.value = numeral.value := by
  by_cases isZero : numeral.significand = 0
  · have zero : numeral.value = 0 := by
      rw [Numeral.value, isZero, Nat.cast_zero, zero_mul, mul_zero]
    rw [zero]
    rcases number?_of_zero isZero with isInteger | isDouble
    · rw [isInteger] at made
      cases made
      rw [value_numeral_integer, Int.cast_zero]
    · rw [isDouble] at made
      cases made
      exact value_numeral_zero _
  · cases isKept with
    | zero zero => exact absurd zero isZero
    | integer noDecimals noExponent fits signedFits =>
        exact value_of_integer noDecimals noExponent fits signedFits isZero made
    | short fits notSmall notLarge isEvaluated =>
        by_cases isInteger : numeral.decimals = [] ∧ numeral.exponent = none
        · exact value_of_integer isInteger.1 isInteger.2 (by omega) (fun _ => by omega) isZero made
        · have isModest : Decimal.IsModest ⟨numeral.significand, numeral.scale⟩ :=
            ⟨Nat.pos_of_ne_zero isZero, fits, notSmall, notLarge⟩
          rcases exists_doubleOf numeral.negative isModest with
            ⟨value, isDouble, isNegative, rounds⟩
          have isRead : numeral.number? = some (.double value) := by
            rw [number?_of_fits (by omega) (by tauto), scaledNumber?_of_evaluated isEvaluated,
              isDouble]
          rw [isRead] at made
          cases made
          have nonzero : value.isZero = false := by
            rw [Binary64.isZero, beq_eq_false_iff_ne]
            have := rounds.isNormal
            omega
          rw [value_numeral_double, isNegative, nonzero, shortest_value rounds.isNormal fits
            rounds.isNear]
          rfl

end

end Json

end QueryGateway
