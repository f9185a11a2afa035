import Mathlib.Data.Nat.Log
import Mathlib.Tactic.NormNum
import Mathlib.Tactic.Ring
import QueryGateway.Proofs.Number.Shortest

/-!
# Rounding

`roundRatio` gives the double that is nearest to a fraction.  Its significand is
the nearest integer at an exponent that is chosen so that it has 53 bits, or as
many as there are at the least exponent.
-/

namespace QueryGateway.Binary64

/-! ## The nearest integer -/

/-- No integer is nearer, and of two that are equally near it is the even one. -/
theorem divideToEven_spec
    (numerator : Nat)
    {denominator : Nat}
    (positive : 0 < denominator) :
    2 * denominator * divideToEven numerator denominator ≤ 2 * numerator + denominator ∧
      2 * numerator ≤ 2 * denominator * divideToEven numerator denominator + denominator ∧
      (divideToEven numerator denominator % 2 = 1 →
        2 * denominator * divideToEven numerator denominator < 2 * numerator + denominator ∧
          2 * numerator < 2 * denominator * divideToEven numerator denominator + denominator) := by
  have split := Nat.div_add_mod numerator denominator
  have remainder := Nat.mod_lt numerator positive
  simp only [divideToEven]
  generalize numerator / denominator = quotient at *
  generalize numerator % denominator = rest at *
  subst split
  have below : 2 * denominator * quotient = 2 * (denominator * quotient) := by
    ring
  have above : 2 * denominator * (quotient + 1) =
      2 * (denominator * quotient) + 2 * denominator := by
    ring
  split
  · rw [above]
    exact ⟨by omega, by omega, fun odd => ⟨by omega, by omega⟩⟩
  · rw [below]
    exact ⟨by omega, by omega, fun odd => ⟨by omega, by omega⟩⟩

/-- The nearest integer to a fraction is at most one half away from it. -/
theorem divideToEven_near
    (ratio : Nat × Nat)
    (positive : 0 < ratio.2) :
    (divideToEven ratio.1 ratio.2 : Rat) - 1 / 2 ≤ fraction ratio ∧
      fraction ratio ≤ divideToEven ratio.1 ratio.2 + 1 / 2 ∧
      (divideToEven ratio.1 ratio.2 % 2 = 1 →
        (divideToEven ratio.1 ratio.2 : Rat) - 1 / 2 < fraction ratio ∧
          fraction ratio < divideToEven ratio.1 ratio.2 + 1 / 2) := by
  have denominator : (0 : Rat) < ratio.2 := Nat.cast_pos.mpr positive
  rcases divideToEven_spec ratio.1 positive with ⟨lower, upper, odd⟩
  generalize divideToEven ratio.1 ratio.2 = nearest at *
  have lower : 2 * (ratio.2 : Rat) * nearest ≤ 2 * ratio.1 + ratio.2 := by exact_mod_cast lower
  have upper : 2 * (ratio.1 : Rat) ≤ 2 * ratio.2 * nearest + ratio.2 := by exact_mod_cast upper
  rw [fraction, le_div_iff₀ denominator, div_le_iff₀ denominator, lt_div_iff₀ denominator,
    div_lt_iff₀ denominator]
  refine ⟨by linarith, by linarith, fun isOdd => ?_⟩
  have strictLower : 2 * (ratio.2 : Rat) * nearest < 2 * ratio.1 + ratio.2 := by
    exact_mod_cast (odd isOdd).1
  have strictUpper : 2 * (ratio.1 : Rat) < 2 * ratio.2 * nearest + ratio.2 := by
    exact_mod_cast (odd isOdd).2
  exact ⟨by linarith, by linarith⟩

/-! ## The exponent -/

theorem scaleDown_pos
    {numerator denominator : Nat}
    (positive : 0 < denominator)
    (exponent : Int) :
    0 < (scaleDown numerator denominator exponent).2 := by
  rw [scaleDown]
  split
  case isTrue => exact Nat.mul_pos positive (Nat.pow_pos (by decide))
  case isFalse => exact positive

theorem fraction_scaleDown
    (numerator denominator : Nat)
    (exponent : Int) :
    fraction (scaleDown numerator denominator exponent) * 2 ^ exponent =
      fraction (numerator, denominator) := by
  have power : (2 : Rat) ^ exponent = ((2 : Nat) : Rat) ^ exponent := rfl
  rw [scaleDown, power]
  split
  case isTrue nonneg =>
    rw [zpow_of_nonneg 2 nonneg, fraction, fraction, Nat.pow_eq]
    push_cast
    field_simp
  case isFalse negative =>
    rw [zpow_of_neg 2 (not_le.mp negative), fraction, fraction, Nat.pow_eq]
    push_cast
    field_simp

/-- Powers of two around a natural number. -/
theorem log2_bounds
    {number : Nat}
    (positive : 0 < number) :
    (2 : Rat) ^ (number.log2 : Int) ≤ number ∧ (number : Rat) < 2 ^ ((number.log2 : Int) + 1) := by
  constructor
  · rw [zpow_natCast]
    exact_mod_cast Nat.log2_self_le positive.ne'
  · rw [← Nat.cast_succ, zpow_natCast]
    exact_mod_cast Nat.lt_log2_self

/-- The first guess at the exponent is right, or one too great. -/
theorem guess_bounds
    {numerator denominator : Nat}
    (numeratorPos : 0 < numerator)
    (denominatorPos : 0 < denominator) :
    let guess : Int := (numerator.log2 : Int) - denominator.log2 - 52
    2 ^ 51 * 2 ^ guess < fraction (numerator, denominator) ∧
      fraction (numerator, denominator) < 2 ^ 53 * 2 ^ guess := by
  intro guess
  rcases log2_bounds numeratorPos with ⟨numeratorLower, numeratorUpper⟩
  rcases log2_bounds denominatorPos with ⟨denominatorLower, denominatorUpper⟩
  have positive : (0 : Rat) < denominator := Nat.cast_pos.mpr denominatorPos
  have unit : (0 : Rat) < 2 ^ guess := by positivity
  have numeratorPower : (2 : Rat) ^ (numerator.log2 : Int) =
      2 ^ 52 * 2 ^ guess * 2 ^ (denominator.log2 : Int) := by
    rw [← zpow_natCast, ← zpow_add₀ two_ne_zero, ← zpow_add₀ two_ne_zero]
    congr 1
    omega
  have nextPower : ∀ exponent : Int, (2 : Rat) ^ (exponent + 1) = 2 * 2 ^ exponent := by
    intro exponent
    rw [zpow_add_one₀ two_ne_zero, mul_comm]
  rw [nextPower] at numeratorUpper denominatorUpper
  rw [numeratorPower] at numeratorLower numeratorUpper
  simp only [fraction]
  rw [lt_div_iff₀ positive, div_lt_iff₀ positive]
  constructor
  · calc 2 ^ 51 * 2 ^ guess * (denominator : Rat)
        < 2 ^ 51 * 2 ^ guess * (2 * 2 ^ (denominator.log2 : Int)) :=
          mul_lt_mul_of_pos_left denominatorUpper (by positivity)
      _ = 2 ^ 52 * 2 ^ guess * 2 ^ (denominator.log2 : Int) := by ring
      _ ≤ numerator := numeratorLower
  · calc (numerator : Rat)
        < 2 * (2 ^ 52 * 2 ^ guess * 2 ^ (denominator.log2 : Int)) := numeratorUpper
      _ = 2 ^ 53 * 2 ^ guess * 2 ^ (denominator.log2 : Int) := by ring
      _ ≤ 2 ^ 53 * 2 ^ guess * denominator :=
          mul_le_mul_of_nonneg_left denominatorLower (by positivity)

/-- At the exponent, unless it is the least one, a fraction has 53 bits. -/
theorem exponentOf_spec
    {numerator denominator : Nat}
    (numeratorPos : 0 < numerator)
    (denominatorPos : 0 < denominator) :
    ∃ exact : Int, exponentOf numerator denominator = max exact leastExponent ∧
      2 ^ 52 * 2 ^ exact ≤ fraction (numerator, denominator) ∧
      fraction (numerator, denominator) < 2 ^ 53 * 2 ^ exact := by
  rcases guess_bounds numeratorPos denominatorPos with ⟨lower, upper⟩
  simp only [exponentOf]
  generalize (numerator.log2 : Int) - denominator.log2 - 52 = guess at *
  have unit : (0 : Rat) < 2 ^ guess := by positivity
  have scaled := fraction_scaleDown numerator denominator guess
  have scaledPos := @scaleDown_pos numerator _ denominatorPos guess
  generalize scaleDown numerator denominator guess = ratio at *
  have ratioPos : (0 : Rat) < ratio.2 := Nat.cast_pos.mpr scaledPos
  split
  case isTrue small =>
    refine ⟨guess - 1, rfl, ?_⟩
    have isSmall : fraction ratio < 2 ^ 52 := by
      rw [fraction, div_lt_iff₀ ratioPos]
      exact_mod_cast (Nat.div_lt_iff_lt_mul scaledPos).mp small
    have previous : (2 : Rat) ^ guess = 2 * 2 ^ (guess - 1) := by
      rw [mul_comm, ← zpow_add_one₀ two_ne_zero, sub_add_cancel]
    rw [← scaled] at lower ⊢
    rw [previous] at lower unit ⊢
    constructor
    · linarith
    · nlinarith
  case isFalse large =>
    refine ⟨guess, rfl, ?_, upper⟩
    have isLarge : 2 ^ 52 ≤ fraction ratio := by
      rw [fraction, le_div_iff₀ ratioPos]
      exact_mod_cast (Nat.le_div_iff_mul_le scaledPos).mp (Nat.not_lt.mp large)
    rw [← scaled]
    exact mul_le_mul_of_nonneg_right isLarge unit.le

theorem zpow_split
    {base : Rat}
    (nonzero : base ≠ 0)
    {lower upper : Int}
    (ordered : lower ≤ upper) :
    base ^ upper = base ^ (upper - lower).toNat * base ^ lower := by
  rw [← zpow_natCast, ← zpow_add₀ nonzero, Int.toNat_of_nonneg (by omega), sub_add_cancel]

/-! ## The nearest double -/

/-- An integer is the significand of the double that a number near to it rounds to. -/
theorem isNear_of_significand
    (negative : Bool)
    {significand : Nat}
    {exponent : Int}
    {scaled : Rat}
    (lower : (significand : Rat) - 1 / 2 ≤ scaled)
    (upper : scaled ≤ significand + 1 / 2)
    (odd : significand % 2 = 1 →
      (significand : Rat) - 1 / 2 < scaled ∧ scaled < significand + 1 / 2)
    (isLarge : leastExponent < exponent → 2 ^ 52 ≤ scaled) :
    (Binary64.mk negative significand exponent).IsNear (scaled * 2 ^ exponent) := by
  have unit : (0 : Rat) < 2 ^ exponent := by positivity
  have regrouped : 4 * (scaled * 2 ^ exponent) = (4 * scaled) * 2 ^ exponent := by ring
  simp only [IsNear, reach, gt_iff_lt, regrouped, mul_le_mul_iff_left₀ unit,
    mul_lt_mul_iff_left₀ unit]
  -- Above a power of two the lower end is nearer, and the number is not below the power itself.
  by_cases isPower : significand = Nat.pow 2 52 ∧ leastExponent < exponent
  · have power : (significand : Rat) = 2 ^ 52 := by
      rw [isPower.1]
      norm_num
    have even : significand % 2 = 0 := by
      rw [isPower.1]
    have atLeast := isLarge isPower.2
    rw [if_pos isPower, if_pos even]
    push_cast
    constructor <;> linarith
  · rw [if_neg isPower]
    push_cast
    split
    case isTrue => constructor <;> linarith
    case isFalse notEven =>
      rcases odd (by omega) with ⟨strictLower, strictUpper⟩
      constructor <;> linarith

/-- What is rounded up to 54 bits rounds to the next power of two. -/
theorem isNear_of_carry
    (negative : Bool)
    {exponent : Int}
    {scaled : Rat}
    (lower : (2 : Rat) ^ 53 - 1 / 2 ≤ scaled)
    (upper : scaled < 2 ^ 53) :
    (Binary64.mk negative (Nat.pow 2 52) (exponent + 1)).IsNear (scaled * 2 ^ exponent) := by
  have unit : (0 : Rat) < 2 ^ exponent := by positivity
  have below : (1 : Rat) ≤ (Binary64.mk negative (Nat.pow 2 52) (exponent + 1)).reach.1 := by
    rw [reach]
    split <;> norm_num
  have above := (Binary64.mk negative (Nat.pow 2 52) (exponent + 1)).reach_le.2
  simp only [IsNear, above, zpow_add_one₀ (two_ne_zero : (2 : Rat) ≠ 0)]
  generalize ((Binary64.mk negative (Nat.pow 2 52) (exponent + 1)).reach.1 : Rat) = reached at *
  push_cast
  constructor
  · nlinarith
  · nlinarith

section

variable
    {numerator denominator : Nat}
    (numeratorPos : 0 < numerator)
    (denominatorPos : 0 < denominator)

include numeratorPos denominatorPos

/-- A double that is rounded to has the nearest integer, or one more bit was needed. -/
theorem roundRatio_cases
    {negative : Bool}
    {value : Binary64}
    (rounded : roundRatio negative numerator denominator = some value) :
    ∃ (scaled : Rat) (exponent : Int) (nearest : Nat),
      fraction (numerator, denominator) = scaled * 2 ^ exponent ∧
        exponent = exponentOf numerator denominator ∧
        ((nearest : Rat) - 1 / 2 ≤ scaled ∧ scaled ≤ nearest + 1 / 2 ∧
          (nearest % 2 = 1 → (nearest : Rat) - 1 / 2 < scaled ∧ scaled < nearest + 1 / 2)) ∧
        (value = ⟨negative, nearest, exponent⟩ ∨
          nearest = Nat.pow 2 53 ∧ value = ⟨negative, Nat.pow 2 52, exponent + 1⟩) := by
  have scaledDown := fraction_scaleDown numerator denominator (exponentOf numerator denominator)
  have scaledPos := @scaleDown_pos numerator _ denominatorPos (exponentOf numerator denominator)
  have near := divideToEven_near _ scaledPos
  rcases Option.map_eq_some_iff.mp rounded with ⟨⟨significand, exponent⟩, magnitude, rfl⟩
  simp only [roundMagnitude, if_neg numeratorPos.ne'] at magnitude
  refine ⟨_, _, _, scaledDown.symm, rfl, near, ?_⟩
  split at magnitude
  case isTrue carries =>
    right
    split at magnitude
    case isTrue => cases magnitude
    case isFalse =>
      cases magnitude
      exact ⟨carries, rfl⟩
  case isFalse =>
    left
    split at magnitude
    case isTrue => cases magnitude
    case isFalse =>
      cases magnitude
      rfl

/-- What a fraction is rounded to is a double that it is near to. -/
theorem isNear_of_roundRatio
    {negative : Bool}
    {value : Binary64}
    (rounded : roundRatio negative numerator denominator = some value) :
    value.IsNear (fraction (numerator, denominator)) := by
  rcases exponentOf_spec numeratorPos denominatorPos with ⟨exact, isMax, lower, upper⟩
  rcases roundRatio_cases numeratorPos denominatorPos rounded with
    ⟨scaled, exponent, nearest, isScaled, isExponent, ⟨below, above, odd⟩, isValue⟩
  have unit : (0 : Rat) < 2 ^ exponent := by positivity
  rw [isScaled] at lower upper ⊢
  rw [isMax] at isExponent
  rcases isValue with rfl | ⟨carries, rfl⟩
  · apply isNear_of_significand negative below above odd
    intro notLeast
    have same : exponent = exact := by omega
    rw [← same] at lower
    exact le_of_mul_le_mul_right lower unit
  · have power : ((Nat.pow 2 53 : Nat) : Rat) = 2 ^ 53 := by norm_num
    rw [carries, power] at below
    apply isNear_of_carry negative below
    have atLeast : (2 : Rat) ^ exact ≤ 2 ^ exponent :=
      zpow_le_zpow_right₀ (by norm_num) (by omega)
    nlinarith

/-- Between these bounds a fraction is far from the least and from the greatest double. -/
theorem exponentOf_bounds
    (notSmall : 2 ^ (-900 : Int) ≤ fraction (numerator, denominator))
    (notLarge : fraction (numerator, denominator) ≤ 2 ^ (900 : Int)) :
    leastExponent < exponentOf numerator denominator ∧
      exponentOf numerator denominator < greatestExponent ∧
      2 ^ 52 * 2 ^ exponentOf numerator denominator ≤ fraction (numerator, denominator) := by
  rcases exponentOf_spec numeratorPos denominatorPos with ⟨exact, isMax, lower, upper⟩
  have least : leastExponent = -1074 := rfl
  have greatest : greatestExponent = 971 := rfl
  have above : -1074 < exact := by
    by_contra small
    have atMost : (2 : Rat) ^ exact ≤ 2 ^ (-1074 : Int) :=
      zpow_le_zpow_right₀ (by norm_num) (not_lt.mp small)
    have power : (2 : Rat) ^ 53 * 2 ^ (-1074 : Int) < 2 ^ (-900 : Int) := by
      rw [← zpow_natCast, ← zpow_add₀ two_ne_zero]
      exact zpow_lt_zpow_right₀ (by norm_num) (by norm_num)
    linarith
  have below : exact < 971 := by
    by_contra large
    have atLeast : (2 : Rat) ^ (971 : Int) ≤ 2 ^ exact :=
      zpow_le_zpow_right₀ (by norm_num) (not_lt.mp large)
    have power : (2 : Rat) ^ (900 : Int) < 2 ^ 52 * 2 ^ (971 : Int) := by
      rw [← zpow_natCast, ← zpow_add₀ two_ne_zero]
      exact zpow_lt_zpow_right₀ (by norm_num) (by norm_num)
    have scaled := mul_le_mul_of_nonneg_left atLeast (by positivity : (0 : Rat) ≤ 2 ^ 52)
    exact absurd (power.trans_le (scaled.trans (lower.trans notLarge))) (lt_irrefl _)
  have same : exponentOf numerator denominator = exact := by omega
  rw [same]
  exact ⟨by omega, by omega, lower⟩

theorem exists_roundRatio
    (negative : Bool)
    (notSmall : 2 ^ (-900 : Int) ≤ fraction (numerator, denominator))
    (notLarge : fraction (numerator, denominator) ≤ 2 ^ (900 : Int)) :
    ∃ value, roundRatio negative numerator denominator = some value := by
  rcases exponentOf_bounds numeratorPos denominatorPos notSmall notLarge with ⟨_, below, _⟩
  simp only [roundRatio, roundMagnitude, if_neg numeratorPos.ne']
  split
  · rw [if_neg (by omega)]
    exact ⟨_, rfl⟩
  · rw [if_neg (by omega)]
    exact ⟨_, rfl⟩

/-- What is rounded to is not below the powers of two. -/
theorem significand_of_roundRatio
    {negative : Bool}
    {value : Binary64}
    (rounded : roundRatio negative numerator denominator = some value)
    (notSmall : 2 ^ (-900 : Int) ≤ fraction (numerator, denominator))
    (notLarge : fraction (numerator, denominator) ≤ 2 ^ (900 : Int)) :
    2 ^ 52 ≤ value.significand := by
  rcases exponentOf_bounds numeratorPos denominatorPos notSmall notLarge with ⟨_, _, lower⟩
  rcases roundRatio_cases numeratorPos denominatorPos rounded with
    ⟨scaled, exponent, nearest, isScaled, isExponent, ⟨_, above, _⟩, isValue⟩
  rcases isValue with rfl | ⟨_, rfl⟩
  · have unit : (0 : Rat) < 2 ^ exponent := by positivity
    rw [isScaled, ← isExponent] at lower
    have atLeast : (2 : Rat) ^ 52 ≤ scaled := le_of_mul_le_mul_right lower unit
    by_contra small
    have next : nearest + 1 ≤ 2 ^ 52 := not_le.mp small
    have next : (nearest : Rat) + 1 ≤ 2 ^ 52 := by exact_mod_cast next
    linarith
  · exact le_rfl

/-- A number of 53 bits, times a power of two, is not changed by rounding. -/
theorem magnitude_of_roundRatio
    {negative : Bool}
    {value : Binary64}
    (rounded : roundRatio negative numerator denominator = some value)
    (notSmall : 2 ^ (-900 : Int) ≤ fraction (numerator, denominator))
    (notLarge : fraction (numerator, denominator) ≤ 2 ^ (900 : Int))
    {factor power : Nat}
    (fits : factor < 2 ^ 53)
    (isExact : fraction (numerator, denominator) = factor * 2 ^ power) :
    value.magnitude = fraction (numerator, denominator) := by
  rcases exponentOf_bounds numeratorPos denominatorPos notSmall notLarge with ⟨_, _, lower⟩
  rcases roundRatio_cases numeratorPos denominatorPos rounded with
    ⟨scaled, exponent, nearest, isScaled, isExponent, ⟨below, above, _⟩, isValue⟩
  have unit : (0 : Rat) < 2 ^ exponent := by positivity
  have isSame : scaled * 2 ^ exponent = factor * 2 ^ (power : Int) := by
    rw [← isScaled, isExact, zpow_natCast]
  have notAbove : exponent ≤ power := by
    by_contra isAbove
    have next : (2 : Rat) ^ (power : Int) * 2 ≤ 2 ^ exponent := by
      rw [← zpow_add_one₀ two_ne_zero]
      exact zpow_le_zpow_right₀ (by norm_num) (by omega)
    have small : (factor : Rat) < 2 ^ 53 := by exact_mod_cast fits
    have powerPos : (0 : Rat) < 2 ^ (power : Int) := by positivity
    rw [isScaled, isSame, ← isExponent] at lower
    nlinarith only [lower, next, small, powerPos]
  have isInteger : scaled = (factor * 2 ^ (power - exponent).toNat : Nat) := by
    rw [zpow_split two_ne_zero notAbove, ← mul_assoc] at isSame
    have cancelled := mul_right_cancel₀ unit.ne' isSame
    push_cast
    exact cancelled
  have same : (nearest : Rat) = scaled := by
    rw [isInteger] at below above ⊢
    generalize factor * 2 ^ (power - exponent).toNat = integer at *
    have notBelow : nearest < integer + 1 := by
      have : (nearest : Rat) < integer + 1 := by linarith only [below]
      exact_mod_cast this
    have notAbove : integer < nearest + 1 := by
      have : (integer : Rat) < nearest + 1 := by linarith only [above]
      exact_mod_cast this
    have equal : nearest = integer := by omega
    rw [equal]
  rcases isValue with rfl | ⟨carries, rfl⟩
  · rw [magnitude, isScaled, same]
  · rw [magnitude, isScaled, ← same, carries, zpow_add_one₀ two_ne_zero]
    push_cast
    ring

end

end QueryGateway.Binary64
