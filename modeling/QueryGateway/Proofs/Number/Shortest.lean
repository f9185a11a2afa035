import QueryGateway.Proofs.Number.Magnitude

/-!
# The shortest decimal of a double

`IsNear` is the rounding interval of a double: the rational numbers that are
nearer to it than to its neighbours, and the ends if its significand is even.
Decimals are tested against it, so the decimal that is written for a double lies
in its interval.
-/

namespace QueryGateway.Binary64

/-- The rational number rounds to the magnitude of the double. -/
def IsNear (value : Binary64) (number : Rat) : Prop :=
  let lower : Rat := (4 * value.significand - value.reach.1) * 2 ^ value.exponent
  let upper : Rat := (4 * value.significand + value.reach.2) * 2 ^ value.exponent
  if value.significand % 2 = 0 then lower ≤ 4 * number ∧ 4 * number ≤ upper
  else lower < 4 * number ∧ 4 * number < upper

theorem reach_le
    (value : Binary64) :
    value.reach.1 ≤ 2 ∧ value.reach.2 = 2 := by
  rw [reach]
  split <;> decide

theorem fraction_unit
    (exponent : Int) :
    fraction (Binary64.mk false 1 exponent).ratio = 2 ^ exponent := by
  rw [fraction_ratio, magnitude, Nat.cast_one, one_mul]

/-- Fractions are compared by multiplying both sides with both denominators. -/
theorem compare_fractions
    (factor other : Nat)
    {left right : Nat × Nat}
    (leftPos : 0 < left.2)
    (rightPos : 0 < right.2) :
    (factor * left.1 * right.2 ≤ other * right.1 * left.2 ↔
        (factor : Rat) * fraction left ≤ other * fraction right) ∧
      (factor * left.1 * right.2 < other * right.1 * left.2 ↔
        (factor : Rat) * fraction left < other * fraction right) := by
  have leftPos : (0 : Rat) < left.2 := Nat.cast_pos.mpr leftPos
  have rightPos : (0 : Rat) < right.2 := Nat.cast_pos.mpr rightPos
  simp only [fraction, ← mul_div_assoc]
  rw [div_le_div_iff₀ leftPos rightPos, div_lt_div_iff₀ leftPos rightPos]
  constructor
  · norm_cast
  · norm_cast

theorem holds_iff_isNear
    {value : Binary64}
    (nonzero : value.isZero = false)
    (decimal : Decimal) :
    value.holds decimal = true ↔ value.IsNear decimal.value := by
  have positive : 1 ≤ value.significand := by
    rw [isZero, beq_eq_false_iff_ne] at nonzero
    omega
  have below : value.reach.1 ≤ 4 * value.significand := by
    have := value.reach_le.1
    omega
  have lower := compare_fractions (4 * value.significand - value.reach.1) 4
    (ratio_pos ⟨false, 1, value.exponent⟩) decimal.ratio_pos
  have upper := compare_fractions 4 (4 * value.significand + value.reach.2)
    decimal.ratio_pos (ratio_pos ⟨false, 1, value.exponent⟩)
  rw [fraction_unit, Decimal.fraction_ratio] at lower upper
  rw [Nat.cast_sub below] at lower
  push_cast at lower upper
  simp only [IsNear, holds]
  split
  case isTrue =>
    rw [Bool.and_eq_true, decide_eq_true_eq, decide_eq_true_eq, lower.1]
    rw [← upper.1]
  case isFalse =>
    rw [Bool.and_eq_true, decide_eq_true_eq, decide_eq_true_eq, lower.2]
    rw [← upper.2]

/-- The ends of the rounding interval, whether or not they belong to it. -/
theorem IsNear.bounds
    {value : Binary64}
    {number : Rat}
    (near : value.IsNear number) :
    (4 * value.significand - value.reach.1) * 2 ^ value.exponent ≤ 4 * number ∧
      4 * number ≤ (4 * value.significand + value.reach.2) * 2 ^ value.exponent := by
  simp only [IsNear] at near
  split at near
  case isTrue => exact near
  case isFalse => exact ⟨near.1.le, near.2.le⟩

/-- Nothing that rounds to a double other than zero is zero. -/
theorem IsNear.pos
    {value : Binary64}
    {number : Rat}
    (near : value.IsNear number)
    (nonzero : value.isZero = false) :
    0 < number := by
  have positive : (1 : Rat) ≤ value.significand := by
    rw [isZero, beq_eq_false_iff_ne] at nonzero
    exact_mod_cast Nat.one_le_iff_ne_zero.mpr nonzero
  have below : (value.reach.1 : Rat) ≤ 2 := by
    exact_mod_cast value.reach_le.1
  have unit : (0 : Rat) < 2 ^ value.exponent := by
    positivity
  have factor : (0 : Rat) < 4 * value.significand - value.reach.1 := by
    linarith
  have lower := near.bounds.1
  have positiveLower := mul_pos factor unit
  linarith

/-! ## The search for the decimal -/

theorem holds_of_decimalWith?
    {value : Binary64}
    {leading : Int}
    {count : Nat}
    {decimal : Decimal}
    (found : value.decimalWith? leading count = some decimal) :
    value.holds decimal = true := by
  simp only [decimalWith?] at found
  split at found
  case h_1 => cases found
  case h_2 isLower _ =>
    cases found
    exact isLower
  case h_3 _ isUpper =>
    cases found
    exact isUpper
  case h_4 isLower isUpper =>
    split at found
    case isTrue =>
      cases found
      exact isLower
    case isFalse =>
      cases found
      exact isUpper

/-- What is written for a double rounds to it, unless no decimal was found. -/
theorem shortest_holds_or
    (value : Binary64) :
    value.holds value.shortest = true ∨ value.shortest = ⟨0, 0⟩ := by
  rw [shortest]
  simp only
  cases searched : (List.range 17).findSome? fun index =>
      value.decimalWith? (leadingExponent value.ratio.1 value.ratio.2) (index + 1) with
  | none => exact .inr rfl
  | some decimal =>
      rcases List.exists_of_findSome?_eq_some searched with ⟨_, _, found⟩
      exact .inl (holds_of_decimalWith? found)

theorem shortest_pos_or
    {value : Binary64}
    (nonzero : value.isZero = false) :
    0 < value.shortest.digits ∨ value.shortest = ⟨0, 0⟩ := by
  rcases value.shortest_holds_or with rounds | isNone
  · left
    have positive := ((holds_iff_isNear nonzero _).mp rounds).pos nonzero
    rw [Decimal.value] at positive
    by_contra isZero
    rw [Nat.not_lt, Nat.le_zero] at isZero
    rw [isZero, Nat.cast_zero, zero_mul] at positive
    exact lt_irrefl _ positive
  · exact .inr isNone

end QueryGateway.Binary64
