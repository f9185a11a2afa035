import Mathlib.Tactic.NormNum
import Mathlib.Tactic.Ring
import QueryGateway.Proofs.Number.Rounding

/-!
# Decimals of fifteen digits are kept

Two decimals of at most fifteen digits never round to the same normal double:
they are further apart than the rounding interval is wide.  If a double comes
from such a decimal, the search for the shortest one ends there or before it,
and so it ends at this decimal.
-/

namespace QueryGateway.Binary64

/-! ## Decimals are far apart -/


/-- A decimal is at least one unit of the smaller grid away from a greater one. -/
theorem Decimal.spaced
    {left right : Decimal}
    (less : left.value < right.value)
    (leftFits : left.digits ≤ 10 ^ 15)
    (rightFits : right.digits ≤ 10 ^ 15) :
    left.value ≤ 10 ^ 15 * (right.value - left.value) := by
  have leftUnit : (0 : Rat) < 10 ^ left.exponent := by positivity
  have rightUnit : (0 : Rat) < 10 ^ right.exponent := by positivity
  have leftFits : (left.digits : Rat) ≤ 10 ^ 15 := by exact_mod_cast leftFits
  have rightFits : (right.digits : Rat) ≤ 10 ^ 15 := by exact_mod_cast rightFits
  simp only [Decimal.value] at less ⊢
  rcases le_total left.exponent right.exponent with ordered | ordered
  · rw [zpow_split (by norm_num) ordered] at less ⊢
    generalize (10 : Rat) ^ left.exponent = unit at *
    have greater : left.digits < right.digits * 10 ^ (right.exponent - left.exponent).toNat := by
      rw [← mul_assoc] at less
      have cancelled := lt_of_mul_lt_mul_right less leftUnit.le
      exact_mod_cast cancelled
    have next : left.digits + 1 ≤ right.digits * 10 ^ (right.exponent - left.exponent).toNat :=
      greater
    have next : (left.digits : Rat) + 1 ≤
        right.digits * 10 ^ (right.exponent - left.exponent).toNat := by
      exact_mod_cast next
    nlinarith
  · rw [zpow_split (by norm_num) ordered] at less ⊢
    generalize (10 : Rat) ^ right.exponent = unit at *
    have greater : left.digits * 10 ^ (left.exponent - right.exponent).toNat < right.digits := by
      rw [← mul_assoc] at less
      have cancelled := lt_of_mul_lt_mul_right less rightUnit.le
      exact_mod_cast cancelled
    have next : left.digits * 10 ^ (left.exponent - right.exponent).toNat + 1 ≤ right.digits :=
      greater
    have next : (left.digits : Rat) * 10 ^ (left.exponent - right.exponent).toNat + 1 ≤
        right.digits := by
      exact_mod_cast next
    nlinarith

/-- A rounding interval is narrow: it is no wider than one unit of the last place. -/
theorem IsNear.narrow
    {value : Binary64}
    (isNormal : 2 ^ 52 ≤ value.significand)
    {number other : Rat}
    (near : value.IsNear number)
    (otherNear : value.IsNear other) :
    10 ^ 15 * (other - number) < number := by
  have unit : (0 : Rat) < 2 ^ value.exponent := by positivity
  have normal : (2 : Rat) ^ 52 ≤ value.significand := by exact_mod_cast isNormal
  have below : (value.reach.1 : Rat) ≤ 2 := by
    exact_mod_cast value.reach_le.1
  have above : (value.reach.2 : Rat) = 2 := by
    exact_mod_cast value.reach_le.2
  have lower := near.bounds.1
  have upper := otherNear.bounds.2
  rw [above] at upper
  generalize (2 : Rat) ^ value.exponent = unit at *
  nlinarith

/-- At most one decimal of fifteen digits rounds to a normal double. -/
theorem Decimal.value_unique
    {value : Binary64}
    (isNormal : 2 ^ 52 ≤ value.significand)
    {left right : Decimal}
    (leftFits : left.digits ≤ 10 ^ 15)
    (rightFits : right.digits ≤ 10 ^ 15)
    (leftNear : value.IsNear left.value)
    (rightNear : value.IsNear right.value) :
    left.value = right.value := by
  rcases lt_trichotomy left.value right.value with less | same | greater
  · have apart := spaced less leftFits rightFits
    have narrow := leftNear.narrow isNormal rightNear
    exact absurd (apart.trans_lt narrow) (lt_irrefl _)
  · exact same
  · have apart := spaced greater rightFits leftFits
    have narrow := rightNear.narrow isNormal leftNear
    exact absurd (apart.trans_lt narrow) (lt_irrefl _)

/-! ## Grids -/

theorem digitCount_bounds
    {number : Nat}
    (positive : 0 < number) :
    10 ^ (digitCount number - 1) ≤ number ∧ number < 10 ^ digitCount number ∧
      1 ≤ digitCount number := by
  have nonempty : 0 < digitCount number := Nat.length_toDigits_pos
  have bounds : ∀ count, 0 < count → (digitCount number ≤ count ↔ number < 10 ^ count) :=
    fun count isPos => Nat.length_toDigits_le_iff (by decide) isPos
  refine ⟨?_, (bounds _ nonempty).mp le_rfl, nonempty⟩
  rcases Nat.eq_or_lt_of_le nonempty with single | more
  · rw [← single]
    exact positive
  · have notFewer := (bounds (digitCount number - 1) (by omega)).not.mp (by omega)
    exact not_lt.mp notFewer

/-- The leading digit of a fraction counts the greatest power of ten that is not above it. -/
theorem leadingExponent_spec
    {top bottom : Nat}
    (topPos : 0 < top)
    (bottomPos : 0 < bottom) :
    (10 : Rat) ^ leadingExponent top bottom ≤ fraction (top, bottom) ∧
      fraction (top, bottom) < 10 ^ (leadingExponent top bottom + 1) := by
  have bottomPos' : (0 : Rat) < bottom := Nat.cast_pos.mpr bottomPos
  have topPos' : (0 : Rat) < top := Nat.cast_pos.mpr topPos
  rw [leadingExponent, fraction]
  split
  case isTrue atLeastOne =>
    have quotientPos : 0 < top / bottom := Nat.div_pos atLeastOne bottomPos
    rcases digitCount_bounds quotientPos with ⟨lower, upper, nonempty⟩
    have isNat : ((digitCount (top / bottom) : Nat) : Int) - 1 =
        ((digitCount (top / bottom) - 1 : Nat) : Int) := by
      omega
    rw [sub_add_cancel, isNat, zpow_natCast, zpow_natCast, le_div_iff₀ bottomPos',
      div_lt_iff₀ bottomPos']
    constructor
    · have product := (Nat.le_div_iff_mul_le bottomPos).mp lower
      exact_mod_cast product
    · have product := (Nat.div_lt_iff_lt_mul bottomPos).mp upper
      exact_mod_cast product
  case isFalse belowOne =>
    -- The fraction turned over is above one, and the integer below it is counted.
    have ceiling := Nat.div_add_mod (bottom + top - 1) top
    have remainder := Nat.mod_lt (bottom + top - 1) topPos
    have atLeastTwo : 2 ≤ (bottom + top - 1) / top :=
      (Nat.le_div_iff_mul_le topPos).mpr (by omega)
    have belowPos : 0 < (bottom + top - 1) / top - 1 := by omega
    rcases digitCount_bounds belowPos with ⟨lower, upper, nonempty⟩
    have whole : top * ((bottom + top - 1) / top) =
        top * ((bottom + top - 1) / top - 1) + top := by
      rw [← Nat.mul_succ]
      congr 1
      omega
    generalize (bottom + top - 1) / top - 1 = below at *
    have isLess : top * below < bottom := by omega
    have isEnough : bottom ≤ top * (below + 1) := by
      rw [Nat.mul_succ]
      omega
    have powerLower : top * 10 ^ (digitCount below - 1) < bottom :=
      (Nat.mul_le_mul_left top lower).trans_lt isLess
    have powerUpper : bottom ≤ top * 10 ^ digitCount below :=
      isEnough.trans (Nat.mul_le_mul_left top upper)
    have isNat : -((digitCount below : Nat) : Int) + 1 =
        -((digitCount below - 1 : Nat) : Int) := by
      omega
    rw [isNat, zpow_neg, zpow_neg, zpow_natCast, zpow_natCast, inv_le_comm₀, lt_inv_comm₀,
      inv_div, div_le_iff₀ topPos', lt_div_iff₀ topPos', mul_comm, mul_comm ((10 : Rat) ^ _)]
    · constructor
      · exact_mod_cast powerUpper
      · exact_mod_cast powerLower
    · positivity
    · positivity
    · positivity
    · positivity

/-- The floor of a fraction on a grid. -/
theorem onGrid_spec
    {top bottom : Nat}
    (bottomPos : 0 < bottom)
    (exponent : Int) :
    ((onGrid top bottom exponent).1 : Rat) * 10 ^ exponent ≤ fraction (top, bottom) ∧
      fraction (top, bottom) < ((onGrid top bottom exponent).1 + 1 : Nat) * 10 ^ exponent := by
  have unit : (0 : Rat) < 10 ^ exponent := by positivity
  have bottomPos' : (0 : Rat) < bottom := Nat.cast_pos.mpr bottomPos
  have power : (10 : Rat) ^ exponent = ((10 : Nat) : Rat) ^ exponent := rfl
  have floors : ∀ above below : Nat, 0 < below →
      (above : Rat) / below * 10 ^ exponent = fraction (top, bottom) →
        ((above / below : Nat) : Rat) * 10 ^ exponent ≤ fraction (top, bottom) ∧
          fraction (top, bottom) < ((above / below + 1 : Nat) : Rat) * 10 ^ exponent := by
    intro above below belowPos isFraction
    have belowPos' : (0 : Rat) < below := Nat.cast_pos.mpr belowPos
    rw [← isFraction]
    constructor
    · apply mul_le_mul_of_nonneg_right _ unit.le
      rw [le_div_iff₀ belowPos']
      exact_mod_cast Nat.div_mul_le_self above below
    · apply mul_lt_mul_of_pos_right _ unit
      rw [div_lt_iff₀ belowPos']
      exact_mod_cast (Nat.div_lt_iff_lt_mul belowPos).mp (Nat.lt_succ_self _)
  simp only [onGrid]
  split
  case isTrue nonneg =>
    apply floors _ _ (Nat.mul_pos bottomPos (Nat.pow_pos (by decide)))
    rw [power, zpow_of_nonneg 10 nonneg, fraction, Nat.pow_eq]
    push_cast
    field_simp
  case isFalse negative =>
    apply floors _ _ bottomPos
    rw [power, zpow_of_neg 10 (not_le.mp negative), fraction, Nat.pow_eq]
    push_cast
    field_simp

/-! ## Rounding intervals are convex -/

theorem IsNear.between
    {value : Binary64}
    {left middle right : Rat}
    (leftNear : value.IsNear left)
    (rightNear : value.IsNear right)
    (fromLeft : left ≤ middle)
    (toRight : middle ≤ right) :
    value.IsNear middle := by
  simp only [IsNear] at leftNear rightNear ⊢
  split
  case isTrue even =>
    rw [if_pos even] at leftNear rightNear
    exact ⟨by linarith only [leftNear.1, fromLeft], by linarith only [rightNear.2, toRight]⟩
  case isFalse odd =>
    rw [if_neg odd] at leftNear rightNear
    exact ⟨by linarith only [leftNear.1, fromLeft], by linarith only [rightNear.2, toRight]⟩

theorem isNear_magnitude
    (value : Binary64) :
    value.IsNear value.magnitude := by
  have unit : (0 : Rat) < 2 ^ value.exponent := by positivity
  have below : (1 : Rat) ≤ value.reach.1 := by
    rw [reach]
    split <;> norm_num
  have above : (value.reach.2 : Rat) = 2 := by
    exact_mod_cast value.reach_le.2
  simp only [IsNear, magnitude, above]
  generalize (2 : Rat) ^ value.exponent = unit at *
  split
  case isTrue => constructor <;> nlinarith
  case isFalse => constructor <;> nlinarith

/-- If a point of a grid rounds to a double, a neighbour of the double on the grid does. -/
theorem exists_decimalWith?
    {value : Binary64}
    (nonzero : value.isZero = false)
    {leading : Int}
    {count point : Nat}
    (near : value.IsNear (point * 10 ^ (leading - count + 1))) :
    ∃ decimal, value.decimalWith? leading count = some decimal := by
  have unit : (0 : Rat) < 10 ^ (leading - count + 1) := by positivity
  rcases @onGrid_spec value.ratio.1 _ value.ratio_pos (leading - count + 1) with
    ⟨lower, upper⟩
  rw [fraction_ratio] at lower upper
  have neighbour :
      value.holds ⟨(onGrid value.ratio.1 value.ratio.2 (leading - count + 1)).1,
          leading - count + 1⟩ = true ∨
        value.holds ⟨(onGrid value.ratio.1 value.ratio.2 (leading - count + 1)).1 + 1,
          leading - count + 1⟩ = true := by
    simp only [holds_iff_isNear nonzero, Decimal.value]
    generalize (onGrid value.ratio.1 value.ratio.2 (leading - count + 1)).1 = floor at *
    rcases Nat.lt_or_ge floor point with above | notAbove
    · right
      apply value.isNear_magnitude.between near upper.le
      apply mul_le_mul_of_nonneg_right _ unit.le
      exact_mod_cast above
    · left
      apply near.between value.isNear_magnitude _ lower
      apply mul_le_mul_of_nonneg_right _ unit.le
      exact_mod_cast notAbove
  simp only [decimalWith?]
  rcases neighbour with isLower | isUpper
  · rw [isLower]
    split
    case h_1 contradiction _ => cases contradiction
    case h_2 => exact ⟨_, rfl⟩
    case h_3 contradiction _ => cases contradiction
    case h_4 => split <;> exact ⟨_, rfl⟩
  · rw [isUpper]
    split
    case h_1 _ contradiction => cases contradiction
    case h_2 _ contradiction => cases contradiction
    case h_3 => exact ⟨_, rfl⟩
    case h_4 => split <;> exact ⟨_, rfl⟩

/-! ## The search -/

theorem digits_of_decimalWith?
    {value : Binary64}
    {leading : Int}
    {count : Nat}
    {decimal : Decimal}
    (found : value.decimalWith? leading count = some decimal) :
    decimal.digits ≤ (onGrid value.ratio.1 value.ratio.2 (leading - count + 1)).1 + 1 := by
  simp only [decimalWith?] at found
  split at found
  case h_1 => cases found
  case h_2 =>
    cases found
    exact Nat.le_succ _
  case h_3 =>
    cases found
    exact le_rfl
  case h_4 =>
    split at found
    case isTrue =>
      cases found
      exact Nat.le_succ _
    case isFalse =>
      cases found
      exact le_rfl

/-- A decimal that is found has no more digits than were looked for. -/
theorem digits_le_of_decimalWith?
    {value : Binary64}
    {leading : Int}
    (below : value.magnitude < 10 ^ (leading + 1))
    {count : Nat}
    {decimal : Decimal}
    (found : value.decimalWith? leading count = some decimal) :
    decimal.digits ≤ 10 ^ count := by
  have unit : (0 : Rat) < 10 ^ (leading - count + 1) := by positivity
  have lower := (@onGrid_spec value.ratio.1 _ value.ratio_pos (leading - count + 1)).1
  have atMost := digits_of_decimalWith? found
  rw [fraction_ratio] at lower
  generalize (onGrid value.ratio.1 value.ratio.2 (leading - count + 1)).1 = floor at *
  have power : (10 : Rat) ^ (leading + 1) = 10 ^ count * 10 ^ (leading - count + 1) := by
    rw [← zpow_natCast, ← zpow_add₀ (by norm_num)]
    congr 1
    ring
  rw [power] at below
  have isLess : (floor : Rat) < 10 ^ count := lt_of_mul_lt_mul_right (lower.trans_lt below) unit.le
  have isLess : floor < 10 ^ count := by exact_mod_cast isLess
  omega

/-- If a decimal of fifteen digits rounds to a double, one is found with fifteen digits. -/
theorem exists_decimal_of_fifteen
    {value : Binary64}
    (nonzero : value.isZero = false)
    {leading : Int}
    (above : (10 : Rat) ^ leading ≤ value.magnitude)
    {decimal : Decimal}
    (fits : decimal.digits < 10 ^ 15)
    (near : value.IsNear decimal.value) :
    ∃ found, value.decimalWith? leading 15 = some found := by
  have grid : leading - ((15 : Nat) : Int) + 1 = leading - 14 := by
    push_cast
    ring
  rcases le_or_gt ((10 : Rat) ^ leading) decimal.value with isAbove | isBelow
  · have onGrid : leading - 14 ≤ decimal.exponent := by
      by_contra finer
      have unit : (10 : Rat) ^ decimal.exponent ≤ 10 ^ (leading - 15) :=
        zpow_le_zpow_right₀ (by norm_num) (by omega)
      have power : (10 : Rat) ^ leading = 10 ^ 15 * 10 ^ (leading - 15) := by
        rw [← zpow_natCast, ← zpow_add₀ (by norm_num)]
        congr 1
        push_cast
        ring
      have fits : (decimal.digits : Rat) < 10 ^ 15 := by exact_mod_cast fits
      have unitPos : (0 : Rat) < 10 ^ decimal.exponent := by positivity
      rw [Decimal.value, power] at isAbove
      nlinarith
    have isPoint : decimal.value =
        (decimal.digits * 10 ^ (decimal.exponent - (leading - 14)).toNat : Nat) *
          10 ^ (leading - 14) := by
      rw [Decimal.value, zpow_split (by norm_num) onGrid]
      push_cast
      ring
    rw [isPoint, ← grid] at near
    exact exists_decimalWith? nonzero near
  · have power : ((10 ^ 14 : Nat) : Rat) * 10 ^ (leading - 14) = 10 ^ leading := by
      rw [Nat.cast_pow, ← zpow_natCast, Nat.cast_ofNat, ← zpow_add₀ (by norm_num)]
      congr 1
      push_cast
      ring
    have isNear := near.between value.isNear_magnitude isBelow.le above
    rw [← power, ← grid] at isNear
    exact exists_decimalWith? nonzero isNear

/-- The search ends at the decimal of fifteen digits that rounds to a normal double. -/
theorem shortest_value
    {value : Binary64}
    (isNormal : 2 ^ 52 ≤ value.significand)
    {decimal : Decimal}
    (fits : decimal.digits < 10 ^ 15)
    (near : value.IsNear decimal.value) :
    value.shortest.value = decimal.value := by
  have nonzero : value.isZero = false := by
    rw [isZero, beq_eq_false_iff_ne]
    omega
  have magnitudePos := value.isNear_magnitude.pos nonzero
  have topPos : 0 < value.ratio.1 := by
    rw [← fraction_ratio, fraction] at magnitudePos
    by_contra isZero
    rw [Nat.not_lt, Nat.le_zero] at isZero
    rw [isZero, Nat.cast_zero, zero_div] at magnitudePos
    exact lt_irrefl _ magnitudePos
  rcases leadingExponent_spec topPos value.ratio_pos with ⟨above, below⟩
  rw [fraction_ratio] at above below
  have split : List.range 17 = List.range 15 ++ [15, 16] := by decide
  rcases exists_decimal_of_fifteen nonzero above fits near with ⟨fifteen, isFifteen⟩
  have isSearched : ∃ found, ((List.range 15).findSome? fun index =>
      value.decimalWith? (leadingExponent value.ratio.1 value.ratio.2) (index + 1)) =
        some found := by
    rw [← Option.isSome_iff_exists, List.findSome?_isSome_iff]
    exact ⟨14, by decide, by simp [isFifteen]⟩
  rcases isSearched with ⟨found, searched⟩
  have isShortest : value.shortest = found := by
    simp only [shortest, split, List.findSome?_append, searched, Option.some_or, Option.getD_some]
  rcases List.exists_of_findSome?_eq_some searched with ⟨index, isIndex, isFound⟩
  have foundFits : found.digits ≤ 10 ^ 15 :=
    (digits_le_of_decimalWith? below isFound).trans
      (Nat.pow_le_pow_right (by decide) (List.mem_range.mp isIndex))
  have foundNear := (holds_iff_isNear nonzero found).mp (holds_of_decimalWith? isFound)
  rw [isShortest]
  exact Decimal.value_unique isNormal foundFits fits.le foundNear near

end QueryGateway.Binary64
