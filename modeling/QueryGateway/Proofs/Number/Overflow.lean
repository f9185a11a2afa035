import QueryGateway.Number.Written
import QueryGateway.Proofs.Number.Fidelity

/-!
# Numbers that are too large

A number rounds to a finite double if and only if it stands below the middle
between the greatest finite double and the power of two after it.  The middle
itself is rounded to the power of two, whose significand is even.

A written number is compared with this bound through the power of ten that it
stands for, however many digits and however large an exponent it has.
-/

namespace QueryGateway.Binary64

/-- Half a unit above the greatest finite double. -/
def overflow : Rat :=
  2 ^ 1024 - 2 ^ 970

theorem overflow_eq :
    overflow = (2 ^ 53 - 1 / 2) * 2 ^ greatestExponent := by
  have greatest : (2 : Rat) ^ greatestExponent = 2 ^ 970 * 2 := zpow_add_one₀ two_ne_zero 970
  have above : (2 : Rat) ^ 1024 = 2 ^ 54 * 2 ^ 970 := pow_add 2 54 970
  rw [overflow, greatest, above]
  generalize (2 : Rat) ^ 970 = power
  ring

theorem overflow_pos :
    0 < overflow := by
  rw [overflow_eq]
  have power : (0 : Rat) < 2 ^ greatestExponent := by positivity
  have middle : (0 : Rat) < 2 ^ 53 - 1 / 2 := by norm_num
  exact mul_pos middle power

/-! ## Rounding -/

section

variable
    {numerator denominator : Nat}
    (numeratorPos : 0 < numerator)
    (denominatorPos : 0 < denominator)

include numeratorPos denominatorPos

/-- Below the greatest exponent there is room for one more bit. -/
theorem lt_overflow_of_exponentOf_lt
    (isLess : exponentOf numerator denominator < greatestExponent) :
    fraction (numerator, denominator) < overflow := by
  obtain ⟨exact, isMax, _, upper⟩ := exponentOf_spec numeratorPos denominatorPos
  have atMost : (2 : Rat) ^ exact * 2 ≤ 2 ^ greatestExponent := by
    rw [← zpow_add_one₀ two_ne_zero]
    exact zpow_le_zpow_right₀ (by norm_num) (by omega)
  have power : (0 : Rat) < 2 ^ greatestExponent := by positivity
  rw [overflow_eq]
  linarith

theorem overflow_le_of_lt_exponentOf
    (isGreater : greatestExponent < exponentOf numerator denominator) :
    overflow ≤ fraction (numerator, denominator) := by
  obtain ⟨exact, isMax, lower, _⟩ := exponentOf_spec numeratorPos denominatorPos
  have least : leastExponent < greatestExponent := by decide
  have atLeast : (2 : Rat) ^ greatestExponent * 2 ≤ 2 ^ exact := by
    rw [← zpow_add_one₀ two_ne_zero]
    exact zpow_le_zpow_right₀ (by norm_num) (by omega)
  have power : (0 : Rat) < 2 ^ greatestExponent := by positivity
  rw [overflow_eq]
  linarith

/-- At the greatest exponent, all depends on whether the significand needs one more bit. -/
theorem lt_overflow_iff_of_exponentOf_eq
    (isGreatest : exponentOf numerator denominator = greatestExponent) :
    fraction (numerator, denominator) < overflow ↔
      divideToEven (scaleDown numerator denominator greatestExponent).1
        (scaleDown numerator denominator greatestExponent).2 ≠ Nat.pow 2 53 := by
  obtain ⟨exact, isMax, _, upper⟩ := exponentOf_spec numeratorPos denominatorPos
  have least : leastExponent < greatestExponent := by decide
  have same : exact = greatestExponent := by omega
  rw [same] at upper
  have power : (0 : Rat) < 2 ^ greatestExponent := by positivity
  have scaled := fraction_scaleDown numerator denominator greatestExponent
  have scaledPos := @scaleDown_pos numerator _ denominatorPos greatestExponent
  generalize scaleDown numerator denominator greatestExponent = ratio at *
  obtain ⟨below, above, odd⟩ := divideToEven_near ratio scaledPos
  rw [← scaled] at upper ⊢
  have isBelow : fraction ratio < 2 ^ 53 := lt_of_mul_lt_mul_right upper power.le
  rw [overflow_eq, mul_lt_mul_iff_left₀ power]
  generalize divideToEven ratio.1 ratio.2 = nearest at *
  constructor
  · rintro isFinite rfl
    norm_num at below isFinite
    linarith
  · intro fits
    have notAbove : nearest < 2 ^ 53 + 1 := by
      have : (nearest : Rat) < 2 ^ 53 + 1 := by linarith
      exact_mod_cast this
    have fits : nearest ≠ 2 ^ 53 := fits
    rcases Nat.lt_or_ge nearest (2 ^ 53 - 1) with isLess | isLast
    · have isLess : (nearest : Rat) + 1 ≤ 2 ^ 53 - 1 := by
        have : nearest + 2 ≤ 2 ^ 53 := by omega
        have : (nearest : Rat) + 2 ≤ 2 ^ 53 := by exact_mod_cast this
        linarith
      linarith
    · have isLast : nearest = 2 ^ 53 - 1 := by omega
      have strictly := (odd (by omega)).2
      rw [isLast] at strictly
      norm_num at strictly ⊢
      linarith

/-- A fraction is rounded to a finite double unless it is too large. -/
theorem exists_roundRatio_iff
    (negative : Bool) :
    (∃ value, roundRatio negative numerator denominator = some value) ↔
      fraction (numerator, denominator) < overflow := by
  simp only [roundRatio, roundMagnitude, if_neg numeratorPos.ne']
  rcases lt_trichotomy (exponentOf numerator denominator) greatestExponent with
    isLess | isGreatest | isGreater
  · refine iff_of_true ?_ (lt_overflow_of_exponentOf_lt numeratorPos denominatorPos isLess)
    split
    · rw [if_neg (by omega)]
      exact ⟨_, rfl⟩
    · rw [if_neg (by omega)]
      exact ⟨_, rfl⟩
  · rw [lt_overflow_iff_of_exponentOf_eq numeratorPos denominatorPos isGreatest, isGreatest]
    split
    case isTrue carries => simp [carries]
    case isFalse fits => simp [fits]
  · refine iff_of_false ?_
      (not_lt.mpr (overflow_le_of_lt_exponentOf numeratorPos denominatorPos isGreater))
    split
    case isTrue =>
      rw [if_pos (by omega)]
      simp
    case isFalse => simp

end

/-! ## Decimal numbers -/

/-- Powers of ten that are above or below all that has to be rounded. -/
theorem overflow_lt_power :
    overflow < 10 ^ 309 := by
  calc overflow
      < 2 ^ 1024 := sub_lt_self _ (by positivity)
    _ = ((2 : Rat) ^ 128) ^ 8 := pow_mul 2 128 8
    _ < (42 * 10 ^ 37) ^ 8 := pow_lt_pow_left₀ (by norm_num) (by norm_num) (by norm_num)
    _ = 42 ^ 8 * (10 ^ 37) ^ 8 := mul_pow _ _ _
    _ < 10 ^ 13 * (10 ^ 37) ^ 8 := mul_lt_mul_of_pos_right (by norm_num) (by positivity)
    _ = 10 ^ 309 := by rw [← pow_mul, ← pow_add]

theorem one_lt_overflow :
    1 < overflow := by
  have greatest : (1 : Rat) ≤ 2 ^ greatestExponent := one_le_zpow₀ (by norm_num) (by decide)
  rw [overflow_eq]
  nlinarith

theorem fraction_decimal
    (digits : Nat)
    (exponent : Int) :
    (digits : Rat) * 10 ^ exponent =
      if exponent ≥ 0 then
        fraction (digits * Nat.pow 10 exponent.toNat, 1)
      else
        fraction (digits, Nat.pow 10 (-exponent).toNat) := by
  have power : (10 : Rat) ^ exponent = ((10 : Nat) : Rat) ^ exponent := rfl
  rw [power]
  split
  case isTrue nonneg =>
    rw [zpow_of_nonneg 10 nonneg, fraction]
    push_cast
    rw [div_one]
  case isFalse negative =>
    rw [zpow_of_neg 10 (not_le.mp negative), fraction, div_eq_mul_inv]

/-- A decimal number whose first digit stands far in front of the point is too large. -/
theorem overflow_le_decimal
    {digits count : Nat}
    {exponent : Int}
    (lower : 10 ^ (count - 1) ≤ digits)
    (isLarge : count + exponent > 310) :
    overflow ≤ (digits : Rat) * 10 ^ exponent := by
  have lower : (10 : Rat) ^ ((count - 1 : Nat) : Int) ≤ digits := by
    rw [zpow_natCast]
    exact_mod_cast lower
  have powerPos : (0 : Rat) < 10 ^ exponent := by positivity
  calc overflow
      ≤ 10 ^ 309 := overflow_lt_power.le
    _ = (10 : Rat) ^ (309 : Int) := rfl
    _ ≤ 10 ^ (((count - 1 : Nat) : Int) + exponent) :=
        zpow_le_zpow_right₀ (by norm_num) (by omega)
    _ = 10 ^ ((count - 1 : Nat) : Int) * 10 ^ exponent := zpow_add₀ (by norm_num) _ _
    _ ≤ digits * 10 ^ exponent := mul_le_mul_of_nonneg_right lower powerPos.le

/-- A decimal number whose first digit stands behind the point is not too large. -/
theorem decimal_lt_overflow
    {digits count : Nat}
    {exponent : Int}
    (upper : digits < 10 ^ count)
    (isSmall : count + exponent ≤ 0) :
    (digits : Rat) * 10 ^ exponent < overflow := by
  have upper : (digits : Rat) ≤ 10 ^ (count : Int) := by
    rw [zpow_natCast]
    exact_mod_cast upper.le
  have powerPos : (0 : Rat) < 10 ^ exponent := by positivity
  calc (digits : Rat) * 10 ^ exponent
      ≤ 10 ^ (count : Int) * 10 ^ exponent := mul_le_mul_of_nonneg_right upper powerPos.le
    _ = 10 ^ ((count : Int) + exponent) := (zpow_add₀ (by norm_num) _ _).symm
    _ ≤ (10 : Rat) ^ (0 : Int) := zpow_le_zpow_right₀ (by norm_num) (by omega)
    _ = 1 := zpow_zero _
    _ < overflow := one_lt_overflow

/-- A decimal number is rounded to a finite double unless it is too large. -/
theorem exists_ofDecimal_iff
    (negative : Bool)
    (digits : Nat)
    (exponent : Int) :
    (∃ value, ofDecimal negative digits exponent = some value) ↔
      (digits : Rat) * 10 ^ exponent < overflow := by
  rw [ofDecimal]
  split
  case isTrue isZero =>
    rw [isZero, Nat.cast_zero, zero_mul]
    exact iff_of_true ⟨_, rfl⟩ overflow_pos
  case isFalse notZero =>
    have digitsPos : 0 < digits := Nat.pos_of_ne_zero notZero
    obtain ⟨lower, upper, nonempty⟩ := digitCount_bounds digitsPos
    rw [digitCount] at lower upper nonempty
    generalize (Nat.toDigits 10 digits).length = count at *
    simp only
    split
    case isTrue isLarge =>
      exact iff_of_false (by simp) (not_lt.mpr (overflow_le_decimal lower isLarge))
    case isFalse =>
      split
      case isTrue isSmall =>
        exact iff_of_true ⟨_, rfl⟩ (decimal_lt_overflow upper (by omega))
      case isFalse =>
        rw [fraction_decimal]
        split
        case isTrue =>
          exact exists_roundRatio_iff
            (Nat.mul_pos digitsPos (Nat.pow_pos (by decide))) Nat.one_pos negative
        case isFalse =>
          exact exists_roundRatio_iff digitsPos (Nat.pow_pos (by decide)) negative

/-! ## Written numbers -/

/-- A written number without its sign. -/
def unsignedPart (text : List Char) : List Char :=
  match text with
  | '-' :: rest => rest
  | '+' :: rest => rest
  | _ => text

/-- The digits of a written number in front of its exponent, with its point if it has one. -/
def mantissaPart (text : List Char) : List Char :=
  (unsignedPart text).takeWhile (!isExponentLetter ·)

/-- The digits of a written number in front of the point. -/
def wholePart (text : List Char) : List Char :=
  (mantissaPart text).takeWhile (· != '.')

/-- The digits of a written number behind the point. -/
def fractionPart (text : List Char) : List Char :=
  ((mantissaPart text).dropWhile (· != '.')).drop 1

/-- The exponent of a written number. -/
def exponentPart (text : List Char) : Int :=
  writtenExponent (((unsignedPart text).dropWhile (!isExponentLetter ·)).drop 1)

/-- What a written number stands for, but for its sign. -/
def writtenMagnitude (text : List Char) : Rat :=
  Digits.natural (wholePart text ++ fractionPart text) *
    10 ^ (exponentPart text - (fractionPart text).length)

theorem unsignedPart_of_unsigned
    {text : List Char}
    (notMinus : ∀ rest, text ≠ '-' :: rest)
    (notPlus : ∀ rest, text ≠ '+' :: rest) :
    unsignedPart text = text := by
  unfold unsignedPart
  split
  · exact (notMinus _ rfl).elim
  · exact (notPlus _ rfl).elim
  · rfl

theorem exists_ofWritten?_eq
    (text : List Char) :
    ∃ negative, ofWritten? text =
      ofDecimal negative (Digits.natural (wholePart text ++ fractionPart text))
        (exponentPart text - (fractionPart text).length) := by
  unfold ofWritten?
  split
  rename_i negative unsigned isSigned
  have isUnsigned : unsignedPart text = unsigned := by
    split at isSigned
    case h_1 =>
      cases isSigned
      rfl
    case h_2 =>
      cases isSigned
      rfl
    case h_3 notMinus notPlus =>
      cases isSigned
      exact unsignedPart_of_unsigned notMinus notPlus
  rw [← isUnsigned]
  exact ⟨negative, rfl⟩

/-- A written number is a finite double unless it is too large. -/
theorem exists_ofWritten?_iff
    (text : List Char) :
    (∃ value, ofWritten? text = some value) ↔ writtenMagnitude text < overflow := by
  obtain ⟨negative, isDecimal⟩ := exists_ofWritten?_eq text
  rw [isDecimal]
  exact exists_ofDecimal_iff negative _ _

end QueryGateway.Binary64
