import Mathlib.Algebra.Order.Field.Power
import Mathlib.Algebra.Order.Field.Rat
import Mathlib.Tactic.FieldSimp
import Mathlib.Tactic.Linarith
import Mathlib.Tactic.Positivity
import QueryGateway.Number.Shortest

/-!
# Doubles and decimals as rational numbers

The arithmetic of doubles goes through fractions of natural numbers.  Here they
are related to the rational numbers that they stand for.
-/

namespace QueryGateway.Binary64

/-- The rational number of a fraction of naturals. -/
def fraction (ratio : Nat × Nat) : Rat :=
  ratio.1 / ratio.2

/-- What a double stands for, but for its sign. -/
def magnitude (value : Binary64) : Rat :=
  value.significand * 2 ^ value.exponent

def Decimal.value (decimal : Decimal) : Rat :=
  decimal.digits * 10 ^ decimal.exponent

theorem zpow_of_nonneg
    (base : Nat)
    {exponent : Int}
    (nonneg : 0 ≤ exponent) :
    (base : Rat) ^ exponent = (Nat.pow base exponent.toNat : Nat) := by
  rw [Nat.pow_eq, Nat.cast_pow, ← zpow_natCast, Int.toNat_of_nonneg nonneg]

theorem zpow_of_neg
    (base : Nat)
    {exponent : Int}
    (negative : exponent < 0) :
    (base : Rat) ^ exponent = ((Nat.pow base (-exponent).toNat : Nat) : Rat)⁻¹ := by
  rw [← zpow_of_nonneg base (by omega), zpow_neg, inv_inv]

theorem fraction_ratio
    (value : Binary64) :
    fraction value.ratio = value.magnitude := by
  have power : (2 : Rat) ^ value.exponent = ((2 : Nat) : Rat) ^ value.exponent := rfl
  rw [ratio, magnitude, fraction, power]
  split
  case isTrue nonneg =>
    rw [zpow_of_nonneg 2 nonneg]
    push_cast
    rw [div_one]
  case isFalse negative =>
    rw [zpow_of_neg 2 (not_le.mp negative), div_eq_mul_inv]

theorem ratio_pos
    (value : Binary64) :
    0 < value.ratio.2 := by
  rw [ratio]
  split
  case isTrue => exact Nat.one_pos
  case isFalse => exact Nat.pow_pos (by decide)

theorem Decimal.fraction_ratio
    (decimal : Decimal) :
    fraction decimal.ratio = decimal.value := by
  have power : (10 : Rat) ^ decimal.exponent = ((10 : Nat) : Rat) ^ decimal.exponent := rfl
  rw [Decimal.ratio, Decimal.value, fraction, power]
  split
  case isTrue nonneg =>
    rw [zpow_of_nonneg 10 nonneg]
    push_cast
    rw [div_one]
  case isFalse negative =>
    rw [zpow_of_neg 10 (not_le.mp negative), div_eq_mul_inv]

theorem Decimal.ratio_pos
    (decimal : Decimal) :
    0 < decimal.ratio.2 := by
  rw [Decimal.ratio]
  split
  case isTrue => exact Nat.one_pos
  case isFalse => exact Nat.pow_pos (by decide)

end QueryGateway.Binary64
