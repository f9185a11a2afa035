import Mathlib.Algebra.Ring.Nat
import Mathlib.Data.List.Basic
import QueryGateway.Text.Digits

/-!
# Decimal digits

The digits of a number stand for that number.  They do not start with a zero,
unless the number is zero.
-/

namespace QueryGateway.Digits

theorem natural_eq_ofDigitChars
    (digits : List Char) :
    natural digits = Nat.ofDigitChars 10 digits 0 := by
  rw [Nat.ofDigitChars_eq_foldl, natural]
  congr 1
  funext total digit
  rw [Nat.mul_comm, value]

theorem natural_append
    (digits others : List Char) :
    natural (digits ++ others) = natural digits * 10 ^ others.length + natural others := by
  simp only [natural_eq_ofDigitChars, Nat.ofDigitChars_append]
  rw [Nat.ofDigitChars_eq_ofDigitChars_zero, Nat.mul_comm]

theorem natural_zeros
    (count : Nat) :
    natural (List.replicate count '0') = 0 := by
  rw [natural_eq_ofDigitChars, Nat.ofDigitChars_replicate_zero, Nat.mul_zero]

@[simp]
theorem natural_toDigits
    (number : Nat) :
    natural (Nat.toDigits 10 number) = number := by
  rw [natural_eq_ofDigitChars, Nat.ofDigitChars_ten_toDigits]

theorem all_isDigit_toDigits
    (number : Nat) :
    (Nat.toDigits 10 number).all Char.isDigit = true :=
  List.all_eq_true.mpr fun _ => Nat.isDigit_of_mem_toDigits (by decide) (by decide)

theorem head_toDigits_ne_zero
    {number : Nat}
    (positive : 0 < number) :
    (Nat.toDigits 10 number).head? ≠ some '0' := by
  induction number using Nat.strongRecOn with
  | ind number induction =>
      rw [Nat.toDigits_eq_if (by decide)]
      split
      case isTrue =>
        simp only [List.head?_cons, ne_eq, Option.some.injEq, Nat.digitChar_eq_zero]
        omega
      case isFalse =>
        rw [List.head?_append_of_ne_nil _ Nat.toDigits_ne_nil]
        exact induction (number / 10) (by omega) (by omega)

/-- Only zero is written with a zero in front. -/
theorem toDigits_of_head_zero
    {number : Nat}
    (zero : (Nat.toDigits 10 number).head? = some '0') :
    Nat.toDigits 10 number = ['0'] := by
  rcases Nat.eq_zero_or_pos number with rfl | positive
  · rfl
  · exact absurd zero (head_toDigits_ne_zero positive)

end QueryGateway.Digits
