import Mathlib.Data.List.DropRight
import QueryGateway.Json.Printer
import QueryGateway.Proofs.Json.Grammar
import QueryGateway.Proofs.Number.Shortest
import QueryGateway.Proofs.Text.Digits

/-!
# Numbers are written by the grammar

The text of a number is that of a numeral.  A double is written with its
significant digits, which are laid out in one of four ways.
-/

namespace QueryGateway

namespace Binary64

/-- Digits that may stand for a number: those in front count most, and are not zero. -/
structure IsSignificant (digits : List Char) (exponent : Int) : Prop where
  areDigits : digits.all Char.isDigit = true
  noZero : digits.head? = some '0' → digits = ['0'] ∧ exponent = 0
  nonempty : digits = [] → exponent = 0

/-- What is dropped behind digits is nothing but zeros. -/
theorem dropTrailingZeros_append
    (digits : List Char) :
    ∃ zeros, digits = dropTrailingZeros digits ++ List.replicate zeros '0' := by
  have areZeros : digits.rtakeWhile (· == '0') =
      List.replicate (digits.rtakeWhile (· == '0')).length '0' := by
    apply List.eq_replicate_of_mem
    intro digit isTaken
    have isZero := List.mem_rtakeWhile_imp isTaken
    exact eq_of_beq isZero
  refine ⟨(digits.rtakeWhile (· == '0')).length, ?_⟩
  rw [← areZeros]
  exact List.rdropWhile_append_rtakeWhile.symm

theorem isSignificant_scientific
    {decimal : Decimal}
    (nonzero : 0 < decimal.digits ∨ decimal = ⟨0, 0⟩) :
    IsSignificant decimal.scientific.1 decimal.scientific.2 := by
  rcases nonzero with positive | rfl
  · rcases dropTrailingZeros_append (Nat.toDigits 10 decimal.digits) with ⟨zeros, split⟩
    have areDigits := Digits.all_isDigit_toDigits decimal.digits
    have notZero := Digits.head_toDigits_ne_zero positive
    have areSignificant : decimal.scientific.1 =
        dropTrailingZeros (Nat.toDigits 10 decimal.digits) :=
      rfl
    rw [areSignificant]
    generalize dropTrailingZeros (Nat.toDigits 10 decimal.digits) = kept at split
    rw [split] at areDigits notZero
    rw [List.all_append, Bool.and_eq_true] at areDigits
    refine ⟨areDigits.1, ?_, ?_⟩
    · intro zero
      rw [List.head?_append, zero] at notZero
      exact absurd rfl notZero
    · rintro rfl
      -- the digits would be zeros, and there is at least one of them
      cases zeros with
      | zero => exact absurd split Nat.toDigits_ne_nil
      | succ zeros => exact absurd rfl notZero
  · exact ⟨rfl, nofun, fun _ => rfl⟩

theorem isSignificant_zero :
    IsSignificant ['0'] 0 :=
  ⟨rfl, fun _ => ⟨rfl, rfl⟩, nofun⟩

end Binary64

namespace Json

open Binary64

/-- Significant digits, the first of which counts `10 ^ exponent`, as a numeral. -/
def layoutNumeral (negative : Bool) (digits : List Char) (exponent : Int) : Numeral :=
  if -5 ≤ exponent ∧ exponent < 16 then
    if exponent < 0 then
      ⟨negative, ['0'], List.replicate ((-exponent).toNat - 1) '0' ++ digits, none⟩
    else
      let whole := exponent.toNat + 1
      if digits.length ≤ whole then
        ⟨negative, digits ++ List.replicate (whole - digits.length) '0', ['0'], none⟩
      else
        ⟨negative, digits.take whole, digits.drop whole, none⟩
  else
    let sign := if exponent < 0 then '-' else '+'
    ⟨negative, digits.take 1, digits.drop 1,
      some ⟨'e', some sign, Nat.toDigits 10 exponent.natAbs⟩⟩

/-- The numeral that is written for a number. -/
def Number.numeral : Number → Numeral
  | .integer value => ⟨decide (value < 0), Nat.toDigits 10 value.natAbs, [], none⟩
  | .double value =>
      if value.isZero then layoutNumeral value.negative ['0'] 0
      else
        layoutNumeral value.negative value.shortest.scientific.1 value.shortest.scientific.2

/-- What is written behind the sign. -/
theorem text_layoutNumeral
    (negative : Bool)
    {digits : List Char}
    {exponent : Int}
    (significant : IsSignificant digits exponent) :
    (layoutNumeral negative digits exponent).text =
      (if negative then ['-'] else []) ++ doubleLayout.digitsText digits exponent := by
  have nonempty : exponent ≠ 0 → digits ≠ [] := fun nonzero isEmpty =>
    nonzero (significant.nonempty isEmpty)
  have fields : doubleLayout = ⟨-5, 16, ['.', '0'], ['+']⟩ := rfl
  rw [layoutNumeral, Layout.digitsText.eq_def, fields]
  simp only
  split
  case isTrue =>
    split
    case isTrue isNegative =>
      have behindPoint : List.replicate ((-exponent).toNat - 1) '0' ++ digits ≠ [] :=
        List.append_ne_nil_of_right_ne_nil _ (nonempty (by omega))
      simp only [Numeral.text, Numeral.fractionText, if_neg behindPoint, Numeral.exponentText]
      simp
    case isFalse =>
      split
      case isTrue => simp [Numeral.text, Numeral.fractionText, Numeral.exponentText]
      case isFalse isLonger =>
        have behindPoint : digits.drop (exponent.toNat + 1) ≠ [] := by
          rw [ne_eq, List.drop_eq_nil_iff]
          exact isLonger
        simp only [Numeral.text, Numeral.fractionText, if_neg behindPoint, Numeral.exponentText]
        simp
  case isFalse outside =>
    rcases List.exists_cons_of_ne_nil (nonempty (by omega)) with ⟨digit, more, rfl⟩
    have written : Layout.exponentText ⟨-5, 16, ['.', '0'], ['+']⟩ exponent =
        (if exponent < 0 then '-' else '+') :: Nat.toDigits 10 exponent.natAbs := by
      rw [Layout.exponentText]
      split
      case isTrue isNegative => rw [show (-exponent).toNat = exponent.natAbs by omega]
      case isFalse => rw [show exponent.toNat = exponent.natAbs by omega]; rfl
    cases more with
    | nil => simp [Numeral.text, Numeral.fractionText, Numeral.exponentText, Exponent.text, written]
    | cons =>
        simp [Numeral.text, Numeral.fractionText, Numeral.exponentText, Exponent.text, written]

theorem isProper_layoutNumeral
    (negative : Bool)
    {digits : List Char}
    {exponent : Int}
    (significant : IsSignificant digits exponent) :
    (layoutNumeral negative digits exponent).IsProper := by
  rcases significant with ⟨areDigits, noZero, nonempty⟩
  have zeros : ∀ count, (List.replicate count '0').all Char.isDigit = true := by
    intro count
    simp
  simp only [layoutNumeral]
  split
  case isTrue =>
    split
    case isTrue =>
      refine ⟨by simp, rfl, fun _ => rfl, ?_, nofun⟩
      rw [List.all_append, zeros, areDigits]
      rfl
    case isFalse notNegative =>
      split
      case isTrue fits =>
        refine ⟨?_, ?_, ?_, rfl, nofun⟩
        · apply List.ne_nil_of_length_pos
          rw [List.length_append, List.length_replicate]
          omega
        · rw [List.all_append, zeros, areDigits]
          rfl
        · intro zero
          cases digits with
          | nil =>
              rw [nonempty rfl]
              rfl
          | cons digit more =>
              rcases noZero zero with ⟨isZero, rfl⟩
              rw [isZero]
              rfl
      case isFalse exceeds =>
        refine ⟨?_, ?_, ?_, ?_, nofun⟩
        · apply List.ne_nil_of_length_pos
          rw [List.length_take]
          omega
        · exact List.all_eq_true.mpr fun digit isTaken =>
            List.all_eq_true.mp areDigits digit (List.mem_of_mem_take isTaken)
        · intro zero
          rw [List.head?_take, if_neg (Nat.succ_ne_zero _)] at zero
          rw [(noZero zero).1] at exceeds
          simp at exceeds
        · exact List.all_eq_true.mpr fun digit isDropped =>
            List.all_eq_true.mp areDigits digit (List.mem_of_mem_drop isDropped)
  case isFalse outside =>
    have nonzero : exponent ≠ 0 := by omega
    cases digits with
    | nil => exact absurd (nonempty rfl) nonzero
    | cons digit more =>
        rw [List.all_cons, Bool.and_eq_true] at areDigits
        refine ⟨by simp, by simpa using areDigits.1, ?_, areDigits.2, ?_⟩
        · intro zero
          exact absurd (noZero zero).2 nonzero
        · rintro _ ⟨⟩
          refine ⟨.inl rfl, ?_, Nat.toDigits_ne_nil, Digits.all_isDigit_toDigits _⟩
          split
          · exact .inr (.inr rfl)
          · exact .inr (.inl rfl)

/-- A double is laid out with digits that may stand for a number. -/
theorem exists_layout
    (value : Binary64) :
    ∃ digits exponent, IsSignificant digits exponent ∧
      Number.numeral (.double value) = layoutNumeral value.negative digits exponent ∧
      doubleLayout.text value =
        (if value.negative then ['-'] else []) ++ doubleLayout.digitsText digits exponent := by
  rw [Number.numeral, Layout.text]
  split
  case isTrue => exact ⟨_, _, isSignificant_zero, rfl, rfl⟩
  case isFalse nonzero =>
    rw [Bool.not_eq_true] at nonzero
    exact ⟨_, _, isSignificant_scientific (shortest_pos_or nonzero), rfl, rfl⟩

theorem Number.text_numeral
    (number : Number) :
    number.numeral.text = number.text := by
  cases number with
  | integer value =>
      rw [numeral, Numeral.text, text]
      by_cases negative : value < 0
      · simp [negative, Numeral.fractionText, Numeral.exponentText]
      · simp [negative, Numeral.fractionText, Numeral.exponentText]
  | double value =>
      rcases exists_layout value with ⟨digits, exponent, significant, isLayout, isText⟩
      rw [isLayout, text_layoutNumeral _ significant, text, isText]

/-- Whatever is written for a number is a numeral. -/
theorem Number.isProper_numeral
    (number : Number) :
    number.numeral.IsProper := by
  cases number with
  | integer value =>
      exact ⟨Nat.toDigits_ne_nil, Digits.all_isDigit_toDigits _, Digits.toDigits_of_head_zero, rfl,
        nofun⟩
  | double value =>
      rcases exists_layout value with ⟨digits, exponent, significant, isLayout, _⟩
      rw [isLayout]
      exact isProper_layoutNumeral _ significant

end Json

end QueryGateway
