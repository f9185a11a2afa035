import Mathlib.Tactic.Ring
import QueryGateway.Proofs.Json.Grammar
import QueryGateway.Proofs.Text.Digits
import QueryGateway.Proofs.Text.Runs

/-!
# Numerals are read by the grammar

What the reader makes of a number depends on its digits, its point and its
exponent alone.  It reads a numeral as far as it goes, and it reads nothing but
numerals.
-/

namespace QueryGateway.Json

open Json.Parser

/-! ## What is made of a numeral -/

/-- The number that digits in front of an exponent make with it. -/
def Exponent.number? (exponent : Exponent) (negative : Bool) (significand : Nat) (scale : Int) :
    Option Number :=
  if Digits.natural exponent.digits > greatestExponent then
    if significand ≠ 0 ∧ exponent.sign ≠ some '-' then none else some (.double (.zero negative))
  else
    doubleOf negative significand (scale + exponent.value)

/-- The number that a numeral stands for in memory. -/
def Numeral.number? (numeral : Numeral) : Option Number :=
  let whole := absorb 0 numeral.whole
  if numeral.decimals = [] ∧ numeral.exponent = none then
    if whole.2.isEmpty then integerOf numeral.negative whole.1
    else doubleOf numeral.negative whole.1 whole.2.length
  else
    let all := absorb whole.1 numeral.decimals
    let scale : Int := whole.2.length - (numeral.decimals.length - all.2.length : Nat)
    match numeral.exponent with
    | none => doubleOf numeral.negative all.1 scale
    | some exponent => exponent.number? numeral.negative all.1 scale

/-! ## How many digits are taken -/

theorem absorb_le
    {significand : Nat}
    (fits : significand ≤ greatestSignificand)
    (digits : List Char) :
    (absorb significand digits).1 ≤ greatestSignificand := by
  induction digits generalizing significand with
  | nil => exact fits
  | cons digit digits induction =>
      simp only [absorb]
      split
      case isTrue nextFits => exact induction nextFits
      case isFalse => exact fits

/-- All digits are taken if all of them together fit. -/
theorem absorb_of_fits
    {significand : Nat}
    {digits : List Char}
    (fits : significand * 10 ^ digits.length + Digits.natural digits ≤ greatestSignificand) :
    absorb significand digits =
      (significand * 10 ^ digits.length + Digits.natural digits, []) := by
  induction digits generalizing significand with
  | nil => simp [absorb, Digits.natural]
  | cons digit digits induction =>
      have joined := Digits.natural_append [digit] digits
      have single : Digits.natural [digit] = Digits.value digit := by
        simp [Digits.natural]
      rw [List.singleton_append, single] at joined
      have regrouped : significand * 10 ^ (digit :: digits).length +
            Digits.natural (digit :: digits) =
          (significand * 10 + Digits.value digit) * 10 ^ digits.length + Digits.natural digits := by
        rw [joined, List.length_cons, pow_succ]
        ring
      rw [regrouped] at fits ⊢
      have grows := Nat.le_mul_of_pos_right (significand * 10 + Digits.value digit)
        (Nat.pow_pos (show 0 < 10 by decide) : 0 < 10 ^ digits.length)
      have nextFits : significand * 10 + Digits.value digit ≤ greatestSignificand := by
        omega
      simp only [absorb, if_pos nextFits]
      exact induction fits

/-! ## Where numbers end -/

/-- Does the character go on with a number? -/
def goesOnNumber (character : Char) : Bool :=
  character.isDigit || character == '.' || character == 'e' || character == 'E'

theorem stopsAt_digit
    {rest : List Char}
    (stops : StopsAt goesOnNumber rest) :
    StopsAt Char.isDigit rest := by
  intro character first
  have notOn := stops character first
  simp only [goesOnNumber, Bool.or_eq_false_iff] at notOn
  exact notOn.1.1.1

/-! ## Exponents -/

/-- Split off the sign of an exponent, if there is one. -/
def exponentSign (input : List Char) : Option Char × List Char :=
  match input with
  | '+' :: rest => (some '+', rest)
  | '-' :: rest => (some '-', rest)
  | _ => (none, input)

theorem exponentSign_spec
    (input : List Char) :
    input = (exponentSign input).1.toList ++ (exponentSign input).2 ∧
      ((exponentSign input).1 = none ∨ (exponentSign input).1 = some '+' ∨
        (exponentSign input).1 = some '-') := by
  unfold exponentSign
  split <;> simp

theorem exponentSign_append
    {sign : Option Char}
    (isSign : sign = none ∨ sign = some '+' ∨ sign = some '-')
    {first : Char}
    (isDigit : first.isDigit = true)
    (others : List Char) :
    exponentSign (sign.toList ++ first :: others) = (sign, first :: others) := by
  rcases isSign with rfl | rfl | rfl
  · unfold exponentSign
    split
    case h_1 isPlus =>
      cases isPlus
      cases isDigit
    case h_2 isMinus =>
      cases isMinus
      cases isDigit
    case h_3 => rfl
  · rfl
  · rfl

/-- Behind the sign stand digits, as far as they go; the letter is of no importance. -/
theorem withExponent_eq
    (negative : Bool)
    (significand : Nat)
    (scale : Int)
    (letter : Char)
    (input : List Char) :
    withExponent negative significand scale input =
      if (exponentSign input).2.takeWhile Char.isDigit = [] then none
      else
        ((⟨letter, (exponentSign input).1, (exponentSign input).2.takeWhile Char.isDigit⟩ :
          Exponent).number? negative significand scale).map
            (·, (exponentSign input).2.dropWhile Char.isDigit) := by
  have behindSign : ∀ (sign : Option Char) (rest : List Char),
      (if (rest.takeWhile Char.isDigit).isEmpty then none
        else if Digits.natural (rest.takeWhile Char.isDigit) > greatestExponent then
          if significand ≠ 0 ∧ (!sign == some '-') = true then none
          else some (.double (.zero negative), rest.dropWhile Char.isDigit)
        else
          (doubleOf negative significand
            (if sign == some '-' then scale - Digits.natural (rest.takeWhile Char.isDigit)
              else scale + Digits.natural (rest.takeWhile Char.isDigit))).map
            (·, rest.dropWhile Char.isDigit)) =
        if rest.takeWhile Char.isDigit = [] then none
        else
          ((⟨letter, sign, rest.takeWhile Char.isDigit⟩ : Exponent).number? negative significand
            scale).map (·, rest.dropWhile Char.isDigit) := by
    intro sign rest
    simp only [List.isEmpty_iff, Exponent.number?, Exponent.value]
    by_cases isEmpty : rest.takeWhile Char.isDigit = []
    · rw [if_pos isEmpty, if_pos isEmpty]
    · rw [if_neg isEmpty, if_neg isEmpty]
      by_cases exceeds : Digits.natural (rest.takeWhile Char.isDigit) > greatestExponent
      · rw [if_pos exceeds, if_pos exceeds]
        by_cases refused : significand ≠ 0 ∧ sign ≠ some '-'
        · simp [refused]
        · rw [if_neg refused, if_neg (by simpa using refused)]
          rfl
      · rw [if_neg exceeds, if_neg exceeds]
        by_cases lowers : sign = some '-' <;> simp [lowers, sub_eq_add_neg]
  cases input with
  | nil => rfl
  | cons first rest =>
      by_cases plus : first = '+'
      · subst plus
        exact behindSign (some '+') rest
      · by_cases minus : first = '-'
        · subst minus
          exact behindSign (some '-') rest
        · have unsigned : exponentSign (first :: rest) = (none, first :: rest) := by
            simp [exponentSign, plus, minus]
          rw [unsigned]
          refine Eq.trans ?_ (behindSign none (first :: rest))
          simp [withExponent, plus, minus]

/-- The number that digits make, with an exponent behind them or without one. -/
def scaledNumber? (negative : Bool) (significand : Nat) (scale : Int) :
    Option Exponent → Option Number
  | none => doubleOf negative significand scale
  | some exponent => exponent.number? negative significand scale

theorem withExponent_append
    (negative : Bool)
    (significand : Nat)
    (scale : Int)
    {exponent : Exponent}
    (isProper : exponent.IsProper)
    {rest : List Char}
    (stops : StopsAt Char.isDigit rest) :
    withExponent negative significand scale (exponent.sign.toList ++ (exponent.digits ++ rest)) =
      (exponent.number? negative significand scale).map (·, rest) := by
  rcases exponent with ⟨letter, sign, digits⟩
  rcases isProper with ⟨_, isSign, nonempty, allDigits⟩
  rcases List.exists_cons_of_ne_nil nonempty with ⟨first, others, rfl⟩
  have areDigits := List.all_eq_true.mp allDigits
  have signed := exponentSign_append isSign (areDigits first List.mem_cons_self) (others ++ rest)
  rcases takeWhile_append_of_stopsAt areDigits stops with ⟨taken, left⟩
  rw [← List.cons_append] at signed
  rw [withExponent_eq negative significand scale letter, signed, taken, left, if_neg nonempty]

theorem maybeExponent_append
    (negative : Bool)
    (significand : Nat)
    (scale : Int)
    {exponent : Option Exponent}
    (isProper : ∀ written, exponent = some written → written.IsProper)
    {rest : List Char}
    (stops : StopsAt goesOnNumber rest) :
    maybeExponent negative significand scale ((exponent.map Exponent.text).getD [] ++ rest) =
      (scaledNumber? negative significand scale exponent).map (·, rest) := by
  cases exponent with
  | none =>
      cases rest with
      | nil => rfl
      | cons first rest =>
          have notOn := stops first rfl
          simp only [goesOnNumber, Bool.or_eq_false_iff, beq_eq_false_iff_ne] at notOn
          simp [maybeExponent, notOn, scaledNumber?]
  | some written =>
      have behind := withExponent_append negative significand scale (isProper written rfl)
        (stopsAt_digit stops)
      rw [scaledNumber?, ← behind]
      rcases written with ⟨letter, sign, digits⟩
      rcases (isProper _ rfl).letter with isLetter | isLetter
      · subst isLetter
        simp [Exponent.text, maybeExponent]
      · subst isLetter
        simp [Exponent.text, maybeExponent]

theorem exists_exponent_of_withExponent
    {negative : Bool}
    {significand : Nat}
    {scale : Int}
    {letter : Char}
    (isLetter : letter = 'e' ∨ letter = 'E')
    {input rest : List Char}
    {read : Number}
    (isRead : withExponent negative significand scale input = some (read, rest)) :
    ∃ exponent : Exponent, exponent.IsProper ∧ letter :: input = exponent.text ++ rest ∧
      exponent.number? negative significand scale = some read := by
  rw [withExponent_eq negative significand scale letter] at isRead
  rcases exponentSign_spec input with ⟨split, isSign⟩
  split at isRead
  case isTrue => cases isRead
  case isFalse nonempty =>
    rcases Option.map_eq_some_iff.mp isRead with ⟨_, isNumber, same⟩
    cases same
    refine ⟨_, ⟨isLetter, isSign, nonempty, List.all_takeWhile⟩, ?_, isNumber⟩
    simp only [Exponent.text, List.cons_append, List.append_assoc,
      List.takeWhile_append_dropWhile]
    rw [← split]

theorem exists_exponent_of_maybeExponent
    {negative : Bool}
    {significand : Nat}
    {scale : Int}
    {input rest : List Char}
    {read : Number}
    (isRead : maybeExponent negative significand scale input = some (read, rest)) :
    ∃ exponent : Option Exponent, (∀ written, exponent = some written → written.IsProper) ∧
      input = (exponent.map Exponent.text).getD [] ++ rest ∧
      scaledNumber? negative significand scale exponent = some read := by
  unfold maybeExponent at isRead
  split at isRead
  case h_1 =>
    rcases exists_exponent_of_withExponent (.inl rfl) isRead with ⟨exponent, isProper, text, made⟩
    refine ⟨some exponent, ?_, text, made⟩
    rintro _ ⟨⟩
    exact isProper
  case h_2 =>
    rcases exists_exponent_of_withExponent (.inr rfl) isRead with ⟨exponent, isProper, text, made⟩
    refine ⟨some exponent, ?_, text, made⟩
    rintro _ ⟨⟩
    exact isProper
  case h_3 =>
    rcases Option.map_eq_some_iff.mp isRead with ⟨_, made, same⟩
    cases same
    exact ⟨none, nofun, rfl, made⟩

/-! ## Whole numbers and decimals -/

theorem Numeral.number?_of_exponent
    (numeral : Numeral)
    (goesOn : numeral.decimals ≠ [] ∨ numeral.exponent ≠ none) :
    numeral.number? =
      scaledNumber? numeral.negative
        (absorb (absorb 0 numeral.whole).1 numeral.decimals).1
        ((absorb 0 numeral.whole).2.length -
          (numeral.decimals.length -
            (absorb (absorb 0 numeral.whole).1 numeral.decimals).2.length : Nat))
        numeral.exponent := by
  have notWhole : ¬ (numeral.decimals = [] ∧ numeral.exponent = none) := by
    rintro ⟨noDecimals, noExponent⟩
    rcases goesOn with decimals | exponent
    · exact decimals noDecimals
    · exact exponent noExponent
  rw [Numeral.number?]
  simp only [if_neg notWhole]
  cases numeral.exponent <;> rfl

/-- What is made of whole digits and of what stands behind them. -/
def behindWhole (negative : Bool) (whole behind : List Char) : Option (Number × List Char) :=
  match behind with
  | '.' :: rest =>
      let decimals := rest.takeWhile Char.isDigit
      let all := absorb (absorb 0 whole).1 decimals
      if decimals.isEmpty then
        none
      else
        maybeExponent negative all.1
          ((absorb 0 whole).2.length - (decimals.length - all.2.length : Nat))
          (rest.dropWhile Char.isDigit)
  | 'e' :: _ | 'E' :: _ =>
      maybeExponent negative (absorb 0 whole).1 (absorb 0 whole).2.length behind
  | _ =>
      if (absorb 0 whole).2.isEmpty then
        (integerOf negative (absorb 0 whole).1).map (·, behind)
      else
        (doubleOf negative (absorb 0 whole).1 (absorb 0 whole).2.length).map (·, behind)

/-- Is it the whole part of a number? -/
def startsNumber (digits : List Char) : Bool :=
  !digits.isEmpty && (digits.head? != some '0' || digits.length ≤ 1)

theorem unsigned_eq
    (negative : Bool)
    (input : List Char) :
    unsigned negative input =
      if startsNumber (input.takeWhile Char.isDigit) then
        behindWhole negative (input.takeWhile Char.isDigit) (input.dropWhile Char.isDigit)
      else none := by
  have turned : (((input.takeWhile Char.isDigit).isEmpty ||
      ((input.takeWhile Char.isDigit).head? == some '0' &&
        decide ((input.takeWhile Char.isDigit).length > 1))) = true) =
      ¬ startsNumber (input.takeWhile Char.isDigit) = true := by
    simp [startsNumber, imp_iff_not_or]
  rw [unsigned]
  simp only [turned, ite_not]
  split
  · exact (behindWhole.eq_def _ _ _).symm
  · rfl

theorem startsNumber_whole
    {numeral : Numeral}
    (isProper : numeral.IsProper) :
    startsNumber numeral.whole = true := by
  have nonempty := isProper.nonempty
  by_cases zero : numeral.whole.head? = some '0'
  · rw [isProper.noZero zero]
    decide
  · simp [startsNumber, nonempty, zero]

/-- An exponent stops whatever its letter does not go on with. -/
theorem stopsAt_exponentText
    {numeral : Numeral}
    (isProper : numeral.IsProper)
    {kind : Char → Bool}
    (notLower : kind 'e' = false)
    (notUpper : kind 'E' = false)
    {rest : List Char}
    (stops : StopsAt kind rest) :
    StopsAt kind (numeral.exponentText ++ rest) := by
  cases written : numeral.exponent with
  | none =>
      have noText : numeral.exponentText = [] := by
        rw [Numeral.exponentText, written]
        rfl
      rw [noText]
      exact stops
  | some exponent =>
      intro character first
      rw [Numeral.exponentText, written] at first
      cases first
      rcases (isProper.exponent exponent written).letter with isLetter | isLetter
      · rw [isLetter]
        exact notLower
      · rw [isLetter]
        exact notUpper

/-- An exponent, or what ends a number, is read behind the whole digits. -/
theorem behindWhole_exponent
    {numeral : Numeral}
    (isProper : numeral.IsProper)
    (noDecimals : numeral.decimals = [])
    {rest : List Char}
    (stops : StopsAt goesOnNumber rest) :
    behindWhole numeral.negative numeral.whole (numeral.exponentText ++ rest) =
      numeral.number?.map (·, rest) := by
  cases written : numeral.exponent with
  | none =>
      have noText : numeral.exponentText = [] := by
        rw [Numeral.exponentText, written]
        rfl
      rw [noText, List.nil_append, Numeral.number?]
      simp only [noDecimals, written, and_self, if_true]
      unfold behindWhole
      split
      case h_1 => cases stops _ rfl
      case h_2 => cases stops _ rfl
      case h_3 => cases stops _ rfl
      case h_4 => split <;> rfl
  | some exponent =>
      have isText : numeral.exponentText = exponent.text := by
        rw [Numeral.exponentText, written]
        rfl
      have behind := maybeExponent_append numeral.negative (absorb 0 numeral.whole).1
        (absorb 0 numeral.whole).2.length isProper.exponent stops
      rw [numeral.number?_of_exponent (.inr (by simp [written]))]
      simp only [written, Option.map_some, Option.getD_some, noDecimals, absorb, List.length_nil,
        Nat.sub_self, Nat.cast_zero, sub_zero] at behind ⊢
      rw [← behind, isText]
      rcases (isProper.exponent exponent written).letter with isLetter | isLetter
      · simp [Exponent.text, isLetter, behindWhole]
      · simp [Exponent.text, isLetter, behindWhole]

theorem behindWhole_decimals
    {numeral : Numeral}
    (isProper : numeral.IsProper)
    (decimals : numeral.decimals ≠ [])
    {rest : List Char}
    (stops : StopsAt goesOnNumber rest) :
    behindWhole numeral.negative numeral.whole
        ('.' :: (numeral.decimals ++ (numeral.exponentText ++ rest))) =
      numeral.number?.map (·, rest) := by
  rcases takeWhile_append_of_stopsAt (List.all_eq_true.mp isProper.decimals)
    (stopsAt_exponentText isProper rfl rfl (stopsAt_digit stops)) with ⟨taken, left⟩
  rw [behindWhole]
  simp only [taken, left, List.isEmpty_iff, if_neg decimals]
  rw [numeral.number?_of_exponent (.inl decimals)]
  exact maybeExponent_append _ _ _ isProper.exponent stops

theorem unsigned_append
    {numeral : Numeral}
    (isProper : numeral.IsProper)
    {rest : List Char}
    (stops : StopsAt goesOnNumber rest) :
    unsigned numeral.negative
        (numeral.whole ++ (numeral.fractionText ++ (numeral.exponentText ++ rest))) =
      numeral.number?.map (·, rest) := by
  have areDigits := List.all_eq_true.mp isProper.whole
  by_cases decimals : numeral.decimals = []
  · have noFraction : numeral.fractionText = [] := if_pos decimals
    rcases takeWhile_append_of_stopsAt areDigits
      (stopsAt_exponentText isProper rfl rfl (stopsAt_digit stops)) with ⟨taken, left⟩
    rw [noFraction, List.nil_append, unsigned_eq, taken, left,
      if_pos (startsNumber_whole isProper)]
    exact behindWhole_exponent isProper decimals stops
  · have fraction : numeral.fractionText = '.' :: numeral.decimals := if_neg decimals
    have pointStops :
        StopsAt Char.isDigit ('.' :: (numeral.decimals ++ (numeral.exponentText ++ rest))) :=
      stopsAt_cons rfl _
    rcases takeWhile_append_of_stopsAt areDigits pointStops with ⟨taken, left⟩
    rw [fraction, List.cons_append, unsigned_eq, taken, left,
      if_pos (startsNumber_whole isProper)]
    exact behindWhole_decimals isProper decimals stops

/-- The reader reads a numeral that ends where it ends. -/
theorem number_append
    {numeral : Numeral}
    (isProper : numeral.IsProper)
    {rest : List Char}
    (stops : StopsAt goesOnNumber rest) :
    number (numeral.text ++ rest) = numeral.number?.map (·, rest) := by
  have behindSign := unsigned_append isProper stops
  rw [Numeral.text]
  simp only [List.append_assoc]
  cases negative : numeral.negative with
  | true =>
      rw [negative] at behindSign
      exact behindSign
  | false =>
      rw [negative] at behindSign
      rcases List.exists_cons_of_ne_nil isProper.nonempty with ⟨first, others, whole⟩
      have isDigit : first.isDigit = true := by
        apply List.all_eq_true.mp isProper.whole
        rw [whole]
        exact List.mem_cons_self
      rw [← behindSign]
      simp only [Bool.false_eq_true, if_false, List.nil_append]
      rw [whole, List.cons_append, number]
      rintro _ ⟨⟩
      cases isDigit

/-! ## Nothing else is read -/

theorem exists_numeral_of_behindWhole
    {negative : Bool}
    {whole behind rest : List Char}
    {read : Number}
    (isRead : behindWhole negative whole behind = some (read, rest)) :
    ∃ decimals exponent, decimals.all Char.isDigit = true ∧
      (∀ written, exponent = some written → written.IsProper) ∧
      behind = Numeral.fractionText ⟨negative, whole, decimals, exponent⟩ ++
        (Numeral.exponentText ⟨negative, whole, decimals, exponent⟩ ++ rest) ∧
      Numeral.number? ⟨negative, whole, decimals, exponent⟩ = some read := by
  unfold behindWhole at isRead
  split at isRead
  case h_1 behindPoint =>
    simp only [List.isEmpty_iff] at isRead
    split at isRead
    case isTrue => cases isRead
    case isFalse nonempty =>
      rcases exists_exponent_of_maybeExponent isRead with ⟨exponent, isProper, text, made⟩
      refine ⟨behindPoint.takeWhile Char.isDigit, exponent, List.all_takeWhile, isProper, ?_, ?_⟩
      · rw [Numeral.fractionText, if_neg nonempty, Numeral.exponentText, List.cons_append, ← text,
          List.takeWhile_append_dropWhile]
      · rw [Numeral.number?_of_exponent _ (.inl nonempty)]
        exact made
  case h_2 =>
    rcases exists_exponent_of_withExponent (.inl rfl) isRead with ⟨exponent, isProper, text, made⟩
    refine ⟨[], some exponent, rfl, ?_, text, ?_⟩
    · rintro _ ⟨⟩
      exact isProper
    · rw [Numeral.number?_of_exponent _ (.inr (by simp))]
      simpa [absorb, scaledNumber?] using made
  case h_3 =>
    rcases exists_exponent_of_withExponent (.inr rfl) isRead with ⟨exponent, isProper, text, made⟩
    refine ⟨[], some exponent, rfl, ?_, text, ?_⟩
    · rintro _ ⟨⟩
      exact isProper
    · rw [Numeral.number?_of_exponent _ (.inr (by simp))]
      simpa [absorb, scaledNumber?] using made
  case h_4 =>
    refine ⟨[], none, rfl, nofun, ?_⟩
    rw [Numeral.number?]
    simp only [and_self, if_true]
    split at isRead
    case isTrue fits =>
      rcases Option.map_eq_some_iff.mp isRead with ⟨_, made, same⟩
      cases same
      rw [if_pos fits]
      exact ⟨rfl, made⟩
    case isFalse exceeds =>
      rcases Option.map_eq_some_iff.mp isRead with ⟨_, made, same⟩
      cases same
      rw [if_neg exceeds]
      exact ⟨rfl, made⟩

theorem exists_numeral_of_unsigned
    {negative : Bool}
    {input rest : List Char}
    {read : Number}
    (isRead : unsigned negative input = some (read, rest)) :
    ∃ numeral : Numeral, numeral.IsProper ∧ numeral.negative = negative ∧
      input = numeral.whole ++ (numeral.fractionText ++ (numeral.exponentText ++ rest)) ∧
      numeral.number? = some read := by
  rw [unsigned_eq] at isRead
  split at isRead
  case isFalse => cases isRead
  case isTrue starts =>
    rcases exists_numeral_of_behindWhole isRead with ⟨decimals, exponent, areDigits, isProper,
      text, made⟩
    simp only [startsNumber, Bool.and_eq_true, Bool.or_eq_true, Bool.not_eq_true',
      List.isEmpty_eq_false_iff, bne_iff_ne, decide_eq_true_eq] at starts
    have noZero : (input.takeWhile Char.isDigit).head? = some '0' →
        input.takeWhile Char.isDigit = ['0'] := by
      intro zero
      rcases List.exists_cons_of_ne_nil starts.1 with ⟨first, others, whole⟩
      rw [whole] at zero starts ⊢
      cases zero
      have single : others.length = 0 := by simpa using starts.2
      rw [List.length_eq_zero_iff.mp single]
    refine ⟨⟨negative, _, decimals, exponent⟩,
      ⟨starts.1, List.all_takeWhile, noZero, areDigits, isProper⟩, rfl, ?_, made⟩
    rw [← text, List.takeWhile_append_dropWhile]

/-- The reader of numbers reads numerals only. -/
theorem exists_numeral_of_number
    {input rest : List Char}
    {read : Number}
    (isRead : number input = some (read, rest)) :
    ∃ numeral : Numeral, numeral.IsProper ∧ input = numeral.text ++ rest ∧
      numeral.number? = some read := by
  unfold number at isRead
  split at isRead
  case h_1 =>
    rcases exists_numeral_of_unsigned isRead with ⟨numeral, isProper, negative, rfl, made⟩
    refine ⟨numeral, isProper, ?_, made⟩
    simp [Numeral.text, negative]
  case h_2 =>
    rcases exists_numeral_of_unsigned isRead with ⟨numeral, isProper, negative, rfl, made⟩
    refine ⟨numeral, isProper, ?_, made⟩
    simp [Numeral.text, negative]

end QueryGateway.Json
