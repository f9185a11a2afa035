import Mathlib.Data.List.TakeWhile
import QueryGateway.Proofs.Text.Utf8
import QueryGateway.Uri.Percent
import QueryGateway.Uri.Target

/-!
# Bytes written as one segment of a path

A segment stands for bytes: a character for its own bytes, if a path may hold it
and it is neither a slash nor a percent sign, and an escape for one byte.  Which
characters are escaped is up to the writer, and so is the case of the digits.

Unescaping a segment yields the bytes that it stands for.  The bytes of every
text can be written as a segment, and a path that ends in a segment is a target
unless it is too long.
-/

namespace QueryGateway.Uri

/-- May a segment hold the character as it is? -/
def isKeptChar (character : Char) : Bool :=
  Target.isPathChar character && character != '/' && character != '%'

/-- The segment is one way to write the bytes. -/
inductive StandsFor : List Char → Bytes → Prop where
  | nil :
      StandsFor [] []
  | kept
      {character : Char}
      {segment : List Char}
      {bytes : Bytes}
      (isKept : isKeptChar character = true)
      (rest : StandsFor segment bytes) :
      StandsFor (character :: segment) (Utf8.encodeChar character ++ bytes)
  | escaped
      {high low : Char}
      {upper lower : Nat}
      {segment : List Char}
      {bytes : Bytes}
      (isHigh : Digits.hexValue? high = some upper)
      (isLow : Digits.hexValue? low = some lower)
      (rest : StandsFor segment bytes) :
      StandsFor ('%' :: high :: low :: segment) (UInt8.ofNat (upper * 16 + lower) :: bytes)

/-! ## Digits -/

theorem code_of_hexValue?
    {digit : Char}
    {value : Nat}
    (isDigit : Digits.hexValue? digit = some value) :
    (0x30 ≤ digit.toNat ∧ digit.toNat ≤ 0x39) ∨
      (0x41 ≤ digit.toNat ∧ digit.toNat ≤ 0x46) ∨
      (0x61 ≤ digit.toNat ∧ digit.toNat ≤ 0x66) := by
  unfold Digits.hexValue? at isDigit
  split_ifs at isDigit with decimal lower upper
  · exact .inl decimal
  · exact .inr (.inr lower)
  · exact .inr (.inl upper)

theorem isPathChar_of_hexValue?
    {digit : Char}
    {value : Nat}
    (isDigit : Digits.hexValue? digit = some value) :
    Target.isPathChar digit = true ∧ digit ≠ '/' := by
  have code := code_of_hexValue? isDigit
  have differs : ∀ {other : Char},
      other.toNat < 0x30 ∨ (0x39 < other.toNat ∧ other.toNat < 0x41) ∨ other.toNat = 0x60 →
        digit ≠ other := by
    rintro other outside rfl
    omega
  constructor
  · have notBlank : digit.toNat > 0x20 := by
      omega
    simp [Target.isPathChar, notBlank, differs]
  · exact differs (by decide)

/-- A digit is one byte, and has its value there too. -/
theorem hexByte?_of_hexValue?
    {digit : Char}
    {value : Nat}
    (isDigit : Digits.hexValue? digit = some value) :
    ∃ byte, Utf8.encodeChar digit = [byte] ∧ hexByte? byte = some value := by
  have ascii : digit.toNat < 0x80 := by
    have code := code_of_hexValue? isDigit
    omega
  refine ⟨digit.toNat.toUInt8, by simp [Utf8.encodeChar, ascii], ?_⟩
  rw [hexByte?, Utf8.toNat_toUInt8 (by omega), Char.ofNat_toNat, isDigit]

theorem hexValue?_upperHexDigit :
    ∀ value < 16, Digits.hexValue? (upperHexDigit value) = some value := by
  decide

/-! ## Unescaping -/

theorem unescape_cons
    {byte : UInt8}
    (notPercent : byte ≠ 0x25)
    (rest : Bytes) :
    unescape (byte :: rest) = byte :: unescape rest := by
  rw [unescape]
  rintro high low rest isPercent
  exact (notPercent isPercent).elim

theorem unescape_append
    {front : Bytes}
    (noPercent : 0x25 ∉ front)
    (rest : Bytes) :
    unescape (front ++ rest) = front ++ unescape rest := by
  induction front with
  | nil => rfl
  | cons byte front induction =>
      rcases not_or.mp (List.mem_cons.not.mp noPercent) with ⟨notPercent, noneLeft⟩
      rw [List.cons_append, unescape_cons (Ne.symm notPercent), induction noneLeft,
        List.cons_append]

theorem percent_not_mem_encodeChar
    {character : Char}
    (notPercent : character ≠ '%') :
    0x25 ∉ Utf8.encodeChar character := by
  intro member
  have sameCode := Utf8.toNat_of_mem_encodeChar member (by decide)
  apply notPercent
  rw [← Char.ofNat_toNat character, sameCode]
  rfl

namespace StandsFor

variable
    {segment : List Char}
    {bytes : Bytes}

/-- What a segment stands for is what unescaping makes of it. -/
theorem unescape_eq
    (standsFor : StandsFor segment bytes) :
    unescape (Utf8.encode segment) = bytes := by
  induction standsFor with
  | nil => rfl
  | @kept character segment bytes isKept _ induction =>
      have notPercent : character ≠ '%' := by
        rintro rfl
        exact absurd isKept (by decide)
      show unescape (Utf8.encodeChar character ++ Utf8.encode segment) = _
      rw [unescape_append (percent_not_mem_encodeChar notPercent), induction]
  | @escaped high low upper lower segment bytes isHigh isLow _ induction =>
      rcases hexByte?_of_hexValue? isHigh with ⟨first, ofHigh, isUpper⟩
      rcases hexByte?_of_hexValue? isLow with ⟨second, ofLow, isLower⟩
      show unescape (0x25 ::
        (Utf8.encodeChar high ++ (Utf8.encodeChar low ++ Utf8.encode segment))) = _
      rw [ofHigh, ofLow]
      simp only [List.singleton_append, unescape, isUpper, isLower, induction]

theorem isPathChar
    (standsFor : StandsFor segment bytes) :
    ∀ character ∈ segment, Target.isPathChar character = true ∧ character ≠ '/' := by
  induction standsFor with
  | nil => simp
  | @kept character segment bytes isKept _ induction =>
      rw [List.forall_mem_cons]
      refine ⟨?_, induction⟩
      simp only [isKeptChar, Bool.and_eq_true, bne_iff_ne] at isKept
      exact isKept.1
  | escaped isHigh isLow _ induction =>
      simp only [List.forall_mem_cons]
      exact ⟨by decide, isPathChar_of_hexValue? isHigh, isPathChar_of_hexValue? isLow, induction⟩

theorem nil_iff
    (standsFor : StandsFor segment bytes) :
    segment = [] ↔ bytes = [] := by
  cases standsFor with
  | nil => simp
  | @kept character =>
      have written : Utf8.encodeChar character ≠ [] := by
        unfold Utf8.encodeChar
        grind
      simp [written]
  | escaped => simp

/-! ## Writing segments -/

theorem escapeByte_append
    (standsFor : StandsFor segment bytes)
    (byte : UInt8) :
    StandsFor (escapeByte byte ++ segment) (byte :: bytes) := by
  have below : byte.toNat < 256 := byte.toNat_lt
  have whole : byte = UInt8.ofNat (byte.toNat / 16 * 16 + byte.toNat % 16) := by
    rw [Nat.div_add_mod', UInt8.ofNat_toNat]
  have isHigh := hexValue?_upperHexDigit (byte.toNat / 16) (by omega)
  have isLow := hexValue?_upperHexDigit (byte.toNat % 16) (by omega)
  have escaped := StandsFor.escaped isHigh isLow standsFor
  rwa [← whole] at escaped

theorem escapeBytes_append
    (standsFor : StandsFor segment bytes)
    (front : Bytes) :
    StandsFor (front.flatMap escapeByte ++ segment) (front ++ bytes) := by
  induction front with
  | nil => exact standsFor
  | cons byte front induction =>
      rw [List.flatMap_cons, List.append_assoc]
      exact induction.escapeByte_append byte

end StandsFor

/-- Whichever characters are kept, as long as a segment may hold them: the text is written. -/
theorem standsFor_escape
    {isKept : Char → Bool}
    (allowed : ∀ character, isKept character = true → isKeptChar character = true)
    (text : List Char) :
    StandsFor (escape isKept text) (Utf8.encode text) := by
  induction text with
  | nil => exact .nil
  | cons character text induction =>
      show StandsFor
        ((if isKept character then [character]
          else (Utf8.encodeChar character).flatMap escapeByte) ++ escape isKept text)
        (Utf8.encodeChar character ++ Utf8.encode text)
      by_cases keeps : isKept character = true
      · rw [if_pos keeps]
        exact .kept (allowed character keeps) induction
      · rw [if_neg keeps]
        exact induction.escapeBytes_append _

/-! ## Paths as targets -/

namespace Target

/-- A path is a target as it is, unless it is too long. -/
theorem ofString?_of_path
    {path : String}
    {rest : List Char}
    (fits : path.utf8ByteSize ≤ longestTarget)
    (isPath : path.toList = '/' :: rest)
    (allowed : ∀ character ∈ path.toList, isPathChar character = true) :
    ofString? path = some ⟨none, none, path, none⟩ := by
  have noMark : ∀ mark, isPathChar mark = false →
      path.toList.takeWhile (· != mark) = path.toList ∧
        path.toList.dropWhile (· != mark) = [] := by
    intro mark notAllowed
    have others : ∀ character ∈ path.toList, (character != mark) = true := by
      intro character member
      apply bne_iff_ne.mpr
      rintro rfl
      exact absurd (allowed character member) (by simp [notAllowed])
    exact ⟨List.takeWhile_eq_self_iff.mpr others, List.dropWhile_eq_nil_iff.mpr others⟩
  have split : pathAndQuery? path.toList = some (path, none) := by
    have noFragment := noMark '#' (by decide)
    have noQuery := noMark '?' (by decide)
    simp [pathAndQuery?, noFragment.1, noQuery.1, noQuery.2, List.all_eq_true.mpr allowed]
  rw [isPath] at split
  simp [ofString?, Nat.not_lt.mpr fits, isPath, split]

end Target

end QueryGateway.Uri
