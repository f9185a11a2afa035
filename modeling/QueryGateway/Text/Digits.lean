/-!
# Digits

The values of decimal and hexadecimal digits and of runs of them, and the
characters that codes stand for.
-/

namespace QueryGateway.Digits

/-- The value of a decimal digit. -/
def value (digit : Char) : Nat :=
  digit.toNat - '0'.toNat

/-- The value of a run of decimal digits. -/
def natural (digits : List Char) : Nat :=
  digits.foldl (fun total digit => total * 10 + value digit) 0

/-- The value of a hexadecimal digit. -/
def hexValue? (character : Char) : Option Nat :=
  if '0' ≤ character ∧ character ≤ '9' then
    some (character.toNat - '0'.toNat)
  else if 'a' ≤ character ∧ character ≤ 'f' then
    some (character.toNat - 'a'.toNat + 10)
  else if 'A' ≤ character ∧ character ≤ 'F' then
    some (character.toNat - 'A'.toNat + 10)
  else
    none

/-- The value of a run of hexadecimal digits. -/
def hexNatural? (digits : List Char) : Option Nat :=
  digits.foldlM (fun total digit => (hexValue? digit).map (total * 16 + ·)) 0

/-- The character of a code, unless the code is a surrogate or too large. -/
def scalar? (code : Nat) : Option Char :=
  if code < 0xD800 ∨ (0xE000 ≤ code ∧ code < 0x110000) then some (Char.ofNat code) else none

end QueryGateway.Digits
