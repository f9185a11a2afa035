import QueryGateway.Text.Bytes
import QueryGateway.Text.Digits

/-!
# Percent escapes

A byte may be written as a percent sign and two hexadecimal digits.  Escaping
leaves the characters it is told to keep; unescaping leaves a percent sign that
two digits do not follow.

Forms use the same escapes, with a plus sign for a space, in pairs of a name
and a value.
-/

namespace QueryGateway.Uri

/-- A hexadecimal digit in upper case. -/
def upperHexDigit (value : Nat) : Char :=
  if value < 10 then Char.ofNat (0x30 + value) else Char.ofNat (0x37 + value)

/-- A byte as an escape. -/
def escapeByte (byte : UInt8) : List Char :=
  ['%', upperHexDigit (byte.toNat / 16), upperHexDigit (byte.toNat % 16)]

/-- Escape the bytes of every character that is not kept. -/
def escape (isKept : Char → Bool) (text : List Char) : List Char :=
  text.flatMap fun character =>
    if isKept character then [character] else (Utf8.encodeChar character).flatMap escapeByte

/-- The value of a byte that is a hexadecimal digit. -/
def hexByte? (byte : UInt8) : Option Nat :=
  Digits.hexValue? (Char.ofNat byte.toNat)

/-- Put the bytes that escapes stand for in their place. -/
def unescape : Bytes → Bytes
  | 0x25 :: high :: low :: rest =>
      match hexByte? high, hexByte? low with
      | some upper, some lower => UInt8.ofNat (upper * 16 + lower) :: unescape rest
      | _, _ => 0x25 :: unescape (high :: low :: rest)
  | byte :: rest => byte :: unescape rest
  | [] => []

namespace Form

/-- The text that a name or a value of a form stands for. -/
def decode (text : List Char) : String :=
  let spaced := text.map fun character => if character = '+' then ' ' else character
  (unescape (Utf8.encode spaced)).toStringLossy

/-- The name and the value of a pair; without an equals sign the value is empty. -/
def pair (text : List Char) : String × String :=
  (decode (text.takeWhile (· ≠ '=')), decode ((text.dropWhile (· ≠ '=')).drop 1))

/-- The pairs of a form, in their order. -/
def pairs (text : String) : List (String × String) :=
  ((text.toList.splitOnP (· == '&')).filter (!·.isEmpty)).map pair

end Form

end QueryGateway.Uri
