import QueryGateway.Number.Binary64
import QueryGateway.Text.Digits

/-!
# Decimal numbers as they are written

The double that is nearest to a decimal number written with a sign, a fraction
and an exponent, each of which may be absent.
-/

namespace QueryGateway

namespace Binary64

/-- The integer after an exponent's letter. -/
def writtenExponent (text : List Char) : Int :=
  match text with
  | '-' :: digits => -(Digits.natural digits : Int)
  | '+' :: digits => Digits.natural digits
  | digits => Digits.natural digits

/-- Is it the letter before an exponent? -/
def isExponentLetter (character : Char) : Bool :=
  character == 'e' || character == 'E'

/-- The nearest double to a written number, unless that is too large to be finite. -/
def ofWritten? (text : List Char) : Option Binary64 :=
  let (negative, unsigned) :=
    match text with
    | '-' :: rest => (true, rest)
    | '+' :: rest => (false, rest)
    | _ => (false, text)
  let mantissa := unsigned.takeWhile (!isExponentLetter ·)
  let exponent := writtenExponent ((unsigned.dropWhile (!isExponentLetter ·)).drop 1)
  let whole := mantissa.takeWhile (· != '.')
  let fraction := (mantissa.dropWhile (· != '.')).drop 1
  ofDecimal negative (Digits.natural (whole ++ fraction)) (exponent - fraction.length)

end Binary64

end QueryGateway
