import QueryGateway.Text.Digits

/-!
# Punycode

Punycode writes a sequence of characters with ASCII letters, digits and hyphens
only.  The ASCII characters come first, behind them a hyphen if there are any,
and then the other characters in the order of their codes.  For each of them a
number tells how many steps a reader takes, through codes and positions, until
the character is put in.

Numbers are written in digits of which each has its own threshold; a digit below
its threshold is the last one.  The thresholds follow a bias, which adapts to
the size of the numbers seen.
-/

namespace QueryGateway.Uri.Punycode

/-- The number of digits there are. -/
def base : Nat := 36

/-- The first code that is not ASCII. -/
def firstCode : Nat := 128

/-- The bias before any number was seen. -/
def firstBias : Nat := 72

/-- A digit: a letter, or for the greatest ten values a decimal digit. -/
def digit (value : Nat) : Char :=
  if value < 26 then Char.ofNat (0x61 + value) else Char.ofNat (0x30 + value - 26)

/-- The value of a digit. -/
def digitValue? (character : Char) : Option Nat :=
  if character.isLower then some (character.toNat - 0x61)
  else if character.isUpper then some (character.toNat - 0x41)
  else if character.isDigit then some (character.toNat - 0x30 + 26)
  else none

/-- The threshold of the digit at a position, counted in steps of `base` from `base` on. -/
def threshold (bias position : Nat) : Nat :=
  if position ≤ bias then 1 else min 26 (position - bias)

theorem threshold_pos (bias position : Nat) : 0 < threshold bias position := by
  unfold threshold
  split <;> omega

/-- Divide a number until it is small, and count the divisions in steps of `base`. -/
def shrink (number steps : Nat) : Nat × Nat :=
  if 455 < number then shrink (number / 35) (steps + base) else (number, steps)
termination_by number
decreasing_by exact Nat.div_lt_self (by omega) (by omega)

/-- The bias after a number, which puts in the last of `present` characters. -/
def adapt (isFirst : Bool) (number present : Nat) : Nat :=
  let damped := if isFirst then number / 700 else number / 2
  let (rest, steps) := shrink (damped + damped / present) 0
  steps + base * rest / (rest + 38)

/-! ## Writing -/

/-- The digits of a number from a position on. -/
def digitsFrom (bias position number : Nat) : List Char :=
  let least := threshold bias position
  if number < least then
    [digit number]
  else
    digit (least + (number - least) % (base - least)) ::
      digitsFrom bias (position + base) ((number - least) / (base - least))
termination_by number
decreasing_by
  have positive := threshold_pos bias position
  exact Nat.lt_of_le_of_lt (Nat.div_le_self _ _) (by omega)

/-- What a writer keeps between two characters that it puts in. -/
structure Writer where
  /-- The steps to take since the last character that was put in. -/
  steps : Nat
  bias : Nat
  /-- The characters that are in already. -/
  present : Nat
  written : List Char
deriving Repr

/--
Pass over one character for a code.  A character of a lower code is in already
and costs a step; a character of the code is put in.  `basic` is the number of
ASCII characters.
-/
def passCharacter (basic code : Nat) (writer : Writer) (character : Char) : Writer :=
  if character.toNat < code then
    { writer with steps := writer.steps + 1 }
  else if character.toNat = code then
    { steps := 0
      bias := adapt (writer.present = basic) writer.steps (writer.present + 1)
      present := writer.present + 1
      written := writer.written ++ digitsFrom writer.bias base writer.steps }
  else
    writer

/-- Put in the characters of the given codes, which rise from `least` on. -/
def writeCodes (text : List Char) (basic : Nat) : Nat → List Nat → Writer → List Char
  | _, [], writer => writer.written
  | least, code :: codes, writer =>
      let writer := { writer with steps := writer.steps + (code - least) * (writer.present + 1) }
      let writer := text.foldl (passCharacter basic code) writer
      writeCodes text basic (code + 1) codes { writer with steps := writer.steps + 1 }

/-- Write a sequence of characters. -/
def encode (text : List Char) : List Char :=
  let plain := text.filter (·.toNat < firstCode)
  let codes := (((text.map Char.toNat).filter (firstCode ≤ ·)).mergeSort).eraseDups
  let front := if plain.isEmpty then [] else plain ++ ['-']
  writeCodes text plain.length firstCode codes ⟨0, firstBias, plain.length, front⟩

/-! ## Reading -/

/-- Read the digits of a number from a position on, where a digit has the given weight. -/
def readNumber (bias position weight : Nat) : List Char → Option (Nat × List Char)
  | [] => none
  | character :: rest => do
      let value ← digitValue? character
      let least := threshold bias position
      if value < least then
        return (value * weight, rest)
      else
        let (others, rest) ← readNumber bias (position + base) (weight * (base - least)) rest
        return (value * weight + others, rest)

/--
Put in the characters that numbers tell.  `place` counts codes and positions
together, and `fuel` bounds the count of the numbers.
-/
def readCharacters (isFirst : Bool) (code place bias : Nat) (text : List Char) :
    Nat → List Char → Option (List Char)
  | _, [] => some text
  | 0, _ :: _ => none
  | fuel + 1, digits => do
      let (number, rest) ← readNumber bias base 1 digits
      let present := text.length + 1
      let code := code + (place + number) / present
      let place := (place + number) % present
      let character ← Digits.scalar? code
      readCharacters false code (place + 1) (adapt isFirst number present)
        (text.insertIdx place character) fuel rest

/-- Read a sequence of characters. -/
def decode? (text : List Char) : Option (List Char) :=
  let reversed := text.reverse
  let digits := (reversed.takeWhile (· ≠ '-')).reverse
  let plain := ((reversed.dropWhile (· ≠ '-')).drop 1).reverse
  if plain.all (·.toNat < firstCode) then
    readCharacters true firstCode 0 firstBias plain digits.length digits
  else
    none

end QueryGateway.Uri.Punycode
