import QueryGateway.Json.Value
import QueryGateway.Text.Bytes
import QueryGateway.Text.Digits

/-!
# Reading JSON text

A strict reader.  Every function takes the characters still to be read and
gives back what it read and what remains, or nothing if the text is not JSON.

Containers may nest 127 deep.  A key that is repeated in an object keeps its
first position and takes its last value.
-/

namespace QueryGateway.Json

namespace Parser

/-- May the character stand between two tokens? -/
def isBlank (character : Char) : Bool :=
  character == ' ' || character == '\t' || character == '\n' || character == '\r'

/-- Skip the blanks. -/
def skipBlanks (input : List Char) : List Char :=
  input.dropWhile isBlank

/-- The value of four hexadecimal digits. -/
def hexUnit? (first second third fourth : Char) : Option Nat := do
  let a ← Digits.hexValue? first
  let b ← Digits.hexValue? second
  let c ← Digits.hexValue? third
  let d ← Digits.hexValue? fourth
  return ((a * 16 + b) * 16 + c) * 16 + d

/-- Is the 16-bit unit the first half of a pair? -/
def isHighSurrogate (unit : Nat) : Bool :=
  0xD800 ≤ unit && unit < 0xDC00

/-- Is the 16-bit unit the second half of a pair? -/
def isLowSurrogate (unit : Nat) : Bool :=
  0xDC00 ≤ unit && unit < 0xE000

/-- The character of a pair of halves. -/
def joinSurrogates (high low : Nat) : Char :=
  Char.ofNat (0x10000 + (high - 0xD800) * 0x400 + (low - 0xDC00))

/-- The character that a letter after a backslash stands for. -/
def shortEscape? (letter : Char) : Option Char :=
  match letter with
  | '"' => some '"'
  | '\\' => some '\\'
  | '/' => some '/'
  | 'b' => some '\x08'
  | 'f' => some '\x0c'
  | 'n' => some '\n'
  | 'r' => some '\r'
  | 't' => some '\t'
  | _ => none

/-- The rest of a string, after its opening quote. -/
def stringRest : List Char → Option (List Char × List Char)
  | [] => none
  | '"' :: rest => some ([], rest)
  | '\\' :: 'u' :: a :: b :: c :: d :: rest =>
      match hexUnit? a b c d with
      | none => none
      | some unit =>
          if isHighSurrogate unit then
            match rest with
            | '\\' :: 'u' :: e :: f :: g :: h :: rest =>
                match hexUnit? e f g h with
                | none => none
                | some low =>
                    if isLowSurrogate low then
                      (stringRest rest).map fun (text, rest) =>
                        (joinSurrogates unit low :: text, rest)
                    else
                      none
            | _ => none
          else if isLowSurrogate unit then
            none
          else
            (stringRest rest).map fun (text, rest) => (Char.ofNat unit :: text, rest)
  | '\\' :: letter :: rest =>
      match shortEscape? letter with
      | none => none
      | some character => (stringRest rest).map fun (text, rest) => (character :: text, rest)
  | character :: rest =>
      if character.toNat < 0x20 || character == '\\' then
        none
      else
        (stringRest rest).map fun (text, rest) => (character :: text, rest)

/-- The greatest significand a number is read into before digits are dropped. -/
def greatestSignificand : Nat := Nat.pow 2 64 - 1

/--
Append digits to a significand as long as it fits 64 bits; what is left over
starts with the first digit that does not fit.
-/
def absorb : Nat → List Char → Nat × List Char
  | significand, [] => (significand, [])
  | significand, digit :: digits =>
      let next := significand * 10 + Digits.value digit
      if next ≤ greatestSignificand then absorb next digits else (significand, digit :: digits)

/--
Scale a double by a power of ten, by one rounded multiplication, or by rounded
divisions that each stay within the range of a double.  `steps` bounds the
number of divisions by `10 ^ 308`; after two of them nothing is left of any
64-bit significand.
-/
def scale (steps : Nat) (value : Binary64) (exponent : Int) : Option Binary64 :=
  if value.isZero then
    some value
  else if exponent > 308 then
    none
  else if exponent ≥ 0 then do
    value.mul (← Binary64.ofNat (Nat.pow 10 exponent.toNat))
  else if exponent ≥ -308 then do
    value.div (← Binary64.ofNat (Nat.pow 10 (-exponent).toNat))
  else
    match steps with
    | 0 => some (.zero value.negative)
    | steps + 1 => do
        scale steps (← value.div (← Binary64.ofNat (Nat.pow 10 308))) (exponent + 308)

/-- The double of a sign, a significand and a decimal exponent. -/
def doubleOf (negative : Bool) (significand : Nat) (exponent : Int) : Option Number := do
  let value ← scale 3 (← Binary64.ofNat significand) exponent
  return .double (value.withSign negative)

/-- The greatest exponent that is evaluated. -/
def greatestExponent : Nat := Nat.pow 2 31 - 1

/--
Read the exponent after its letter and give the number.  An exponent beyond
the evaluated range makes a number that is zero or infinite, and the infinite
one is refused.
-/
def withExponent (negative : Bool) (significand : Nat) (exponent : Int) (input : List Char) :
    Option (Number × List Char) :=
  let (lowers, input) :=
    match input with
    | '+' :: rest => (false, rest)
    | '-' :: rest => (true, rest)
    | _ => (false, input)
  let digits := input.takeWhile Char.isDigit
  let rest := input.dropWhile Char.isDigit
  if digits.isEmpty then
    none
  else
    let written := Digits.natural digits
    if written > greatestExponent then
      if significand ≠ 0 ∧ !lowers then none else some (.double (.zero negative), rest)
    else
      let total := if lowers then exponent - written else exponent + written
      (doubleOf negative significand total).map (·, rest)

/-- Give the number with its exponent, if one follows. -/
def maybeExponent (negative : Bool) (significand : Nat) (exponent : Int) (input : List Char) :
    Option (Number × List Char) :=
  match input with
  | 'e' :: rest => withExponent negative significand exponent rest
  | 'E' :: rest => withExponent negative significand exponent rest
  | rest => (doubleOf negative significand exponent).map (·, rest)

/--
The number of an integer that fits a 64-bit range.  Minus zero is a double,
and so is an integer below the signed range.
-/
def integerOf (negative : Bool) (significand : Nat) : Option Number :=
  if !negative then
    some (.integer significand)
  else if significand ≠ 0 ∧ significand ≤ Nat.pow 2 63 then
    some (.integer (-(significand : Int)))
  else
    doubleOf true significand 0

/-- Read an unsigned number and give it the sign. -/
def unsigned (negative : Bool) (input : List Char) : Option (Number × List Char) :=
  let digits := input.takeWhile Char.isDigit
  let rest := input.dropWhile Char.isDigit
  if digits.isEmpty || (digits.head? == some '0' && digits.length > 1) then
    none
  else
    let (significand, dropped) := absorb 0 digits
    let exponent : Int := dropped.length
    match rest with
    | '.' :: rest =>
        let decimals := rest.takeWhile Char.isDigit
        let rest := rest.dropWhile Char.isDigit
        if decimals.isEmpty then
          none
        else
          let (significand, ignored) := absorb significand decimals
          let exponent := exponent - (decimals.length - ignored.length : Nat)
          maybeExponent negative significand exponent rest
    | 'e' :: _ | 'E' :: _ => maybeExponent negative significand exponent rest
    | _ =>
        if dropped.isEmpty then
          (integerOf negative significand).map (·, rest)
        else
          (doubleOf negative significand exponent).map (·, rest)

/-- Read a number. -/
def number (input : List Char) : Option (Number × List Char) :=
  match input with
  | '-' :: rest => unsigned true rest
  | _ => unsigned false input

/-- Read a member's key, its colon and the blanks around it. -/
def key (input : List Char) : Option (String × List Char) :=
  match input with
  | '"' :: rest =>
      match stringRest rest with
      | none => none
      | some (text, rest) =>
          match skipBlanks rest with
          | ':' :: rest => some (String.ofList text, rest)
          | _ => none
  | _ => none

mutual

/--
Read a value.  `fuel` bounds the number of calls and `depth` the containers
that may still be opened.
-/
def value (fuel depth : Nat) (input : List Char) : Option (Value × List Char) :=
  match fuel with
  | 0 => none
  | fuel + 1 =>
      match skipBlanks input with
      | 'n' :: 'u' :: 'l' :: 'l' :: rest => some (.null, rest)
      | 't' :: 'r' :: 'u' :: 'e' :: rest => some (.bool true, rest)
      | 'f' :: 'a' :: 'l' :: 's' :: 'e' :: rest => some (.bool false, rest)
      | '"' :: rest =>
          (stringRest rest).map fun (text, rest) => (.string (String.ofList text), rest)
      | '[' :: rest =>
          match depth with
          | 0 => none
          | depth + 1 =>
              match skipBlanks rest with
              | ']' :: rest => some (.array [], rest)
              | rest =>
                  (elements fuel depth rest).map fun (items, rest) => (.array items, rest)
      | '{' :: rest =>
          match depth with
          | 0 => none
          | depth + 1 =>
              match skipBlanks rest with
              | '}' :: rest => some (.object [], rest)
              | rest =>
                  (members fuel depth rest).map fun (entries, rest) =>
                    (.object (Members.ofEntries entries), rest)
      | rest => (number rest).map fun (read, rest) => (.number read, rest)

/-- Read the elements of an array up to its closing bracket. -/
def elements (fuel depth : Nat) (input : List Char) : Option (List Value × List Char) :=
  match fuel with
  | 0 => none
  | fuel + 1 =>
      match value fuel depth input with
      | none => none
      | some (first, rest) =>
          match skipBlanks rest with
          | ']' :: rest => some ([first], rest)
          | ',' :: rest =>
              (elements fuel depth rest).map fun (others, rest) => (first :: others, rest)
          | _ => none

/-- Read the members of an object up to its closing brace. -/
def members (fuel depth : Nat) (input : List Char) :
    Option (List (String × Value) × List Char) :=
  match fuel with
  | 0 => none
  | fuel + 1 =>
      match key (skipBlanks input) with
      | none => none
      | some (name, rest) =>
          match value fuel depth rest with
          | none => none
          | some (first, rest) =>
              match skipBlanks rest with
              | '}' :: rest => some ([(name, first)], rest)
              | ',' :: rest =>
                  (members fuel depth rest).map fun (others, rest) =>
                    ((name, first) :: others, rest)
              | _ => none

end

end Parser

/-- How deep the containers of a document may nest. -/
def nestingLimit : Nat := 127

/-- Read a document: one value, with nothing but blanks around it. -/
def parse? (input : List Char) : Option Value :=
  match Parser.value (2 * input.length + 2) nestingLimit input with
  | some (value, rest) => if (Parser.skipBlanks rest).isEmpty then some value else none
  | none => none

/-- Read a document from its UTF-8 bytes. -/
def ofBytes? (bytes : Bytes) : Option Value :=
  (Utf8.decode? bytes).bind parse?

/-- Read a document from a string. -/
def ofString? (text : String) : Option Value :=
  parse? text.toList

end QueryGateway.Json
