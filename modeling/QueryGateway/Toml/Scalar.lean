import QueryGateway.Number.Written
import QueryGateway.Toml.Value

/-!
# TOML scalars

Reads strings, numbers, booleans, dates and times.  Every function takes the
characters still to be read and gives what it read and what remains, or nothing
if no scalar stands there.
-/

namespace QueryGateway.Toml.Scalar

/-- Is the character a blank within a line? -/
def isBlank (character : Char) : Bool :=
  character == ' ' || character == '\t'

/-- May the character stand in a string or a comment as it is? -/
def isText (character : Char) : Bool :=
  character == '\t' || (0x20 ≤ character.toNat && character.toNat != 0x7F)

/-- Split off the end of a line. -/
def newline? (input : List Char) : Option (List Char) :=
  match input with
  | '\n' :: rest => some rest
  | '\r' :: '\n' :: rest => some rest
  | _ => none

/-! ## Strings -/

/-- The character of a short escape. -/
def shortEscape? (letter : Char) : Option Char :=
  match letter with
  | 'b' => some '\x08'
  | 't' => some '\t'
  | 'n' => some '\n'
  | 'f' => some '\x0c'
  | 'r' => some '\r'
  | '"' => some '"'
  | '\\' => some '\\'
  | _ => none

/-- Read an escape after its backslash. -/
def escape? (input : List Char) : Option (Char × List Char) :=
  match input with
  | 'u' :: a :: b :: c :: d :: rest => do
      let character ← Digits.scalar? (← Digits.hexNatural? [a, b, c, d])
      return (character, rest)
  | 'U' :: a :: b :: c :: d :: e :: f :: g :: h :: rest => do
      let character ← Digits.scalar? (← Digits.hexNatural? [a, b, c, d, e, f, g, h])
      return (character, rest)
  | letter :: rest => (shortEscape? letter).map (·, rest)
  | [] => none

/-- Read a string on one line, after its opening quote; only double quotes allow escapes. -/
def lineString (fuel : Nat) (quote : Char) (input : List Char) :
    Option (List Char × List Char) :=
  match fuel, input with
  | fuel + 1, character :: rest =>
      if character == quote then
        some ([], rest)
      else if character == '\\' && quote == '"' then do
        let (character, rest) ← escape? rest
        let (text, rest) ← lineString fuel quote rest
        return (character :: text, rest)
      else if isText character then
        (lineString fuel quote rest).map fun (text, rest) => (character :: text, rest)
      else
        none
  | _, _ => none

/-- Skip blanks and line ends. -/
def skipLines (fuel : Nat) (input : List Char) : List Char :=
  match fuel with
  | 0 => input
  | fuel + 1 =>
      match newline? input with
      | some rest => skipLines fuel rest
      | none =>
          match input with
          | character :: rest => if isBlank character then skipLines fuel rest else input
          | [] => []

/-- A backslash at the end of a line: what follows the blanks and line ends after it. -/
def lineEndEscape? (input : List Char) : Option (List Char) :=
  match newline? (input.dropWhile isBlank) with
  | some rest => some (skipLines rest.length rest)
  | none => none

/--
Read a string over several lines, after its opening quotes.  It ends with three
quotes, before which two more may belong to it.
-/
def linesString (fuel : Nat) (quote : Char) (input : List Char) :
    Option (List Char × List Char) :=
  match fuel with
  | 0 => none
  | fuel + 1 =>
      let quotes := input.takeWhile (· == quote)
      if quotes.length ≥ 6 then
        none
      else if quotes.length ≥ 3 then
        some (quotes.drop 3, input.drop quotes.length)
      else
        match newline? input with
        | some rest =>
            (linesString fuel quote rest).map fun (text, rest) => ('\n' :: text, rest)
        | none =>
            match input with
            | [] => none
            | character :: rest =>
                if character == '\\' && quote == '"' then
                  match lineEndEscape? rest with
                  | some rest => linesString fuel quote rest
                  | none => do
                      let (character, rest) ← escape? rest
                      let (text, rest) ← linesString fuel quote rest
                      return (character :: text, rest)
                else if isText character then
                  (linesString fuel quote rest).map fun (text, rest) => (character :: text, rest)
                else
                  none

/-- Read a string with one or three quotes of a kind around it. -/
def quoted (quote : Char) (input : List Char) : Option (String × List Char) :=
  let read :=
    match input with
    | _ :: second :: third :: rest =>
        if second == quote && third == quote then
          let rest := (newline? rest).getD rest
          linesString (rest.length + 1) quote rest
        else
          lineString input.length quote (input.drop 1)
    | _ => lineString input.length quote (input.drop 1)
  read.map fun (text, rest) => (String.ofList text, rest)

/-! ## Numbers -/

/-- Read digits, between which single low lines may stand; the result is without them. -/
def digits (isDigit : Char → Bool) : List Char → Option (List Char × List Char)
  | '_' :: _ => none
  | first :: rest =>
      if isDigit first then
        match rest with
        | '_' :: second :: rest =>
            (digits isDigit (second :: rest)).map fun (others, rest) => (first :: others, rest)
        | '_' :: [] => none
        | second :: rest =>
            if isDigit second then
              (digits isDigit (second :: rest)).map fun (others, rest) => (first :: others, rest)
            else
              some ([first], second :: rest)
        | [] => some ([first], [])
      else
        none
  | [] => none

/-- An integer within the signed 64-bit range. -/
def integer? (value : Int) : Option Value :=
  if -9223372036854775808 ≤ value ∧ value < 9223372036854775808 then some (.integer value) else none

/-- Read an integer in a base, after the letter for the base. -/
def based (isDigit : Char → Bool) (base : Nat) (input : List Char) :
    Option (Value × List Char) := do
  let (read, rest) ← digits isDigit input
  let value := read.foldl (fun total digit => total * base + (Digits.hexValue? digit).getD 0) 0
  return (← integer? value, rest)

/-- Split off a sign. -/
def sign (input : List Char) : List Char × List Char :=
  match input with
  | '-' :: rest => (['-'], rest)
  | '+' :: rest => (['+'], rest)
  | _ => ([], input)

/-- Split off a fraction, if one follows. -/
def fraction? (input : List Char) : Option (List Char × List Char) :=
  match input with
  | '.' :: rest => (digits Char.isDigit rest).map fun (read, rest) => ('.' :: read, rest)
  | _ => some ([], input)

/-- Split off an exponent, if one follows. -/
def exponent? (input : List Char) : Option (List Char × List Char) :=
  match input with
  | letter :: rest =>
      if Binary64.isExponentLetter letter then
        let (sign, rest) := sign rest
        (digits Char.isDigit rest).map fun (read, rest) => (letter :: (sign ++ read), rest)
      else
        some ([], input)
  | [] => some ([], [])

/--
Read a decimal number; one without fraction and exponent is an integer.  A
number that is too large for a double is refused, unless it is negative: then
it counts as infinite.
-/
def decimal (input : List Char) : Option (Value × List Char) := do
  let (sign, rest) := sign input
  let (whole, rest) ←
    match rest with
    | '0' :: rest => some (['0'], rest)
    | _ => digits Char.isDigit rest
  let (fraction, rest) ← fraction? rest
  let (exponent, rest) ← exponent? rest
  let text := sign ++ whole ++ fraction ++ exponent
  if fraction.isEmpty && exponent.isEmpty then
    let magnitude : Int := Digits.natural whole
    return (← integer? (if sign == ['-'] then -magnitude else magnitude), rest)
  else if (Binary64.ofWritten? text).isSome || sign == ['-'] then
    return (.float (String.ofList text), rest)
  else
    none

/-- Read a number. -/
def number (input : List Char) : Option (Value × List Char) :=
  match input with
  | '0' :: 'x' :: rest => based (fun digit => (Digits.hexValue? digit).isSome) 16 rest
  | '0' :: 'o' :: rest => based (fun digit => '0' ≤ digit && digit ≤ '7') 8 rest
  | '0' :: 'b' :: rest => based (fun digit => digit == '0' || digit == '1') 2 rest
  | _ =>
      let (sign, rest) := sign input
      match rest with
      | 'i' :: 'n' :: 'f' :: rest => some (.float (String.ofList (sign ++ "inf".toList)), rest)
      | 'n' :: 'a' :: 'n' :: rest => some (.float (String.ofList (sign ++ "nan".toList)), rest)
      | _ => decimal input

/-! ## Dates and times -/

/-- Read a fixed number of digits whose value lies in a range. -/
def field (count low high : Nat) (input : List Char) : Option (Nat × List Char) :=
  let read := input.take count
  let value := Digits.natural read
  if read.length = count ∧ read.all Char.isDigit ∧ low ≤ value ∧ value ≤ high then
    some (value, input.drop count)
  else
    none

/-- Read one character. -/
def exact (character : Char) : List Char → Option (List Char)
  | other :: rest => if other = character then some rest else none
  | [] => none

/-- The number of days of a month. -/
def daysOf (year month : Nat) : Nat :=
  if month = 2 then
    if year % 4 = 0 ∧ (year % 100 ≠ 0 ∨ year % 400 = 0) then 29 else 28
  else if [4, 6, 9, 11].contains month then 30
  else 31

/-- Pass over a date. -/
def date (input : List Char) : Option (List Char) := do
  let (year, rest) ← field 4 0 9999 input
  let rest ← exact '-' rest
  let (month, rest) ← field 2 1 12 rest
  let rest ← exact '-' rest
  let (_, rest) ← field 2 1 (daysOf year month) rest
  return rest

/-- Pass over a time of day. -/
def time (input : List Char) : Option (List Char) := do
  let (_, rest) ← field 2 0 23 input
  let rest ← exact ':' rest
  let (_, rest) ← field 2 0 59 rest
  let rest ← exact ':' rest
  let (_, rest) ← field 2 0 60 rest
  match rest with
  | '.' :: rest =>
      if (rest.head?.map Char.isDigit).getD false then some (rest.dropWhile Char.isDigit) else none
  | _ => some rest

/-- Pass over the offset of a time, if one follows. -/
def offset (input : List Char) : Option (List Char) :=
  match input with
  | 'Z' :: rest => some rest
  | 'z' :: rest => some rest
  | sign :: rest =>
      if sign == '+' || sign == '-' then do
        let (_, rest) ← field 2 0 23 rest
        let rest ← exact ':' rest
        let (_, rest) ← field 2 0 59 rest
        return rest
      else
        some input
  | [] => some []

/-- Does the text begin like a date? -/
def beginsDate (input : List Char) : Bool :=
  (input.take 4).length == 4 && (input.take 4).all Char.isDigit && input[4]? == some '-'

/-- Does the text begin like a time? -/
def beginsTime (input : List Char) : Bool :=
  (input.take 2).length == 2 && (input.take 2).all Char.isDigit && input[2]? == some ':'

/-- Pass over a date, a time, or a date with a time. -/
def passMoment (input : List Char) : Option (List Char) :=
  if beginsTime input then
    time input
  else do
    let rest ← date input
    match rest with
    | separator :: after =>
        if (separator == 'T' || separator == 't' || separator == ' ') && beginsTime after then do
          offset (← time after)
        else
          some rest
    | [] => some []

/-- Read a date, a time, or a date with a time. -/
def moment (input : List Char) : Option (Value × List Char) := do
  let rest ← passMoment input
  return (.moment (String.ofList (input.take (input.length - rest.length))), rest)

/-- Read a scalar. -/
def scalar (input : List Char) : Option (Value × List Char) :=
  match input with
  | '"' :: _ => (quoted '"' input).map fun (text, rest) => (.string text, rest)
  | '\'' :: _ => (quoted '\'' input).map fun (text, rest) => (.string text, rest)
  | 't' :: 'r' :: 'u' :: 'e' :: rest => some (.boolean true, rest)
  | 'f' :: 'a' :: 'l' :: 's' :: 'e' :: rest => some (.boolean false, rest)
  | _ => if beginsDate input || beginsTime input then moment input else number input

end QueryGateway.Toml.Scalar
