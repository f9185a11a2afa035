import QueryGateway.Json.Parser
import QueryGateway.Routing.Mapping

/-!
# Mappings in request bodies

A mapping is written as a JSON object with an ingress, an egress and perhaps an
id, or as an array of the three.  Other members of an object are passed over.

A body is read from its front, and the first fault decides what is told about
it: either it is no JSON text as far as it was read, or it is JSON but no
mapping.  What stands behind the fault is not looked at.  Members that are
passed over need only look like JSON: neither the encoding of their strings nor
the range of their numbers is checked.

The readers work on bytes, because a verdict may be reached before what is no
text.  Each of them gives what it read and the bytes behind it, or a fault.
-/

namespace QueryGateway.Administration

/-- What is wrong with a body. -/
inductive BodyFault where
  | notJson
  | notMapping
deriving DecidableEq, Repr

namespace RequestBody

/-- The byte of an ASCII character. -/
def ascii (character : Char) : UInt8 :=
  character.toNat.toUInt8

/-- Does the byte stand for a blank? -/
def isBlank (byte : UInt8) : Bool :=
  byte == 0x20 || byte == 0x09 || byte == 0x0A || byte == 0x0D

/-- The bytes from the next one on that is not blank. -/
def skipBlanks (input : Bytes) : Bytes :=
  input.dropWhile isBlank

/-- Bytes as characters, one for each. -/
def characters (input : Bytes) : List Char :=
  input.map fun byte => Char.ofNat byte.toNat

/-! ## Passing values over -/

/-- Is the byte a hexadecimal digit? -/
def isHexDigit (byte : UInt8) : Bool :=
  (Digits.hexValue? (Char.ofNat byte.toNat)).isSome

/-- Is the byte a decimal digit? -/
def isDigit (byte : UInt8) : Bool :=
  (Char.ofNat byte.toNat).isDigit

/--
Split a string at its closing quote, given what follows the opening one.  The
escapes are kept as they are written.
-/
def rawString : Bytes → Option (Bytes × Bytes)
  | [] => none
  | 0x22 :: rest => some ([], rest)
  | 0x5C :: 0x75 :: a :: b :: c :: d :: rest =>
      if isHexDigit a && isHexDigit b && isHexDigit c && isHexDigit d then
        (rawString rest).map fun (raw, rest) => (0x5C :: 0x75 :: a :: b :: c :: d :: raw, rest)
      else
        none
  | 0x5C :: letter :: rest =>
      if (Json.Parser.shortEscape? (Char.ofNat letter.toNat)).isSome then
        (rawString rest).map fun (raw, rest) => (0x5C :: letter :: raw, rest)
      else
        none
  | byte :: rest =>
      if byte < 0x20 || byte == 0x5C then
        none
      else
        (rawString rest).map fun (raw, rest) => (byte :: raw, rest)

/-- Pass one or more digits. -/
def skipDigits (input : Bytes) : Option Bytes :=
  if (input.takeWhile isDigit).isEmpty then none else some (input.dropWhile isDigit)

/-- Pass an exponent, if there is one. -/
def skipExponent (input : Bytes) : Option Bytes :=
  match input with
  | letter :: rest =>
      if letter == ascii 'e' || letter == ascii 'E' then
        match rest with
        | sign :: digits =>
            skipDigits (if sign == ascii '+' || sign == ascii '-' then digits else rest)
        | [] => none
      else
        some input
  | [] => some []

/-- Pass a number without a sign. -/
def skipUnsigned (input : Bytes) : Option Bytes :=
  let digits := input.takeWhile isDigit
  let rest := input.dropWhile isDigit
  if digits.isEmpty || (digits.head? == some (ascii '0') && digits.length > 1) then
    none
  else
    match rest with
    | 0x2E :: rest => (skipDigits rest).bind skipExponent
    | _ => skipExponent rest

/-- Pass a word. -/
def skipWord (word : String) (input : Bytes) : Option Bytes :=
  let bytes := Bytes.ofString word
  if bytes.isPrefixOf input then some (input.drop bytes.length) else none

/-- Pass the key of a member with its colon. -/
def skipKey (input : Bytes) : Option Bytes :=
  match skipBlanks input with
  | 0x22 :: rest => do
      let (_, rest) ← rawString rest
      match skipBlanks rest with
      | 0x3A :: rest => some rest
      | _ => none
  | _ => none

mutual

/-- Pass a value over.  `fuel` bounds the number of calls. -/
def skipValue (fuel : Nat) (input : Bytes) : Option Bytes :=
  match fuel with
  | 0 => none
  | fuel + 1 =>
      match skipBlanks input with
      | [] => none
      | first :: rest =>
          if first == ascii '"' then (rawString rest).map (·.2)
          else if first == ascii '[' then
            match skipBlanks rest with
            | 0x5D :: rest => some rest
            | rest => skipElements fuel rest
          else if first == ascii '\x7b' then
            match skipBlanks rest with
            | 0x7D :: rest => some rest
            | rest => skipMembers fuel rest
          else if first == ascii '-' then skipUnsigned rest
          else if isDigit first then skipUnsigned (first :: rest)
          else if first == ascii 'n' then skipWord "ull" rest
          else if first == ascii 't' then skipWord "rue" rest
          else if first == ascii 'f' then skipWord "alse" rest
          else none

/-- Pass the elements of an array and its closing bracket. -/
def skipElements (fuel : Nat) (input : Bytes) : Option Bytes :=
  match fuel with
  | 0 => none
  | fuel + 1 => do
      match skipBlanks (← skipValue fuel input) with
      | 0x2C :: rest => skipElements fuel rest
      | 0x5D :: rest => some rest
      | _ => none

/-- Pass the members of an object and its closing brace. -/
def skipMembers (fuel : Nat) (input : Bytes) : Option Bytes :=
  match fuel with
  | 0 => none
  | fuel + 1 => do
      match skipBlanks (← skipValue fuel (← skipKey input)) with
      | 0x2C :: rest => skipMembers fuel rest
      | 0x7D :: rest => some rest
      | _ => none

end

/-! ## The members of a mapping -/

/-- Turn a failure to read into the fault that the text is not JSON. -/
def orNotJson {α : Type} (result : Option α) : Except BodyFault α :=
  result.elim (.error .notJson) .ok

/-- Read a string, given what follows its opening quote. -/
def stringRest (input : Bytes) : Except BodyFault (String × Bytes) :=
  orNotJson do
    let (raw, rest) ← rawString input
    let (text, _) ← Json.Parser.stringRest ((← Utf8.decode? raw) ++ ['"'])
    return (String.ofList text, rest)

/--
Tell what is wrong with a value that is of no use: its text, if it is no JSON,
or else its kind.  Arrays and objects are not entered.
-/
def refuse {α : Type} (input : Bytes) : Except BodyFault (α × Bytes) :=
  let isJson :=
    match input with
    | [] => false
    | first :: rest =>
        if first == ascii '[' || first == ascii '\x7b' then true
        else if first == ascii '"' then (stringRest rest).toOption.isSome
        else if first == ascii '-' || isDigit first then
          (Json.Parser.number (characters input)).isSome
        else if first == ascii 'n' then (skipWord "ull" rest).isSome
        else if first == ascii 't' then (skipWord "rue" rest).isSome
        else if first == ascii 'f' then (skipWord "alse" rest).isSome
        else false
  .error (if isJson then .notMapping else .notJson)

/-- Read a value that has to be a string. -/
def stringValue (input : Bytes) : Except BodyFault (String × Bytes) :=
  match skipBlanks input with
  | 0x22 :: rest => stringRest rest
  | rest => refuse rest

/-- Read a value that may be null, and has to be a string otherwise. -/
def optionalValue (input : Bytes) : Except BodyFault (Option String × Bytes) :=
  match skipBlanks input with
  | 0x6E :: rest => do return (none, ← orNotJson (skipWord "ull" rest))
  | rest => do
      let (text, rest) ← stringValue rest
      return (some text, rest)

/-- What has been read of an object. -/
structure Found where
  id : Option (Option String)
  ingress : Option String
  egress : Option String
deriving Repr

/-- The mapping that was read, if nothing is missing. -/
def Found.draft (found : Found) : Except BodyFault Routing.Draft :=
  match found.ingress, found.egress with
  | some ingress, some egress => .ok ⟨found.id.getD none, ingress, egress⟩
  | _, _ => .error .notMapping

/-- Pass the colon behind a key. -/
def colon (input : Bytes) : Except BodyFault Bytes :=
  match skipBlanks input with
  | 0x3A :: rest => .ok rest
  | _ => .error .notJson

/-- Read the member of a key, which may stand only once if it is of use. -/
def member (found : Found) (key : String) (input : Bytes) : Except BodyFault (Found × Bytes) :=
  if key = "id" then
    if found.id.isSome then .error .notMapping
    else do
      let (id, rest) ← optionalValue (← colon input)
      return ({ found with id := some id }, rest)
  else if key = "ingress" then
    if found.ingress.isSome then .error .notMapping
    else do
      let (ingress, rest) ← stringValue (← colon input)
      return ({ found with ingress := some ingress }, rest)
  else if key = "egress" then
    if found.egress.isSome then .error .notMapping
    else do
      let (egress, rest) ← stringValue (← colon input)
      return ({ found with egress := some egress }, rest)
  else do
    let rest ← colon input
    return (found, ← orNotJson (skipValue (rest.length + 1) rest))

/--
Read the members of an object, from a key on, and its closing brace.  Every
member takes one of the `fuel`.
-/
def members (found : Found) : Nat → Bytes → Except BodyFault (Routing.Draft × Bytes)
  | 0, _ => .error .notJson
  | fuel + 1, input => do
      match skipBlanks input with
      | 0x22 :: rest =>
          let (key, rest) ← stringRest rest
          let (found, rest) ← member found key rest
          match skipBlanks rest with
          | 0x2C :: rest => members found fuel rest
          | 0x7D :: rest => return (← found.draft, rest)
          | _ => throw .notJson
      | _ => throw .notJson

/-- Read a mapping written as an object, after its opening brace. -/
def objectRest (input : Bytes) : Except BodyFault (Routing.Draft × Bytes) :=
  match skipBlanks input with
  | 0x7D :: _ => .error .notMapping
  | rest => members ⟨none, none, none⟩ (rest.length + 1) rest

/-- Read the comma before an element that has to follow; an array that ends here is too short. -/
def comma (input : Bytes) : Except BodyFault Bytes :=
  match skipBlanks input with
  | 0x5D :: _ => .error .notMapping
  | 0x2C :: rest =>
      match skipBlanks rest with
      | 0x5D :: _ => .error .notJson
      | rest => .ok rest
  | _ => .error .notJson

/-- Read a mapping written as an array, after its opening bracket. -/
def arrayRest (input : Bytes) : Except BodyFault (Routing.Draft × Bytes) :=
  match skipBlanks input with
  | 0x5D :: _ => .error .notMapping
  | rest => do
      let (id, rest) ← optionalValue rest
      let (ingress, rest) ← stringValue (← comma rest)
      let (egress, rest) ← stringValue (← comma rest)
      match skipBlanks rest with
      | 0x5D :: rest => return (⟨id, ingress, egress⟩, rest)
      | _ => throw .notJson

/-- Read a mapping. -/
def mapping (input : Bytes) : Except BodyFault (Routing.Draft × Bytes) :=
  match skipBlanks input with
  | 0x5B :: rest => arrayRest rest
  | 0x7B :: rest => objectRest rest
  | rest => refuse rest

end RequestBody

/-- Read a body that is one mapping, with nothing but blanks around it. -/
def readBody (content : Bytes) : Except BodyFault Routing.Draft := do
  let (draft, rest) ← RequestBody.mapping content
  if (RequestBody.skipBlanks rest).isEmpty then return draft else throw .notJson

end QueryGateway.Administration
