import QueryGateway.Json.Value
import QueryGateway.Number.Shortest

/-!
# Compact JSON text

The text of a JSON value: no space anywhere, members in their order, and in
strings only the escapes that JSON demands.
-/

namespace QueryGateway.Json

/--
Doubles are positional from `0.00001` up to, but not including, `1e+16`, and a
whole one keeps a zero after the point.
-/
def doubleLayout : Binary64.Layout :=
  ⟨-5, 16, ['.', '0'], ['+']⟩

/-- A number as JSON text. -/
def Number.text : Number → List Char
  | .integer value =>
      if value < 0 then '-' :: Nat.toDigits 10 value.natAbs else Nat.toDigits 10 value.natAbs
  | .double value => doubleLayout.text value

/-- A hexadecimal digit, in lower case. -/
def hexDigit (value : Nat) : Char :=
  if value < 10 then Char.ofNat (0x30 + value) else Char.ofNat (0x57 + value)

/-- One character of a string as JSON text. -/
def escapeChar (character : Char) : List Char :=
  if character = '"' then ['\\', '"']
  else if character = '\\' then ['\\', '\\']
  else if character = '\x08' then ['\\', 'b']
  else if character = '\x0c' then ['\\', 'f']
  else if character = '\n' then ['\\', 'n']
  else if character = '\r' then ['\\', 'r']
  else if character = '\t' then ['\\', 't']
  else if character.toNat < 0x20 then
    ['\\', 'u', '0', '0', hexDigit (character.toNat / 16), hexDigit (character.toNat % 16)]
  else
    [character]

/-- A string as JSON text, quotes included. -/
def stringText (value : String) : List Char :=
  '"' :: (value.toList.flatMap escapeChar ++ ['"'])

namespace Value

mutual

/-- A value as JSON text. -/
def text : Value → List Char
  | .null => ['n', 'u', 'l', 'l']
  | .bool true => ['t', 'r', 'u', 'e']
  | .bool false => ['f', 'a', 'l', 's', 'e']
  | .number value => value.text
  | .string value => stringText value
  | .array elements => '[' :: elementsText elements
  | .object members => '{' :: membersText members

/-- The elements of an array and its closing bracket. -/
def elementsText : List Value → List Char
  | [] => [']']
  | [element] => element.text ++ [']']
  | element :: elements => element.text ++ ',' :: elementsText elements

/-- The members of an object and its closing brace. -/
def membersText : List (String × Value) → List Char
  | [] => ['}']
  | [(key, value)] => stringText key ++ ':' :: (value.text ++ ['}'])
  | (key, value) :: members =>
      stringText key ++ ':' :: (value.text ++ ',' :: membersText members)

end

/-- A value as compact JSON. -/
def render (value : Value) : String :=
  String.ofList value.text

/--
The text of a scalar: a string itself, any other scalar as JSON, and nothing
for an array or an object.
-/
def scalarText? : Value → Option String
  | .string value => some value
  | .array _ => none
  | .object _ => none
  | value => some value.render

end Value

end QueryGateway.Json
