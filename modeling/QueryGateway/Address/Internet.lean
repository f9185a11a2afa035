import QueryGateway.Text.Digits

/-!
# Internet addresses

An address of version 4 is four decimal octets without needless zeros.  One of
version 6 is eight groups of up to four hexadecimal digits; two colons in a row
stand for one or more groups of zeros, and an address of version 4 may take the
place of the last two groups.

The readers split an address off the front of a text, and give its octets or
its groups with the rest of the text.
-/

namespace QueryGateway.Address

/-- Split off a character. -/
def exact (character : Char) : List Char → Option (List Char)
  | other :: rest => if other = character then some rest else none
  | [] => none

/-- Split off a decimal number up to a greatest value. -/
def number (greatest : Nat) (input : List Char) : Option (Nat × List Char) :=
  let digits := input.takeWhile Char.isDigit
  if digits.isEmpty ∨ Digits.natural digits > greatest then
    none
  else
    some (Digits.natural digits, input.dropWhile Char.isDigit)

/-- Split off an octet: up to three digits, of which the first is no needless zero. -/
def octet (input : List Char) : Option (Nat × List Char) :=
  let digits := input.takeWhile Char.isDigit
  if digits.length > 3 ∨ (digits.head? = some '0' ∧ digits.length > 1) then
    none
  else
    number 255 input

/-- Split off an address of version 4. -/
def version4 (input : List Char) : Option (List Nat × List Char) := do
  let (first, rest) ← octet input
  let (second, rest) ← octet (← exact '.' rest)
  let (third, rest) ← octet (← exact '.' rest)
  let (fourth, rest) ← octet (← exact '.' rest)
  return ([first, second, third, fourth], rest)

/-- The two groups that the octets of an address of version 4 make up. -/
def groupsOfOctets : List Nat → List Nat
  | high :: low :: octets => (high * 256 + low) :: groupsOfOctets octets
  | _ => []

/-- Split off a group of an address of version 6. -/
def group (input : List Char) : Option (Nat × List Char) :=
  let digits := input.takeWhile fun character => (Digits.hexValue? character).isSome
  if digits.isEmpty ∨ digits.length > 4 then
    none
  else
    (Digits.hexNatural? digits).map (·, input.drop digits.length)

/-- Split off the separator that stands in front of every group but the first. -/
def separated (first : Bool) (input : List Char) : Option (List Char) :=
  if first then some input else exact ':' input

/-- How far groups could be read. -/
structure Groups where
  values : List Nat
  /-- Did an address of version 4 end them? -/
  endsInVersion4 : Bool
  rest : List Char
deriving Repr

/--
Split off groups, at most `room` of them.  An address of version 4 takes the
room of two.
-/
def groups (first : Bool) : Nat → List Char → Groups
  | 0, input => ⟨[], false, input⟩
  | room + 1, input =>
      match (if room > 0 then (separated first input).bind version4 else none) with
      | some (octets, rest) => ⟨groupsOfOctets octets, true, rest⟩
      | none =>
          match (separated first input).bind group with
          | none => ⟨[], false, input⟩
          | some (value, rest) =>
              let others := groups false room rest
              { others with values := value :: others.values }

/-- Split off an address of version 6. -/
def version6 (input : List Char) : Option (List Nat × List Char) :=
  let front := groups true 8 input
  if front.values.length = 8 then
    some (front.values, front.rest)
  else if front.endsInVersion4 then
    none
  else do
    let rest ← exact ':' front.rest
    let rest ← exact ':' rest
    let back := groups true (7 - front.values.length) rest
    let zeros := 8 - front.values.length - back.values.length
    return (front.values ++ List.replicate zeros 0 ++ back.values, back.rest)

/-! ## Writing addresses -/

/-- An address of version 4, of its octets. -/
def version4Text (octets : List Nat) : String :=
  ".".intercalate (octets.map toString)

/-- Groups with colons between them. -/
def groupsText (values : List Nat) : String :=
  ":".intercalate (values.map fun value => String.ofList (Nat.toDigits 16 value))

/-- The length of the longest run of zeros in a list. -/
def longestZeros (current : Nat) : List Nat → Nat
  | [] => current
  | 0 :: values => longestZeros (current + 1) values
  | _ :: values => max current (longestZeros 0 values)

/-- The groups before and after the first run of `length` zeros. -/
def splitAtZeros (length : Nat) : List Nat → List Nat × List Nat
  | [] => ([], [])
  | value :: values =>
      if (value :: values).take length = List.replicate length 0 then
        ([], (value :: values).drop length)
      else
        let (before, after) := splitAtZeros length values
        (value :: before, after)

/--
An address of version 6, of its groups.  Two colons stand for the first of the
longest runs of zeros, if it has two or more of them.
-/
def version6Text (values : List Nat) : String :=
  let length := longestZeros 0 values
  if length < 2 then
    groupsText values
  else
    let (before, after) := splitAtZeros length values
    groupsText before ++ "::" ++ groupsText after

end QueryGateway.Address
