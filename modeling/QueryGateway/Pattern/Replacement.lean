import QueryGateway.Pattern.Compilation

/-!
# Replacement templates

A template holds references to the groups of a match.  A reference is a dollar
sign with the number or the name of a group after it.  Without braces it
extends over as many letters, digits and low lines as follow; in braces it
extends to the closing one.  Two dollar signs stand for one, and a dollar sign
that begins no reference stands for itself.

A reference to a group that is unknown, or that took no part in the match,
stands for nothing.
-/

namespace QueryGateway.Pattern

/-- A reference to a group. -/
inductive Reference where
  | number (number : Nat)
  | name (name : String)
deriving DecidableEq, Repr

namespace Reference

/-- The greatest number of a group. -/
def greatestNumber : Nat := Nat.pow 2 64 - 1

/-- The reference that a text is: a number, if it reads as one, or else a name. -/
def ofText (text : List Char) : Reference :=
  let digits :=
    match text with
    | '+' :: rest => rest
    | _ => text
  if !digits.isEmpty && digits.all Char.isDigit && Digits.natural digits ≤ greatestNumber then
    .number (Digits.natural digits)
  else
    .name (String.ofList text)

/-- May the character stand in a reference without braces? -/
def isPart (character : Char) : Bool :=
  character.isAlphanum || character == '_'

/-- Read a reference after its dollar sign. -/
def read? (input : List Char) : Option (Reference × List Char) :=
  match input with
  | '\x7b' :: rest =>
      match rest.dropWhile (· != '\x7d') with
      | '\x7d' :: after => some (ofText (rest.takeWhile (· != '\x7d')), after)
      | _ => none
  | _ =>
      match input.takeWhile isPart with
      | [] => none
      | text => some (ofText text, input.dropWhile isPart)

/-- The text of the group that is referred to. -/
def lookup (found : Match) : Reference → List Char
  | .number index => (found.group? index).getD []
  | .name text => (found.named? text).getD []

end Reference

/-- Fill a template in; every character of it takes at most one of the `fuel`. -/
def Match.fill (found : Match) (fuel : Nat) (template : List Char) : List Char :=
  match fuel, template with
  | fuel + 1, '$' :: '$' :: rest => '$' :: found.fill fuel rest
  | fuel + 1, '$' :: rest =>
      match Reference.read? rest with
      | some (reference, rest) => reference.lookup found ++ found.fill fuel rest
      | none => '$' :: found.fill fuel rest
  | fuel + 1, character :: rest => character :: found.fill fuel rest
  | _, _ => []

/-- A template with its references replaced. -/
def Match.expand (found : Match) (template : String) : String :=
  String.ofList (found.fill template.length template.toList)

end QueryGateway.Pattern
