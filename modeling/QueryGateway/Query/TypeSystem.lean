import QueryGateway.Query.Syntax

/-!
# Type-system definitions

A query text may hold definitions of types beside its operations.  Nothing is
selected against them, so they are passed over; but a text in which one is
malformed is refused as a whole.

Each function takes the tokens from a certain point of a definition and gives
the tokens after the part it is named for.
-/

namespace QueryGateway.Query.TypeSystem

open Grammar

/-- Pass over a description, if one follows. -/
def description (tokens : List Token) : List Token :=
  match tokens with
  | .string _ :: rest => passCommas rest
  | _ => tokens

/-- Does an entry of a list of definitions follow: a name or a description? -/
def entryFollows (tokens : List Token) : Bool :=
  match tokens with
  | .name _ :: _ => true
  | .string _ :: _ => true
  | _ => false

/-- Pass over further parts for as long as the mark between parts follows. -/
def furtherParts (fuel : Nat) (separator : Char) (part : List Token → Option (List Token))
    (tokens : List Token) : Option (List Token) :=
  match fuel with
  | 0 => none
  | fuel + 1 =>
      match mark? separator tokens with
      | none => some tokens
      | some rest => do furtherParts fuel separator part (← part rest)

/-- Pass over parts with a mark between them and perhaps one in front. -/
def separated (fuel : Nat) (separator : Char) (part : List Token → Option (List Token))
    (tokens : List Token) : Option (List Token) := do
  let rest ← part ((mark? separator tokens).getD tokens)
  furtherParts fuel separator part rest

/-- Pass over names with a mark between them. -/
def namesBy (fuel : Nat) (separator : Char) (tokens : List Token) : Option (List Token) :=
  separated fuel separator (fun tokens => (name? tokens).map (·.2)) tokens

/-- Pass over one or more entries, as long as one follows. -/
def entries (fuel : Nat) (entry : List Token → Option (List Token)) (tokens : List Token) :
    Option (List Token) :=
  match fuel with
  | 0 => none
  | fuel + 1 => do
      let rest ← entry tokens
      if entryFollows rest then entries fuel entry rest else some rest

/-- Pass over an argument of a field or of a directive, or a field of an input. -/
def inputValue (fuel depth : Nat) (tokens : List Token) : Option (List Token) := do
  let (_, rest) ← name? (description tokens)
  let rest ← mark? ':' rest
  let rest ← passType fuel rest
  let rest ← passDefault fuel depth rest
  passDirectives fuel depth rest

/-- Pass over argument definitions in parentheses, if they follow. -/
def argumentDefinitions (fuel depth : Nat) (tokens : List Token) : Option (List Token) :=
  match mark? '(' tokens with
  | none => some tokens
  | some rest => do
      let rest ← entries fuel (inputValue fuel depth) rest
      mark? ')' rest

/-- Pass over a field of a type. -/
def fieldDefinition (fuel depth : Nat) (tokens : List Token) : Option (List Token) := do
  let (_, rest) ← name? (description tokens)
  let rest ← argumentDefinitions fuel depth rest
  let rest ← mark? ':' rest
  let rest ← passType fuel rest
  passDirectives fuel depth rest

/-- Pass over a value of an enumeration; it may not read as another literal. -/
def enumValue (fuel depth : Nat) (tokens : List Token) : Option (List Token) := do
  let (name, rest) ← name? (description tokens)
  if ["true", "false", "null"].contains name then
    none
  passDirectives fuel depth rest

/-- Pass over the type of one kind of operation. -/
def rootOperation (tokens : List Token) : Option (List Token) := do
  let (kind, rest) ← name? tokens
  if !(["query", "mutation", "subscription"].contains kind) then
    none
  let rest ← mark? ':' rest
  (name? rest).map (·.2)

/-- Pass over entries in braces, if they follow. -/
def braced (fuel : Nat) (entry : List Token → Option (List Token)) (tokens : List Token) :
    Option (List Token) :=
  match mark? '{' tokens with
  | none => some tokens
  | some rest => do
      let rest ← entries fuel entry rest
      mark? '}' rest

/-- Pass over a word and what it introduces, if the word follows. -/
def introduced (word : String) (part : List Token → Option (List Token))
    (tokens : List Token) : Option (List Token) :=
  match keyword? word tokens with
  | none => some tokens
  | some rest => part rest

/-- Pass over a mark and what it introduces, if the mark follows. -/
def marked (character : Char) (part : List Token → Option (List Token))
    (tokens : List Token) : Option (List Token) :=
  match mark? character tokens with
  | none => some tokens
  | some rest => part rest

/-- The places a directive may be defined for. -/
def directiveLocations : List String :=
  ["QUERY", "MUTATION", "SUBSCRIPTION", "FIELD", "FRAGMENT_DEFINITION", "FRAGMENT_SPREAD",
   "INLINE_FRAGMENT", "VARIABLE_DEFINITION", "SCHEMA", "SCALAR", "OBJECT",
   "FIELD_DEFINITION", "ARGUMENT_DEFINITION", "INTERFACE", "UNION", "ENUM", "ENUM_VALUE",
   "INPUT_OBJECT", "INPUT_FIELD_DEFINITION"]

/-- Pass over one place a directive is defined for. -/
def location (tokens : List Token) : Option (List Token) := do
  let (place, rest) ← name? tokens
  if directiveLocations.contains place then some rest else none

/-- Pass over what follows the name of a directive that is defined. -/
def directiveBody (fuel depth : Nat) (tokens : List Token) : Option (List Token) := do
  let rest ← argumentDefinitions fuel depth tokens
  let rest := (keyword? "repeatable" rest).getD rest
  let rest ← keyword? "on" rest
  separated fuel '|' location rest

/-- The parts that may follow the name of a type, by the word the definition starts with. -/
def typeBody? (fuel depth : Nat) (word : String) : Option (List Token → Option (List Token)) :=
  let directives := passDirectives fuel depth
  let implementing := introduced "implements" (namesBy fuel '&')
  let fields := braced fuel (fieldDefinition fuel depth)
  match word with
  | "scalar" => some directives
  | "type" | "interface" =>
      some fun tokens => do fields (← directives (← implementing tokens))
  | "union" => some fun tokens => do marked '=' (namesBy fuel '|') (← directives tokens)
  | "enum" => some fun tokens => do braced fuel (enumValue fuel depth) (← directives tokens)
  | "input" => some fun tokens => do braced fuel (inputValue fuel depth) (← directives tokens)
  | _ => none

/--
Pass over a definition from the word that starts it, or over an extension from
the word after `extend`.  An extension must have at least one part.
-/
def definition (fuel depth : Nat) (extending : Bool) (tokens : List Token) :
    Option (List Token) := do
  let (word, rest) ← name? tokens
  match word with
  | "schema" =>
      let parts ← passDirectives fuel depth rest
      let after ← braced fuel rootOperation parts
      if after.length = (if extending then rest else parts).length then none else some after
  | "directive" =>
      if extending then
        none
      let rest ← mark? '@' rest
      let (_, rest) ← name? rest
      directiveBody fuel depth rest
  | _ =>
      let body ← typeBody? fuel depth word
      let (_, rest) ← name? rest
      let after ← body rest
      if extending ∧ after.length = rest.length then none else some after

end QueryGateway.Query.TypeSystem
