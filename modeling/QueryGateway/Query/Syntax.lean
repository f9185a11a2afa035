import QueryGateway.Query.Document
import QueryGateway.Query.Token

/-!
# The grammar of executable definitions

Reading proceeds over a list of tokens and looks at most two of them ahead.
Every function takes the tokens still to be read and gives what it read and
the tokens after it, or nothing if the grammar does not admit them.

Commas are passed over after every token that is read.  They are not passed
over when looking at the token after the next one, so a comma may not stand
between an alias and its colon, nor between three dots and what they spread.

Selection sets, lists and objects may nest `nestingLimit` deep, counted
together; `depth` is what remains of that.  `fuel` bounds the number of nested
calls, of which there are at most two for a token.
-/

namespace QueryGateway.Query

/-- A literal as it is written; a field of an object may lack its value. -/
inductive Literal where
  | variable (name : String)
  | int (text : String)
  | float (text : String)
  | string (value : String)
  | boolean (value : Bool)
  | null
  /-- A bare name. -/
  | enum (name : String)
  | list (items : List Literal)
  | object (fields : List (String × Option Literal))
deriving Repr, Inhabited

/-- An argument as it is written: its name, and its literal unless it has none. -/
abbrev WrittenArgument := String × Option Literal

/-- The literal that a bare name is. -/
def Literal.ofName (name : String) : Literal :=
  if name = "true" then .boolean true
  else if name = "false" then .boolean false
  else if name = "null" then .null
  else .enum name

namespace Grammar

/-- How deep selection sets, lists and objects may nest. -/
def nestingLimit : Nat := 500

/-- The tokens without the commas in front. -/
def passCommas (tokens : List Token) : List Token :=
  tokens.dropWhile (· == .comma)

/-- Read a punctuation mark. -/
def mark? (character : Char) : List Token → Option (List Token)
  | .mark other :: rest => if other = character then some (passCommas rest) else none
  | _ => none

/-- Read a name. -/
def name? : List Token → Option (String × List Token)
  | .name text :: rest => some (text, passCommas rest)
  | _ => none

/-- Read a given name. -/
def keyword? (word : String) : List Token → Option (List Token)
  | .name text :: rest => if text = word then some (passCommas rest) else none
  | _ => none

/-! ## Literals and arguments -/

mutual

/-- Read a literal; in a constant one no variable may stand. -/
def literal (fuel depth : Nat) (constant : Bool) (tokens : List Token) :
    Option (Literal × List Token) :=
  match fuel with
  | 0 => none
  | fuel + 1 =>
      match tokens with
      | .int text :: rest => some (.int text, passCommas rest)
      | .float text :: rest => some (.float text, passCommas rest)
      | .string value :: rest => some (.string value, passCommas rest)
      | .name text :: rest => some (.ofName text, passCommas rest)
      | .mark '$' :: rest =>
          if constant then
            none
          else
            (name? (passCommas rest)).map fun (name, rest) => (.variable name, rest)
      | .mark '[' :: rest =>
          match depth with
          | 0 => none
          | depth + 1 =>
              (items fuel depth constant (passCommas rest)).map fun (items, rest) =>
                (.list items, rest)
      | .mark '{' :: rest =>
          match depth with
          | 0 => none
          | depth + 1 =>
              match entries fuel depth constant (passCommas rest) with
              | none => none
              | some (fields, rest) => (mark? '}' rest).map (.object fields, ·)
      | _ => none

/-- Read the items of a list and its closing bracket. -/
def items (fuel depth : Nat) (constant : Bool) (tokens : List Token) :
    Option (List Literal × List Token) :=
  match fuel with
  | 0 => none
  | fuel + 1 =>
      match tokens with
      | .mark ']' :: rest => some ([], passCommas rest)
      | _ =>
          match literal fuel depth constant tokens with
          | none => none
          | some (first, rest) =>
              (items fuel depth constant rest).map fun (others, rest) => (first :: others, rest)

/--
Read names, each with a literal after a colon or without one, for as long as
the next token is a name.
-/
def entries (fuel depth : Nat) (constant : Bool) (tokens : List Token) :
    Option (List (String × Option Literal) × List Token) :=
  match fuel with
  | 0 => none
  | fuel + 1 =>
      match name? tokens with
      | none => some ([], tokens)
      | some (name, rest) =>
          match mark? ':' rest with
          | none =>
              (entries fuel depth constant rest).map fun (others, rest) =>
                ((name, none) :: others, rest)
          | some rest =>
              match literal fuel depth constant rest with
              | none => none
              | some (value, rest) =>
                  (entries fuel depth constant rest).map fun (others, rest) =>
                    ((name, some value) :: others, rest)

end

/-- Read arguments in parentheses, of which there must be one, or read nothing. -/
def arguments (fuel depth : Nat) (constant : Bool) (tokens : List Token) :
    Option (List WrittenArgument × List Token) :=
  match mark? '(' tokens with
  | none => some ([], tokens)
  | some rest => do
      let (entries, rest) ← entries fuel depth constant rest
      let rest ← mark? ')' rest
      if entries.isEmpty then none else some (entries, rest)

/-- Read directives for as long as the next token starts one. -/
def directives (fuel depth : Nat) (constant : Bool) (tokens : List Token) :
    Option (List (Directive WrittenArgument) × List Token) :=
  match fuel with
  | 0 => none
  | fuel + 1 =>
      match mark? '@' tokens with
      | none => some ([], tokens)
      | some rest => do
          let (name, rest) ← name? rest
          let (arguments, rest) ← arguments fuel depth constant rest
          let (others, rest) ← directives fuel depth constant rest
          some (⟨name, arguments⟩ :: others, rest)

/-! ## Selections -/

/-- Read the alias of a field, if one follows, whose colon is the very next token. -/
def alternative (tokens : List Token) : Option String × List Token :=
  match tokens with
  | .name text :: .mark ':' :: rest => (some text, passCommas rest)
  | _ => (none, tokens)

/-- Read a type condition. -/
def typeCondition? (tokens : List Token) : Option (String × List Token) :=
  (keyword? "on" tokens).bind name?

mutual

/-- Read a selection set, which holds at least one selection. -/
def selectionSet (fuel depth : Nat) (tokens : List Token) :
    Option (List (Selection WrittenArgument) × List Token) :=
  match fuel, depth with
  | fuel + 1, depth + 1 => do
      let rest ← mark? '{' tokens
      let (read, rest) ← selections fuel depth rest
      let rest ← mark? '}' rest
      if read.isEmpty then none else some (read, rest)
  | _, _ => none

/-- Read selections for as long as the next token starts one. -/
def selections (fuel depth : Nat) (tokens : List Token) :
    Option (List (Selection WrittenArgument) × List Token) :=
  match fuel with
  | 0 => none
  | fuel + 1 =>
      match tokens with
      | .name _ :: _ => do
          let (first, rest) ← field fuel depth tokens
          let (others, rest) ← selections fuel depth rest
          some (first :: others, rest)
      | .spread :: .name text :: rest => do
          let (first, rest) ←
            if text = "on" then
              inline fuel depth (.name text :: rest)
            else
              (directives fuel depth false (passCommas rest)).map fun (directives, rest) =>
                (.spread text directives, rest)
          let (others, rest) ← selections fuel depth rest
          some (first :: others, rest)
      | .spread :: rest => do
          let (first, rest) ← inline fuel depth rest
          let (others, rest) ← selections fuel depth rest
          some (first :: others, rest)
      | _ => some ([], tokens)

/-- Read a field. -/
def field (fuel depth : Nat) (tokens : List Token) :
    Option (Selection WrittenArgument × List Token) :=
  match fuel with
  | 0 => none
  | fuel + 1 => do
      let (alternative, rest) := alternative tokens
      let (name, rest) ← name? rest
      let (arguments, rest) ← arguments fuel depth false rest
      let (directives, rest) ← directives fuel depth false rest
      match mark? '{' rest with
      | none => some (.field alternative name arguments directives none, rest)
      | some _ =>
          let (selections, rest) ← selectionSet fuel depth rest
          some (.field alternative name arguments directives (some selections), rest)

/-- Read selections written in place, after the three dots. -/
def inline (fuel depth : Nat) (tokens : List Token) :
    Option (Selection WrittenArgument × List Token) :=
  match fuel with
  | 0 => none
  | fuel + 1 => do
      let (condition, rest) ←
        match tokens with
        | .name _ :: _ =>
            (typeCondition? tokens).map fun (condition, rest) => (some condition, rest)
        | _ => some (none, tokens)
      let (directives, rest) ← directives fuel depth false rest
      let (selections, rest) ← selectionSet fuel depth rest
      some (.inline condition directives selections, rest)

end

/-! ## Operations and fragments -/

/--
Read a type: a name or a type in brackets, either of them with a mark that
excludes null.  Only its extent matters.
-/
def passType (fuel : Nat) (tokens : List Token) : Option (List Token) :=
  match fuel with
  | 0 => none
  | fuel + 1 => do
      let rest ←
        match mark? '[' tokens with
        | none => (name? tokens).map (·.2)
        | some rest => (passType fuel rest).bind (mark? ']')
      some ((mark? '!' rest).getD rest)

/-- Pass over the default value of a variable or an input, if one follows. -/
def passDefault (fuel depth : Nat) (tokens : List Token) : Option (List Token) :=
  match mark? '=' tokens with
  | none => some tokens
  | some rest => (literal fuel depth true rest).map (·.2)

/-- Pass over constant directives. -/
def passDirectives (fuel depth : Nat) (tokens : List Token) : Option (List Token) :=
  (directives fuel depth true tokens).map (·.2)

/-- Pass over the definitions of variables for as long as one follows. -/
def passVariables (fuel depth : Nat) (tokens : List Token) : Option (List Token) :=
  match fuel with
  | 0 => none
  | fuel + 1 =>
      match mark? '$' tokens with
      | none => some tokens
      | some rest => do
          let (_, rest) ← name? rest
          let rest ← mark? ':' rest
          let rest ← passType fuel rest
          let rest ← passDefault fuel depth rest
          let rest ← passDirectives fuel depth rest
          passVariables fuel depth rest

/-- Pass over variable definitions in parentheses, of which there must be one. -/
def passVariableList (fuel depth : Nat) (tokens : List Token) : Option (List Token) :=
  match mark? '(' tokens with
  | none => some tokens
  | some rest => do
      let _ ← mark? '$' rest
      let rest ← passVariables fuel depth rest
      mark? ')' rest

/-- Read an operation, after the word for its kind. -/
def operation (fuel depth : Nat) (kind : OperationKind) (tokens : List Token) :
    Option (Operation WrittenArgument × List Token) := do
  let (name, rest) :=
    match name? tokens with
    | none => (none, tokens)
    | some (name, rest) => (some name, rest)
  let rest ← passVariableList fuel depth rest
  let (directives, rest) ← directives fuel depth false rest
  let (selections, rest) ← selectionSet fuel depth rest
  some (⟨kind, name, directives, selections⟩, rest)

/-- Read a fragment, after the word for it; it may not be named `on`. -/
def fragment (fuel depth : Nat) (tokens : List Token) :
    Option (Fragment WrittenArgument × List Token) := do
  let (name, rest) ← name? tokens
  if name = "on" then
    none
  let (condition, rest) ← typeCondition? rest
  let (directives, rest) ← directives fuel depth false rest
  let (selections, rest) ← selectionSet fuel depth rest
  some (⟨name, condition, directives, selections⟩, rest)

end Grammar

end QueryGateway.Query
