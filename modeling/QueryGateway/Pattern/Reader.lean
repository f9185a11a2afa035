import QueryGateway.Pattern.Expression
import QueryGateway.Text.Digits
import QueryGateway.Unicode.Property

/-!
# Reading patterns

Reads the text of a pattern into an expression.  Every function takes the
characters still to be read and gives what it read and what remains, or nothing
if the text is no pattern.

Under the verbose flag, blanks and comments are passed over at most places.
Where they may stand, a function takes the flag and passes them over by
`passBlanks`.

Capturing groups are numbered from one in the order of their opening
parentheses.  Names of groups must differ.
-/

namespace QueryGateway.Pattern

namespace Reader

/-- Pass over blanks and comments, from inside a comment or from outside of one. -/
def passComments : Bool → List Char → List Char
  | _, [] => []
  | true, character :: rest => passComments (character != '\n') rest
  | false, character :: rest =>
      if Unicode.isBlank character then passComments false rest
      else if character == '#' then passComments true rest
      else character :: rest

/-- Pass over blanks and comments where the verbose flag is on. -/
def passBlanks (verbose : Bool) (input : List Char) : List Char :=
  if verbose then passComments false input else input

/-- The character that would follow next after blanks, looking just past a comment's mark. -/
def peekBlanks (verbose : Bool) (input : List Char) : Option Char :=
  if verbose then
    match input.dropWhile Unicode.isBlank with
    | '#' :: rest => (rest.dropWhile Unicode.isBlank).head?
    | rest => rest.head?
  else
    input.head?

/-! ## Escapes -/

/-- What an escape stands for. -/
inductive Escape where
  | literal (written : WrittenChar)
  | anchor (anchor : Anchor)
  | letter (name : LetterClass) (negated : Bool)
  | property (query : PropertyQuery) (negated : Bool)
deriving Repr

/-- Has the character a meaning of its own somewhere in a pattern? -/
def isMeta (character : Char) : Bool :=
  ['\\', '.', '+', '*', '?', '(', ')', '|', '[', ']', '\x7b', '\x7d', '^', '$', '#', '&', '-',
   '~'].contains character

/-- May the character be escaped although it need not? -/
def isEscapable (character : Char) : Bool :=
  isMeta character ||
    (character.toNat < 0x80 && !character.isAlphanum && character != '<' && character != '>')

/-- Read a fixed number of hexadecimal digits into a code. -/
def fixedHex (verbose : Bool) : Nat → Nat → List Char → Option (Nat × List Char)
  | 0, code, rest => some (code, rest)
  | count + 1, code, input =>
      match input with
      | [] => none
      | digit :: rest => do
          let value ← Digits.hexValue? digit
          fixedHex verbose count (code * 16 + value) (passBlanks verbose rest)

/--
Read hexadecimal digits and the closing brace into a code; `code` is nothing
before the first digit.
-/
def bracedHex (verbose : Bool) (fuel : Nat) (code : Option Nat) (input : List Char) :
    Option (Nat × List Char) :=
  match fuel, passBlanks verbose input with
  | _, '\x7d' :: rest => code.map (·, passBlanks verbose rest)
  | fuel + 1, digit :: rest => do
      let value ← Digits.hexValue? digit
      bracedHex verbose fuel (some (code.getD 0 * 16 + value)) rest
  | _, _ => none

/-- Read the code of an escape after its letter, which fixes the number of digits. -/
def hexEscape (verbose : Bool) (digits : Nat) (input : List Char) :
    Option (Escape × List Char) :=
  match passBlanks verbose input with
  | '\x7b' :: rest => do
      let (code, rest) ← bracedHex verbose rest.length none rest
      let character ← Digits.scalar? code
      return (.literal ⟨character, false⟩, rest)
  | rest => do
      let (code, rest) ← fixedHex verbose digits 0 rest
      let character ← Digits.scalar? code
      return (.literal ⟨character, digits == 2⟩, rest)

/-- Split a text before the first character that satisfies a condition. -/
def splitAtFirst (condition : Char → Bool) (text : List Char) : Option (List Char × List Char) :=
  match text.dropWhile (!condition ·) with
  | [] => none
  | _ :: rest => some (text.takeWhile (!condition ·), rest)

/-- The query that stands between the braces of a property escape. -/
def propertyQuery (name : List Char) : PropertyQuery :=
  match splitAtFirst (· == ':') name, splitAtFirst (· == '=') name with
  | some (left, right), none => .valued (String.ofList left) (String.ofList right) false
  | left?, some (left, right) =>
      if left.getLast? == some '!' then
        .valued (String.ofList left.dropLast) (String.ofList right) true
      else
        match left? with
        | some (left, right) => .valued (String.ofList left) (String.ofList right) false
        | none => .valued (String.ofList left) (String.ofList right) false
  | none, none => .named (String.ofList name)

/-- Read the name of a property up to the closing brace. -/
def bracedName (verbose : Bool) (fuel : Nat) (input : List Char) :
    Option (List Char × List Char) :=
  match fuel, passBlanks verbose input with
  | _, '\x7d' :: rest => some ([], rest)
  | fuel + 1, character :: rest =>
      (bracedName verbose fuel rest).map fun (name, rest) => (character :: name, rest)
  | _, _ => none

/-- Read a property escape after its letter. -/
def propertyEscape (verbose negated : Bool) (input : List Char) : Option (Escape × List Char) :=
  match passBlanks verbose input with
  | [] => none
  | '\\' :: _ => none
  | '\x7b' :: rest => do
      let (name, rest) ← bracedName verbose rest.length rest
      return (.property (propertyQuery name) negated, rest)
  | character :: rest =>
      some (.property (.named (String.singleton character)) negated, passBlanks verbose rest)

/-- May the character stand in the name of a kind of word boundary? -/
def isBoundaryNamePart (character : Char) : Bool :=
  character.isAlpha || character == '-'

/-- Read the name of a kind of word boundary, up to the closing brace. -/
def boundaryName (verbose : Bool) (fuel : Nat) (input : List Char) :
    Option (List Char × List Char) :=
  match fuel, input with
  | _, '\x7d' :: rest => some ([], rest)
  | fuel + 1, character :: rest =>
      if isBoundaryNamePart character then
        (boundaryName verbose fuel (passBlanks verbose rest)).map fun (name, rest) =>
          (character :: name, rest)
      else
        none
  | _, _ => none

/--
Read what follows the letter of a word boundary.  A brace before a letter or a
hyphen names a kind of boundary; any other brace starts a repetition.
-/
def boundaryEscape (verbose : Bool) (input : List Char) : Option (Escape × List Char) :=
  match input with
  | '\x7b' :: rest =>
      match passBlanks verbose rest with
      | [] => none
      | character :: more =>
          if isBoundaryNamePart character then do
            let (name, rest) ← boundaryName verbose (more.length + 1) (character :: more)
            let kind ←
              match String.ofList name with
              | "start" => some Anchor.wordStart
              | "end" => some Anchor.wordEnd
              | "start-half" => some Anchor.wordStartHalf
              | "end-half" => some Anchor.wordEndHalf
              | _ => none
            return (.anchor kind, rest)
          else
            some (.anchor .wordBoundary, input)
  | _ => some (.anchor .wordBoundary, input)

/-- Read an escape after its backslash. -/
def escape (verbose : Bool) (input : List Char) : Option (Escape × List Char) :=
  match input with
  | [] => none
  | 'x' :: rest => hexEscape verbose 2 rest
  | 'u' :: rest => hexEscape verbose 4 rest
  | 'U' :: rest => hexEscape verbose 8 rest
  | 'p' :: rest => propertyEscape verbose false rest
  | 'P' :: rest => propertyEscape verbose true rest
  | 'd' :: rest => some (.letter .digit false, rest)
  | 'D' :: rest => some (.letter .digit true, rest)
  | 's' :: rest => some (.letter .space false, rest)
  | 'S' :: rest => some (.letter .space true, rest)
  | 'w' :: rest => some (.letter .word false, rest)
  | 'W' :: rest => some (.letter .word true, rest)
  | 'a' :: rest => some (.literal ⟨'\x07', false⟩, rest)
  | 'f' :: rest => some (.literal ⟨'\x0c', false⟩, rest)
  | 't' :: rest => some (.literal ⟨'\t', false⟩, rest)
  | 'n' :: rest => some (.literal ⟨'\n', false⟩, rest)
  | 'r' :: rest => some (.literal ⟨'\r', false⟩, rest)
  | 'v' :: rest => some (.literal ⟨'\x0b', false⟩, rest)
  | 'A' :: rest => some (.anchor .textStart, rest)
  | 'z' :: rest => some (.anchor .textEnd, rest)
  | 'B' :: rest => some (.anchor .noWordBoundary, rest)
  | '<' :: rest => some (.anchor .wordStart, rest)
  | '>' :: rest => some (.anchor .wordEnd, rest)
  | 'b' :: rest => boundaryEscape verbose rest
  | character :: rest =>
      if isEscapable character then some (.literal ⟨character, false⟩, rest) else none

/-- What an escape is outside of brackets. -/
def Escape.expression : Escape → Expression
  | .literal written => .literal written
  | .anchor kind => .anchor kind
  | .letter name negated => .letter name negated
  | .property query negated => .property query negated

/-- What an escape is inside of brackets, where no anchor may stand. -/
def Escape.set? : Escape → Option SetExpression
  | .literal written => some (.literal written)
  | .anchor _ => none
  | .letter name negated => some (.letter name negated)
  | .property query negated => some (.property query negated)

/-! ## Bracketed classes -/

/-- The class of ASCII characters of a name. -/
def asciiClass? (name : String) : Option AsciiClass :=
  match name with
  | "alnum" => some .alnum
  | "alpha" => some .alpha
  | "ascii" => some .ascii
  | "blank" => some .blank
  | "cntrl" => some .cntrl
  | "digit" => some .digit
  | "graph" => some .graph
  | "lower" => some .lower
  | "print" => some .print
  | "punct" => some .punct
  | "space" => some .space
  | "upper" => some .upper
  | "word" => some .word
  | "xdigit" => some .xdigit
  | _ => none

/-- Read a named class after its opening bracket, if that is what follows. -/
def asciiSet? (input : List Char) : Option (SetExpression × List Char) :=
  match input with
  | ':' :: rest =>
      let (negated, rest) :=
        match rest with
        | '^' :: rest => (true, rest)
        | _ => (false, rest)
      match rest.dropWhile (· != ':') with
      | ':' :: ']' :: after => do
          let name ← asciiClass? (String.ofList (rest.takeWhile (· != ':')))
          return (.ascii name negated, after)
      | _ => none
  | _ => none

/-- Read a character or an escape inside brackets. -/
def setItem (verbose : Bool) (input : List Char) : Option (Escape × List Char) :=
  match input with
  | [] => none
  | '\\' :: rest => escape verbose rest
  | character :: rest => some (.literal ⟨character, false⟩, rest)

/--
Read an item or a range.  A hyphen makes a range unless a bracket or another
hyphen comes after it.
-/
def setRange (verbose : Bool) (input : List Char) : Option (SetExpression × List Char) := do
  let (first, rest) ← setItem verbose input
  let rest := passBlanks verbose rest
  match rest with
  | [] => none
  | '-' :: more =>
      if [some ']', some '-'].contains (peekBlanks verbose more) then
        return (← first.set?, rest)
      let (last, rest) ← setItem verbose (passBlanks verbose more)
      match first, last with
      | .literal low, .literal high =>
          if low.character ≤ high.character then some (.range low high, rest) else none
      | _, _ => none
  | _ => return (← first.set?, rest)

/-- Apply a pending operation to what has been read after it. -/
def applyPending (pending : Option (SetOperation × SetExpression)) (items : List SetExpression) :
    SetExpression :=
  match pending with
  | none => .ofItems items
  | some (operation, left) => .operation operation left (.ofItems items)

/-- Read the hyphens at the start of a class, which stand for themselves. -/
def leadingHyphens (verbose : Bool) (fuel : Nat) (input : List Char) :
    List SetExpression × List Char :=
  match fuel, input with
  | fuel + 1, '-' :: rest =>
      let (others, rest) := leadingHyphens verbose fuel (passBlanks verbose rest)
      (.literal ⟨'-', false⟩ :: others, rest)
  | _, _ => ([], input)

mutual

/-- Read a class after its opening bracket. -/
def bracketed (fuel : Nat) (verbose : Bool) (input : List Char) :
    Option (Bool × SetExpression × List Char) :=
  match fuel with
  | 0 => none
  | fuel + 1 =>
      let input := passBlanks verbose input
      let (negated, input) :=
        match input with
        | '^' :: rest => (true, passBlanks verbose rest)
        | _ => (false, input)
      let (hyphens, input) := leadingHyphens verbose input.length input
      let (items, input) : List SetExpression × List Char :=
        match hyphens, input with
        | [], ']' :: rest => ([SetExpression.literal ⟨']', false⟩], passBlanks verbose rest)
        | _, _ => (hyphens, input)
      if input.isEmpty then
        none
      else
        (setItems fuel verbose none items input).map fun (inner, rest) => (negated, inner, rest)

/--
Read the items of a class up to its closing bracket, after a pending operation
and the items read since.
-/
def setItems (fuel : Nat) (verbose : Bool) (pending : Option (SetOperation × SetExpression))
    (items : List SetExpression) (input : List Char) : Option (SetExpression × List Char) :=
  match fuel with
  | 0 => none
  | fuel + 1 =>
      let operate (operation : SetOperation) (rest : List Char) :=
        setItems fuel verbose (some (operation, applyPending pending items)) [] rest
      match passBlanks verbose input with
      | [] => none
      | ']' :: rest => some (applyPending pending items, rest)
      | '&' :: '&' :: rest => operate .intersection rest
      | '-' :: '-' :: rest => operate .difference rest
      | '~' :: '~' :: rest => operate .symmetricDifference rest
      | '[' :: rest =>
          match asciiSet? rest with
          | some (named, rest) => setItems fuel verbose pending (items ++ [named]) rest
          | none =>
              match bracketed fuel verbose rest with
              | none => none
              | some (negated, inner, rest) =>
                  setItems fuel verbose pending (items ++ [.bracketed negated inner]) rest
      | rest =>
          match setRange verbose rest with
          | none => none
          | some (item, rest) => setItems fuel verbose pending (items ++ [item]) rest

end

/-! ## Flags, names and counts -/

/-- The flag of a letter. -/
def flag? (letter : Char) : Option Flag :=
  match letter with
  | 'i' => some .ignoreCase
  | 'm' => some .multiLine
  | 's' => some .dotMatchesAll
  | 'U' => some .swapGreed
  | 'R' => some .carriageReturn
  | 'u' => some .unicode
  | 'x' => some .verbose
  | _ => none

/--
Read flags up to a colon or a closing parenthesis.  No flag may be given twice,
and at least one must follow a hyphen.
-/
def flagChange (change : FlagChange) (negative : Bool) :
    List Char → Option (FlagChange × List Char)
  | [] => none
  | character :: rest =>
      if character == ':' || character == ')' then
        if negative && change.off.isEmpty then none else some (change, character :: rest)
      else if character == '-' then
        if negative then none else flagChange change true rest
      else
        match flag? character with
        | none => none
        | some flag =>
            if (change.on ++ change.off).contains flag then
              none
            else if negative then
              flagChange { change with off := change.off ++ [flag] } true rest
            else
              flagChange { change with on := change.on ++ [flag] } false rest

/-- What a flag change makes of the verbose flag. -/
def FlagChange.verbose (change : FlagChange) (verbose : Bool) : Bool :=
  if change.on.contains .verbose then true
  else if change.off.contains .verbose then false
  else verbose

/-- May the name of a group start with the character? -/
def isNameStart (character : Char) : Bool :=
  character == '_' || Unicode.isAlphabetic character

/-- May the name of a group continue with the character? -/
def isNamePart (character : Char) : Bool :=
  ['_', '.', '[', ']'].contains character || Unicode.isAlphanumeric character

/-- Read the name of a group, up to its closing angle. -/
def groupName (input : List Char) : Option (String × List Char) :=
  match input.takeWhile (· != '>'), input.dropWhile (· != '>') with
  | first :: others, '>' :: rest =>
      if isNameStart first && others.all isNamePart then
        some (String.ofList (first :: others), rest)
      else
        none
  | _, _ => none

/-- Read the digits of a count, between which comments may stand in a verbose pattern. -/
def countDigits (verbose : Bool) (fuel : Nat) (input : List Char) : List Char × List Char :=
  match fuel, input with
  | fuel + 1, digit :: rest =>
      if digit.isDigit then
        let (digits, rest) := countDigits verbose fuel (passBlanks verbose rest)
        (digit :: digits, rest)
      else
        ([], input)
  | _, _ => ([], input)

/-- The greatest count. -/
def greatestCount : Nat := Nat.pow 2 32 - 1

/--
Read a count with the blanks around it.  The result is nothing if there are no
digits, and the reading fails if the count is too large.
-/
def count (verbose : Bool) (input : List Char) : Option (Option Nat × List Char) :=
  let input := input.dropWhile Unicode.isBlank
  let (digits, rest) := countDigits verbose input.length input
  let rest := passBlanks verbose (rest.dropWhile Unicode.isBlank)
  if digits.isEmpty then
    some (none, rest)
  else
    let value := Digits.natural digits
    if value > greatestCount then none else some (some value, rest)

/-- Read the bounds of a counted repetition, after the opening brace and up to the closing one. -/
def bounds (verbose : Bool) (input : List Char) :
    Option ((Nat × Option Nat) × List Char) := do
  let (least?, rest) ← count verbose (passBlanks verbose input)
  let least ← least?
  match rest with
  | '\x7d' :: rest => some ((least, some least), rest)
  | ',' :: rest =>
      match passBlanks verbose rest with
      | '\x7d' :: rest => some ((least, none), rest)
      | rest => do
          let (most?, rest) ← count verbose rest
          let most ← most?
          match rest with
          | '\x7d' :: rest => if least ≤ most then some ((least, some most), rest) else none
          | _ => none
  | _ => none

/-- Read the mark that makes a repetition lazy, if it follows. -/
def laziness (input : List Char) : Bool × List Char :=
  match input with
  | '?' :: rest => (false, rest)
  | _ => (true, input)

/-! ## Expressions -/

/-- The names of the groups met so far, in the order of their numbers. -/
abbrev Groups := List (Option String)

/-- Repeat the item read last, unless there is none that can be repeated. -/
def repeatLast (items : List Expression) (minimum : Nat) (maximum : Option Nat) (greedy : Bool) :
    Option (List Expression) :=
  match items with
  | [] => none
  | .flags _ :: _ => none
  | body :: items => some (.repeated body minimum maximum greedy :: items)

/-- What a group begins with, after its parenthesis. -/
inductive GroupStart where
  | capture (name : Option String)
  | plain (change : FlagChange)
  /-- No group at all, but a change of flags for the rest of the group around it. -/
  | change (change : FlagChange)
deriving Repr

/-- Read what a group begins with.  Groups that look around are not supported. -/
def groupStart (verbose : Bool) (input : List Char) : Option (GroupStart × List Char) :=
  match passBlanks verbose input with
  | '?' :: '=' :: _ => none
  | '?' :: '!' :: _ => none
  | '?' :: '<' :: '=' :: _ => none
  | '?' :: '<' :: '!' :: _ => none
  | '?' :: 'P' :: '<' :: rest =>
      (groupName rest).map fun (name, rest) => (.capture (some name), rest)
  | '?' :: '<' :: rest => (groupName rest).map fun (name, rest) => (.capture (some name), rest)
  | '?' :: rest =>
      match flagChange ⟨[], []⟩ false rest with
      | some (change, ':' :: rest) => some (.plain change, rest)
      | some (change, ')' :: rest) =>
          if change = ⟨[], []⟩ then none else some (.change change, rest)
      | _ => none
  | rest => some (.capture none, rest)

mutual

/-- Read branches up to a closing parenthesis or the end; `verbose` holds at their start. -/
def branches (fuel : Nat) (verbose : Bool) (groups : Groups) (input : List Char) :
    Option (List Expression × Groups × List Char) :=
  match fuel with
  | 0 => none
  | fuel + 1 => do
      let (branch, verbose, groups, rest) ← items fuel verbose groups [] input
      match rest with
      | '|' :: rest =>
          let (others, groups, rest) ← branches fuel verbose groups rest
          some (branch :: others, groups, rest)
      | _ => some ([branch], groups, rest)

/--
Read items up to a bar, a closing parenthesis or the end, after those already
read, of which the last comes first.
-/
def items (fuel : Nat) (verbose : Bool) (groups : Groups) (done : List Expression)
    (input : List Char) : Option (Expression × Bool × Groups × List Char) :=
  match fuel with
  | 0 => none
  | fuel + 1 =>
      let finish (rest : List Char) := some (Expression.ofItems done.reverse, verbose, groups, rest)
      let repeated (minimum : Nat) (maximum : Option Nat) (rest : List Char) := do
        let (greedy, rest) := laziness rest
        let done ← repeatLast done minimum maximum greedy
        items fuel verbose groups done rest
      match passBlanks verbose input with
      | [] => finish []
      | '|' :: rest => finish ('|' :: rest)
      | ')' :: rest => finish (')' :: rest)
      | '?' :: rest => repeated 0 (some 1) rest
      | '*' :: rest => repeated 0 none rest
      | '+' :: rest => repeated 1 none rest
      | '\x7b' :: rest => do
          let ((minimum, maximum), rest) ← bounds verbose rest
          repeated minimum maximum (passBlanks verbose rest)
      | '(' :: rest => do
          let (start, rest) ← groupStart verbose rest
          match start with
          | .change change =>
              items fuel (FlagChange.verbose change verbose) groups (.flags change :: done) rest
          | .plain change =>
              let (body, groups, rest) ← group fuel (FlagChange.verbose change verbose) groups rest
              items fuel verbose groups (.group none change body :: done) rest
          | .capture name =>
              if name.isSome ∧ groups.contains name then
                none
              let number := groups.length + 1
              let (body, groups, rest) ← group fuel verbose (groups ++ [name]) rest
              items fuel verbose groups (.group (some number) ⟨[], []⟩ body :: done) rest
      | '[' :: rest => do
          let (negated, inner, rest) ← bracketed (2 * rest.length + 2) verbose rest
          items fuel verbose groups (.bracketed negated inner :: done) rest
      | '\\' :: rest => do
          let (escaped, rest) ← escape verbose rest
          items fuel verbose groups (escaped.expression :: done) rest
      | '.' :: rest => items fuel verbose groups (.any :: done) rest
      | '^' :: rest => items fuel verbose groups (.anchor .lineStart :: done) rest
      | '$' :: rest => items fuel verbose groups (.anchor .lineEnd :: done) rest
      | character :: rest =>
          items fuel verbose groups (.literal ⟨character, false⟩ :: done) rest

/-- Read the body of a group and its closing parenthesis. -/
def group (fuel : Nat) (verbose : Bool) (groups : Groups) (input : List Char) :
    Option (Expression × Groups × List Char) :=
  match fuel with
  | 0 => none
  | fuel + 1 => do
      let (branches, groups, rest) ← branches fuel verbose groups input
      match rest with
      | ')' :: rest => some (.ofBranches branches, groups, rest)
      | _ => none

end

/-- How deep constructs may nest. -/
def heightLimit : Nat := 250

/-- Read a whole text. -/
def read? (input : List Char) : Option (Expression × Groups) :=
  match branches (4 * input.length + 4) false [] input with
  | some (branches, groups, []) =>
      let expression := Expression.ofBranches branches
      if expression.height ≤ heightLimit then some (expression, groups) else none
  | _ => none

end Reader

end QueryGateway.Pattern
