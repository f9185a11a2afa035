import QueryGateway.Json.Parser

/-!
# Tokens of a query text

A query text is a sequence of tokens, between which blanks, line ends, byte
order marks and comments may stand.  Commas separate nothing, but they are
kept as tokens, because a reader that looks one token ahead does see them.

The token of a string holds its value: escapes are resolved, and a block
string has lost its common indentation.  A number is kept as written.
-/

namespace QueryGateway.Query

/-- A token. -/
inductive Token where
  | name (text : String)
  | int (text : String)
  | float (text : String)
  | string (value : String)
  /-- Three dots. -/
  | spread
  | comma
  /-- Any other punctuation mark. -/
  | mark (character : Char)
deriving DecidableEq, Repr

namespace Token

/-- Does the character end a line? -/
def isLineEnd (character : Char) : Bool :=
  character == '\n' || character == '\r'

/-- May the character stand between two tokens? -/
def isBlank (character : Char) : Bool :=
  character == ' ' || character == '\t' || isLineEnd character || character == '\uFEFF'

/-- May a name start with the character? -/
def isNameStart (character : Char) : Bool :=
  character.isAlpha || character == '_'

/-- May a name continue with the character? -/
def isNamePart (character : Char) : Bool :=
  character.isAlphanum || character == '_'

/-- Is the character a punctuation mark of its own? -/
def isMark (character : Char) : Bool :=
  ['!', '$', '&', '(', ')', ':', '=', '@', '[', ']', '{', '|', '}'].contains character

/-! ## Numbers -/

/-- May no number end before the character? -/
def extendsNumber (character : Char) : Bool :=
  character.isDigit || character == '.' || isNameStart character

/-- Split off one or more digits. -/
def digits? (input : List Char) : Option (List Char × List Char) :=
  let digits := input.takeWhile Char.isDigit
  if digits.isEmpty then none else some (digits, input.dropWhile Char.isDigit)

/-- Split off the digits of an integer, which has no needless zero in front. -/
def wholeDigits? (input : List Char) : Option (List Char × List Char) :=
  match input with
  | '0' :: rest => some (['0'], rest)
  | _ => digits? input

/-- Split off a fraction, if one follows; a point needs a digit after it. -/
def fraction? (input : List Char) : Option (List Char × List Char) :=
  match input with
  | '.' :: rest => (digits? rest).map fun (digits, rest) => ('.' :: digits, rest)
  | _ => some ([], input)

/-- Split off an exponent, if one follows; it needs a digit. -/
def exponent? (input : List Char) : Option (List Char × List Char) :=
  match input with
  | letter :: rest =>
      if letter == 'e' || letter == 'E' then
        let (sign, rest) :=
          match rest with
          | '+' :: rest => (['+'], rest)
          | '-' :: rest => (['-'], rest)
          | _ => ([], rest)
        (digits? rest).map fun (digits, rest) => (letter :: (sign ++ digits), rest)
      else
        some ([], input)
  | [] => some ([], [])

/-- Read a number; what follows it must not look like a part of it. -/
def number? (input : List Char) : Option (Token × List Char) := do
  let (sign, input) :=
    match input with
    | '-' :: rest => (['-'], rest)
    | _ => ([], input)
  let (whole, rest) ← wholeDigits? input
  let (fraction, rest) ← fraction? rest
  let (exponent, rest) ← exponent? rest
  let text := String.ofList (sign ++ whole ++ fraction ++ exponent)
  if (rest.head?.map extendsNumber).getD false then
    none
  else if fraction.isEmpty && exponent.isEmpty then
    return (.int text, rest)
  else
    return (.float text, rest)

/-! ## Strings -/

mutual

/-- The rest of a string on one line, after its opening quote. -/
def quotedRest : List Char → Option (List Char × List Char)
  | [] => none
  | '"' :: rest => some ([], rest)
  | '\\' :: 'u' :: '{' :: rest => bracedRest none rest
  | '\\' :: 'u' :: a :: b :: c :: d :: rest =>
      match Json.Parser.hexUnit? a b c d with
      | none => none
      | some unit =>
          if Json.Parser.isHighSurrogate unit then
            match rest with
            | '\\' :: 'u' :: e :: f :: g :: h :: rest =>
                match Json.Parser.hexUnit? e f g h with
                | none => none
                | some low =>
                    if Json.Parser.isLowSurrogate low then
                      (quotedRest rest).map fun (text, rest) =>
                        (Json.Parser.joinSurrogates unit low :: text, rest)
                    else
                      none
            | _ => none
          else if Json.Parser.isLowSurrogate unit then
            none
          else
            (quotedRest rest).map fun (text, rest) => (Char.ofNat unit :: text, rest)
  | '\\' :: letter :: rest =>
      match Json.Parser.shortEscape? letter with
      | none => none
      | some character => (quotedRest rest).map fun (text, rest) => (character :: text, rest)
  | character :: rest =>
      if isLineEnd character || character == '\\' then
        none
      else
        (quotedRest rest).map fun (text, rest) => (character :: text, rest)

/-- The rest of a string from inside a braced code, of which `code` was read. -/
def bracedRest (code : Option Nat) : List Char → Option (List Char × List Char)
  | [] => none
  | '}' :: rest =>
      match code.bind Digits.scalar? with
      | none => none
      | some character => (quotedRest rest).map fun (text, rest) => (character :: text, rest)
  | digit :: rest =>
      match Digits.hexValue? digit with
      | none => none
      | some value => bracedRest (some (code.getD 0 * 16 + value)) rest

end

/-- The rest of a block string, after its three opening quotes. -/
def blockRest : List Char → Option (List Char × List Char)
  | [] => none
  | '"' :: '"' :: '"' :: rest => some ([], rest)
  | '\\' :: '"' :: '"' :: '"' :: rest =>
      (blockRest rest).map fun (text, rest) => ('"' :: '"' :: '"' :: text, rest)
  | character :: rest => (blockRest rest).map fun (text, rest) => (character :: text, rest)

/-- The lines of a text: at least one, without their ends. -/
def linesOf : List Char → List (List Char)
  | [] => [[]]
  | '\r' :: '\n' :: rest => [] :: linesOf rest
  | character :: rest =>
      if isLineEnd character then
        [] :: linesOf rest
      else
        match linesOf rest with
        | [] => [[character]]
        | line :: lines => (character :: line) :: lines

/-- Does the character indent a line? -/
def isIndent (character : Char) : Bool :=
  character == ' ' || character == '\t'

/-- Does a line hold indentation only? -/
def isBlankLine (line : List Char) : Bool :=
  line.all isIndent

/-- The indentation that all lines that are not blank have in common. -/
def commonIndent (lines : List (List Char)) : Nat :=
  ((lines.filter (!isBlankLine ·)).map (·.takeWhile isIndent |>.length)).min?.getD 0

/--
The value of a block string: the common indentation of all lines but the first
is removed, and so are the blank lines at the start and at the end.
-/
def dedent (text : List Char) : List Char :=
  match linesOf text with
  | [] => []
  | first :: others =>
      let indent := commonIndent others
      let lines := first :: others.map (·.drop indent)
      let lines := lines.dropWhile isBlankLine
      let lines := (lines.reverse.dropWhile isBlankLine).reverse
      ['\n'].intercalate lines

/-- Read a string, after its first quote. -/
def string? (input : List Char) : Option (Token × List Char) :=
  match input with
  | '"' :: '"' :: rest =>
      (blockRest rest).map fun (text, rest) => (.string (String.ofList (dedent text)), rest)
  | _ => (quotedRest input).map fun (text, rest) => (.string (String.ofList text), rest)

/-! ## Texts -/

/-- Read the token that starts with the given character. -/
def next? (character : Char) (rest : List Char) : Option (Token × List Char) :=
  if isNameStart character then
    some (.name (String.ofList (character :: rest.takeWhile isNamePart)),
      rest.dropWhile isNamePart)
  else if character == ',' then
    some (.comma, rest)
  else if isMark character then
    some (.mark character, rest)
  else if character == '"' then
    string? rest
  else if character == '.' then
    match rest with
    | '.' :: '.' :: rest => some (.spread, rest)
    | _ => none
  else if character == '-' || character.isDigit then
    number? (character :: rest)
  else
    none

/-- The tokens of a text; every token takes at least one of the `fuel`. -/
def listFrom (fuel : Nat) (input : List Char) : Option (List Token) :=
  match fuel, input with
  | _, [] => some []
  | 0, _ => none
  | fuel + 1, character :: rest =>
      if isBlank character then
        listFrom fuel rest
      else if character == '#' then
        listFrom fuel (rest.dropWhile (!isLineEnd ·))
      else
        match next? character rest with
        | none => none
        | some (token, rest) => (listFrom fuel rest).map (token :: ·)

/-- The tokens of a text, unless some part of it is none. -/
def list? (input : List Char) : Option (List Token) :=
  listFrom input.length input

end Token

end QueryGateway.Query
