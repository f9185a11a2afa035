import QueryGateway.Message.Headers

/-!
# Media types, read strictly

A media type is a type and a subtype, each a token, and perhaps parameters.  A
text that is none of this form is not a media type at all, however it begins.
What stands behind the last plus sign of a subtype tells its syntax.
-/

namespace QueryGateway.Administration

/-- A media type without its parameters, in lower case. -/
structure MediaType where
  kind : List Char
  subtype : List Char
deriving DecidableEq, Repr

namespace MediaType

/-- May a token hold the character? -/
def isTokenChar (character : Char) : Bool :=
  Message.isNameChar character

/-- May the character stand between quotes? -/
def isQuotedChar (character : Char) : Bool :=
  0x20 ≤ character.toNat && character.toNat ≠ 0x7F

/-- Pass the value of a parameter between quotes; it is not empty. -/
def quotedRest (text : List Char) : Option (List Char) :=
  match text with
  | [] => none
  | first :: rest =>
      let inside := rest.takeWhile fun character => character != '"' && isQuotedChar character
      match rest.drop inside.length with
      | '"' :: rest => if isQuotedChar first then some rest else none
      | _ => none

/--
Pass the value of a parameter, and the semicolon behind it if there is one.
Blanks may stand behind a value in quotes.
-/
def valueRest (text : List Char) : Option (List Char) :=
  match text with
  | '"' :: rest => do
      match (← quotedRest rest).dropWhile (· == ' ') with
      | [] => some []
      | ';' :: rest => some rest
      | _ => none
  | _ =>
      match text.dropWhile isTokenChar with
      | [] => some []
      | ';' :: rest => if (text.takeWhile isTokenChar).isEmpty then none else some rest
      | _ => none

/-- Is the text a list of parameters?  Every parameter takes one of the `fuel`. -/
def areParameters : Nat → List Char → Bool
  | 0, text => text.isEmpty
  | fuel + 1, text =>
      let text := text.dropWhile (· == ' ')
      let name := text.takeWhile isTokenChar
      if text.isEmpty then
        true
      else
        match text.drop name.length with
        | '=' :: rest => !name.isEmpty && (valueRest rest).any (areParameters fuel)
        | _ => false

/-- Read a media type. -/
def ofString? (text : String) : Option MediaType :=
  let kind := text.toList.takeWhile isTokenChar
  match text.toList.drop kind.length with
  | '/' :: rest =>
      let subtype := rest.takeWhile isTokenChar
      let isWhole :=
        match rest.drop subtype.length with
        | [] => !kind.isEmpty
        | ';' :: parameters | ' ' :: parameters =>
            !kind.isEmpty && !subtype.isEmpty && areParameters (parameters.length + 1) parameters
        | _ => false
      if isWhole then some ⟨kind.map Char.toLower, subtype.map Char.toLower⟩ else none
  | _ => none

/-- Is it a media type of JSON, or of a format with its syntax? -/
def isJson (mediaType : MediaType) : Bool :=
  let json := "json".toList
  let reversed := mediaType.subtype.reverse
  let syntaxName := (reversed.takeWhile (· != '+')).reverse
  let format := ((reversed.dropWhile (· != '+')).drop 1).reverse
  mediaType.kind == "application".toList &&
    (mediaType.subtype == json || (!format.isEmpty && (syntaxName == json || format == json)))

end MediaType

end QueryGateway.Administration
