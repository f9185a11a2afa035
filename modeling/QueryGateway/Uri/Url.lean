import QueryGateway.Uri.Host

/-!
# URLs

A URL in its parts, the reading of URLs and of references relative to another
URL, and the writing of URLs.

Reading is lenient: blanks and control characters around a reference are
dropped, and so are tabs and line ends in it.  Under the common schemes a
backslash counts as a slash, and a missing or surplus slash in front of the
host is put right.  What may not stand in a part is escaped.
-/

namespace QueryGateway.Uri

/-- The path of a URL. -/
inductive Path where
  /-- A path with a slash in front of every segment. -/
  | rooted (segments : List String)
  /-- A text that is no hierarchy. -/
  | rootless (text : String)
deriving DecidableEq, Repr

/-- A URL. -/
structure Url where
  scheme : String
  username : String
  password : String
  /-- The host, which may be an empty name; absent if there is no `//` after the scheme. -/
  host : Option Host
  /-- The port, unless it is the usual one of the scheme. -/
  port : Option Nat
  path : Path
  query : Option String
  fragment : Option String
deriving DecidableEq, Repr

/-! ## Schemes -/

/-- The usual port of a common scheme. -/
def usualPort? (scheme : String) : Option Nat :=
  [("http", 80), ("https", 443), ("ws", 80), ("wss", 443), ("ftp", 21)].lookup scheme

/-- Is it the scheme of files? -/
def isFileScheme (scheme : String) : Bool :=
  scheme == "file"

/-- Is the scheme one of those whose references are put right? -/
def isCommonScheme (scheme : String) : Bool :=
  isFileScheme scheme || (usualPort? scheme).isSome

/-- May a scheme hold the character, after its first letter? -/
def isSchemeRest (character : Char) : Bool :=
  character.isAlphanum || "+-.".toList.contains character

/-- The scheme in front of a colon, in lower case, and what follows the colon. -/
def splitScheme? (text : List Char) : Option (String × List Char) :=
  match text.dropWhile isSchemeRest with
  | ':' :: rest =>
      if (text.head?.any Char.isAlpha) then
        some (String.ofList ((text.takeWhile isSchemeRest).map Char.toLower), rest)
      else
        none
  | _ => none

/-! ## What is kept in the parts -/

/-- Is the character visible ASCII or a space, and not among some others? -/
def isPrintableBut (others : String) (character : Char) : Bool :=
  Host.isPrintable character && !others.toList.contains character

/-- Is the character kept in a fragment? -/
def isFragmentChar : Char → Bool := isPrintableBut " \"<>`"

/-- Is the character kept in a segment of a path? -/
def isSegmentChar : Char → Bool := isPrintableBut " \"<>`#?\x7b\x7d"

/-- Is the character kept in a user name or a password? -/
def isCredentialChar : Char → Bool := isPrintableBut " \"<>`#?\x7b\x7d/:;=@[\\]^|"

/-- Is the character kept in a query?  Under the common schemes an apostrophe is not. -/
def isQueryChar (isCommon : Bool) (character : Char) : Bool :=
  isPrintableBut " \"#<>" character && !(isCommon && character == '\'')

/-! ## Paths -/

/-- Is the segment a full stop, perhaps escaped? -/
def isCurrent (segment : List Char) : Bool :=
  [".", "%2e"].contains (String.ofList (segment.map Char.toLower))

/-- Does the segment consist of two full stops, perhaps escaped? -/
def isParent (segment : List Char) : Bool :=
  ["..", ".%2e", "%2e.", "%2e%2e"].contains (String.ofList (segment.map Char.toLower))

/-- Is the text a letter and one of some characters, as the name of a drive is? -/
def isDrive (marks : List Char) (text : List Char) : Bool :=
  match text with
  | [letter, mark] => letter.isAlpha && marks.contains mark
  | _ => false

/-- Take the last segment away, unless it is the drive of a file. -/
def shorten (isFile : Bool) (segments : List String) : List String :=
  match segments with
  | [drive] => if isFile && isDrive [':'] drive.toList then [drive] else []
  | _ => segments.dropLast

/-- Go from a directory along a segment; `isLast` tells whether no slash follows it. -/
def follow (isFile isLast : Bool) (segments : List String) (segment : List Char) : List String :=
  if isParent segment then
    shorten isFile segments ++ (if isLast then [""] else [])
  else if isCurrent segment then
    segments ++ (if isLast then [""] else [])
  else if isFile && segments.isEmpty && isDrive [':', '|'] segment then
    [String.ofList (segment.take 1 ++ [':'])]
  else
    segments ++ [String.ofList (escape isSegmentChar segment)]

/-- Go from a directory along segments. -/
def followAll (isFile : Bool) (segments : List String) : List (List Char) → List String
  | [] => segments
  | [segment] => follow isFile true segments segment
  | segment :: others => followAll isFile (follow isFile false segments segment) others

/-- Does the character separate segments? -/
def isSlash (isCommon : Bool) (character : Char) : Bool :=
  character == '/' || (isCommon && character == '\\')

/-- Does the character end a path? -/
def endsPath (character : Char) : Bool :=
  character == '?' || character == '#'

/-- The path that leads from a directory along the path at the front of a text. -/
def pathFrom (scheme : String) (segments : List String) (text : List Char) : Path :=
  let isFile := isFileScheme scheme
  let parts := (text.takeWhile (!endsPath ·)).splitOnP (isSlash (isCommonScheme scheme))
  let segments := followAll isFile segments parts
  if isFile then
    let named := segments.dropWhile (·.isEmpty)
    .rooted (if named.isEmpty then [""] else named)
  else
    .rooted segments

/-- The path of a text that begins with a slash, or lacks one that has to be there. -/
def rootedPath (scheme : String) (text : List Char) : Path :=
  match text with
  | first :: rest =>
      pathFrom scheme [] (if isSlash (isCommonScheme scheme) first then rest else text)
  | [] => pathFrom scheme [] []

/-! ## Queries and fragments -/

/-- The query and the fragment behind the path of a text. -/
def tail (scheme : String) (text : List Char) : Option String × Option String :=
  let rest := text.dropWhile (!endsPath ·)
  let query :=
    match rest with
    | '?' :: rest =>
        some (String.ofList
          (escape (isQueryChar (isCommonScheme scheme)) (rest.takeWhile (· != '#'))))
    | _ => none
  let fragment :=
    match rest.dropWhile (· != '#') with
    | '#' :: rest => some (String.ofList (escape isFragmentChar rest))
    | _ => none
  (query, fragment)

/-- Put the query and the fragment of a text behind a path. -/
def Url.withTail (url : Url) (text : List Char) : Url :=
  let (query, fragment) := tail url.scheme text
  { url with query, fragment }

/-! ## Authorities -/

/-- A user name and a password, escaped. -/
def credentials (text : List Char) : String × String :=
  let escaped (text : List Char) := String.ofList (escape isCredentialChar text)
  (escaped (text.takeWhile (· != ':')), escaped ((text.dropWhile (· != ':')).drop 1))

/-- Split a host off, which ends at a colon that is not in brackets. -/
def splitHost (bracketed : Bool) : List Char → List Char × List Char
  | [] => ([], [])
  | character :: rest =>
      if character = ':' && !bracketed then
        ([], character :: rest)
      else
        let bracketed := character == '[' || (bracketed && character != ']')
        let (host, rest) := splitHost bracketed rest
        (character :: host, rest)

/-- Read a port after a colon, and give what follows it. -/
def port (scheme : String) (text : List Char) : Except UrlError (Option Nat × List Char) :=
  let digits := text.takeWhile Char.isDigit
  let rest := text.dropWhile Char.isDigit
  let value := Digits.natural digits
  if value > 65535 || rest.head?.any (· != '\\') then
    .error .invalidPort
  else if digits.isEmpty || usualPort? scheme == some value then
    .ok (none, rest)
  else
    .ok (some value, rest)

/-- The host that a text is under a scheme. -/
def hostOf (scheme : String) (text : List Char) : Except UrlError Host :=
  if isCommonScheme scheme then
    if text.isEmpty then .error .emptyHost else Host.ofDomain text
  else
    Host.ofText text

/-- Read a text after the two slashes behind a scheme. -/
def afterSlashes (scheme : String) (text : List Char) : Except UrlError Url := do
  let isCommon := isCommonScheme scheme
  let isEnd (character : Char) := endsPath character || isSlash isCommon character
  let authority := text.takeWhile (!isEnd ·)
  let rest := text.dropWhile (!isEnd ·)
  let reversed := authority.reverse
  let place := (reversed.takeWhile (· != '@')).reverse
  let before := ((reversed.dropWhile (· != '@')).drop 1).reverse
  let (username, password) := credentials before
  if authority == ['@'] && !rest.isEmpty then
    throw .emptyHost
  let (hostText, portText) := splitHost false place
  let host ← hostOf scheme hostText
  if hostText.isEmpty && !(portText.isEmpty && username.isEmpty && password.isEmpty) then
    throw .emptyHost
  let (port, surplus) ← if portText.isEmpty then .ok (none, []) else port scheme (portText.drop 1)
  let rest := surplus ++ rest
  let path :=
    if !isCommon && (rest.isEmpty || rest.head?.any endsPath) then .rooted []
    else rootedPath scheme rest
  return Url.withTail ⟨scheme, username, password, some host, port, path, none, none⟩ rest

/-! ## Files -/

/-- Read a reference under the scheme of files, which is not relative to anything. -/
def ofFile (scheme : String) (text : List Char) : Except UrlError Url := do
  let isEnd (character : Char) := endsPath character || isSlash true character
  let url : Url := ⟨scheme, "", "", some (.name ""), none, .rooted [], none, none⟩
  match text with
  | first :: second :: rest =>
      if isSlash true first && isSlash true second then
        let hostText := rest.takeWhile (!isEnd ·)
        if hostText.isEmpty || isDrive [':', '|'] hostText then
          return Url.withTail { url with path := rootedPath scheme rest } rest
        else
          let host ← Host.ofDomain hostText
          let host := if host = .name "localhost" then .name "" else host
          let rest := rest.dropWhile (!isEnd ·)
          return Url.withTail { url with host := some host, path := rootedPath scheme rest } rest
      else
        return Url.withTail { url with path := rootedPath scheme text } text
  | _ => return Url.withTail { url with path := rootedPath scheme text } text

/-! ## References -/

/-- Read a reference that is relative to a URL under a common scheme. -/
def relative (base : Url) (text : List Char) : Except UrlError Url :=
  let directory :=
    match base.path with
    | .rooted segments => segments.dropLast
    | .rootless _ => []
  match text with
  | [] => .ok { base with fragment := none }
  | '#' :: _ => .ok { base with fragment := (tail base.scheme text).2 }
  | '?' :: _ => .ok (base.withTail text)
  | first :: rest =>
      if isSlash true first then
        if rest.head?.any (isSlash true) then
          let beyond :=
            if first == '/' && rest.head? == some '/' then rest.drop 1
            else rest.dropWhile (isSlash true)
          afterSlashes base.scheme beyond
        else
          .ok (Url.withTail { base with path := pathFrom base.scheme [] rest } rest)
      else
        .ok (Url.withTail { base with path := pathFrom base.scheme directory text } text)

/-- Read a text after its scheme and the colon. -/
def afterScheme (base : Option Url) (scheme : String) (text : List Char) : Except UrlError Url :=
  if isFileScheme scheme then
    ofFile scheme text
  else if isCommonScheme scheme then
    let slashes := (text.takeWhile (isSlash true)).length
    match base with
    | some base =>
        if slashes < 2 && base.scheme == scheme then relative base text
        else afterSlashes scheme (text.drop slashes)
    | none => afterSlashes scheme (text.drop slashes)
  else
    let url : Url := ⟨scheme, "", "", none, none, .rooted [], none, none⟩
    match text with
    | '/' :: '/' :: rest => afterSlashes scheme rest
    | '/' :: rest => .ok (Url.withTail { url with path := pathFrom scheme [] rest } rest)
    | _ =>
        let kept := escape Host.isPrintable (text.takeWhile (!endsPath ·))
        .ok (Url.withTail { url with path := .rootless (String.ofList kept) } text)

/-- Is the character a space or a control character, which is dropped around a reference? -/
def isSurrounding (character : Char) : Bool :=
  character.toNat ≤ 0x20

/-- Is the character dropped inside a reference? -/
def isBreak (character : Char) : Bool :=
  character == '\t' || character == '\n' || character == '\r'

/-- The characters of a reference that count. -/
def significant (text : String) : List Char :=
  let front := text.toList.dropWhile isSurrounding
  ((front.reverse.dropWhile isSurrounding).reverse).filter (!isBreak ·)

namespace Url

/-- Read a reference, which may be relative to a base. -/
def read (base : Option Url) (text : String) : Except UrlError Url :=
  let characters := significant text
  match splitScheme? characters with
  | some (scheme, rest) => afterScheme base scheme rest
  | none =>
      match base with
      | none => .error .noBase
      | some base =>
          match base.path with
          | .rooted _ => relative base characters
          | .rootless _ =>
              if characters.head? == some '#' then relative base characters
              else .error .noHierarchy

/-- Read a URL. -/
def ofString (text : String) : Except UrlError Url :=
  read none text

/-- Read a reference relative to a URL. -/
def join (base : Url) (reference : String) : Except UrlError Url :=
  read (some base) reference

/-! ## Writing -/

/-- The credentials of a URL and the sign behind them. -/
def shownCredentials (url : Url) : String :=
  let password := if url.password.isEmpty then "" else ":" ++ url.password
  if url.username.isEmpty && url.password.isEmpty then "" else url.username ++ password ++ "@"

/-- The authority of a URL, with the slashes in front of it. -/
def shownAuthority (url : Url) : String :=
  match url.host with
  | none => ""
  | some host =>
      "//" ++ url.shownCredentials ++ host.render ++
        (url.port.map fun port => ":" ++ toString port).getD ""

/--
The path of a URL.  Without an authority, a path that begins with two slashes
has a full stop in front of it, so that it is not taken for an authority.
-/
def shownPath (url : Url) : String :=
  match url.path with
  | .rootless text => text
  | .rooted segments =>
      let looksLikeHost := url.host.isNone && segments.length > 1 && segments.head? == some ""
      let guard := if looksLikeHost then "/." else ""
      guard ++ String.join (segments.map ("/" ++ ·))

/-- A URL as a text. -/
def render (url : Url) : String :=
  url.scheme ++ ":" ++ url.shownAuthority ++ url.shownPath ++
    (url.query.map ("?" ++ ·)).getD "" ++ (url.fragment.map ("#" ++ ·)).getD ""

end Url

end QueryGateway.Uri
