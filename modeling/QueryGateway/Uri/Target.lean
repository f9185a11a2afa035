/-!
# Request targets

A target says what a request asks for: a path with or without a query, an
absolute address, or an authority alone.  Nothing in a target is decoded or
encoded; a fragment is dropped.

Targets are read leniently inside paths and queries, where a few characters
that ought to be escaped are let through, and strictly inside authorities.
-/

namespace QueryGateway.Uri

/-- A target. -/
structure Target where
  scheme : Option String
  authority : Option String
  /-- The path as it is written, which may be empty in an absolute address. -/
  path : String
  query : Option String
deriving DecidableEq, Repr

namespace Target

/-- The path and the query as they are written. -/
def written (target : Target) : String :=
  target.path ++ (target.query.map ("?" ++ ·)).getD ""

/-- The path and the query to ask for. -/
def pathAndQuery (target : Target) : String :=
  if target.written.isEmpty then "/" else target.written

/-- The path to ask for, which is empty only where the target is an authority alone. -/
def shownPath (target : Target) : String :=
  if !target.path.isEmpty then target.path
  else if target.scheme.isSome || target.query.isSome then "/"
  else ""

/-- The target as an address. -/
def render (target : Target) : String :=
  (target.scheme.map (· ++ "://")).getD "" ++ target.authority.getD "" ++ target.shownPath ++
    (target.query.map ("?" ++ ·)).getD ""

/-! ## Authorities -/

/-- Does the character end an authority? -/
def endsAuthority (character : Char) : Bool :=
  character == '/' || character == '?' || character == '#'

/-- May an authority hold the character without further conditions? -/
def isAuthorityChar (character : Char) : Bool :=
  character.isAlphanum || "!$&'()*+,-.;=_~".toList.contains character

/-- What has been seen of an authority. -/
structure AuthorityScan where
  /-- The colons since the last `@` or closing bracket. -/
  colons : Nat
  opened : Bool
  closed : Bool
  /-- Has there been a percent sign since the last `@` or closing bracket? -/
  percent : Bool
  endsInAt : Bool
deriving Repr

/-- The greatest number of colons in a row of characters without `@` and brackets. -/
def greatestColons : Nat := 8

/-- Take one more character of an authority, if it may stand there. -/
def AuthorityScan.step (scan : AuthorityScan) (character : Char) : Option AuthorityScan :=
  let scan := { scan with endsInAt := false }
  match character with
  | ':' =>
      if scan.colons < greatestColons then some { scan with colons := scan.colons + 1 } else none
  | '[' => if scan.percent || scan.opened then none else some { scan with opened := true }
  | ']' =>
      if !scan.opened || scan.closed then none
      else some { scan with closed := true, colons := 0, percent := false }
  | '@' => some { scan with endsInAt := true, colons := 0, percent := false }
  | '%' => some { scan with percent := true }
  | other => if isAuthorityChar other then some scan else none

/--
Is the text an authority?  Percent signs are for the part before `@` and for
brackets; after them there is at most one colon, and something follows an `@`.
-/
def isAuthority (text : List Char) : Bool :=
  match text.foldlM AuthorityScan.step ⟨0, false, false, false, false⟩ with
  | none => false
  | some scan => scan.opened == scan.closed && scan.colons ≤ 1 && !scan.percent && !scan.endsInAt

/-! ## Paths and queries -/

/-- May a path hold the character? -/
def isPathChar (character : Char) : Bool :=
  character.toNat > 0x20 && !"#<>?`".toList.contains character

/-- May a query hold the character? -/
def isQueryChar (character : Char) : Bool :=
  character.toNat > 0x20 && !"\"#<>".toList.contains character

/-- Read a path and perhaps a query; a fragment is dropped. -/
def pathAndQuery? (text : List Char) : Option (String × Option String) :=
  let text := text.takeWhile (· != '#')
  let path := text.takeWhile (· != '?')
  let query := text.dropWhile (· != '?')
  if path.all isPathChar && (query.drop 1).all isQueryChar then
    some (String.ofList path, if query.isEmpty then none else some (String.ofList (query.drop 1)))
  else
    none

/-! ## Schemes -/

/-- May a scheme hold the character? -/
def isSchemeChar (character : Char) : Bool :=
  character.isAlphanum || "+-.~".toList.contains character

/-- The scheme in front of `://`, and what follows these characters. -/
def splitScheme? (text : List Char) : Option (List Char × List Char) :=
  match text.dropWhile isSchemeChar with
  | ':' :: '/' :: '/' :: rest => some (text.takeWhile isSchemeChar, rest)
  | _ => none

/-- A scheme as it is shown: the two common ones in lower case, any other one as written. -/
def shownScheme (scheme : List Char) : String :=
  let lower := String.ofList (scheme.map Char.toLower)
  if lower = "http" || lower = "https" then lower else String.ofList scheme

/-- The greatest length of a scheme. -/
def longestScheme : Nat := 64

/-- The greatest length of a target in bytes. -/
def longestTarget : Nat := 65534

/-- Read an authority that is the whole target. -/
def authorityAlone? (text : List Char) : Option Target :=
  if !text.isEmpty && isAuthority text then
    some ⟨none, some (String.ofList text), "", none⟩
  else
    none

/-- Read an absolute address after its scheme. -/
def absolute? (scheme rest : List Char) : Option Target := do
  let authority := rest.takeWhile (!endsAuthority ·)
  if scheme.length > longestScheme || authority.isEmpty || !isAuthority authority then
    none
  else
    let (path, query) ← pathAndQuery? (rest.dropWhile (!endsAuthority ·))
    return ⟨some (shownScheme scheme), some (String.ofList authority), path, query⟩

/-- Read a target. -/
def ofString? (text : String) : Option Target :=
  if text.utf8ByteSize > longestTarget then
    none
  else
    match text.toList with
    | ['*'] => some ⟨none, none, "*", none⟩
    | '/' :: rest =>
        (pathAndQuery? ('/' :: rest)).map fun (path, query) => ⟨none, none, path, query⟩
    | characters =>
        match splitScheme? characters with
        | some (scheme, rest) => absolute? scheme rest
        | none => authorityAlone? characters

end Target

end QueryGateway.Uri
