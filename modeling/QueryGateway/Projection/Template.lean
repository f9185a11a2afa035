import QueryGateway.Json.Printer

/-!
# Link templates

The address of a link may hold placeholders: a key in braces, with or without
a dollar sign in front.  A key is any non-empty text without braces.  It names
a member of the node that carries the link, and the placeholder is replaced by
the text of that member, which must be a scalar.

A template is first split, from left to right, into literal characters and
placeholders.  What is inserted for a placeholder is therefore never searched
for placeholders again, and braces that enclose no key are literal.
-/

namespace QueryGateway.Projection.Template

/-- A piece of a template. -/
inductive Piece where
  | literal (character : Char)
  | placeholder (key : List Char)
deriving DecidableEq, Repr

/-- Is the character an opening or a closing brace? -/
def isBrace (character : Char) : Bool :=
  character == '\x7b' || character == '\x7d'

/-- Split off a key in braces. -/
def bracedKey? (text : List Char) : Option (List Char × List Char) :=
  match text with
  | '\x7b' :: rest =>
      let key := rest.takeWhile (!isBrace ·)
      match key, rest.dropWhile (!isBrace ·) with
      | _ :: _, '\x7d' :: rest => some (key, rest)
      | _, _ => none
  | _ => none

/-- Split off a placeholder. -/
def placeholder? (text : List Char) : Option (List Char × List Char) :=
  match text with
  | '$' :: rest => bracedKey? rest
  | _ => bracedKey? text

/-- The pieces of a text; every piece takes one of the `fuel`. -/
def piecesFrom (fuel : Nat) (text : List Char) : List Piece :=
  match fuel, text with
  | 0, _ => []
  | _, [] => []
  | fuel + 1, character :: rest =>
      match placeholder? (character :: rest) with
      | some (key, rest) => .placeholder key :: piecesFrom fuel rest
      | none => .literal character :: piecesFrom fuel rest

/-- The pieces of a template. -/
def pieces (template : List Char) : List Piece :=
  piecesFrom template.length template

/-- Fill in the pieces; the error is the key that has no scalar. -/
def fill (members : List (String × Json.Value)) : List Piece → Except String (List Char)
  | [] => .ok []
  | .literal character :: pieces => do
      return character :: (← fill members pieces)
  | .placeholder key :: pieces =>
      let name := String.ofList key
      match (Json.Members.find? members name).bind (·.scalarText?) with
      | none => .error name
      | some text => do
          return text.toList ++ (← fill members pieces)

/-- Replace every placeholder, or name the first one that has no scalar. -/
def expand (template : String) (members : List (String × Json.Value)) : Except String String := do
  return String.ofList (← fill members (pieces template.toList))

end QueryGateway.Projection.Template
