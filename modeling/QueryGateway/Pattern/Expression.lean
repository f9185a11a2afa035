/-!
# Pattern expressions

The tree that a pattern text is read into.  It keeps what is written, flags
included; what an expression matches depends on the flags in force where it
stands.

`height` measures how deep constructs are nested.  Texts that nest too deep are
refused.
-/

namespace QueryGateway.Pattern

/-- The flags of a pattern, in the order of their letters `imsURux`. -/
inductive Flag where
  | ignoreCase
  /-- `^` and `$` match at every line. -/
  | multiLine
  /-- The dot matches line ends too. -/
  | dotMatchesAll
  /-- Repetitions are lazy unless they are marked. -/
  | swapGreed
  /-- A carriage return ends a line too. -/
  | carriageReturn
  | unicode
  /-- Blanks and comments may stand in the pattern. -/
  | verbose
deriving DecidableEq, Repr

/-- Flags to be turned on and flags to be turned off. -/
structure FlagChange where
  on : List Flag
  off : List Flag
deriving DecidableEq, Repr

/-- Conditions on the place between two characters. -/
inductive Anchor where
  | lineStart
  | lineEnd
  | textStart
  | textEnd
  | wordBoundary
  | noWordBoundary
  | wordStart
  | wordEnd
  | wordStartHalf
  | wordEndHalf
deriving DecidableEq, Repr

/-- The classes that have a letter. -/
inductive LetterClass where
  | digit
  | space
  | word
deriving DecidableEq, Repr

/-- The classes of ASCII characters that have a name. -/
inductive AsciiClass where
  | alnum
  | alpha
  | ascii
  | blank
  | cntrl
  | digit
  | graph
  | lower
  | print
  | punct
  | space
  | upper
  | word
  | xdigit
deriving DecidableEq, Repr

/-- How a property of characters is asked for. -/
inductive PropertyQuery where
  | named (name : String)
  | valued (name value : String) (negated : Bool)
deriving DecidableEq, Repr

/-- The operations on character classes. -/
inductive SetOperation where
  | intersection
  | difference
  | symmetricDifference
deriving DecidableEq, Repr

/--
A character as written; `octet` tells that it was written by two hexadecimal
digits, which mean a byte where Unicode is turned off.
-/
structure WrittenChar where
  character : Char
  octet : Bool
deriving DecidableEq, Repr

/-- What stands inside the brackets of a class. -/
inductive SetExpression where
  | empty
  | literal (written : WrittenChar)
  | range (low high : WrittenChar)
  | ascii (name : AsciiClass) (negated : Bool)
  | letter (name : LetterClass) (negated : Bool)
  | property (query : PropertyQuery) (negated : Bool)
  | bracketed (negated : Bool) (inner : SetExpression)
  | union (items : List SetExpression)
  | operation (operation : SetOperation) (left right : SetExpression)
deriving Repr, Inhabited

/-- A pattern as written. -/
inductive Expression where
  | empty
  | flags (change : FlagChange)
  | literal (written : WrittenChar)
  /-- The dot. -/
  | any
  | anchor (anchor : Anchor)
  | letter (name : LetterClass) (negated : Bool)
  | property (query : PropertyQuery) (negated : Bool)
  | bracketed (negated : Bool) (inner : SetExpression)
  | repeated (body : Expression) (minimum : Nat) (maximum : Option Nat) (greedy : Bool)
  /-- A group, with its number if it is captured. -/
  | group (number : Option Nat) (change : FlagChange) (body : Expression)
  | either (branches : List Expression)
  | sequence (items : List Expression)
deriving Repr, Inhabited

namespace SetExpression

/-- The set that some items make up together. -/
def ofItems : List SetExpression → SetExpression
  | [] => .empty
  | [item] => item
  | items => .union items

mutual

/-- How deep brackets, unions and operations are nested. -/
def height : SetExpression → Nat
  | .bracketed _ inner => inner.height + 1
  | .union items => heights items + 1
  | .operation _ left right => max left.height right.height + 1
  | _ => 0

/-- The greatest height among some sets. -/
def heights : List SetExpression → Nat
  | [] => 0
  | item :: items => max item.height (heights items)

end

end SetExpression

namespace Expression

/-- The expression that some items in a row make up. -/
def ofItems : List Expression → Expression
  | [] => .empty
  | [item] => item
  | items => .sequence items

/-- The expression that some branches make up. -/
def ofBranches : List Expression → Expression
  | [] => .empty
  | [branch] => branch
  | branches => .either branches

mutual

/-- How deep constructs are nested. -/
def height : Expression → Nat
  | .bracketed _ inner => inner.height + 1
  | .repeated body _ _ _ => body.height + 1
  | .group _ _ body => body.height + 1
  | .either branches => heights branches + 1
  | .sequence items => heights items + 1
  | _ => 0

/-- The greatest height among some expressions. -/
def heights : List Expression → Nat
  | [] => 0
  | item :: items => max item.height (heights items)

end

end Expression

end QueryGateway.Pattern
