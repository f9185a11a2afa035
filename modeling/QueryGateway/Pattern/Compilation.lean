import QueryGateway.Pattern.Machine
import QueryGateway.Pattern.Reader

/-!
# Compiling patterns

Gives every expression the node it stands for under the flags in force.  A
change of flags holds to the end of the group around it, across bars.

Not everything that can be read can be compiled: a property may be unknown, a
class may need Unicode where it is turned off, and the whole may be too large.
-/

namespace QueryGateway.Pattern

/-- The flags in force. -/
structure Flags where
  ignoreCase : Bool
  multiLine : Bool
  dotMatchesAll : Bool
  swapGreed : Bool
  carriageReturn : Bool
  unicode : Bool
deriving DecidableEq, Repr

namespace Flags

/-- The flags at the start of a pattern. -/
def initial : Flags :=
  ⟨false, false, false, false, false, true⟩

/-- Turn one flag on or off. -/
def set (flags : Flags) (flag : Flag) (value : Bool) : Flags :=
  match flag with
  | .ignoreCase => { flags with ignoreCase := value }
  | .multiLine => { flags with multiLine := value }
  | .dotMatchesAll => { flags with dotMatchesAll := value }
  | .swapGreed => { flags with swapGreed := value }
  | .carriageReturn => { flags with carriageReturn := value }
  | .unicode => { flags with unicode := value }
  | .verbose => flags

/-- Apply a change. -/
def apply (flags : Flags) (change : FlagChange) : Flags :=
  let flags := change.on.foldl (fun flags flag => flags.set flag true) flags
  change.off.foldl (fun flags flag => flags.set flag false) flags

end Flags

/-- The character of a literal; a byte beyond ASCII is none. -/
def WrittenChar.char? (flags : Flags) (written : WrittenChar) : Option Char :=
  if !flags.unicode && written.octet && written.character.toNat ≥ 0x80 then
    none
  else
    some written.character

/-- The character of a literal inside brackets, which is ASCII where Unicode is turned off. -/
def WrittenChar.member? (flags : Flags) (written : WrittenChar) : Option Char :=
  if !flags.unicode && written.character.toNat ≥ 0x80 then none else some written.character

/-- Add the case variants to a set if case is ignored, and then negate it if asked to. -/
def foldAndNegate (flags : Flags) (negated : Bool) (set : CharSet) : CharSet :=
  let set := if flags.ignoreCase then .folded flags.unicode set else set
  if negated then .complement set else set

/-- The class of a letter; where Unicode is turned off, its complement is not a class. -/
def letterSet? (flags : Flags) (name : LetterClass) (negated : Bool) : Option CharSet :=
  if negated then
    if flags.unicode then some (.complement (.ofLetter true name)) else none
  else
    some (.ofLetter flags.unicode name)

/-- The set of a property, which needs Unicode. -/
def propertySet? (flags : Flags) (query : PropertyQuery) (negated : Bool) : Option CharSet :=
  if flags.unicode then
    (CharSet.ofQuery? query).map (foldAndNegate flags negated)
  else
    none

/-- The set that an operation makes of two sets. -/
def SetOperation.apply (operation : SetOperation) (left right : CharSet) : CharSet :=
  match operation with
  | .intersection => .intersection left right
  | .difference => .intersection left (.complement right)
  | .symmetricDifference =>
      .union (.intersection left (.complement right)) (.intersection right (.complement left))

namespace SetExpression

mutual

/-- The set that stands inside brackets. -/
def compile (flags : Flags) : SetExpression → Option CharSet
  | .empty => some .empty
  | .literal written => (written.member? flags).map .single
  | .range low high => do
      let low ← low.member? flags
      let high ← high.member? flags
      return .range low high
  | .ascii name negated => some (foldAndNegate flags negated (.ofAsciiClass name))
  | .letter name negated => letterSet? flags name negated
  | .property query negated => propertySet? flags query negated
  | .bracketed negated inner => (inner.compile flags).map (foldAndNegate flags negated)
  | .union items => (compileAll flags items).map .unions
  | .operation kind left right => do
      let left ← left.compile flags
      let right ← right.compile flags
      return kind.apply (foldAndNegate flags false left) (foldAndNegate flags false right)

/-- The sets of some items. -/
def compileAll (flags : Flags) : List SetExpression → Option (List CharSet)
  | [] => some []
  | item :: items => do
      let set ← item.compile flags
      return set :: (← compileAll flags items)

end

end SetExpression

/-- The condition of an anchor. -/
def Anchor.condition (flags : Flags) (anchor : Anchor) : Condition :=
  match anchor with
  | .lineStart => if flags.multiLine then .lineStart flags.carriageReturn else .textStart
  | .lineEnd => if flags.multiLine then .lineEnd flags.carriageReturn else .textEnd
  | .textStart => .textStart
  | .textEnd => .textEnd
  | .wordBoundary => .boundary flags.unicode
  | .noWordBoundary => .noBoundary flags.unicode
  | .wordStart => .word flags.unicode (some false) (some true)
  | .wordEnd => .word flags.unicode (some true) (some false)
  | .wordStartHalf => .word flags.unicode (some false) none
  | .wordEndHalf => .word flags.unicode none (some false)

/-- The set of the dot, which needs Unicode. -/
def dotSet? (flags : Flags) : Option CharSet :=
  if !flags.unicode then none
  else if flags.dotMatchesAll then some .full
  else if flags.carriageReturn then some (.complement (.union (.single '\n') (.single '\r')))
  else some (.complement (.single '\n'))

/-- The set of a literal character. -/
def literalSet (flags : Flags) (character : Char) : CharSet :=
  if flags.ignoreCase then .folded flags.unicode (.single character) else .single character

/-- A node captured under the number of a group. -/
def captured (number : Nat) (body : Node) : Node :=
  .sequence (.mark (2 * number)) (.sequence body (.mark (2 * number + 1)))

namespace Expression

mutual

/-- The node of an expression, and the flags in force after it. -/
def compile (flags : Flags) : Expression → Option (Node × Flags)
  | .empty => some (.empty, flags)
  | .flags change => some (.empty, flags.apply change)
  | .literal written => do
      return (.oneOf (literalSet flags (← written.char? flags)), flags)
  | .any => (dotSet? flags).map (.oneOf ·, flags)
  | .anchor kind => some (.assert (kind.condition flags), flags)
  | .letter name negated => (letterSet? flags name negated).map (.oneOf ·, flags)
  | .property query negated => (propertySet? flags query negated).map (.oneOf ·, flags)
  | .bracketed negated inner => do
      let set := foldAndNegate flags negated (← inner.compile flags)
      if !flags.unicode && !set.isAscii then none else some (.oneOf set, flags)
  | .repeated body minimum maximum greedy => do
      let (node, inner) ← body.compile flags
      return (node.repeated minimum maximum (greedy != flags.swapGreed), inner)
  | .group number change body => do
      let (node, _) ← body.compile (flags.apply change)
      match number with
      | none => some (node, flags)
      | some number => some (captured number node, flags)
  | .either branches => compileBranches flags branches
  | .sequence items => compileItems flags items

/-- The node of some branches. -/
def compileBranches (flags : Flags) : List Expression → Option (Node × Flags)
  | [] => some (.empty, flags)
  | [branch] => branch.compile flags
  | branch :: branches => do
      let (first, flags) ← branch.compile flags
      let (others, flags) ← compileBranches flags branches
      return (.either first others, flags)

/-- The node of some items in a row. -/
def compileItems (flags : Flags) : List Expression → Option (Node × Flags)
  | [] => some (.empty, flags)
  | [item] => item.compile flags
  | item :: items => do
      let (first, flags) ← item.compile flags
      let (others, flags) ← compileItems flags items
      return (.sequence first others, flags)

end

end Expression

/-- A pattern: how it is matched, and the names of its groups in the order of their numbers. -/
structure Regex where
  program : Program
  groups : Reader.Groups
deriving DecidableEq, Repr

/-- How many bytes a table of the states may take up. -/
def weightLimit : Nat := 10 * Nat.pow 2 20

/-- Compile the text of a pattern. -/
def Regex.ofString? (text : String) : Option Regex := do
  let (expression, groups) ← Reader.read? text.toList
  let (body, _) ← expression.compile .initial
  let root := captured 0 body
  if root.weight ≤ weightLimit then
    some ⟨⟨root, 2 * (groups.length + 1)⟩, groups⟩
  else
    none

/-- A match: the text it was found in, and where its groups begin and end. -/
structure Match where
  text : List Char
  marks : Marks
  groups : Reader.Groups
deriving Repr

/-- The preferred match within a text. -/
def Regex.search (regex : Regex) (text : String) : Option Match :=
  (regex.program.search text.toList).map (⟨text.toList, ·, regex.groups⟩)

/-- The text of a group, if the group took part in the match; the whole match is group zero. -/
def Match.group? (found : Match) (number : Nat) : Option (List Char) := do
  let start ← (← found.marks[2 * number]?)
  let stop ← (← found.marks[2 * number + 1]?)
  return (found.text.drop start).take (stop - start)

/-- The text of a group that has a name. -/
def Match.named? (found : Match) (name : String) : Option (List Char) := do
  let index ← found.groups.findIdx? (· == some name)
  found.group? (index + 1)

end QueryGateway.Pattern
