import QueryGateway.Number.Written
import QueryGateway.Query.Error
import QueryGateway.Query.Syntax

/-!
# The values of arguments

Every literal but a variable denotes a JSON value.  A variable is allowed as
the whole value of an argument, where it stays unbound; inside a list or an
object it is an error, and so are a missing value and a number that is too
large.

Definitions are evaluated from the inside outwards.  Of several errors the one
met first is reported: a field's own selections come before its arguments, and
these before its directives; everywhere else directives come first.
-/

namespace QueryGateway.Query

namespace Literal

/-- The value of a number that is written with a fraction or an exponent. -/
def floatValue (text : String) : Except QueryError Json.Value :=
  match Binary64.ofWritten? text.toList with
  | some value => .ok (.number (.double value))
  | none => .error (.invalidNumber text)

/--
The value of a number that is written as an integer: an integer if it fits the
signed 64-bit range, and a double otherwise.
-/
def integerValue (text : String) : Except QueryError Json.Value :=
  let value : Int :=
    match text.toList with
    | '-' :: digits => -(Digits.natural digits : Int)
    | digits => Digits.natural digits
  if -9223372036854775808 ≤ value ∧ value < 9223372036854775808 then
    .ok (.number (.integer value))
  else
    floatValue text

mutual

/-- The value of a literal that is not the whole value of an argument. -/
def value : Literal → Except QueryError Json.Value
  | .variable name => .error (.nestedVariable name)
  | .int text => integerValue text
  | .float text => floatValue text
  | .string value => .ok (.string value)
  | .boolean value => .ok (.bool value)
  | .null => .ok .null
  | .enum name => .ok (.string name)
  | .list items => do return .array (← values items)
  | .object fields => do return .object (Json.Members.ofEntries (← fieldValues fields))

/-- The values of the items of a list. -/
def values : List Literal → Except QueryError (List Json.Value)
  | [] => .ok []
  | item :: items => do
      let first ← item.value
      return first :: (← values items)

/-- The values of the fields of an object. -/
def fieldValues : List (String × Option Literal) → Except QueryError (List (String × Json.Value))
  | [] => .ok []
  | (_, none) :: _ => .error (.incomplete "object field value")
  | (name, some literal) :: fields => do
      let first ← literal.value
      return (name, first) :: (← fieldValues fields)

end

end Literal

/-- The value of an argument. -/
def evaluateArgument : WrittenArgument → Except QueryError Argument
  | (_, none) => .error (.incomplete "argument value")
  | (name, some (.variable unbound)) => .ok ⟨name, .variable unbound⟩
  | (name, some literal) => do return ⟨name, .literal (← literal.value)⟩

/-- Evaluate the arguments of a directive. -/
def evaluateDirective (directive : Directive WrittenArgument) :
    Except QueryError (Directive Argument) := do
  return ⟨directive.name, ← directive.arguments.mapM evaluateArgument⟩

mutual

/-- Evaluate all arguments within a selection. -/
def evaluateSelection : Selection WrittenArgument → Except QueryError (Selection Argument)
  | .field alternative name arguments directives none => do
      let arguments ← arguments.mapM evaluateArgument
      let directives ← directives.mapM evaluateDirective
      return .field alternative name arguments directives none
  | .field alternative name arguments directives (some selections) => do
      let selections ← evaluateSelections selections
      let arguments ← arguments.mapM evaluateArgument
      let directives ← directives.mapM evaluateDirective
      return .field alternative name arguments directives (some selections)
  | .spread name directives => do
      return .spread name (← directives.mapM evaluateDirective)
  | .inline condition directives selections => do
      let directives ← directives.mapM evaluateDirective
      return .inline condition directives (← evaluateSelections selections)

/-- Evaluate all arguments within a selection set. -/
def evaluateSelections :
    List (Selection WrittenArgument) → Except QueryError (List (Selection Argument))
  | [] => .ok []
  | selection :: selections => do
      let first ← evaluateSelection selection
      return first :: (← evaluateSelections selections)

end

/-- Evaluate all arguments within an operation. -/
def evaluateOperation (operation : Operation WrittenArgument) :
    Except QueryError (Operation Argument) := do
  let directives ← operation.directives.mapM evaluateDirective
  return ⟨operation.kind, operation.name, directives, ← evaluateSelections operation.selections⟩

/-- Evaluate all arguments within a fragment. -/
def evaluateFragment (fragment : Fragment WrittenArgument) :
    Except QueryError (Fragment Argument) := do
  let directives ← fragment.directives.mapM evaluateDirective
  return ⟨fragment.name, fragment.condition, directives,
    ← evaluateSelections fragment.selections⟩

/-- Evaluate definitions in their order, and sort them by what they define. -/
def evaluateDefinitions : List (Definition WrittenArgument) → Except QueryError Document
  | [] => .ok ⟨[], []⟩
  | .operation operation :: definitions => do
      let operation ← evaluateOperation operation
      let document ← evaluateDefinitions definitions
      return { document with operations := operation :: document.operations }
  | .fragment fragment :: definitions => do
      let fragment ← evaluateFragment fragment
      let document ← evaluateDefinitions definitions
      return { document with fragments := fragment :: document.fragments }

end QueryGateway.Query
