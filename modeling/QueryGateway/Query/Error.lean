/-!
# What can be wrong with a query text

The reasons for which a query text is refused, and how each is told to whoever
sent it.
-/

namespace QueryGateway.Query

/-- Why a query text is refused. -/
inductive QueryError where
  /-- The text does not follow the grammar. -/
  | malformed (detail : String)
  /-- An argument or a field of an object has no value. -/
  | incomplete (missing : String)
  /-- A variable stands inside a list or an object. -/
  | nestedVariable (name : String)
  /-- A number is too large to be finite. -/
  | invalidNumber (text : String)
  /-- A fragment contains itself through spreads. -/
  | fragmentCycle (name : String)
deriving DecidableEq, Repr

/-- The error in words. -/
def QueryError.message : QueryError → String
  | .malformed detail => "syntax error(s): " ++ detail
  | .incomplete missing => "incomplete query: missing " ++ missing
  | .nestedVariable name => "variable $" ++ name ++ " cannot be nested inside a literal"
  | .invalidNumber text => "invalid number literal " ++ text
  | .fragmentCycle name => "fragment `" ++ name ++ "` spreads itself"

end QueryGateway.Query
