/-!
# TOML values

What a TOML document denotes: a tree of tables, arrays and scalars.  Floats and
dates are kept as they are written; nothing here computes with them.
-/

namespace QueryGateway.Toml

/-- A TOML value. -/
inductive Value where
  | string (value : String)
  | integer (value : Int)
  | float (text : String)
  | boolean (value : Bool)
  /-- A date, a time, or both. -/
  | moment (text : String)
  | array (elements : List Value)
  | table (entries : List (String × Value))
deriving Repr, Inhabited

end QueryGateway.Toml
