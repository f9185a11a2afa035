import QueryGateway.Number.Binary64

/-!
# JSON values

A JSON document in memory.  The members of an object are kept in the order in
which they were written, and a key stands at most once in an object built by
the operations of this module.

A number is an integer when it was written as one and fits the signed or the
unsigned 64-bit range, and a double otherwise.
-/

namespace QueryGateway.Json

/-- A JSON number. -/
inductive Number where
  /-- An integer between `-2 ^ 63` and `2 ^ 64 - 1`. -/
  | integer (value : Int)
  /-- Any other finite number, rounded to a double. -/
  | double (value : Binary64)
deriving DecidableEq, Repr

/-- A JSON value. -/
inductive Value where
  | null
  | bool (value : Bool)
  | number (value : Number)
  | string (value : String)
  | array (elements : List Value)
  | object (members : List (String × Value))
deriving Repr, BEq, Inhabited

namespace Members

variable {α : Type}

/-- The value under a key. -/
def find? (members : List (String × α)) (key : String) : Option α :=
  members.lookup key

/-- Put a value under a key: in place of the old one, or at the end. -/
def insert (key : String) (value : α) : List (String × α) → List (String × α)
  | [] => [(key, value)]
  | (other, old) :: members =>
      if other = key then
        (key, value) :: members
      else
        (other, old) :: insert key value members

/-- Take a key out, keeping the order of the others. -/
def erase (key : String) (members : List (String × α)) : List (String × α) :=
  members.filter (·.1 ≠ key)

/-- Put entries in one after another, a later value replacing an earlier one. -/
def ofEntries (entries : List (String × α)) : List (String × α) :=
  entries.foldl (fun members (key, value) => insert key value members) []

end Members

namespace Value

/-- The string a value is, if it is one. -/
def asString? : Value → Option String
  | .string value => some value
  | _ => none

/-- The member of an object under a key. -/
def member? (key : String) : Value → Option Value
  | .object members => Members.find? members key
  | _ => none

/-- The kind of a value, in words. -/
def kind : Value → String
  | .null => "null"
  | .bool _ => "boolean"
  | .number _ => "number"
  | .string _ => "string"
  | .array _ => "array"
  | .object _ => "object"

end Value

end QueryGateway.Json
