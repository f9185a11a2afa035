import QueryGateway.Text.Bytes

/-!
# Headers

The headers of a message are a list of names with values.  A name may stand in
it several times, and the values of one name keep their order.  Names compare
without regard to case; they are held in lower case.

A value is a sequence of bytes.  It is *readable* if it consists of visible
ASCII characters, spaces and tabs; only then is it taken as text.
-/

namespace QueryGateway.Message

/-- The headers of a message, with names in lower case. -/
structure Headers where
  fields : List (String × Bytes)
deriving DecidableEq, Repr

/-- May a header name hold the character? -/
def isNameChar (character : Char) : Bool :=
  character.isAlphanum || "!#$%&'*+-.^_`|~".toList.contains character

/-- The name that a text is, in lower case, if it is one. -/
def headerName? (text : List Char) : Option String :=
  if text.isEmpty || !text.all isNameChar then none
  else some (String.ofList (text.map Char.toLower))

/-- Is the byte visible, a space or a tab? -/
def isReadableByte (byte : UInt8) : Bool :=
  (0x20 ≤ byte && byte < 0x7F) || byte == 0x09

/-- The text of a value, if the value is readable. -/
def readable? (value : Bytes) : Option String :=
  if value.all isReadableByte then
    some (String.ofList (value.map fun byte => Char.ofNat byte.toNat))
  else
    none

namespace Headers

/-- No headers. -/
def empty : Headers := ⟨[]⟩

/-- The values of a name, in their order. -/
def values (headers : Headers) (name : String) : List Bytes :=
  headers.fields.filterMap fun (other, value) => if other = name then some value else none

/-- The first value of a name. -/
def first? (headers : Headers) (name : String) : Option Bytes :=
  headers.fields.lookup name

/-- The text of the first value of a name, if there is one and it is readable. -/
def firstText? (headers : Headers) (name : String) : Option String :=
  (headers.first? name).bind readable?

/-- Is there a value of the name? -/
def contains (headers : Headers) (name : String) : Bool :=
  headers.fields.any (·.1 = name)

/-- Keep the values of the names that satisfy a condition. -/
def keep (condition : String → Bool) (headers : Headers) : Headers :=
  ⟨headers.fields.filter (condition ·.1)⟩

/-- Take out the values of some names. -/
def without (headers : Headers) (names : List String) : Headers :=
  headers.keep (!names.contains ·)

/-- Add a value behind those there are. -/
def append (headers : Headers) (name : String) (value : Bytes) : Headers :=
  ⟨headers.fields ++ [(name, value)]⟩

/-- Put one value in the place of all values of a name. -/
def put (headers : Headers) (name : String) (value : Bytes) : Headers :=
  (headers.without [name]).append name value

/-- Put one text in the place of all values of a name. -/
def putText (headers : Headers) (name value : String) : Headers :=
  headers.put name (Bytes.ofString value)

/-- Headers from fields as they are written, in any case. -/
def ofFields (fields : List (String × Bytes)) : Headers :=
  ⟨fields.map fun (name, value) => (name.map Char.toLower, value)⟩

end Headers

end QueryGateway.Message
