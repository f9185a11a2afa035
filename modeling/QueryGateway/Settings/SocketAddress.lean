import QueryGateway.Address.Internet

/-!
# Socket addresses

Whether a text is an internet address with a port.  An address of version 6
stands in brackets, perhaps with a numeric scope behind it.
-/

namespace QueryGateway.Settings.SocketAddress

open Address

/-- Split off a port, which may have zeros in front. -/
def port (input : List Char) : Option (List Char) :=
  (number 65535 input).map (·.2)

/-- Split off the scope of an address, if one follows. -/
def scope (input : List Char) : Option (List Char) :=
  match input with
  | '%' :: rest => (number (Nat.pow 2 32 - 1) rest).map (·.2)
  | _ => some input

/-- Is the text an address of version 4 with a port? -/
def isVersion4 (text : List Char) : Bool :=
  (do
    let (_, rest) ← version4 text
    port (← exact ':' rest)) == some []

/-- Is the text an address of version 6 with a port? -/
def isVersion6 (text : List Char) : Bool :=
  (do
    let (_, rest) ← version6 (← exact '[' text)
    let rest ← exact ']' (← scope rest)
    port (← exact ':' rest)) == some []

/-- Is the text a socket address? -/
def isSocketAddress (text : String) : Bool :=
  isVersion4 text.toList || isVersion6 text.toList

end QueryGateway.Settings.SocketAddress
