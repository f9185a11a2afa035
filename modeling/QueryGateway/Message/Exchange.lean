import QueryGateway.Message.Body
import QueryGateway.Message.Headers
import QueryGateway.Uri.Target

/-!
# Requests and responses
-/

namespace QueryGateway.Message

/-- A request. -/
structure Request where
  method : String
  target : Uri.Target
  headers : Headers
  body : Body
deriving DecidableEq, Repr

/-- A response. -/
structure Response where
  status : Nat
  headers : Headers
  body : Body
deriving DecidableEq, Repr

/-- A response of known length in a media type. -/
def Response.typed (status : Nat) (mediaType : String) (content : Bytes) : Response :=
  ⟨status, ⟨[("content-type", Bytes.ofString mediaType)]⟩, .ofBytes content⟩

/-- A response without content. -/
def Response.bare (status : Nat) : Response :=
  ⟨status, .empty, .empty⟩

end QueryGateway.Message
