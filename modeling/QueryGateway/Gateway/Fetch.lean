import QueryGateway.Gateway.Error
import QueryGateway.Json.Parser

/-!
# Fetching from backends

A backend answers requests, or fails to.  An answer with an error status is a
failure too, which carries as much of the body as can be read within the limit
or else nothing.
-/

namespace QueryGateway.Gateway

open Message

/-- What backends answer to a request. -/
abbrev Backend := Request → Except BackendError Response

/-- The least status of a failure. -/
def leastErrorStatus : Nat := 400

/-- What is told about a text that is not JSON. -/
def jsonDetail : String := "the body is not JSON"

/-- The text of a body, or nothing if it cannot be read within the limit. -/
def bodyText (limit : Nat) (body : Body) : String :=
  match body.read limit with
  | .ok content => content.toStringLossy
  | .error _ => ""

/-- Send a request. -/
def fetch (backend : Backend) (limit : Nat) (request : Request) : Except BackendError Response := do
  let response ← backend request
  if response.status ≥ leastErrorStatus then
    throw (.status request.target.render response.status (bodyText limit response.body))
  else
    return response

/-- Read the body of an answer from an address as JSON. -/
def readJson (limit : Nat) (address : String) (body : Body) : Except BackendError Json.Value :=
  match body.read limit with
  | .error error => .error (.unreadableBody address error.message)
  | .ok content =>
      match Json.ofBytes? content with
      | none => .error (.invalidJson address jsonDetail)
      | some value => .ok value

end QueryGateway.Gateway
