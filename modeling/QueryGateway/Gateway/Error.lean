import QueryGateway.Json.Printer
import QueryGateway.Message.Exchange
import QueryGateway.Number.Duration
import QueryGateway.Projection.Error
import QueryGateway.Query.Error

/-!
# What the gateway answers when it fails

Every failure has a status, a type and a message.  They are told in a JSON
object; a failure of a backend that answered with an error status carries that
answer along.
-/

namespace QueryGateway.Gateway

/-- Why a backend gave no document. -/
inductive BackendError where
  /-- The backend answered with an error status. -/
  | status (address : String) (code : Nat) (body : String)
  | transport (address reason : String)
  | timeout (address : String) (limit : Duration)
  | invalidJson (address reason : String)
  | unreadableBody (address reason : String)
  /-- The address is none that a request can be sent to. -/
  | invalidAddress (address reason : String)
deriving DecidableEq, Repr

/-- The error in words. -/
def BackendError.message : BackendError → String
  | .status address code _ => "upstream " ++ address ++ " returned status " ++ toString code
  | .transport address reason => "request to " ++ address ++ " failed: " ++ reason
  | .timeout address limit => "request to " ++ address ++ " timed out after " ++ limit.render
  | .invalidJson address reason => "upstream " ++ address ++ " returned invalid JSON: " ++ reason
  | .unreadableBody address reason => "failed to read body from " ++ address ++ ": " ++ reason
  | .invalidAddress address reason => "invalid upstream URL '" ++ address ++ "': " ++ reason

/-- The type of the error. -/
def BackendError.label : BackendError → String
  | .status .. => "upstream_status"
  | .transport .. => "upstream_transport"
  | .timeout .. => "upstream_timeout"
  | .invalidJson .. => "upstream_invalid_json"
  | .unreadableBody .. => "upstream_body"
  | .invalidAddress .. => "upstream_invalid_url"

/-- Why a request is not answered as it asks. -/
inductive GatewayError where
  | noRoute (address : String)
  | backend (error : BackendError)
  | query (error : Query.QueryError)
  | projection (error : Projection.ProjectionError)
  | badRequest (detail : String)
  | internal (detail : String)
deriving DecidableEq, Repr

namespace GatewayError

/-- The error in words. -/
def message : GatewayError → String
  | .noRoute address => "no route for " ++ address
  | .backend error => error.message
  | .query error => "invalid query: " ++ error.message
  | .projection error => error.message
  | .badRequest detail => "bad request: " ++ detail
  | .internal detail => "internal error: " ++ detail

/-- The type of the error. -/
def label : GatewayError → String
  | .noRoute _ => "no_route"
  | .backend error => error.label
  | .query _ => "invalid_query"
  | .projection (.missingField _) => "missing_field"
  | .projection (.unsupportedShape _) => "unsupported_shape"
  | .projection (.invalidLink ..) => "invalid_directive"
  | .badRequest _ => "bad_request"
  | .internal _ => "internal_error"

/-- The status of the answer. -/
def status : GatewayError → Nat
  | .noRoute _ => 404
  | .backend (.timeout ..) => 504
  | .backend _ => 502
  | .query _ => 400
  | .projection (.invalidLink ..) => 400
  | .projection _ => 422
  | .badRequest _ => 400
  | .internal _ => 500

/-- What is told about the backend's own answer. -/
def backendAnswer : GatewayError → List (String × Json.Value)
  | .backend (.status address code body) =>
      [("upstream", .object [("url", .string address), ("status", .number (.integer code)),
        ("body", .string body)])]
  | _ => []

/-- What is told about the error. -/
def document (error : GatewayError) : Json.Value :=
  .object [("error", .object (
    [("code", .number (.integer error.status)), ("type", .string error.label),
      ("message", .string error.message)] ++ error.backendAnswer))]

/-- The answer that tells the error. -/
def response (error : GatewayError) : Message.Response :=
  .typed error.status "application/json" (Bytes.ofString error.document.render)

end GatewayError

end QueryGateway.Gateway
