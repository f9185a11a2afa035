import QueryGateway.Gateway.Error
import QueryGateway.Gateway.HeaderRules
import QueryGateway.Json.Parser
import QueryGateway.Uri.Percent

/-!
# Where the query of a request is found

A query may stand in a parameter of the target, in a header, or in a field of a
JSON body, in this order of preference.  The body is read only if the first two
are absent and JSON is announced.

A query in the body is taken out of it, and the body is written anew.  A body
that is longer than the limit is not searched, and passes as it came: what was
read of it before the limit was exceeded comes first, and then the rest.
-/

namespace QueryGateway.Gateway

open Message

/-- The parameter, and the field of a body, that may hold a query. -/
def queryKey : String := "_meshcaline_query"

/-- Where a query was found. -/
inductive QuerySource where
  | parameter
  | header
  | body
deriving DecidableEq, Repr

/-- The body to forward. -/
inductive ForwardBody where
  /-- The body as it came, still arriving. -/
  | untouched (body : Body)
  /-- A body that the gateway has read as a whole, and perhaps changed. -/
  | rebuilt (content : Bytes)
deriving DecidableEq, Repr

/-- Has the gateway read the body as a whole? -/
def ForwardBody.isRebuilt : ForwardBody → Bool
  | .untouched _ => false
  | .rebuilt _ => true

/-- The body itself. -/
def ForwardBody.body : ForwardBody → Body
  | .untouched body => body
  | .rebuilt content => .ofBytes content

/-- What was found in a request. -/
structure Extraction where
  query : Option (String × QuerySource)
  body : ForwardBody
deriving DecidableEq, Repr

/-- The query in the parameters of a target. -/
def queryInTarget? (target : Uri.Target) : Option String :=
  target.query.bind fun query => (Uri.Form.pairs query).lookup queryKey

/-- The query in the headers. -/
def queryInHeaders? (headers : Headers) : Option String :=
  headers.firstText? queryHeader

/-- Take the query out of a body; the result holds the query and the body without it. -/
def takeQuery? (content : Bytes) : Option (String × Bytes) :=
  match Json.ofBytes? content with
  | some (.object members) =>
      match Json.Members.find? members queryKey with
      | some (.string query) =>
          let others := Json.Value.object (Json.Members.erase queryKey members)
          some (query, Bytes.ofString others.render)
      | _ => none
  | _ => none

/-- Look for a query in a body that announces JSON. -/
def extractFromBody (limit : Nat) (body : Body) : Except GatewayError Extraction :=
  match body.buffer limit with
  | .error detail => .error (.badRequest ("failed to read request body: " ++ detail))
  | .ok (.overflow replay) => .ok ⟨none, .untouched replay⟩
  | .ok (.complete content) =>
      match takeQuery? content with
      | some (query, rest) => .ok ⟨some (query, .body), .rebuilt rest⟩
      | none => .ok ⟨none, .rebuilt content⟩

/-- Look for the query of a request, in a body of at most `limit` bytes. -/
def extractQuery (limit : Nat) (request : Request) : Except GatewayError Extraction :=
  match queryInTarget? request.target with
  | some query => .ok ⟨some (query, .parameter), .untouched request.body⟩
  | none =>
      match queryInHeaders? request.headers with
      | some query => .ok ⟨some (query, .header), .untouched request.body⟩
      | none =>
          if announcesJson request.headers then extractFromBody limit request.body
          else .ok ⟨none, .untouched request.body⟩

end QueryGateway.Gateway
