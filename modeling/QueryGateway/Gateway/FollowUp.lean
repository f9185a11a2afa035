import QueryGateway.Gateway.Fetch
import QueryGateway.Gateway.HeaderRules
import QueryGateway.Gateway.Outbound
import QueryGateway.Multipart.Encoder
import QueryGateway.Projection.Pass
import QueryGateway.Routing.Table
import QueryGateway.Uri.Url

/-!
# Follow-ups

A task of a projection is a link to follow.  To carry it out is to ask a backend
for the document that the link leads to, and to project that document; this
yields a part of the answer, and further tasks.
-/

namespace QueryGateway.Gateway

open Message

/-- What the follow-ups of a request have in common. -/
structure Walk where
  backend : Backend
  table : Routing.Table
  document : Query.Document
  /-- The address that links are relative to. -/
  base : Uri.Url
  headers : Headers
  limit : Nat

/-- What became of a task: the request it sent, if it came so far, and its part with its tasks. -/
structure Outcome where
  sent : Option Request
  result : Except GatewayError (Multipart.Part × List Projection.Task)

namespace Walk

/-- The address to ask for a link: the one it is routed to, or else its own. -/
def address (walk : Walk) (link : String) : Except BackendError String :=
  match walk.base.join link with
  | .error error => .error (.invalidAddress link error.message)
  | .ok url => .ok ((walk.table.resolve? url.render).getD url.render)

/-- The request for an address. -/
def request (walk : Walk) (address : String) : Except BackendError Request :=
  outbound "GET" address walk.headers .empty

/-- What the answer to a task's request yields. -/
def part (walk : Walk) (task : Projection.Task) (address : String) (request : Request) :
    Except GatewayError (Multipart.Part × List Projection.Task) := do
  let response ← (fetch walk.backend walk.limit request).mapError .backend
  let source ← (readJson walk.limit address response.body).mapError .backend
  let projection ← (task.project walk.document source).mapError .projection
  let content := Bytes.ofString projection.target.render
  return (.complete (partHeaders response.headers) content, projection.followUps)

/-- Carry a task out. -/
def carryOut (walk : Walk) (task : Projection.Task) : Outcome :=
  match walk.address task.url with
  | .error error => ⟨none, .error (.backend error)⟩
  | .ok address =>
      match walk.request address with
      | .error error => ⟨none, .error (.backend error)⟩
      | .ok request => ⟨some request, walk.part task address request⟩

end Walk

end QueryGateway.Gateway
