import QueryGateway.Gateway.QuerySource
import QueryGateway.Gateway.Stream
import QueryGateway.Query.Text

/-!
# Answering a request

A request is routed, its query is found and read, and only then is it sent to
the backend.  Without a query the backend's answer passes.  With one the answer
is read and projected; if follow-ups came up, their parts follow the projected
document in a multipart body.
-/

namespace QueryGateway.Gateway

open Message

/-- What a gateway answers with. -/
structure Service where
  backend : Backend
  /-- The greatest body that is held in memory. -/
  limit : Nat
  /-- How many follow-ups of a list may be fetched at once. -/
  concurrency : Nat

/-- What is to be sent to the backend, and what its answer is for. -/
structure Primary where
  ingress : String
  egress : String
  query : Option Query.Document
  headers : Headers
  request : Request

/-- How a request is answered. -/
inductive Reply where
  | passthrough (response : Response)
  | projected (status : Nat) (headers : Headers) (target : Json.Value)
  | multipart (status : Nat) (primary : Multipart.Part) (walk : Walk) (tasks : List Projection.Task)
  | failed (error : GatewayError)

/-- Where a request is to be sent. -/
def route (table : Routing.Table) (request : Request) : Except GatewayError (String × String) := do
  let ingress ← ingressAddress request
  match table.resolve? ingress with
  | none => throw (.noRoute ingress)
  | some egress => return (ingress, egress)

/-- Read a query. -/
def readQuery (text : String) : Except GatewayError Query.Document :=
  (Query.Document.ofString text).mapError .query

/-- The id of a request in its headers, as far as it can be read. -/
def requestId (headers : Headers) : String :=
  (headers.firstText? requestIdHeader).getD "unknown"

/-- Make everything ready that can be before the backend is asked. -/
def Service.prepare (service : Service) (table : Routing.Table) (request : Request) :
    Except GatewayError Primary := do
  let (ingress, egress) ← route table request
  let extraction ← extractQuery service.limit request
  let query ← extraction.query.mapM fun (text, _) => readQuery text
  let forwarded := forwardHeaders request.headers ⟨extraction.body.isRebuilt, query.isSome⟩
  let headers := forwarded.putText requestIdHeader (requestId request.headers)
  let outgoing ← (outbound request.method egress headers extraction.body.body).mapError .backend
  return ⟨ingress, egress, query, headers, outgoing⟩

/-- The answer that a projection makes of the backend's answer. -/
def Service.projectedReply (service : Service) (table : Routing.Table) (primary : Primary)
    (document : Query.Document) (response : Response) : Except GatewayError Reply := do
  let source ← (readJson service.limit primary.egress response.body).mapError .backend
  let projection ← (Projection.project document source).mapError .projection
  if projection.followUps.isEmpty then
    return .projected response.status (ownBodyHeaders response.headers) projection.target
  else
    let base ← (Uri.Url.ofString primary.ingress).mapError fun error => .badRequest error.message
    let walk : Walk :=
      { backend := service.backend
        table
        document
        base
        headers := followUpHeaders primary.headers
        limit := service.limit }
    let content := Bytes.ofString projection.target.render
    let part := Multipart.Part.complete (partHeaders response.headers) content
    return .multipart response.status part walk projection.followUps

/-- Ask the backend, and make the answer of its answer. -/
def Service.ask (service : Service) (table : Routing.Table) (primary : Primary) :
    Except GatewayError Reply := do
  let response ← (fetch service.backend service.limit primary.request).mapError .backend
  match primary.query with
  | none => return .passthrough { response with headers := withoutHopByHop response.headers }
  | some document => service.projectedReply table primary document response

/-- The reply that a result is. -/
def Reply.ofExcept : Except GatewayError Reply → Reply
  | .ok reply => reply
  | .error error => .failed error

/-- Answer a request; the requests that were sent for it come first. -/
def Service.answer (service : Service) (table : Routing.Table) (request : Request) :
    List Request × Reply :=
  match service.prepare table request with
  | .error error => ([], .failed error)
  | .ok primary => ([primary.request], .ofExcept (service.ask table primary))

/-! ## Replies as responses -/

/-- A multipart body, as far as it has come out of the encoder. -/
def writtenBody (written : List (Multipart.Output GatewayError)) : Body :=
  let chunks := written.filterMap fun output =>
    match output with
    | .bytes content => some content
    | _ => none
  let failure := written.findSome? fun output =>
    match output with
    | .failed error => some error.message
    | _ => none
  .streamed chunks failure

/--
The response that a reply is, with the requests that are sent while its body is
read, after so many happenings in the stream of its follow-ups.
-/
def Reply.response (boundary : String) (concurrency : Nat) (schedule : Nat → Happening)
    (time : Nat) : Reply → List Request × Response
  | .passthrough response => ([], response)
  | .projected status headers target =>
      ([], ⟨status, headers, .ofBytes (Bytes.ofString target.render)⟩)
  | .failed error => ([], error.response)
  | .multipart status primary walk tasks =>
      let reading := walk.reading boundary concurrency primary tasks schedule time
      let contentType := Bytes.ofString (Multipart.contentType boundary)
      (walk.sent reading.stream.begun,
        ⟨status, .ofFields [("content-type", contentType)], writtenBody reading.written⟩)

end QueryGateway.Gateway
