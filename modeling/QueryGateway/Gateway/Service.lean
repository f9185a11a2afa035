import QueryGateway.Gateway.Answer
import QueryGateway.Message.Framing

/-!
# The gateway as a service

Around the gateway's own answers stands what every answer has: a request that
comes without an id is given one, and the id is told in the answer.  Targets
without a path have no answer but that there is none.
-/

namespace QueryGateway.Gateway

open Message

/-- What is drawn at random for a request, should it need it. -/
structure Drawn where
  requestId : String
  boundary : String
deriving DecidableEq, Repr

/-- The request with an id. -/
def identified (drawn : Drawn) (request : Request) : Request :=
  if request.headers.contains requestIdHeader then
    request
  else
    { request with headers := request.headers.putText requestIdHeader drawn.requestId }

/-- The answer with the id of its request, unless it has an id of its own. -/
def tellId (request : Request) (response : Response) : Response :=
  match request.headers.first? requestIdHeader with
  | none => response
  | some id =>
      if response.headers.contains requestIdHeader then response
      else { response with headers := response.headers.append requestIdHeader id }

/-- What became of a request. -/
structure Exchange where
  /-- The requests that were sent to backends, in their order. -/
  sent : List Request
  /-- How the request was answered, unless there is nothing at its target. -/
  reply : Option Reply
  response : Response

/-- Does the target have a path? -/
def hasPath (target : Uri.Target) : Bool :=
  target.shownPath.toList.head? == some '/'

/-- How long the body of an answer is read: nobody reads that of an answer to `HEAD`. -/
def readingTime (method : String) (time : Nat) : Nat :=
  if method = "HEAD" then 0 else time

/--
Serve a request.  What happens in the stream of its follow-ups is the choice of a
scheduler; the exchange is the one after so many happenings.
-/
def Service.serve (service : Service) (table : Routing.Table) (drawn : Drawn)
    (schedule : Nat → Happening) (time : Nat) (request : Request) : Exchange :=
  let request := identified drawn request
  if hasPath request.target then
    let (sent, reply) := service.answer table request
    let (more, response) :=
      reply.response drawn.boundary service.concurrency schedule (readingTime request.method time)
    ⟨sent ++ more, some reply, tellId request (response.framed request.method)⟩
  else
    ⟨[], none, tellId request ((Response.bare 404).framed request.method)⟩

end QueryGateway.Gateway
