import Mathlib
import QueryGateway.Proofs.Gateway.Additions
import QueryGateway.Proofs.Gateway.PartHeaders
import QueryGateway.Proofs.Gateway.Preparation
import QueryGateway.Proofs.Gateway.Visits

/-!
# What a client receives for a query

A request with a query is routed, sent to the backend, and answered with the
projection of the backend's answer.  Without follow-ups the body of the answer
is the projected document.  With follow-ups it is a multipart body, which the
reader of the stream of follow-ups writes: the projected document comes first,
and behind it the documents of the follow-ups, as they come out of the stream.

The boundary is drawn at random.  What a reader finds at its occurrences is
stated for boundaries that do not occur in the parts.
-/

namespace QueryGateway.Gateway

open Message Multipart

/-! ## From the request to the reply -/

/-- The headers that go to the backend with a request that has a query. -/
def queriedHeaders (request : Request) (body : ForwardBody) : Headers :=
  (forwardHeaders request.headers ⟨body.isRebuilt, true⟩).putText requestIdHeader
    (requestId request.headers)

/--
A request with a query that is routed and sent, and whose answer is projected
with success.
-/
structure Queried (service : Service) (table : Routing.Table) (request : Request) where
  ingress : String
  egress : String
  query : String
  place : QuerySource
  body : ForwardBody
  document : Query.Document
  base : Uri.Url
  visit : Visit
  routed : route table request = .ok (ingress, egress)
  extracted : extractQuery service.limit request = .ok ⟨some (query, place), body⟩
  parsed : Query.Document.ofString query = .ok document
  isUrl : Uri.Url.ofString ingress = .ok base
  sent : outbound request.method egress (queriedHeaders request body) body.body = .ok visit.request
  projected :
    ∃ source, service.backend.Delivers service.limit visit source ∧
      Projection.project document source = .ok visit.projection

namespace Queried

variable
    {service : Service}
    {table : Routing.Table}
    {request : Request}

/-- The walk of the follow-ups. -/
def walk (queried : Queried service table request) : Walk where
  backend := service.backend
  table := table
  document := queried.document
  base := queried.base
  headers := followUpHeaders (queriedHeaders request queried.body)
  limit := service.limit

/-- What is prepared for the request. -/
def primary (queried : Queried service table request) : Primary where
  ingress := queried.ingress
  egress := queried.egress
  query := some queried.document
  headers := queriedHeaders request queried.body
  request := queried.visit.request

/-- The reply to the request. -/
def reply (queried : Queried service table request) : Reply :=
  if queried.visit.projection.followUps.isEmpty then
    .projected queried.visit.response.status (ownBodyHeaders queried.visit.response.headers)
      queried.visit.projection.target
  else
    .multipart queried.visit.response.status queried.visit.part queried.walk
      queried.visit.projection.followUps

theorem prepares
    (queried : Queried service table request) :
    Prepares service table request ⟨some (queried.query, queried.place), queried.body⟩
      queried.primary where
  routed := queried.routed
  extracted := queried.extracted
  parsed := bind_eq_ok.mpr ⟨queried.document, mapError_eq_ok.mpr queried.parsed, rfl⟩
  headers := rfl
  sent := queried.sent

theorem ask_eq
    (queried : Queried service table request) :
    service.ask table queried.primary = .ok queried.reply := by
  obtain ⟨source, delivers, projected⟩ := queried.projected
  obtain ⟨content, read, isJson⟩ := delivers.isJson
  have fetched := fetch_of_success service.limit delivers.answered delivers.succeeded
  have wasRead := readJson_of_success queried.egress read isJson
  have isUrl : (Uri.Url.ofString queried.primary.ingress).mapError
      (fun error => GatewayError.badRequest error.message) = .ok queried.base := by
    rw [show queried.primary.ingress = queried.ingress from rfl, queried.isUrl]
    rfl
  simp only [Service.ask, primary, fetched, Service.projectedReply, wasRead, projected,
    Except.mapError, bind, Except.bind, reply]
  split
  · rfl
  · simp only [primary, Except.mapError] at isUrl
    simp only [isUrl]
    rfl

theorem answer_eq
    (queried : Queried service table request) :
    service.answer table request = ([queried.visit.request], queried.reply) := by
  rw [queried.prepares.answer_eq]
  simp only [queried.ask_eq]
  rfl

end Queried

/-! ## The multipart body -/

/-- Complete parts come first in a body; what comes behind them decides how it ends. -/
theorem writtenBody_chunkEvents
    (boundary : String)
    {parts : List Part}
    (complete : ∀ part ∈ parts, part.isLast = true)
    (source : List (Event GatewayError)) :
    writtenBody (outputs boundary (chunkEvents parts ++ source)) =
      .streamed
        (parts.map (Encoder.start.encode boundary) ++
          (writtenBody (outputs boundary source)).chunks)
        (writtenBody (outputs boundary source)).failure := by
  rw [outputs_chunkEvents boundary complete]
  generalize outputs boundary source = received
  clear complete
  induction parts with
  | nil => rfl
  | cons part parts induction =>
      simp only [framedOutputs, writtenBody, List.map_cons, List.cons_append,
        List.filterMap_cons, List.findSome?_cons, Body.streamed, Body.mk.injEq,
        and_true] at induction ⊢
      exact ⟨congrArg _ induction.1, induction.2⟩

theorem streamed_content
    (boundary : String)
    (parts : List Part)
    (last : List Bytes)
    (failure : Option String) :
    (Body.streamed (parts.map (Encoder.start.encode boundary) ++ last) failure).content =
      encoded boundary parts ++ last.flatten := by
  simp [Body.streamed, Body.content, encoded, List.flatMap_def]

theorem complete_parts
    (visits : List Visit) :
    ∀ part ∈ visits.map Visit.part, part.isLast = true := by
  intro part member
  obtain ⟨visit, _, rfl⟩ := List.mem_map.mp member
  rfl

/-- The parts of documents whose headers have header names can be framed. -/
theorem Visit.part_isFramable
    {boundary : String}
    {visit : Visit}
    (named : visit.response.headers.AreNamed)
    (avoids : visit.part.Avoids boundary) :
    visit.part.IsFramable boundary where
  toAvoids := avoids
  isLast := rfl
  isLine := fun _ member => isLine_of_mem_partHeaders named member

/-! ## What the client receives -/

/-- Do the headers of all answers have header names? -/
def Backend.NamesHeaders (backend : Backend) : Prop :=
  ∀ request response, backend request = .ok response → response.headers.AreNamed

/-- Every visit of a walk has headers with header names, if the backend names them so. -/
theorem areNamed_of_completes
    {walk : Walk}
    (named : walk.backend.NamesHeaders)
    {tasks : List Projection.Task}
    {visits : List Visit}
    (completes : List.Forall₂ walk.Completes tasks visits) :
    ∀ visit ∈ visits, visit.response.headers.AreNamed := by
  induction completes with
  | nil => simp
  | cons first _ induction =>
      obtain ⟨source, delivers, _⟩ := first.projected
      intro visit member
      rcases List.mem_cons.mp member with rfl | member
      · exact named _ _ delivers.answered
      · exact induction visit member

/-- The content type tells the boundary. -/
theorem announced
    (boundary : String)
    (status : Nat)
    (body : Body)
    (request : Request) :
    (tellId request (Response.withLength
        ⟨status, .ofFields [("content-type", Bytes.ofString (contentType boundary))],
          body⟩)).headers.first? "content-type" =
      some (Bytes.ofString (contentType boundary)) := by
  refine tellId_first? (withLength_first? ?_) request
  have lowerCase : "content-type".map Char.toLower = "content-type" := by
    rw [← String.toList_inj, String.toList_map]
    decide
  simp [Headers.ofFields, Headers.first?, lowerCase]

/-- How the stream of follow-ups ends. -/
def endingOf : Option GatewayError → Event GatewayError
  | none => .ended
  | some error => .failed error

/--
A client receives the parts of some documents in order, for each of which one
request was sent, and perhaps more.  The body is closed unless it fails, and it
is read back as these parts if the boundary occurs in none of them.
-/
structure Exchange.Delivers (exchange : Exchange) (boundary : String) (visits : List Visit)
    (more : List Request) (failure : Option GatewayError) : Prop where
  /-- Each request is sent as often as it is needed, in some order. -/
  sent : exchange.sent.Perm (visits.map Visit.request ++ more)
  announced :
    exchange.response.headers.first? "content-type" =
      some (Bytes.ofString (contentType boundary))
  framed :
    exchange.response.body.content =
      encoded boundary (visits.map Visit.part) ++
        if failure.isNone then closing boundary else []
  decoded :
    (∀ visit ∈ visits, visit.part.Avoids boundary) →
      decode? boundary exchange.response.body.content =
        some ⟨visits.map Visit.part, failure.isNone⟩
  ending : exchange.response.body.failure = failure.map (·.message)

/-- A body that has come out of the encoder for complete parts and an end. -/
theorem Exchange.delivers_of_written
    {exchange : Exchange}
    {boundary : String}
    {visits : List Visit}
    {more : List Request}
    {failure : Option GatewayError}
    (isBoundary : IsBoundary boundary)
    (named : ∀ visit ∈ visits, visit.response.headers.AreNamed)
    (sent : exchange.sent.Perm (visits.map Visit.request ++ more))
    (announced :
      exchange.response.headers.first? "content-type" =
        some (Bytes.ofString (contentType boundary)))
    (written :
      exchange.response.body =
        writtenBody
          (outputs boundary (chunkEvents (visits.map Visit.part) ++ [endingOf failure]))) :
    exchange.Delivers boundary visits more failure := by
  rw [writtenBody_chunkEvents boundary (complete_parts visits)] at written
  have framable (avoids : ∀ visit ∈ visits, visit.part.Avoids boundary) :
      ∀ part ∈ visits.map Visit.part, part.IsFramable boundary := by
    intro part member
    obtain ⟨visit, isVisit, rfl⟩ := List.mem_map.mp member
    exact Visit.part_isFramable (named visit isVisit) (avoids visit isVisit)
  cases failure with
  | none =>
      have framed : exchange.response.body.content =
          encoded boundary (visits.map Visit.part) ++ closing boundary := by
        rw [written, streamed_content]
        exact congrArg _ (List.flatten_singleton)
      refine ⟨sent, announced, framed, fun avoids => ?_, ?_⟩
      · rw [framed]
        exact decode?_encoded_closing isBoundary (framable avoids)
      · rw [written]
        rfl
  | some error =>
      have framed : exchange.response.body.content =
          encoded boundary (visits.map Visit.part) := by
        rw [written, streamed_content]
        exact List.append_nil _
      refine ⟨sent, announced, framed.trans (List.append_nil _).symm, fun avoids => ?_, ?_⟩
      · rw [framed]
        exact decode?_encoded isBoundary (framable avoids)
      · rw [written]
        rfl

/-- The reading of the follow-ups of a request. -/
def Queried.reading
    {service : Service}
    {table : Routing.Table}
    {request : Request}
    (queried : Queried service table request)
    (boundary : String)
    (schedule : Nat → Happening)
    (time : Nat) :
    Reading :=
  queried.walk.reading boundary service.concurrency queried.visit.part
    queried.visit.projection.followUps schedule time

section

variable
    {service : Service}
    {table : Routing.Table}
    {drawn : Drawn}
    {request : Request}
    (queried : Queried service table (identified drawn request))
    (schedule : Nat → Happening)
    (time : Nat)

/-- Whoever is named by the backend is named in what is visited. -/
theorem Queried.areNamed
    (named : service.backend.NamesHeaders)
    {tasks : List Projection.Task}
    {visits : List Visit}
    (completes : List.Forall₂ queried.walk.Completes tasks visits) :
    ∀ visit ∈ queried.visit :: visits, visit.response.headers.AreNamed := by
  have namedByWalk : queried.walk.backend.NamesHeaders := named
  obtain ⟨_, delivers, _⟩ := queried.projected
  intro visit member
  rcases List.mem_cons.mp member with rfl | member
  · exact named _ _ delivers.answered
  · exact areNamed_of_completes namedByWalk completes visit member

variable
    (notHead : request.method ≠ "HEAD")
    (notConnect : request.method ≠ "CONNECT")
    (atPath : hasPath request.target = true)

include notHead notConnect atPath

/-- What the client receives for a request with a query. -/
theorem Queried.serve_eq :
    service.serve table drawn schedule time request =
      ⟨queried.visit.request ::
          (queried.reply.response drawn.boundary service.concurrency schedule time).1,
        some queried.reply,
        tellId (identified drawn request)
          (queried.reply.response drawn.boundary service.concurrency schedule
            time).2.withLength⟩ := by
  have isRead : readingTime request.method time = time := if_neg notHead
  rw [serve_of_answer atPath queried.answer_eq, isRead, framed_eq_withLength notHead notConnect]
  rfl

/-- Without follow-ups, the projected document is the answer. -/
theorem Queried.serve_without_followUps
    (noFollowUps : queried.visit.projection.followUps = []) :
    (service.serve table drawn schedule time request).sent = [queried.visit.request] ∧
      (service.serve table drawn schedule time request).response.status =
        queried.visit.response.status ∧
      (service.serve table drawn schedule time request).response.body =
        .ofBytes (Bytes.ofString queried.visit.projection.target.render) := by
  have reply : queried.reply = .projected queried.visit.response.status
      (ownBodyHeaders queried.visit.response.headers) queried.visit.projection.target := by
    simp [Queried.reply, noFollowUps]
  rw [queried.serve_eq schedule time notHead notConnect atPath, reply]
  simp [Reply.response]

/-- With follow-ups, the answer is what their reading comes to. -/
theorem Queried.serve_with_followUps
    (hasFollowUps : queried.visit.projection.followUps ≠ []) :
    (service.serve table drawn schedule time request).sent =
        queried.visit.request ::
          queried.walk.sent (queried.reading drawn.boundary schedule time).stream.begun ∧
      (service.serve table drawn schedule time request).response.headers.first?
          "content-type" =
        some (Bytes.ofString (contentType drawn.boundary)) ∧
      (service.serve table drawn schedule time request).response.body =
        writtenBody (queried.reading drawn.boundary schedule time).written := by
  have reply : queried.reply = .multipart queried.visit.response.status queried.visit.part
      queried.walk queried.visit.projection.followUps := by
    simp [Queried.reply, hasFollowUps]
  rw [queried.serve_eq schedule time notHead notConnect atPath, reply]
  exact ⟨rfl, announced .., by simp [Reply.response, Queried.reading]⟩

end

/-! ## A pet and its toy -/

namespace PetStore

/-- A pet, and what is told about its toy elsewhere. -/
def query : String :=
  "\x7b toy @GET(fragment: \"Toy\") \x7d fragment Toy on Toy \x7b name \x7d"

/-- What is told about a toy. -/
def toySelections : List (Query.Selection Query.Argument) :=
  [.field none "name" [] [] none]

def document : Query.Document where
  operations :=
    [⟨.query, none, [],
      [.field none "toy" [] [⟨"GET", [⟨"fragment", .literal (.string "Toy")⟩]⟩] none]⟩]
  fragments := [⟨"Toy", "Toy", [], toySelections⟩]

/-- The pet is served by a backend of its own. -/
def table : Routing.Table :=
  match Routing.Mapping.compile "pets" "http://gateway/pets/1" "http://pets/1" with
  | .ok mapping => ⟨[mapping], 0⟩
  | .error _ => ⟨[], 0⟩

def toyLink : Json.Value :=
  .object [("href", .string "/toys/2")]

def toyTask : Projection.Task :=
  ⟨⟨some "Toy", [], toySelections⟩, toyLink, "/toys/2"⟩

def petText : String :=
  "\x7b\"toy\":\x7b\"href\":\"/toys/2\"\x7d\x7d"

def petVisit : Visit where
  request :=
    ⟨"GET", ⟨some "http", some "pets", "/1", none⟩,
      ⟨[("x-request-id", Bytes.ofString "7"), ("host", Bytes.ofString "pets")]⟩, .empty⟩
  response := ⟨200, .empty, .ofBytes (Bytes.ofString petText)⟩
  projection := ⟨.object [("toy", toyLink)], [toyTask]⟩

def toyText : String :=
  "\x7b\"name\":\"ball\",\"owner\":null\x7d"

def toyVisit : Visit where
  request :=
    ⟨"GET", ⟨some "http", some "gateway", "/toys/2", none⟩,
      ⟨[("x-request-id", Bytes.ofString "7"), ("host", Bytes.ofString "gateway")]⟩, .empty⟩
  response := ⟨200, .empty, .ofBytes (Bytes.ofString toyText)⟩
  projection := ⟨.object [("name", .string "ball")], []⟩

def service : Service where
  backend request :=
    .ok (if request.target.authority = some "pets" then petVisit.response else toyVisit.response)
  limit := 100
  concurrency := 2

def request : Request :=
  ⟨"GET", ⟨none, none, "/pets/1", none⟩,
    ⟨[("host", Bytes.ofString "gateway"), (queryHeader, Bytes.ofString query),
      (requestIdHeader, Bytes.ofString "7")]⟩, .empty⟩

def drawn : Drawn :=
  ⟨"1", "b0undary"⟩

/-- The answer is read, and no fetch of a follow-up finishes. -/
def polling (_ : Nat) : Happening :=
  .poll 1

def base : Uri.Url :=
  (Uri.Url.ofString "http://gateway/pets/1").toOption.get (by decide +kernel)

theorem parsed :
    Query.Document.ofString query = .ok document := by
  cbv

theorem isJson :
    Json.ofBytes? (Bytes.ofString petText) = some (.object [("toy", toyLink)]) := by
  cbv

theorem projected :
    Projection.project document (.object [("toy", toyLink)]) = .ok petVisit.projection := by
  cbv

/-- The pet is asked for and found. -/
def queried : Queried service table (identified drawn request) where
  ingress := "http://gateway/pets/1"
  egress := "http://pets/1"
  query := query
  place := .header
  body := .untouched .empty
  document := document
  base := base
  visit := petVisit
  routed := by decide +kernel
  extracted := by decide +kernel
  parsed := parsed
  isUrl := by decide +kernel
  sent := by decide +kernel
  projected :=
    ⟨.object [("toy", toyLink)],
      ⟨by decide +kernel, by decide +kernel, Bytes.ofString petText, by decide +kernel, isJson⟩,
      projected⟩

theorem toyTask_project :
    toyTask.project document (.object [("name", .string "ball"), ("owner", .null)]) =
      .ok toyVisit.projection := by
  cbv

/-- The toy is found at the address that the pet tells. -/
theorem completes :
    queried.walk.Completes toyTask toyVisit where
  sent :=
    ⟨(Uri.Url.ofString "http://gateway/toys/2").toOption.get (by decide +kernel),
      by decide +kernel, by decide +kernel⟩
  projected :=
    ⟨.object [("name", .string "ball"), ("owner", .null)],
      ⟨by decide +kernel, by decide +kernel, Bytes.ofString toyText, by decide +kernel, by cbv⟩,
      toyTask_project⟩

end PetStore

end QueryGateway.Gateway
