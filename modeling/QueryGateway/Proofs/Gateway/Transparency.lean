import QueryGateway.Proofs.Gateway.Delivery
import QueryGateway.Proofs.Gateway.Hygiene
import QueryGateway.Proofs.Message.Body

/-!
# Requests without a query

Without a query the gateway is not noticed.  The backend receives the client's
request as it is, but at another address, and the client receives the backend's
answer as it is.  Only headers that speak about a connection are left out.

A body that announces JSON is read in search of a query if it is short enough,
and is then sent anew.  The backend receives the same bytes in any case, and is
told no length but that of these bytes.
-/

namespace QueryGateway.Gateway

open Message

/-! ## No query is found -/

/-- There is no query in a request where one is looked for. -/
structure HasNoQuery (limit : Nat) (request : Request) : Prop where
  parameter : queryInTarget? request.target = none
  header : queryInHeaders? request.headers = none
  body :
    announcesJson request.headers = true → request.body.content.length ≤ limit →
      takeQuery? request.body.content = none

def isSearched (limit : Nat) (request : Request) : Bool :=
  announcesJson request.headers && request.body.content.length ≤ limit

/-- No query was found, and the body to forward is the request's. -/
structure Unqueried (limit : Nat) (request : Request) (extraction : Extraction) : Prop where
  query : extraction.query = none
  isRebuilt : extraction.body.isRebuilt = isSearched limit request
  content : extraction.body.body.content = request.body.content
  noFailure : extraction.body.body.failure = none

theorem exists_unqueried
    {limit : Nat}
    {request : Request}
    (noQuery : HasNoQuery limit request)
    (noFailure : request.body.failure = none) :
    ∃ extraction, extractQuery limit request = .ok extraction ∧
      Unqueried limit request extraction := by
  rw [extractQuery, noQuery.parameter, noQuery.header]
  cases isJson : announcesJson request.headers with
  | false =>
      refine ⟨_, rfl, rfl, ?_, rfl, noFailure⟩
      simp [ForwardBody.isRebuilt, isSearched, isJson]
  | true =>
      rw [if_pos rfl, extractFromBody]
      by_cases fits : request.body.content.length ≤ limit
      · have complete := Body.buffer_of_fits fits
        rw [noFailure] at complete
        rw [complete]
        simp only [noQuery.body isJson fits]
        refine ⟨_, rfl, rfl, ?_, ?_, rfl⟩
        · simp [ForwardBody.isRebuilt, isSearched, isJson, fits]
        · simp [ForwardBody.body, Body.ofBytes, Body.content]
      · obtain ⟨replay, overflows, content, failure⟩ :=
          Body.exists_buffer_of_exceeds (Nat.not_le.mp fits)
        rw [overflows]
        refine ⟨_, rfl, rfl, ?_, content, failure.trans noFailure⟩
        simp [ForwardBody.isRebuilt, isSearched, isJson, fits]

/-! ## What the backend receives -/

def IsAddress (address : String) : Prop :=
  ∃ target, Uri.Target.ofString? address = some target ∧ target.scheme.isSome ∧
    target.authority.isSome

theorem isAddress_iff
    (method address : String)
    (headers : Headers)
    (body : Body) :
    IsAddress address ↔ ∃ sent, outbound method address headers body = .ok sent := by
  constructor
  · rintro ⟨target, isTarget, hasScheme, hasAuthority⟩
    obtain ⟨authority, hasAuthority⟩ := Option.isSome_iff_exists.mp hasAuthority
    exact ⟨_, outbound_eq_ok_iff.mpr ⟨target, authority, isTarget, hasScheme, hasAuthority, rfl⟩⟩
  · rintro ⟨sent, isSent⟩
    obtain ⟨target, authority, isTarget, hasScheme, hasAuthority, _⟩ :=
      outbound_eq_ok_iff.mp isSent
    exact ⟨target, isTarget, hasScheme, by simp [hasAuthority]⟩

/-- Does every length that is told with a body tell its length? -/
def TellsLength (headers : Headers) (body : Body) : Prop :=
  ∀ value ∈ headers.values "content-length",
    value = Bytes.ofString (toString body.content.length)

def droppedUnqueried (limit : Nat) (request : Request) : List String :=
  if isSearched limit request then ["content-length"] else []

/-- A client's request, sent to another address. -/
structure IsForwarded (limit : Nat) (request : Request) (address : String) (sent : Request) :
    Prop where
  method : sent.method = request.method
  target : Uri.Target.ofString? address = some sent.target
  content : sent.body.content = request.body.content
  noFailure : sent.body.failure = none
  clean : IsClean request.headers (droppedUnqueried limit request) sent
  /-- The length that the backend is told is right if the client's is. -/
  tellsLength :
    TellsLength request.headers request.body → TellsLength sent.headers sent.body

/-- What the client receives of the backend's answer. -/
structure IsPassedOn (response : Response) (id : Bytes) (received : Response) : Prop where
  status : received.status = response.status
  body : received.body = response.body
  carried :
    ∀ name, Passes response.headers name → response.headers.values name ≠ [] →
      received.headers.values name = response.headers.values name
  added :
    ∀ name, (Passes response.headers name → response.headers.values name = []) →
      received.headers.values name = addedValues id response.body name

/-- The answer that passes the gateway and what the server adds to it. -/
theorem isPassedOn_passthrough
    {request : Request}
    {id : Bytes}
    (hasId : request.headers.first? requestIdHeader = some id)
    (response : Response) :
    IsPassedOn response id
      (tellId request
        { response with headers := withoutHopByHop response.headers }.withLength) where
  status := by simp
  body := by simp
  carried := by
    intro name passes told
    rw [values_tellId_withLength hasId, values_withoutHopByHop_of_passes passes, if_neg told]
  added := by
    intro name untold
    have absent : (withoutHopByHop response.headers).values name = [] := by
      by_cases passes : Passes response.headers name
      · rw [values_withoutHopByHop_of_passes passes, untold passes]
      · exact values_withoutHopByHop_of_not_passes passes
    rw [values_tellId_withLength hasId, if_pos absent]

/-! ## From the client to the backend and back -/

theorem droppedFromPrimary_unqueried
    {limit : Nat}
    {request : Request}
    {extraction : Extraction}
    (unqueried : Unqueried limit request extraction) :
    droppedFromPrimary extraction = droppedUnqueried limit request := by
  simp [droppedFromPrimary, droppedUnqueried, unqueried.query, unqueried.isRebuilt]

theorem IsClean.tellsLength
    {limit : Nat}
    {request sent : Request}
    (clean : IsClean request.headers (droppedUnqueried limit request) sent)
    (content : sent.body.content = request.body.content)
    (tells : TellsLength request.headers request.body) :
    TellsLength sent.headers sent.body := by
  have notOwn : "content-length" ∉ ownHeaders := by decide
  intro value told
  by_cases excluded :
      IsExcluded request.headers (droppedUnqueried limit request) "content-length"
  · rw [clean.excluded _ notOwn excluded] at told
    cases told
  · rw [clean.carried _ notOwn excluded] at told
    rw [content]
    exact tells value told

section

variable
    {service : Service}
    {table : Routing.Table}
    {drawn : Drawn}
    {request : Request}

theorem isForwarded_of_prepares
    {primary : Primary}
    {extraction : Extraction}
    (unqueried : Unqueried service.limit request extraction)
    (prepares : Prepares service table (identified drawn request) extraction primary) :
    IsForwarded service.limit request primary.egress primary.request := by
  have clean := prepares.isClean.of_identified
  rw [droppedFromPrimary_unqueried unqueried] at clean
  obtain ⟨target, authority, isTarget, _, _, isRequest⟩ := outbound_eq_ok_iff.mp prepares.sent
  have sameContent : primary.request.body.content = request.body.content := by
    rw [isRequest, unqueried.content]
  constructor
  case method => rw [isRequest, identified_method]
  case target => rw [isRequest, isTarget]
  case content => exact sameContent
  case noFailure => rw [isRequest, unqueried.noFailure]
  case clean => exact clean
  case tellsLength => exact clean.tellsLength sameContent

theorem route_identified
    {ingress egress : String}
    (isFor : ingressAddress request = .ok ingress)
    (routed : table.resolve? ingress = some egress) :
    route table (identified drawn request) = .ok (ingress, egress) := by
  simp only [route, ingressAddress_identified, isFor, bind, Except.bind, routed]
  rfl

theorem exists_prepares
    {ingress egress : String}
    (isFor : ingressAddress request = .ok ingress)
    (routed : table.resolve? ingress = some egress)
    (noQuery : HasNoQuery service.limit request)
    (noFailure : request.body.failure = none)
    (isAddress : IsAddress egress)
    (drawn : Drawn) :
    ∃ extraction primary, Unqueried service.limit request extraction ∧ primary.query = none ∧
      primary.egress = egress ∧
      Prepares service table (identified drawn request) extraction primary := by
  obtain ⟨extraction, extracted, unqueried⟩ := exists_unqueried noQuery noFailure
  obtain ⟨sent, isSent⟩ := (isAddress_iff request.method egress
    (preparedHeaders (identified drawn request) extraction) extraction.body.body).mp isAddress
  rw [← identified_method drawn] at isSent
  rw [← extractQuery_identified] at extracted
  refine ⟨extraction, ⟨ingress, egress, none, _, sent⟩, unqueried, rfl, rfl,
    route_identified isFor routed, extracted, ?_, rfl, isSent⟩
  rw [unqueried.query]
  rfl

theorem ask_of_no_query
    {primary : Primary}
    {response : Response}
    (noQuery : primary.query = none)
    (answered : service.backend primary.request = .ok response)
    (succeeded : response.status < leastErrorStatus) :
    service.ask table primary =
      .ok (.passthrough { response with headers := withoutHopByHop response.headers }) := by
  simp only [Service.ask, fetch_of_success service.limit answered succeeded, noQuery]
  rfl

/-- A request without a query is all that is sent for it. -/
theorem sent_of_no_query
    {primary : Primary}
    (noQuery : primary.query = none)
    (boundary : String)
    (concurrency : Nat)
    (schedule : Nat → Happening)
    (time : Nat) :
    ((Reply.ofExcept (service.ask table primary)).response boundary concurrency schedule
        time).1 = [] := by
  refine List.eq_nil_iff_forall_not_mem.mpr fun sent member => ?_
  -- More requests would come from a walk, and there is none without a query.
  obtain ⟨_, _, _, _, _, replied, _⟩ := exists_task_of_mem_response member
  have isQueried := (walk_of_ask replied).1
  rw [noQuery] at isQueried
  cases isQueried

variable
    {ingress egress : String}
    (notHead : request.method ≠ "HEAD")
    (notConnect : request.method ≠ "CONNECT")
    (atPath : hasPath request.target = true)
    (isFor : ingressAddress request = .ok ingress)
    (routed : table.resolve? ingress = some egress)
    (noQuery : HasNoQuery service.limit request)
    (noFailure : request.body.failure = none)

include notHead notConnect atPath isFor routed noQuery noFailure

/--
Without a query, one request is sent, which is the client's at another address,
and the client receives the backend's answer unless that is an error.
-/
theorem serve_is_transparent
    (schedule : Nat → Happening)
    (time : Nat) :
    (IsAddress egress →
      ∃ sent, (service.serve table drawn schedule time request).sent = [sent] ∧
        IsForwarded service.limit request egress sent ∧
        ∀ response, service.backend sent = .ok response → response.status < 400 →
          IsPassedOn response
            ((request.headers.first? requestIdHeader).getD (Bytes.ofString drawn.requestId))
            (service.serve table drawn schedule time request).response) ∧
      (¬ IsAddress egress → (service.serve table drawn schedule time request).sent = []) := by
  constructor
  · intro isAddress
    obtain ⟨extraction, primary, unqueried, unread, rfl, prepares⟩ :=
      exists_prepares isFor routed noQuery noFailure isAddress drawn
    rw [serve_of_answer atPath prepares.answer_eq, sent_of_no_query unread]
    refine ⟨primary.request, rfl, isForwarded_of_prepares unqueried prepares, ?_⟩
    intro response answered succeeded
    rw [framed_eq_withLength notHead notConnect, ask_of_no_query unread answered succeeded]
    exact isPassedOn_passthrough (first?_identified drawn request) response
  · intro notAddress
    rcases answer_cases service table (identified drawn request) with
      ⟨error, answer⟩ | ⟨extraction, primary, prepares⟩
    · rw [serve_of_answer atPath answer]
      rfl
    · have sameRoute := prepares.routed.symm.trans (route_identified isFor routed)
      cases sameRoute
      exact absurd ((isAddress_iff _ _ _ _).mpr ⟨_, prepares.sent⟩) notAddress

end

/-! ## A pet that is changed -/

namespace PetStore

/-- A short body that announces JSON and comes in two chunks. -/
def change : Request :=
  ⟨"PUT", ⟨none, none, "/pets/1", none⟩,
    ⟨[("host", Bytes.ofString "gateway"), ("content-type", Bytes.ofString "application/json"),
      ("content-length", Bytes.ofString "2"), ("connection", Bytes.ofString "X-Trace, close"),
      ("x-trace", Bytes.ofString "1")]⟩,
    .streamed [Bytes.ofString "\x7b", Bytes.ofString "\x7d"] none⟩

theorem change_hasNoQuery :
    HasNoQuery service.limit change where
  parameter := rfl
  header := by decide +kernel
  body := fun _ _ => by decide +kernel

theorem isTarget :
    Uri.Target.ofString? "http://pets/1" = some ⟨some "http", some "pets", "/1", none⟩ := by
  decide +kernel

/-- The pet is changed by its backend, and the client is told. -/
theorem change_passes :
    ∃ sent, (service.serve table drawn polling 0 change).sent = [sent] ∧
      IsForwarded service.limit change "http://pets/1" sent ∧
      IsPassedOn petVisit.response (Bytes.ofString "1")
        (service.serve table drawn polling 0 change).response := by
  have ingress : ingressAddress change = .ok "http://gateway/pets/1" := by decide +kernel
  have egress : table.resolve? "http://gateway/pets/1" = some "http://pets/1" := by decide +kernel
  obtain ⟨sent, isSent, forwarded, answered⟩ :=
    (serve_is_transparent (by decide) (by decide) (by decide +kernel) ingress egress
      change_hasNoQuery rfl polling 0).1 ⟨_, isTarget, rfl, rfl⟩
  have toPets : sent.target.authority = some "pets" := by
    rw [← Option.some.inj (isTarget.symm.trans forwarded.target)]
  refine ⟨sent, isSent, forwarded, answered petVisit.response ?_ (by decide)⟩
  simp [service, toPets]

end PetStore

end QueryGateway.Gateway
