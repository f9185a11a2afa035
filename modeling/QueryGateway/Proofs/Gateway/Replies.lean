import QueryGateway.Gateway.Answer
import QueryGateway.Proofs.Gateway.Visits
import QueryGateway.Proofs.Result

/-!
# How a reply comes about

Once the backend has been asked, there are six ways on.  Its answer passes, or
it is projected with or without follow-ups; or the backend fails, or the
projection does, or there are follow-ups but no address that their links could
be relative to.  `Service.Replies` says so for each kind of reply, and what the
gateway replies is always one of these.
-/

namespace QueryGateway.Gateway

open Message

/-- The document that the backend answers with, and its projection by the query. -/
structure Service.Finds (service : Service) (primary : Primary) (document : Query.Document)
    (visit : Visit) : Prop where
  queried : primary.query = some document
  requested : visit.request = primary.request
  projected :
    ∃ source, service.backend.Delivers service.limit visit source ∧
      Projection.project document source = .ok visit.projection

/-- The walk of the follow-ups that a request leads to. -/
def Service.walk (service : Service) (table : Routing.Table) (primary : Primary)
    (document : Query.Document) (base : Uri.Url) : Walk where
  backend := service.backend
  table := table
  document := document
  base := base
  headers := followUpHeaders primary.headers
  limit := service.limit

/-- The replies that the backend's answer can lead to. -/
inductive Service.Replies (service : Service) (table : Routing.Table) (primary : Primary) :
    Reply → Prop where
  | passthrough
      {response : Response}
      (unqueried : primary.query = none)
      (answered : service.backend primary.request = .ok response)
      (succeeded : response.status < leastErrorStatus) :
      service.Replies table primary
        (.passthrough { response with headers := withoutHopByHop response.headers })
  | projected
      {document : Query.Document}
      {visit : Visit}
      (finds : service.Finds primary document visit)
      (complete : visit.projection.followUps = []) :
      service.Replies table primary
        (.projected visit.response.status (ownBodyHeaders visit.response.headers)
          visit.projection.target)
  | multipart
      {document : Query.Document}
      {visit : Visit}
      {base : Uri.Url}
      (finds : service.Finds primary document visit)
      (incomplete : visit.projection.followUps ≠ [])
      (isUrl : Uri.Url.ofString primary.ingress = .ok base) :
      service.Replies table primary
        (.multipart visit.response.status visit.part (service.walk table primary document base)
          visit.projection.followUps)
  | refused
      (error : BackendError) :
      service.Replies table primary (.failed (.backend error))
  | unprojected
      (error : Projection.ProjectionError) :
      service.Replies table primary (.failed (.projection error))
  | baseless
      {document : Query.Document}
      {visit : Visit}
      {error : Uri.UrlError}
      (finds : service.Finds primary document visit)
      (incomplete : visit.projection.followUps ≠ [])
      (noUrl : Uri.Url.ofString primary.ingress = .error error) :
      service.Replies table primary (.failed (.badRequest error.message))

theorem success_of_fetch
    {backend : Backend}
    {limit : Nat}
    {request : Request}
    {response : Response}
    (fetched : fetch backend limit request = .ok response) :
    backend request = .ok response ∧ response.status < leastErrorStatus := by
  obtain ⟨answer, answered, fetched⟩ := bind_eq_ok.mp fetched
  split at fetched
  · cases fetched
  · rename_i noError
    cases fetched
    exact ⟨answered, Nat.not_le.mp noError⟩

theorem isJson_of_readJson
    {limit : Nat}
    {address : String}
    {body : Body}
    {source : Json.Value}
    (isRead : readJson limit address body = .ok source) :
    ∃ content, body.read limit = .ok content ∧ Json.ofBytes? content = some source := by
  rw [readJson] at isRead
  cases read : body.read limit with
  | error error =>
      rw [read] at isRead
      cases isRead
  | ok content =>
      simp only [read] at isRead
      cases isJson : Json.ofBytes? content with
      | none =>
          rw [isJson] at isRead
          cases isRead
      | some value =>
          rw [isJson] at isRead
          cases isRead
          exact ⟨content, rfl, isJson⟩

/-- The answer of a backend is read and projected, or this fails, or its links lead nowhere. -/
theorem replies_of_projectedReply
    {service : Service}
    {primary : Primary}
    {response : Response}
    {document : Query.Document}
    (table : Routing.Table)
    (queried : primary.query = some document)
    (answered : service.backend primary.request = .ok response)
    (succeeded : response.status < leastErrorStatus) :
    service.Replies table primary
      (.ofExcept (service.projectedReply table primary document response)) := by
  simp only [Service.projectedReply, bind, Except.bind, Except.mapError]
  cases isRead : readJson service.limit primary.egress response.body with
  | error error => exact .refused error
  | ok source =>
      cases projected : Projection.project document source with
      | error error =>
          simp only [projected]
          exact .unprojected error
      | ok projection =>
          have finds : service.Finds primary document ⟨primary.request, response, projection⟩ :=
            ⟨queried, rfl, source, ⟨answered, succeeded, isJson_of_readJson isRead⟩, projected⟩
          simp only [projected]
          by_cases complete : projection.followUps = []
          · rw [if_pos (List.isEmpty_iff.mpr complete)]
            exact .projected finds complete
          · rw [if_neg (mt List.isEmpty_iff.mp complete)]
            cases isUrl : Uri.Url.ofString primary.ingress with
            | error error => exact .baseless finds complete isUrl
            | ok base => exact .multipart finds complete isUrl

/-- What the gateway replies after it has asked the backend. -/
theorem replies_of_ask
    (service : Service)
    (table : Routing.Table)
    (primary : Primary) :
    service.Replies table primary (.ofExcept (service.ask table primary)) := by
  rw [Service.ask]
  cases fetched : fetch service.backend service.limit primary.request with
  | error error => exact .refused error
  | ok response =>
      obtain ⟨answered, succeeded⟩ := success_of_fetch fetched
      cases queried : primary.query with
      | none => exact .passthrough queried answered succeeded
      | some document => exact replies_of_projectedReply table queried answered succeeded

end QueryGateway.Gateway
