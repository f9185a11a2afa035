import QueryGateway.Proofs.Gateway.Delivery
import QueryGateway.Proofs.Gateway.Replies

/-!
# Requests that are rejected

Some errors blame the request: there is no route for it, its query is no query,
or it is bad in itself.  They come up before the backend is asked, with one
exception.  The address that links are relative to is read only when links are
to be followed, which is after the backend has answered.  If the request's own
address is none, the request is rejected then, although it was sent.
-/

namespace QueryGateway.Gateway

open Message

/-- The types of the errors that blame the request. -/
def requestFaults : List String :=
  ["no_route", "invalid_query", "bad_request"]

def GatewayError.BlamesRequest (error : GatewayError) : Prop :=
  error.label ∈ requestFaults

theorem not_blamesRequest_backend
    (error : BackendError) :
    ¬ (GatewayError.backend error).BlamesRequest := by
  cases error <;>
    simp [GatewayError.BlamesRequest, GatewayError.label, BackendError.label, requestFaults]

theorem not_blamesRequest_projection
    (error : Projection.ProjectionError) :
    ¬ (GatewayError.projection error).BlamesRequest := by
  cases error <;> simp [GatewayError.BlamesRequest, GatewayError.label, requestFaults]

/-- Links are to be followed, and there is no address that they are relative to. -/
structure Service.LacksBase (service : Service) (primary : Primary) : Prop where
  links :
    ∃ document visit, service.Finds primary document visit ∧ visit.projection.followUps ≠ []
  noUrl : ∃ error, Uri.Url.ofString primary.ingress = .error error

/-- A request is sent, and it is found only then that it has no address for links. -/
def Service.RejectsLate (service : Service) (table : Routing.Table) (request : Request) : Prop :=
  ∃ extraction primary, Prepares service table request extraction primary ∧
    service.LacksBase primary

section

variable
    {service : Service}
    {table : Routing.Table}
    {error : GatewayError}

theorem lacksBase_of_fault
    {primary : Primary}
    (failed : .ofExcept (service.ask table primary) = Reply.failed error)
    (fault : error.BlamesRequest) :
    service.LacksBase primary := by
  have replies := replies_of_ask service table primary
  rw [failed] at replies
  cases replies with
  | refused error => exact absurd fault (not_blamesRequest_backend error)
  | unprojected error => exact absurd fault (not_blamesRequest_projection error)
  | baseless finds incomplete noUrl => exact ⟨⟨_, _, finds, incomplete⟩, _, noUrl⟩

theorem Service.LacksBase.ask_eq
    {primary : Primary}
    (lacksBase : service.LacksBase primary)
    (table : Routing.Table) :
    ∃ detail, service.ask table primary = .error (.badRequest detail) := by
  obtain ⟨document, visit, finds, incomplete⟩ := lacksBase.links
  obtain ⟨error, noUrl⟩ := lacksBase.noUrl
  obtain ⟨source, delivers, projected⟩ := finds.projected
  obtain ⟨content, read, isJson⟩ := delivers.isJson
  have fetched := fetch_of_success service.limit delivers.answered delivers.succeeded
  have wasRead := readJson_of_success primary.egress read isJson
  rw [finds.requested] at fetched
  refine ⟨error.message, ?_⟩
  simp only [Service.ask, fetched, finds.queried, Service.projectedReply, wasRead, projected,
    noUrl, Except.mapError, bind, Except.bind]
  exact if_neg (mt List.isEmpty_iff.mp incomplete)

theorem Prepares.ingressAddress_eq
    {request : Request}
    {extraction : Extraction}
    {primary : Primary}
    (prepares : Prepares service table request extraction primary) :
    ingressAddress request = .ok primary.ingress := by
  obtain ⟨ingress, isFor, routed⟩ := bind_eq_ok.mp prepares.routed
  split at routed
  · cases routed
  · cases routed
    exact isFor

variable
    {drawn : Drawn}
    {request : Request}

/--
A request that is to blame for its error is sent to no backend, unless links are
to be followed and its own address is none that they can be relative to.
-/
theorem serve_rejects
    (schedule : Nat → Happening)
    (time : Nat)
    (failed : (service.serve table drawn schedule time request).reply = some (.failed error))
    (fault : error.BlamesRequest) :
    ((service.serve table drawn schedule time request).sent = [] ↔
        ¬ service.RejectsLate table (identified drawn request)) ∧
      ((∀ ingress, ingressAddress request = .ok ingress →
          ∃ url, Uri.Url.ofString ingress = .ok url) →
        (service.serve table drawn schedule time request).sent = []) := by
  cases atPath : hasPath request.target with
  | false =>
      rw [serve_of_no_path atPath] at failed
      cases failed
  | true =>
      rcases answer_cases service table (identified drawn request) with
        ⟨other, answer⟩ | ⟨extraction, primary, prepares⟩
      · have unsent : (service.serve table drawn schedule time request).sent = [] := by
          rw [serve_of_answer atPath answer]
          rfl
        refine ⟨⟨?_, fun _ => unsent⟩, fun _ => unsent⟩
        rintro - ⟨extraction, primary, prepares, _⟩
        have sent := congrArg Prod.fst (answer.symm.trans prepares.answer_eq)
        cases sent
      · rw [serve_of_answer atPath prepares.answer_eq] at failed ⊢
        have lacksBase := lacksBase_of_fault (Option.some.inj failed) fault
        have late : service.RejectsLate table (identified drawn request) :=
          ⟨extraction, primary, prepares, lacksBase⟩
        constructor
        · constructor
          · intro unsent
            cases unsent
          · intro early
            exact absurd late early
        · intro isUrl
          -- The gateway has no address for links only where the request has none.
          obtain ⟨url, isUrl⟩ := isUrl primary.ingress
            ((ingressAddress_identified drawn request).symm.trans prepares.ingressAddress_eq)
          obtain ⟨error, noUrl⟩ := lacksBase.noUrl
          rw [isUrl] at noUrl
          cases noUrl

end

/-! ## Pets at addresses that are none -/

namespace PetStore

/-- There is nothing about cats in the table. -/
def catRequest : Request :=
  { request with target := ⟨none, none, "/cats/1", none⟩ }

theorem cat_has_no_route :
    (service.serve table drawn polling 2 catRequest).reply =
      some (.failed (.noRoute "http://gateway/cats/1")) := by
  have unrouted : route table (identified drawn catRequest) =
      .error (.noRoute "http://gateway/cats/1") := by
    decide +kernel
  have answer : service.answer table (identified drawn catRequest) =
      ([], .failed (.noRoute "http://gateway/cats/1")) := by
    simp only [Service.answer, Service.prepare, unrouted, bind, Except.bind]
  rw [serve_of_answer (by cbv) answer]

def catUrl : Uri.Url :=
  (Uri.Url.ofString "http://gateway/cats/1").toOption.get (by decide +kernel)

theorem cat_is_rejected :
    (GatewayError.noRoute "http://gateway/cats/1").BlamesRequest ∧
      ((service.serve table drawn polling 2 catRequest).sent = [] ↔
        ¬ service.RejectsLate table (identified drawn catRequest)) ∧
      (service.serve table drawn polling 2 catRequest).sent = [] := by
  have fault : (GatewayError.noRoute "http://gateway/cats/1").BlamesRequest := .head _
  have isUrl : ∃ url, Uri.Url.ofString "http://gateway/cats/1" = .ok url :=
    ⟨catUrl, by decide +kernel⟩
  have isFor : ingressAddress catRequest = .ok "http://gateway/cats/1" := by
    cbv
  obtain ⟨early, unsent⟩ := serve_rejects polling 2 cat_has_no_route fault
  refine ⟨fault, early, unsent fun ingress isForSame => ?_⟩
  obtain rfl : "http://gateway/cats/1" = ingress := Except.ok.inj (isFor.symm.trans isForSame)
  exact isUrl

/-- The pet is served at a port that is none, and what is told of it links to its toy. -/
def farTable : Routing.Table :=
  match Routing.Mapping.compile "pets" "http://gateway:99999/pets/1" "http://pets/1" with
  | .ok mapping => ⟨[mapping], 0⟩
  | .error _ => ⟨[], 0⟩

def farRequest : Request :=
  { request with
    headers :=
      ⟨[("host", Bytes.ofString "gateway:99999"), (queryHeader, Bytes.ofString query),
        (requestIdHeader, Bytes.ofString "7")]⟩ }

def farPrimary : Primary where
  ingress := "http://gateway:99999/pets/1"
  egress := "http://pets/1"
  query := some document
  headers := queriedHeaders (identified drawn farRequest) (.untouched .empty)
  request := petVisit.request

theorem farRequest_prepares :
    Prepares service farTable (identified drawn farRequest)
      ⟨some (query, .header), .untouched .empty⟩ farPrimary where
  routed := by decide +kernel
  extracted := by decide +kernel
  parsed := bind_eq_ok.mpr ⟨document, mapError_eq_ok.mpr parsed, rfl⟩
  headers := rfl
  sent := by decide +kernel

theorem farRequest_lacksBase :
    service.LacksBase farPrimary where
  links := ⟨document, petVisit, ⟨rfl, rfl, queried.projected⟩, by decide⟩
  noUrl := by
    cases isUrl : Uri.Url.ofString "http://gateway:99999/pets/1" with
    | error error => exact ⟨error, isUrl⟩
    | ok url =>
        have noUrl : (Uri.Url.ofString "http://gateway:99999/pets/1").toOption = none := by
          decide +kernel
        rw [isUrl] at noUrl
        cases noUrl

/-- The pet is asked for, and then the request for it is said to be bad. -/
theorem far_is_rejected_after_sending :
    ∃ error,
      (service.serve farTable drawn polling 2 farRequest).reply = some (.failed error) ∧
        error.BlamesRequest ∧
        (service.serve farTable drawn polling 2 farRequest).sent = [petVisit.request] := by
  obtain ⟨detail, asked⟩ := farRequest_lacksBase.ask_eq farTable
  have answer := farRequest_prepares.answer_eq
  rw [asked] at answer
  refine ⟨.badRequest detail, ?_, .tail _ (.tail _ (.head _)), ?_⟩
  · rw [serve_of_answer (by cbv) answer]
    rfl
  · rw [serve_of_answer (by cbv) answer]
    rfl

end PetStore

end QueryGateway.Gateway
