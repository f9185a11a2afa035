import QueryGateway.Gateway.Answer
import QueryGateway.Proofs.Result

/-!
# What is made ready for the backend

A request is sent to the backend when all has succeeded that comes before: it
is routed, the place of its query is found, the query is read if there is one,
and the address that it is routed to can be sent to.
-/

namespace QueryGateway.Gateway

open Message

/-! ## Requests to addresses -/

theorem outbound_eq_ok_iff
    {method address : String}
    {headers : Headers}
    {body : Body}
    {sent : Request} :
    outbound method address headers body = .ok sent ↔
      ∃ target authority,
        Uri.Target.ofString? address = some target ∧ target.scheme.isSome ∧
          target.authority = some authority ∧
          sent = ⟨method, target, headers.putText "host" authority, body⟩ := by
  rw [outbound]
  cases isTarget : Uri.Target.ofString? address with
  | none => simp
  | some target =>
      obtain ⟨scheme, authority, path, query⟩ := target
      cases scheme with
      | none => simp
      | some scheme =>
          cases authority with
          | none => simp
          | some authority => simpa using eq_comm

/-! ## Requests that are sent -/

def preparedHeaders (request : Request) (extraction : Extraction) : Headers :=
  (forwardHeaders request.headers ⟨extraction.body.isRebuilt, extraction.query.isSome⟩).putText
    requestIdHeader (requestId request.headers)

/-- Everything is made ready for a request with what was found in it. -/
structure Prepares (service : Service) (table : Routing.Table) (request : Request)
    (extraction : Extraction) (primary : Primary) : Prop where
  routed : route table request = .ok (primary.ingress, primary.egress)
  extracted : extractQuery service.limit request = .ok extraction
  parsed : extraction.query.mapM (fun (text, _) => readQuery text) = .ok primary.query
  headers : primary.headers = preparedHeaders request extraction
  sent :
    outbound request.method primary.egress primary.headers extraction.body.body =
      .ok primary.request

theorem isSome_of_mapM
    {ε α β : Type}
    {value : Option α}
    {read : α → Except ε β}
    {result : Option β}
    (succeeds : value.mapM read = .ok result) :
    result.isSome = value.isSome := by
  cases value with
  | none =>
      cases succeeds
      rfl
  | some value =>
      obtain ⟨_, _, isRead⟩ := bind_eq_ok.mp succeeds
      cases isRead
      rfl

theorem prepare_eq_ok_iff
    {service : Service}
    {table : Routing.Table}
    {request : Request}
    {primary : Primary} :
    service.prepare table request = .ok primary ↔
      ∃ extraction, Prepares service table request extraction primary := by
  rw [Service.prepare, bind_eq_ok]
  constructor
  · rintro ⟨⟨ingress, egress⟩, routed, rest⟩
    obtain ⟨extraction, extracted, rest⟩ := bind_eq_ok.mp rest
    obtain ⟨query, parsed, rest⟩ := bind_eq_ok.mp rest
    obtain ⟨outgoing, sent, rest⟩ := bind_eq_ok.mp rest
    cases rest
    refine ⟨extraction, routed, extracted, parsed, ?_, mapError_eq_ok.mp sent⟩
    rw [isSome_of_mapM parsed]
    rfl
  · rintro ⟨extraction, routed, extracted, parsed, headers, sent⟩
    obtain ⟨ingress, egress, query, own, outgoing⟩ := primary
    have isSame := isSome_of_mapM parsed
    simp only at routed parsed headers sent isSame
    subst headers
    refine ⟨_, routed, ?_⟩
    refine bind_eq_ok.mpr ⟨extraction, extracted, ?_⟩
    refine bind_eq_ok.mpr ⟨query, parsed, ?_⟩
    rw [isSame]
    exact bind_eq_ok.mpr ⟨outgoing, mapError_eq_ok.mpr sent, rfl⟩

theorem Prepares.answer_eq
    {service : Service}
    {table : Routing.Table}
    {request : Request}
    {extraction : Extraction}
    {primary : Primary}
    (prepares : Prepares service table request extraction primary) :
    service.answer table request =
      ([primary.request], .ofExcept (service.ask table primary)) := by
  rw [Service.answer, prepare_eq_ok_iff.mpr ⟨extraction, prepares⟩]

/-- Nothing is sent, or the request that was made ready. -/
theorem answer_cases
    (service : Service)
    (table : Routing.Table)
    (request : Request) :
    (∃ error, service.answer table request = ([], .failed error)) ∨
      ∃ extraction primary, Prepares service table request extraction primary := by
  cases prepared : service.prepare table request with
  | error error =>
      left
      rw [Service.answer, prepared]
      exact ⟨error, rfl⟩
  | ok primary =>
      obtain ⟨extraction, prepares⟩ := prepare_eq_ok_iff.mp prepared
      exact .inr ⟨extraction, primary, prepares⟩

end QueryGateway.Gateway
