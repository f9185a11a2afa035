import QueryGateway.Proofs.Gateway.Hygiene
import QueryGateway.Proofs.Gateway.Identification
import QueryGateway.Proofs.Gateway.Inspection
import QueryGateway.Proofs.Gateway.Transparency

/-!
# Which query counts

A parameter of the target comes before a header, and a header before the body.
The first of them that is there decides: its text is the query, and the places
behind it are not looked at.  In particular the body is forwarded as it came.

A header whose first value is readable decides in this way.  One that is not
readable is passed over as if it were not there, so that the body is searched,
or the answer of the backend passes as a whole.
-/

namespace QueryGateway.Gateway

open Message

/-- The parameters of a target with what they stand for, in their order. -/
def parameters (target : Uri.Target) : List (String × String) :=
  (target.query.map Uri.Form.pairs).getD []

theorem queryInTarget?_eq
    (target : Uri.Target) :
    queryInTarget? target = (parameters target).lookup queryKey := by
  rw [queryInTarget?, parameters]
  cases target.query <;> rfl

theorem queryInTarget?_eq_some_iff
    {target : Uri.Target}
    {text : String} :
    queryInTarget? target = some text ↔
      ∃ earlier later, parameters target = earlier ++ (queryKey, text) :: later ∧
        ∀ parameter ∈ earlier, parameter.1 ≠ queryKey := by
  rw [queryInTarget?_eq, List.lookup_eq_some_iff]
  simp only [bne_iff_ne, ne_comm]

theorem queryInTarget?_eq_none_iff
    {target : Uri.Target} :
    queryInTarget? target = none ↔
      ∀ parameter ∈ parameters target, parameter.1 ≠ queryKey := by
  rw [queryInTarget?_eq, List.lookup_eq_none_iff]
  simp only [bne_iff_ne, ne_comm]

/-- Where a header is what counts, its first value is readable. -/
def HasReadableQuery (request : Request) : Prop :=
  (∀ parameter ∈ parameters request.target, parameter.1 ≠ queryKey) →
    ∀ value, request.headers.first? queryHeader = some value →
      ∃ text, readable? value = some text

/-- The first place that there is decides where the query of a request is found. -/
inductive Ranks (limit : Nat) (request : Request) : Except GatewayError Extraction → Prop where
  | parameter
      {earlier later : List (String × String)}
      {text : String}
      (parameters : parameters request.target = earlier ++ (queryKey, text) :: later)
      (isFirst : ∀ parameter ∈ earlier, parameter.1 ≠ queryKey) :
      Ranks limit request (.ok ⟨some (text, .parameter), .untouched request.body⟩)
  | header
      {text : String}
      {others : List Bytes}
      (noParameter : ∀ parameter ∈ parameters request.target, parameter.1 ≠ queryKey)
      (values : request.headers.values queryHeader = Bytes.ofString text :: others) :
      Ranks limit request (.ok ⟨some (text, .header), .untouched request.body⟩)
  | body
      {result : Except GatewayError Extraction}
      (noParameter : ∀ parameter ∈ parameters request.target, parameter.1 ≠ queryKey)
      (noHeader : request.headers.values queryHeader = [])
      (isJson : announcesJson request.headers = true)
      (inspects : Inspects limit request.body result) :
      Ranks limit request result
  | nowhere
      (noParameter : ∀ parameter ∈ parameters request.target, parameter.1 ≠ queryKey)
      (noHeader : request.headers.values queryHeader = [])
      (notJson : announcesJson request.headers = false) :
      Ranks limit request (.ok ⟨none, .untouched request.body⟩)

theorem extractQuery_ranks
    (limit : Nat)
    {request : Request}
    (isReadable : HasReadableQuery request) :
    Ranks limit request (extractQuery limit request) := by
  rw [extractQuery]
  cases inTarget : queryInTarget? request.target with
  | some text =>
      rcases queryInTarget?_eq_some_iff.mp inTarget with ⟨earlier, later, parameters, isFirst⟩
      exact .parameter parameters isFirst
  | none =>
      have noParameter := queryInTarget?_eq_none_iff.mp inTarget
      have isReadable := isReadable noParameter
      rw [Headers.first?_eq_head?] at isReadable
      simp only [queryInHeaders?, Headers.firstText?, Headers.first?_eq_head?]
      cases values : request.headers.values queryHeader with
      | cons value others =>
          rw [values] at isReadable
          rcases isReadable value rfl with ⟨text, isText⟩
          simp only [List.head?_cons, Option.bind_some, isText]
          apply Ranks.header noParameter
          rw [values, ofString_of_readable isText]
      | nil =>
          cases isJson : announcesJson request.headers with
          | true => exact .body noParameter values isJson (inspects_extractFromBody _ _)
          | false => exact .nowhere noParameter values isJson

/--
A text that is taken for the query decides what becomes of a request.  It is
rejected if the text is no query, or asked for with its own body, and what the
backend answers does not just pass.
-/
inductive Exchange.Follows (exchange : Exchange) (service : Service) (table : Routing.Table)
    (body : Body) (text : String) : Prop where
  | unserved
      (noReply : exchange.reply = none)
      (unsent : exchange.sent = [])
  | rejected
      {error : GatewayError}
      (replied : exchange.reply = some (.failed error))
      (unsent : exchange.sent = [])
  | asked
      {document : Query.Document}
      {primary : Primary}
      {reply : Reply}
      (parsed : readQuery text = .ok document)
      (queried : primary.query = some document)
      (sameBody : primary.request.body = body)
      (sent : exchange.sent.head? = some primary.request)
      (replied : exchange.reply = some reply)
      (replies : service.Replies table primary reply)
      (notPassed : ∀ response, reply ≠ .passthrough response)

/-- The answer of the backend passes only if there was no query. -/
theorem Service.Replies.ne_passthrough
    {service : Service}
    {table : Routing.Table}
    {primary : Primary}
    {reply : Reply}
    (replies : service.Replies table primary reply)
    {document : Query.Document}
    (queried : primary.query = some document)
    (response : Response) :
    reply ≠ .passthrough response := by
  rintro rfl
  cases replies with
  | passthrough unqueried =>
      rw [unqueried] at queried
      cases queried

theorem serve_follows
    {service : Service}
    {request : Request}
    {text : String}
    {place : QuerySource}
    (extracted :
      extractQuery service.limit request = .ok ⟨some (text, place), .untouched request.body⟩)
    (table : Routing.Table)
    (drawn : Drawn)
    (schedule : Nat → Happening)
    (time : Nat) :
    (service.serve table drawn schedule time request).Follows service table request.body text := by
  cases atPath : hasPath request.target with
  | false =>
      rw [serve_of_no_path atPath]
      exact .unserved rfl rfl
  | true =>
      rcases answer_cases service table (identified drawn request) with
        ⟨error, answer⟩ | ⟨extraction, primary, prepares⟩
      · rw [serve_of_answer atPath answer]
        exact .rejected rfl rfl
      · rw [serve_of_answer atPath prepares.answer_eq]
        have isFound := prepares.extracted
        rw [extractQuery_identified, extracted] at isFound
        cases isFound
        rcases bind_eq_ok.mp prepares.parsed with ⟨document, parsed, isQuery⟩
        have queried : primary.query = some document := (Except.ok.inj isQuery).symm
        rcases outbound_eq_ok_iff.mp prepares.sent with ⟨_, _, _, _, _, isRequest⟩
        have sameBody : primary.request.body = request.body := by
          rw [isRequest]
          rfl
        have replies := replies_of_ask service table primary
        exact .asked parsed queried sameBody rfl rfl replies (replies.ne_passthrough queried)

/--
The first place that there is decides where the query of a request is found, as
long as a header that is there is readable.  What is found in a parameter or in
a header decides what becomes of the request.
-/
theorem serve_ranks_places
    (service : Service)
    (table : Routing.Table)
    (drawn : Drawn)
    (schedule : Nat → Happening)
    (time : Nat)
    {request : Request}
    (isReadable : HasReadableQuery request) :
    Ranks service.limit request (extractQuery service.limit request) ∧
      ∀ text place,
        extractQuery service.limit request =
            .ok ⟨some (text, place), .untouched request.body⟩ →
          (service.serve table drawn schedule time request).Follows service table request.body text := by
  constructor
  · exact extractQuery_ranks service.limit isReadable
  · intro text place extracted
    exact serve_follows extracted table drawn schedule time

/-! ## A pet that is asked for in two places -/

namespace PetStore

/-- The body asks for something else than the header. -/
def askedTwice (header : Bytes) : Request :=
  ⟨"POST", ⟨none, none, "/pets/1", none⟩,
    ⟨[("host", Bytes.ofString "gateway"), ("content-type", Bytes.ofString "application/json"),
      (queryHeader, header)]⟩,
    .ofBytes (Bytes.ofString "\x7b\"_meshcaline_query\":\"\x7b name \x7d\",\"id\":1\x7d")⟩

theorem header_counts :
    HasReadableQuery (askedTwice (Bytes.ofString query)) ∧
      Ranks service.limit (askedTwice (Bytes.ofString query))
        (extractQuery service.limit (askedTwice (Bytes.ofString query))) ∧
      (service.serve table drawn polling 2 (askedTwice (Bytes.ofString query))).Follows service table
        (askedTwice (Bytes.ofString query)).body query := by
  have isReadable : HasReadableQuery (askedTwice (Bytes.ofString query)) := by
    intro _ value first
    have isQuery : (askedTwice (Bytes.ofString query)).headers.first? queryHeader =
        some (Bytes.ofString query) := by
      decide +kernel
    cases isQuery.symm.trans first
    exact ⟨query, by decide +kernel⟩
  rcases serve_ranks_places service table drawn polling 2 isReadable with ⟨ranks, follows⟩
  exact ⟨isReadable, ranks, follows query .header (by decide +kernel)⟩

/-- The value of the header is a letter outside ASCII. -/
def unreadable : Bytes :=
  Bytes.ofString "é"

/-- A pet is asked for in a header alone, and nothing announces a body. -/
def askedUnreadably : Request :=
  { askedTwice unreadable with
    headers := ⟨[("host", Bytes.ofString "gateway"), (queryHeader, unreadable)]⟩ }

/--
There is a header, but the query is taken from the body and out of it; and where
the body is not searched, the answer of the backend passes.
-/
theorem unreadable_is_passed_over :
    (askedTwice unreadable).headers.values queryHeader = [unreadable] ∧
      extractQuery service.limit (askedTwice unreadable) =
        .ok ⟨some ("\x7b name \x7d", .body), .rebuilt (Bytes.ofString "\x7b\"id\":1\x7d")⟩ ∧
      askedUnreadably.headers.values queryHeader = [unreadable] ∧
      ∃ response,
        (service.serve table drawn polling 2 askedUnreadably).reply = some (.passthrough response) := by
  have ingress : ingressAddress askedUnreadably = .ok "http://gateway/pets/1" := by decide +kernel
  have egress : table.resolve? "http://gateway/pets/1" = some "http://pets/1" := by decide +kernel
  have noQuery : HasNoQuery service.limit askedUnreadably :=
    ⟨rfl, by decide +kernel, fun isJson _ => absurd isJson (by decide +kernel)⟩
  rcases exists_prepares ingress egress noQuery rfl ⟨_, isTarget, rfl, rfl⟩ drawn with
    ⟨extraction, primary, _, unread, _, prepares⟩
  refine ⟨by decide +kernel, by decide +kernel, by decide +kernel, ?_⟩
  have succeeded : ∀ request, ∃ response, service.backend request = .ok response ∧
      response.status < leastErrorStatus := by
    intro request
    refine ⟨_, rfl, ?_⟩
    split <;> decide
  rcases succeeded primary.request with ⟨response, answered, succeeded⟩
  rw [serve_of_answer (by decide +kernel) prepares.answer_eq,
    ask_of_no_query unread answered succeeded]
  exact ⟨_, rfl⟩

end PetStore

end QueryGateway.Gateway
