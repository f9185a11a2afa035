import Mathlib.Data.List.Basic
import QueryGateway.Gateway.QuerySource
import QueryGateway.Proofs.Message.Body

/-!
# What comes of searching a body

The body of a request that announces JSON is searched for a query.  What comes
of it is told by the bytes of the body, by the failure behind them if there is
one, and by the limit; how the bytes are cut into chunks is of no importance.

Within the limit the whole body is read, and a query is taken out of it.  Beyond
the limit the body is not searched, and every byte of it is forwarded, with the
failure at the same place.
-/

namespace QueryGateway.Gateway

open Message

/-- What comes of searching a body. -/
inductive Inspects (limit : Nat) (body : Body) : Except GatewayError Extraction → Prop where
  /-- The failure is met before more than the limit was read. -/
  | broken
      {detail : String}
      (fits : body.content.length ≤ limit)
      (fails : body.failure = some detail) :
      Inspects limit body (.error (.badRequest ("failed to read request body: " ++ detail)))
  /-- The same bytes are forwarded, and the same failure behind them. -/
  | passed
      {forwarded : Body}
      (exceeds : limit < body.content.length)
      (content : forwarded.content = body.content)
      (failure : forwarded.failure = body.failure) :
      Inspects limit body (.ok ⟨none, .untouched forwarded⟩)
  /-- The query is taken out of the object that holds it. -/
  | taken
      {members : List (String × Json.Value)}
      {query : String}
      (fits : body.content.length ≤ limit)
      (noFailure : body.failure = none)
      (isObject : Json.ofBytes? body.content = some (.object members))
      (isQuery : Json.Members.find? members queryKey = some (.string query)) :
      Inspects limit body
        (.ok ⟨some (query, .body),
          .rebuilt (Bytes.ofString
            (Json.Value.object (Json.Members.erase queryKey members)).render)⟩)
  | kept
      (fits : body.content.length ≤ limit)
      (noFailure : body.failure = none)
      (noQuery :
        ∀ members query, Json.ofBytes? body.content = some (.object members) →
          Json.Members.find? members queryKey ≠ some (.string query)) :
      Inspects limit body (.ok ⟨none, .rebuilt body.content⟩)

/-- The same error, or the same query and a body that brings the same bytes and failure. -/
inductive Alike : Except GatewayError Extraction → Except GatewayError Extraction → Prop where
  | failed (error : GatewayError) : Alike (.error error) (.error error)
  | found
      {left right : Extraction}
      (query : left.query = right.query)
      (isRebuilt : left.body.isRebuilt = right.body.isRebuilt)
      (content : left.body.body.content = right.body.body.content)
      (failure : left.body.body.failure = right.body.body.failure) :
      Alike (.ok left) (.ok right)

theorem Alike.refl
    (result : Except GatewayError Extraction) :
    Alike result result := by
  cases result with
  | error error => exact .failed error
  | ok extraction => exact .found rfl rfl rfl rfl

/-- A query is taken out of the text of an object that holds a string for it, and of no other. -/
theorem takeQuery?_eq_some_iff
    {content rest : Bytes}
    {query : String} :
    takeQuery? content = some (query, rest) ↔
      ∃ members, Json.ofBytes? content = some (.object members) ∧
        Json.Members.find? members queryKey = some (.string query) ∧
        rest = Bytes.ofString (Json.Value.object (Json.Members.erase queryKey members)).render := by
  rw [takeQuery?]
  constructor
  · intro taken
    split at taken
    case h_2 => cases taken
    case h_1 members isObject =>
      split at taken
      case h_2 => cases taken
      case h_1 isQuery =>
        cases taken
        exact ⟨members, isObject, isQuery, rfl⟩
  · rintro ⟨members, isObject, isQuery, rfl⟩
    simp only [isObject, isQuery]

section

variable
    {limit : Nat}
    {body : Body}

theorem extractFromBody_of_fits
    (fits : body.content.length ≤ limit) :
    extractFromBody limit body =
      match body.failure with
      | some detail => .error (.badRequest ("failed to read request body: " ++ detail))
      | none =>
          match takeQuery? body.content with
          | some (query, rest) => .ok ⟨some (query, .body), .rebuilt rest⟩
          | none => .ok ⟨none, .rebuilt body.content⟩ := by
  rw [extractFromBody, Body.buffer_of_fits fits]
  cases body.failure <;> rfl

theorem exists_extractFromBody_of_exceeds
    (exceeds : limit < body.content.length) :
    ∃ forwarded, extractFromBody limit body = .ok ⟨none, .untouched forwarded⟩ ∧
      forwarded.content = body.content ∧ forwarded.failure = body.failure := by
  rcases Body.exists_buffer_of_exceeds exceeds with ⟨replay, overflows, content, failure⟩
  refine ⟨replay, ?_, content, failure⟩
  rw [extractFromBody, overflows]

theorem inspects_extractFromBody
    (limit : Nat)
    (body : Body) :
    Inspects limit body (extractFromBody limit body) := by
  by_cases fits : body.content.length ≤ limit
  · rw [extractFromBody_of_fits fits]
    cases fails : body.failure with
    | some detail => exact .broken fits fails
    | none =>
        cases searched : takeQuery? body.content with
        | none =>
            apply Inspects.kept fits fails
            intro members query isObject isQuery
            have taken := takeQuery?_eq_some_iff.mpr ⟨members, isObject, isQuery, rfl⟩
            rw [searched] at taken
            cases taken
        | some found =>
            rcases found with ⟨query, rest⟩
            rcases takeQuery?_eq_some_iff.mp searched with ⟨members, isObject, isQuery, rfl⟩
            exact .taken fits fails isObject isQuery
  · rcases exists_extractFromBody_of_exceeds (Nat.not_le.mp fits) with
      ⟨forwarded, extracted, content, failure⟩
    rw [extracted]
    exact .passed (Nat.not_le.mp fits) content failure

/-- Bodies with the same bytes and the same failure are searched to the same end. -/
theorem alike_extractFromBody
    {other : Body}
    (content : other.content = body.content)
    (failure : other.failure = body.failure) :
    Alike (extractFromBody limit body) (extractFromBody limit other) := by
  by_cases fits : body.content.length ≤ limit
  · have otherFits : other.content.length ≤ limit := by
      rwa [content]
    rw [extractFromBody_of_fits fits, extractFromBody_of_fits otherFits, content, failure]
    exact .refl _
  · have exceeds : limit < body.content.length := Nat.not_le.mp fits
    have otherExceeds : limit < other.content.length := by
      rwa [content]
    rcases exists_extractFromBody_of_exceeds exceeds with
      ⟨forwarded, extracted, sameContent, sameFailure⟩
    rcases exists_extractFromBody_of_exceeds otherExceeds with
      ⟨otherForwarded, otherExtracted, otherContent, otherFailure⟩
    rw [extracted, otherExtracted]
    have bytes : forwarded.content = otherForwarded.content :=
      sameContent.trans (otherContent.trans content).symm
    have ending : forwarded.failure = otherForwarded.failure :=
      sameFailure.trans (otherFailure.trans failure).symm
    exact .found rfl rfl bytes ending

end

/--
A request that announces JSON and has no query elsewhere is searched for one in
its body, as the bytes of the body and its failure say.  Any other body with the
same bytes and the same failure leads to the same query and the same bytes to
forward, however it is cut into chunks.
-/
theorem extractQuery_inspects
    {limit : Nat}
    {request : Request}
    (noParameter : queryInTarget? request.target = none)
    (noHeader : queryInHeaders? request.headers = none)
    (isJson : announcesJson request.headers = true) :
    Inspects limit request.body (extractQuery limit request) ∧
      ∀ body : Body,
        body.content = request.body.content → body.failure = request.body.failure →
          Alike (extractQuery limit request) (extractQuery limit { request with body }) := by
  have searched : ∀ body : Body,
      extractQuery limit { request with body } = extractFromBody limit body := by
    intro body
    simp only [extractQuery, noParameter, noHeader, isJson, if_true]
  rw [searched request.body]
  constructor
  · exact inspects_extractFromBody limit request.body
  · intro body content failure
    rw [searched body]
    exact alike_extractFromBody content failure

/-! ## A query in three chunks, the second of which is empty -/

namespace PetStore

def asking (body : Body) : Request :=
  ⟨"POST", ⟨none, none, "/pets", none⟩,
    ⟨[("host", Bytes.ofString "gateway"), ("content-type", Bytes.ofString "application/json")]⟩,
    body⟩

def asked : Body :=
  .streamed
    [Bytes.ofString "\x7b\"_meshcaline_", [],
      Bytes.ofString "query\":\"\x7b name \x7d\",\"id\":1\x7d"]
    none

def forwarded : Extraction :=
  ⟨some ("\x7b name \x7d", .body), .rebuilt (Bytes.ofString "\x7b\"id\":1\x7d")⟩

/-- The body is exactly as long as the limit. -/
theorem name_is_asked_for :
    asked.content.length = 39 ∧
      Inspects 39 asked (extractQuery 39 (asking asked)) ∧
      Alike (extractQuery 39 (asking asked))
        (extractQuery 39 (asking (.ofBytes asked.content))) ∧
      extractQuery 39 (asking asked) = .ok forwarded := by
  have noHeader : queryInHeaders? (asking asked).headers = none := by decide +kernel
  have isJson : announcesJson (asking asked).headers = true := by decide +kernel
  have noParameter : queryInTarget? (asking asked).target = none := rfl
  rcases extractQuery_inspects noParameter noHeader isJson with ⟨inspects, alike⟩
  have same : (Body.ofBytes asked.content).content = asked.content := by
    simp [Body.ofBytes, Body.content]
  exact ⟨by decide +kernel, inspects, alike _ same rfl, by decide +kernel⟩

end PetStore

end QueryGateway.Gateway
