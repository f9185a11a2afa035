import QueryGateway.Proofs.Gateway.Hygiene
import QueryGateway.Proofs.Gateway.PartHeaders
import QueryGateway.Proofs.Gateway.Delivery

/-!
# One id for a request and what follows from it

A request has the first id that its client tells, or else one that is drawn.
All requests to backends that it leads to tell one and the same id, which is
this one if it can be read.  The client is told it too, unless it receives a
backend's answer, whole or projected, in which the backend tells ids itself.
-/

namespace QueryGateway.Gateway

open Message

def idOf (drawn : Drawn) (request : Request) : Bytes :=
  (request.headers.first? requestIdHeader).getD (Bytes.ofString drawn.requestId)

/-! ## Ids as text -/

theorem ofString_of_readable
    {value : Bytes}
    {text : String}
    (readable : readable? value = some text) :
    Bytes.ofString text = value := by
  unfold readable? at readable
  split at readable
  · rename_i allReadable
    cases readable
    have ascii : ∀ byte ∈ value, byte.toNat < 0x80 := by
      intro byte member
      have isReadable := List.all_eq_true.mp allReadable byte member
      rcases Bool.or_eq_true_iff.mp isReadable with visible | isTab
      · have below : byte < 0x7F := of_decide_eq_true (Bool.and_eq_true_iff.mp visible).2
        exact Nat.lt_succ_of_lt below
      · rw [beq_iff_eq.mp isTab]
        decide
    rw [Bytes.ofString, String.toList_ofList, Utf8.encode, List.flatMap_map]
    clear allReadable
    induction value with
    | nil => rfl
    | cons byte value induction =>
        have small := ascii byte List.mem_cons_self
        have alone : Utf8.encodeChar (Char.ofNat byte.toNat) = [byte] := by
          simp [Utf8.encodeChar, code_of_byte, small]
        rw [List.flatMap_cons, alone,
          induction fun other member => ascii other (List.mem_cons_of_mem _ member)]
        rfl
  · cases readable

theorem first?_identified_eq
    (drawn : Drawn)
    (request : Request) :
    (identified drawn request).headers.first? requestIdHeader = some (idOf drawn request) :=
  first?_identified drawn request

theorem requestId_identified
    {drawn : Drawn}
    {request : Request}
    (readable : (readable? (idOf drawn request)).isSome) :
    Bytes.ofString (requestId (identified drawn request).headers) = idOf drawn request := by
  obtain ⟨text, isText⟩ := Option.isSome_iff_exists.mp readable
  have told : (identified drawn request).headers.firstText? requestIdHeader = some text := by
    rw [Headers.firstText?, first?_identified_eq, Option.bind_some, isText]
  rw [requestId, told]
  exact ofString_of_readable isText

/-! ## What backends are told -/

/-- All requests that are sent in an exchange, or may be for its follow-ups, tell one id alone. -/
structure Exchange.Forwards (exchange : Exchange) (id : Bytes) : Prop where
  requests : ∀ sent ∈ exchange.sent, sent.headers.values requestIdHeader = [id]
  tasks :
    ∀ status part walk tasks, exchange.reply = some (.multipart status part walk tasks) →
      ∀ task sent, (walk.carryOut task).sent = some sent →
        sent.headers.values requestIdHeader = [id]

theorem values_outbound
    {name method address : String}
    {headers : Headers}
    {body : Body}
    {sent : Request}
    (notHost : name ≠ "host")
    (isSent : outbound method address headers body = .ok sent) :
    sent.headers.values name = headers.values name := by
  obtain ⟨target, authority, _, _, _, rfl⟩ := outbound_eq_ok_iff.mp isSent
  rw [Headers.values_putText, if_neg notHost.symm]

section

variable
    {service : Service}
    {table : Routing.Table}
    {request : Request}
    {extraction : Extraction}
    {primary : Primary}

theorem Prepares.values_carryOut
    {status : Nat}
    {part : Multipart.Part}
    {walk : Walk}
    {tasks : List Projection.Task}
    {task : Projection.Task}
    {sent : Request}
    (prepares : Prepares service table request extraction primary)
    (replied :
      .ofExcept (service.ask table primary) = Reply.multipart status part walk tasks)
    (isSent : (walk.carryOut task).sent = some sent) :
    sent.headers.values requestIdHeader = [Bytes.ofString (requestId request.headers)] := by
  obtain ⟨address, requested⟩ := outbound_of_carryOut isSent
  have notHost : requestIdHeader ≠ "host" := by decide
  have kept : requestIdHeader ∉ ["content-length", "content-type"] := by decide
  rw [values_outbound notHost requested, (walk_of_ask replied).2, followUpHeaders,
    Headers.values_without, if_neg kept, prepares.values_requestId]

/-! ## What the client is told -/

/-- Does the client receive what the backend answers, or its projection alone? -/
def Reply.isPassed : Reply → Bool
  | .passthrough _ | .projected .. => true
  | .multipart .. | .failed _ => false

/-- The client receives what a backend answers to the only request that is sent. -/
structure Exchange.Receives (exchange : Exchange) (backend : Backend) (answer : Response) :
    Prop where
  passed : exchange.reply.any Reply.isPassed = true
  answered : ∃ request, exchange.sent = [request] ∧ backend request = .ok answer

theorem values_framed
    {name : String}
    (notLength : name ≠ "content-length")
    (method : String)
    (response : Response) :
    (response.framed method).headers.values name = response.headers.values name := by
  have kept : response.withLength.headers.values name = response.headers.values name := by
    rw [values_withLength, if_neg fun isLength => notLength isLength.1]
  unfold Response.framed
  split
  · split <;> rfl
  · split <;> exact kept

theorem values_tellId_framed
    {id : Bytes}
    (hasId : request.headers.first? requestIdHeader = some id)
    (method : String)
    (response : Response) :
    (tellId request (response.framed method)).headers.values requestIdHeader =
      if response.headers.values requestIdHeader = [] then [id]
      else response.headers.values requestIdHeader := by
  have notLength : requestIdHeader ≠ "content-length" := by decide
  rw [values_tellId hasId, values_framed notLength]
  simp

theorem sent_of_isPassed
    {reply : Reply}
    (passed : reply.isPassed = true)
    (boundary : String)
    (concurrency : Nat)
    (schedule : Nat → Happening)
    (time : Nat) :
    (reply.response boundary concurrency schedule time).1 = [] := by
  cases reply with
  | passthrough | projected => rfl
  | multipart | failed => cases passed

/-- A reply tells the ids of the backend's answer that pass, or none. -/
theorem values_response
    {reply : Reply}
    (replies : service.Replies table primary reply)
    (boundary : String)
    (concurrency : Nat)
    (schedule : Nat → Happening)
    (time : Nat) :
    if reply.isPassed then
      ∃ answer, service.backend primary.request = .ok answer ∧
        (reply.response boundary concurrency schedule time).2.headers.values requestIdHeader =
          (withoutHopByHop answer.headers).values requestIdHeader
    else
      (reply.response boundary concurrency schedule time).2.headers.values requestIdHeader =
        [] := by
  cases replies with
  | @passthrough answer _ answered _ => exact ⟨answer, answered, rfl⟩
  | @projected document visit finds _ =>
      obtain ⟨source, delivers, _⟩ := finds.projected
      rw [← finds.requested]
      refine ⟨visit.response, delivers.answered, ?_⟩
      have kept : requestIdHeader ∉ ["content-length", "content-encoding"] := by decide
      exact (Headers.values_without ..).trans (if_neg kept)
  | multipart =>
      have lowerCase : "content-type".map Char.toLower = "content-type" := by
        rw [← String.toList_inj, String.toList_map]
        decide
      have notId : "content-type" ≠ requestIdHeader := by decide
      simp [Reply.isPassed, Reply.response, Headers.ofFields, Headers.values, lowerCase, notId]
  | refused | unprojected | baseless => rfl

/--
The client is told the id, and no other, unless it receives a backend's answer
in which ids stand that pass; then it is told these.
-/
structure Exchange.TellsId (exchange : Exchange) (backend : Backend) (id : Bytes) : Prop where
  passed :
    ∀ answer, exchange.Receives backend answer →
      Passes answer.headers requestIdHeader → answer.headers.values requestIdHeader ≠ [] →
        exchange.response.headers.values requestIdHeader =
          answer.headers.values requestIdHeader
  added :
    (∀ answer, exchange.Receives backend answer →
        Passes answer.headers requestIdHeader → answer.headers.values requestIdHeader = []) →
      exchange.response.headers.values requestIdHeader = [id]

theorem Exchange.TellsId.of_passed
    {exchange : Exchange}
    {backend : Backend}
    {answer : Response}
    {id : Bytes}
    (receives : exchange.Receives backend answer)
    (told :
      exchange.response.headers.values requestIdHeader =
        if (withoutHopByHop answer.headers).values requestIdHeader = [] then [id]
        else (withoutHopByHop answer.headers).values requestIdHeader) :
    exchange.TellsId backend id where
  passed := by
    intro other receivesOther passes own
    obtain ⟨request, sent, answered⟩ := receives.answered
    obtain ⟨otherRequest, otherSent, otherAnswered⟩ := receivesOther.answered
    rw [sent] at otherSent
    obtain rfl : request = otherRequest := List.cons.inj otherSent |>.1
    obtain rfl : answer = other := Except.ok.inj (answered.symm.trans otherAnswered)
    rw [told, values_withoutHopByHop_of_passes passes, if_neg own]
  added := by
    intro none
    have absent : (withoutHopByHop answer.headers).values requestIdHeader = [] := by
      by_cases passes : Passes answer.headers requestIdHeader
      · rw [values_withoutHopByHop_of_passes passes, none answer receives passes]
      · exact values_withoutHopByHop_of_not_passes passes
    rw [told, if_pos absent]

theorem Exchange.TellsId.of_written
    {exchange : Exchange}
    {id : Bytes}
    (written : exchange.reply.any Reply.isPassed = false)
    (told : exchange.response.headers.values requestIdHeader = [id])
    (backend : Backend) :
    exchange.TellsId backend id where
  passed := by
    intro answer receives
    exact absurd receives.passed (Bool.eq_false_iff.mp written)
  added := fun _ => told

end

/-! ## Everything that is told -/

section

variable
    {service : Service}
    {table : Routing.Table}
    {drawn : Drawn}
    {request : Request}
    {extraction : Extraction}
    {primary : Primary}
    (atPath : hasPath request.target = true)
    (prepares : Prepares service table (identified drawn request) extraction primary)
    (schedule : Nat → Happening)
    (time : Nat)

include atPath prepares

theorem forwards_of_prepares :
    (service.serve table drawn schedule time request).Forwards
      (Bytes.ofString (requestId (identified drawn request).headers)) := by
  rw [serve_of_answer atPath prepares.answer_eq]
  constructor
  · intro sent member
    rcases List.mem_cons.mp member with rfl | member
    · have notHost : requestIdHeader ≠ "host" := by decide
      rw [values_outbound notHost prepares.sent, prepares.values_requestId]
    · obtain ⟨_, _, _, _, _, replied, isSent⟩ := exists_task_of_mem_response member
      exact prepares.values_carryOut replied isSent
  · intro status part walk tasks replied task sent isSent
    exact prepares.values_carryOut (Option.some.inj replied) isSent

theorem tellsId_of_prepares :
    (service.serve table drawn schedule time request).TellsId service.backend
      (idOf drawn request) := by
  have hasId := first?_identified_eq drawn request
  have response := values_response (replies_of_ask service table primary) drawn.boundary
    service.concurrency schedule (readingTime request.method time)
  rw [serve_of_answer atPath prepares.answer_eq]
  generalize replied : Reply.ofExcept (service.ask table primary) = reply at response ⊢
  cases passed : reply.isPassed with
  | false =>
      rw [if_neg (Bool.eq_false_iff.mp passed)] at response
      refine Exchange.TellsId.of_written ?_ ?_ service.backend
      · exact passed
      · rw [values_tellId_framed hasId, if_pos response]
  | true =>
      rw [if_pos passed] at response
      obtain ⟨answer, answered, told⟩ := response
      have receives : Exchange.Receives
          ⟨[primary.request] ++ (reply.response drawn.boundary service.concurrency schedule
              (readingTime request.method time)).1, some reply,
            tellId (identified drawn request) ((reply.response drawn.boundary
              service.concurrency schedule
              (readingTime request.method time)).2.framed request.method)⟩
          service.backend answer := by
        refine ⟨passed, primary.request, ?_, answered⟩
        rw [sent_of_isPassed passed]
        rfl
      refine .of_passed receives ?_
      rw [values_tellId_framed hasId, told]

end

/-- An answer of the gateway's own, for which nobody was asked. -/
theorem identifies_of_unsent
    {reply : Option Reply}
    (failed : ∀ reached ∈ reply, ∃ error, reached = .failed error)
    {response : Response}
    (untold : response.headers.values requestIdHeader = [])
    (drawn : Drawn)
    (request : Request)
    (backend : Backend) :
    Exchange.Forwards
        ⟨[], reply, tellId (identified drawn request) (response.framed request.method)⟩
        (idOf drawn request) ∧
      Exchange.TellsId
        ⟨[], reply, tellId (identified drawn request) (response.framed request.method)⟩ backend
        (idOf drawn request) := by
  constructor
  · constructor
    · intro sent member
      cases member
    · intro status part walk tasks replied
      obtain ⟨error, isError⟩ := failed _ replied
      cases isError
  · apply Exchange.TellsId.of_written
    · cases reply with
      | none => rfl
      | some reached =>
          obtain ⟨error, rfl⟩ := failed reached rfl
          rfl
    · rw [values_tellId_framed (first?_identified_eq drawn request), if_pos untold]

/-- All requests that a request leads to tell one id, and so does the answer to it. -/
theorem serve_identifies
    (service : Service)
    (table : Routing.Table)
    (drawn : Drawn)
    (schedule : Nat → Happening)
    (time : Nat)
    (request : Request) :
    (∃ forwarded,
        (service.serve table drawn schedule time request).Forwards forwarded ∧
          ((readable? (idOf drawn request)).isSome → forwarded = idOf drawn request)) ∧
      (service.serve table drawn schedule time request).TellsId service.backend
        (idOf drawn request) := by
  cases atPath : hasPath request.target with
  | false =>
      rw [serve_of_no_path atPath]
      have unsaid : ∀ reached ∈ (none : Option Reply), ∃ error, reached = .failed error := by
        intro reached isReached
        cases isReached
      have untold : (Response.bare 404).headers.values requestIdHeader = [] := rfl
      obtain ⟨forwards, tells⟩ :=
        identifies_of_unsent unsaid untold drawn request service.backend
      exact ⟨⟨_, forwards, fun _ => rfl⟩, tells⟩
  | true =>
      rcases answer_cases service table (identified drawn request) with
        ⟨error, answer⟩ | ⟨extraction, primary, prepares⟩
      · rw [serve_of_answer atPath answer]
        have failed : ∀ reached ∈ some (Reply.failed error), ∃ error, reached = .failed error :=
          fun reached isReached => ⟨error, (Option.some.inj isReached).symm⟩
        have untold : error.response.headers.values requestIdHeader = [] := rfl
        obtain ⟨forwards, tells⟩ :=
          identifies_of_unsent failed untold drawn request service.backend
        exact ⟨⟨_, forwards, fun _ => rfl⟩, tells⟩
      · exact ⟨⟨_, forwards_of_prepares atPath prepares schedule time, requestId_identified⟩,
          tellsId_of_prepares atPath prepares schedule time⟩

/-! ## A backend with ids of its own -/

namespace PetStore

/-- Whatever it is asked for, this backend tells its own id. -/
def labelling : Service where
  backend _ := .ok ⟨200, ⟨[(requestIdHeader, Bytes.ofString "own")]⟩, .empty⟩
  limit := 100
  concurrency := 4

def plainRequest : Request :=
  ⟨"GET", ⟨none, none, "/pets/1", none⟩,
    ⟨[("host", Bytes.ofString "gateway"), (requestIdHeader, Bytes.ofString "7")]⟩, .empty⟩

/-- The backend and the client are told different ids. -/
theorem backend_label_passes :
    idOf drawn plainRequest = Bytes.ofString "7" ∧
      (labelling.serve table drawn polling 0 plainRequest).sent.map
          (·.headers.values requestIdHeader) = [[Bytes.ofString "7"]] ∧
      (labelling.serve table drawn polling 0 plainRequest).response.headers.values requestIdHeader =
        [Bytes.ofString "own"] := by
  decide +kernel

end PetStore

end QueryGateway.Gateway
