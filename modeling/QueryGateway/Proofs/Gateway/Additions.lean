import QueryGateway.Gateway.Service
import QueryGateway.Proofs.Message.Framing
import QueryGateway.Proofs.Message.Headers

/-!
# What the server adds

Around every answer stands a server.  It gives an id to a request that has
none, tells the id in the answer, and tells the length of the answer's body if
it is known.  It takes nothing away, except from answers to `HEAD` and `CONNECT`.
-/

namespace QueryGateway.Gateway

open Message

/-! ## Requests with an id -/

theorem identified_target
    (drawn : Drawn)
    (request : Request) :
    (identified drawn request).target = request.target := by
  unfold identified
  split <;> rfl

theorem identified_method
    (drawn : Drawn)
    (request : Request) :
    (identified drawn request).method = request.method := by
  unfold identified
  split <;> rfl

theorem identified_body
    (drawn : Drawn)
    (request : Request) :
    (identified drawn request).body = request.body := by
  unfold identified
  split <;> rfl

/-- The id that a client tells first stands, and one is drawn if it tells none. -/
theorem first?_identified
    (drawn : Drawn)
    (request : Request) :
    (identified drawn request).headers.first? requestIdHeader =
      some ((request.headers.first? requestIdHeader).getD (Bytes.ofString drawn.requestId)) := by
  rw [identified, Headers.contains_eq]
  cases told : request.headers.values requestIdHeader <;>
    simp [Headers.first?_eq_head?, told]

theorem values_identified
    {name : String}
    (isOther : name ≠ requestIdHeader)
    (drawn : Drawn)
    (request : Request) :
    (identified drawn request).headers.values name = request.headers.values name := by
  unfold identified
  split
  · rfl
  · simp [isOther.symm]

theorem firstText?_identified
    {name : String}
    (isOther : name ≠ requestIdHeader)
    (drawn : Drawn)
    (request : Request) :
    (identified drawn request).headers.firstText? name = request.headers.firstText? name := by
  rw [Headers.firstText?, Headers.firstText?, Headers.first?_eq_head?, Headers.first?_eq_head?,
    values_identified isOther]

theorem ingressAddress_identified
    (drawn : Drawn)
    (request : Request) :
    ingressAddress (identified drawn request) = ingressAddress request := by
  have notId : "host" ≠ requestIdHeader := by decide
  rw [ingressAddress, ingressAddress, requestedHost?, requestedHost?, identified_target,
    firstText?_identified notId]

/-! ## Answers with an id and a length -/

@[simp]
theorem tellId_status
    (request : Request)
    (response : Response) :
    (tellId request response).status = response.status := by
  unfold tellId
  grind

@[simp]
theorem tellId_body
    (request : Request)
    (response : Response) :
    (tellId request response).body = response.body := by
  unfold tellId
  grind

theorem tellId_first?
    {response : Response}
    {name : String}
    {value : Bytes}
    (found : response.headers.first? name = some value)
    (request : Request) :
    (tellId request response).headers.first? name = some value := by
  unfold tellId
  split
  · exact found
  · split
    · exact found
    · exact first?_append found _ _

def lengthValues (body : Body) : List Bytes :=
  (body.length?.map fun length => Bytes.ofString (toString length)).toList

theorem values_withLength
    (response : Response)
    (name : String) :
    response.withLength.headers.values name =
      if name = "content-length" ∧ response.headers.values name = [] then
        lengthValues response.body
      else response.headers.values name := by
  rw [Response.withLength, Headers.contains_eq]
  cases length : response.body.length? with
  | none =>
      by_cases absent : response.headers.values name = [] <;> simp [lengthValues, length, absent]
  | some _ =>
      by_cases isLength : name = "content-length"
      · subst isLength
        cases told : response.headers.values "content-length" <;>
          simp [lengthValues, length, told]
      · cases response.headers.values "content-length" <;> simp [Ne.symm isLength, isLength]

theorem values_tellId
    {request : Request}
    {id : Bytes}
    (hasId : request.headers.first? requestIdHeader = some id)
    (response : Response)
    (name : String) :
    (tellId request response).headers.values name =
      if name = requestIdHeader ∧ response.headers.values name = [] then [id]
      else response.headers.values name := by
  rw [tellId, hasId, Headers.contains_eq]
  by_cases isId : name = requestIdHeader
  · subst isId
    cases told : response.headers.values requestIdHeader <;> simp [told]
  · cases response.headers.values requestIdHeader <;> simp [Ne.symm isId, isId]

/-- What the server tells under a name that an answer does not tell itself. -/
def addedValues (id : Bytes) (body : Body) (name : String) : List Bytes :=
  if name = requestIdHeader then [id]
  else if name = "content-length" then lengthValues body
  else []

/-- The server adds an id and a length where there is none, and leaves all else as it is. -/
theorem values_tellId_withLength
    {request : Request}
    {id : Bytes}
    (hasId : request.headers.first? requestIdHeader = some id)
    (response : Response)
    (name : String) :
    (tellId request response.withLength).headers.values name =
      if response.headers.values name = [] then addedValues id response.body name
      else response.headers.values name := by
  rw [values_tellId hasId, values_withLength]
  by_cases isId : name = requestIdHeader
  · have notLength : requestIdHeader ≠ "content-length" := by decide
    simp [addedValues, isId, notLength]
  · by_cases absent : response.headers.values name = [] <;> simp [addedValues, isId, absent]

/-! ## What becomes of an answer -/

/-- The server serves what the gateway answers to the request with an id. -/
theorem serve_of_answer
    {service : Service}
    {table : Routing.Table}
    {drawn : Drawn}
    {request : Request}
    {sent : List Request}
    {reply : Reply}
    (atPath : hasPath request.target = true)
    (answer : service.answer table (identified drawn request) = (sent, reply))
    (schedule : Nat → Happening)
    (time : Nat) :
    service.serve table drawn schedule time request =
      ⟨sent ++
          (reply.response drawn.boundary service.concurrency schedule
            (readingTime request.method time)).1,
        some reply,
        tellId (identified drawn request)
          ((reply.response drawn.boundary service.concurrency schedule
            (readingTime request.method time)).2.framed request.method)⟩ := by
  simp only [Service.serve, identified_target, identified_method, atPath, if_true, answer]

/-- Where there is no path, nothing is found, and nobody is asked. -/
theorem serve_of_no_path
    {request : Request}
    (noPath : hasPath request.target = false)
    (service : Service)
    (table : Routing.Table)
    (drawn : Drawn)
    (schedule : Nat → Happening)
    (time : Nat) :
    service.serve table drawn schedule time request =
      ⟨[], none,
        tellId (identified drawn request) ((Response.bare 404).framed request.method)⟩ := by
  simp [Service.serve, identified_target, identified_method, noPath]

end QueryGateway.Gateway
