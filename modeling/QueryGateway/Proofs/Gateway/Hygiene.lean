import QueryGateway.Proofs.Gateway.Additions
import QueryGateway.Proofs.Gateway.Passing
import QueryGateway.Proofs.Gateway.Preparation
import QueryGateway.Proofs.Gateway.Replies

/-!
# Which headers backends receive

Whatever a client sends, and however the backends answer, no request of the
gateway tells a backend about the client's connection, about its host or about
its query.  Everything else that the client told is told to the backend as it
is, except for what the gateway's own handling of bodies makes untrue.

The headers of a follow-up are made from those of the first request, and these
from the client's.  `Filters` says how headers are related to those of the
client, and each step of the way keeps it, with more names dropped.
-/

namespace QueryGateway.Gateway

open Message

/-! ## Headers made from a client's -/

/-- The headers that the gateway sets itself. -/
def ownHeaders : List String :=
  ["host", requestIdHeader]

/-- Is a header of the name kept from backends? -/
def IsExcluded (client : Headers) (dropped : List String) (name : String) : Prop :=
  ConcernsConnection name ∨ IsListed client name ∨ name = queryHeader ∨ name ∈ dropped

theorem not_isExcluded_iff
    {client : Headers}
    {dropped : List String}
    {name : String} :
    ¬ IsExcluded client dropped name ↔
      ¬ ConcernsConnection name ∧ ¬ IsListed client name ∧ name ≠ queryHeader ∧
        name ∉ dropped := by
  simp only [IsExcluded, not_or, ne_eq]

theorem IsExcluded.mono
    {client : Headers}
    {dropped others : List String}
    {name : String}
    (isExcluded : IsExcluded client dropped name)
    (subset : dropped ⊆ others) :
    IsExcluded client others name :=
  isExcluded.imp_right (Or.imp_right (Or.imp_right fun member => subset member))

/-- Headers that tell what a client's tell, apart from what is excluded and what is set anew. -/
structure Filters (client : Headers) (dropped : List String) (headers : Headers) : Prop where
  excluded :
    ∀ name, name ∉ ownHeaders → IsExcluded client dropped name → headers.values name = []
  carried :
    ∀ name, name ∉ ownHeaders → ¬ IsExcluded client dropped name →
      headers.values name = client.values name

/-- What is not true any more of the first request, by what was found in the client's. -/
def droppedFromPrimary (extraction : Extraction) : List String :=
  (if extraction.body.isRebuilt then ["content-length"] else []) ++
    (if extraction.query.isSome then ["accept-encoding"] else [])

def droppedFromFollowUps : List String :=
  ["accept-encoding", "content-length", "content-type"]

theorem filters_forwardHeaders
    (headers : Headers)
    (extraction : Extraction) :
    Filters headers (droppedFromPrimary extraction)
      (forwardHeaders headers ⟨extraction.body.isRebuilt, extraction.query.isSome⟩) := by
  have forwarded : forwardHeaders headers ⟨extraction.body.isRebuilt, extraction.query.isSome⟩ =
      (withoutHopByHop headers).without
        (["host", queryHeader] ++ droppedFromPrimary extraction) := by
    rw [forwardHeaders, List.append_assoc]
    rfl
  rw [forwarded]
  constructor
  · intro name _ isExcluded
    rw [Headers.values_without]
    split
    · rfl
    · rename_i kept
      refine values_withoutHopByHop_of_not_passes fun passes => ?_
      rcases isExcluded with concerns | listed | isQuery | isDropped
      · exact passes.1 concerns
      · exact passes.2 listed
      · exact kept (by simp [isQuery])
      · exact kept (List.mem_append_right _ isDropped)
  · intro name notOwn notExcluded
    obtain ⟨notConcerned, notListed, notQuery, notDropped⟩ := not_isExcluded_iff.mp notExcluded
    -- The client's host is taken out as well, but the gateway sets its own in its place.
    have notHost : name ≠ "host" := by
      rintro rfl
      exact notOwn (by decide)
    have kept : name ∉ ["host", queryHeader] ++ droppedFromPrimary extraction := by
      simp [notHost, notQuery, notDropped]
    rw [Headers.values_without, if_neg kept]
    exact values_withoutHopByHop_of_passes ⟨notConcerned, notListed⟩

namespace Filters

variable
    {client headers : Headers}
    {dropped : List String}

theorem putText
    (filters : Filters client dropped headers)
    {own : String}
    (isOwn : own ∈ ownHeaders)
    (text : String) :
    Filters client dropped (headers.putText own text) := by
  have kept : ∀ name, name ∉ ownHeaders →
      (headers.putText own text).values name = headers.values name := by
    intro name notOwn
    rw [Headers.values_putText]
    refine if_neg ?_
    rintro rfl
    exact notOwn isOwn
  constructor
  · intro name notOwn isExcluded
    rw [kept name notOwn, filters.excluded name notOwn isExcluded]
  · intro name notOwn notExcluded
    rw [kept name notOwn, filters.carried name notOwn notExcluded]

theorem without
    (filters : Filters client dropped headers)
    (names : List String) :
    Filters client (dropped ++ names) (headers.without names) := by
  constructor
  · intro name notOwn isExcluded
    rw [Headers.values_without]
    split
    · rfl
    · rename_i kept
      refine filters.excluded name notOwn ?_
      simpa [IsExcluded, kept] using isExcluded
  · intro name notOwn notExcluded
    obtain ⟨_, _, _, notDropped⟩ := not_isExcluded_iff.mp notExcluded
    rw [Headers.values_without, if_neg fun isNew => notDropped (List.mem_append_right _ isNew)]
    refine filters.carried name notOwn fun isExcluded => notExcluded ?_
    exact isExcluded.mono fun _ => List.mem_append_left _

/-- Only the names that are dropped count, not their order. -/
theorem congr
    (filters : Filters client dropped headers)
    {others : List String}
    (same : ∀ name, name ∈ others ↔ name ∈ dropped) :
    Filters client others headers where
  excluded := fun name notOwn isExcluded =>
    filters.excluded name notOwn (isExcluded.mono fun name => (same name).mp)
  carried := fun name notOwn notExcluded =>
    filters.carried name notOwn fun isExcluded =>
      notExcluded (isExcluded.mono fun name => (same name).mpr)

/-- The id that a request is given is a header that the gateway sets itself. -/
theorem of_identified
    {drawn : Drawn}
    {request : Request}
    (filters : Filters (identified drawn request).headers dropped headers) :
    Filters request.headers dropped headers := by
  have listed : ∀ name, IsListed (identified drawn request).headers name ↔
      IsListed request.headers name := by
    intro name
    have notId : "connection" ≠ requestIdHeader := by decide
    rw [IsListed, IsListed, values_identified notId]
  have excluded : ∀ name, IsExcluded (identified drawn request).headers dropped name ↔
      IsExcluded request.headers dropped name := by
    intro name
    rw [IsExcluded, IsExcluded, listed]
  constructor
  · intro name notOwn isExcluded
    exact filters.excluded name notOwn ((excluded name).mpr isExcluded)
  · intro name notOwn notExcluded
    have notId : name ≠ requestIdHeader := by
      rintro rfl
      exact notOwn (by decide)
    rw [filters.carried name notOwn (mt (excluded name).mp notExcluded), values_identified notId]

end Filters

/-! ## Requests that are sent -/

/-- A request that tells its own host, one id, and what may be told of a client's headers. -/
structure IsClean (client : Headers) (dropped : List String) (sent : Request) : Prop
    extends Filters client dropped sent.headers where
  host :
    ∃ authority, sent.target.authority = some authority ∧
      sent.headers.values "host" = [Bytes.ofString authority]
  hasId : ∃ id, sent.headers.values requestIdHeader = [id]

theorem isClean_outbound
    {client headers : Headers}
    {dropped : List String}
    {method address id : String}
    {body : Body}
    {sent : Request}
    (filters : Filters client dropped headers)
    (hasId : headers.values requestIdHeader = [Bytes.ofString id])
    (isSent : outbound method address headers body = .ok sent) :
    IsClean client dropped sent := by
  obtain ⟨target, authority, _, _, hasAuthority, rfl⟩ := outbound_eq_ok_iff.mp isSent
  have notHost : "host" ≠ requestIdHeader := by decide
  refine ⟨filters.putText (by decide) authority, ⟨authority, hasAuthority, ?_⟩,
    Bytes.ofString id, ?_⟩
  · rw [Headers.values_putText, if_pos rfl]
  · rw [Headers.values_putText, if_neg notHost, hasId]

section

variable
    {service : Service}
    {table : Routing.Table}
    {request : Request}
    {extraction : Extraction}
    {primary : Primary}

theorem Prepares.filters
    (prepares : Prepares service table request extraction primary) :
    Filters request.headers (droppedFromPrimary extraction) primary.headers := by
  rw [prepares.headers]
  exact (filters_forwardHeaders request.headers extraction).putText (by decide) _

theorem Prepares.values_requestId
    (prepares : Prepares service table request extraction primary) :
    primary.headers.values requestIdHeader = [Bytes.ofString (requestId request.headers)] := by
  rw [prepares.headers, preparedHeaders, Headers.values_putText, if_pos rfl]

theorem Prepares.isClean
    (prepares : Prepares service table request extraction primary) :
    IsClean request.headers (droppedFromPrimary extraction) primary.request :=
  isClean_outbound prepares.filters prepares.values_requestId prepares.sent

/-- The headers of follow-ups are made from those of the first request. -/
theorem Prepares.followUp_filters
    (prepares : Prepares service table request extraction primary)
    (isQueried : primary.query.isSome) :
    Filters request.headers droppedFromFollowUps (followUpHeaders primary.headers) := by
  have queried : extraction.query.isSome := by rwa [← isSome_of_mapM prepares.parsed]
  refine (prepares.filters.without _).congr fun name => ?_
  simp only [droppedFromPrimary, droppedFromFollowUps, queried, if_true]
  split
  · simp
    tauto
  · simp

/-! ## Follow-ups -/

theorem walk_of_ask
    {status : Nat}
    {part : Multipart.Part}
    {walk : Walk}
    {tasks : List Projection.Task}
    (replied :
      .ofExcept (service.ask table primary) = Reply.multipart status part walk tasks) :
    primary.query.isSome ∧ walk.headers = followUpHeaders primary.headers := by
  have replies := replies_of_ask service table primary
  rw [replied] at replies
  cases replies with
  | multipart finds => exact ⟨by simp [finds.queried], rfl⟩

end

/-- Every request that is sent while a body is read is that of a task. -/
theorem exists_task_of_mem_response
    {reply : Reply}
    {boundary : String}
    {concurrency : Nat}
    {schedule : Nat → Happening}
    {time : Nat}
    {sent : Request}
    (member : sent ∈ (reply.response boundary concurrency schedule time).1) :
    ∃ status part walk tasks task,
      reply = .multipart status part walk tasks ∧ (walk.carryOut task).sent = some sent := by
  cases reply with
  | passthrough | projected | failed => cases member
  | multipart status part walk tasks =>
      obtain ⟨task, _, isSent⟩ := List.mem_filterMap.mp member
      exact ⟨status, part, walk, tasks, task, rfl, isSent⟩

theorem outbound_of_carryOut
    {walk : Walk}
    {task : Projection.Task}
    {sent : Request}
    (isSent : (walk.carryOut task).sent = some sent) :
    ∃ address, outbound "GET" address walk.headers .empty = .ok sent := by
  rw [Walk.carryOut] at isSent
  split at isSent
  · cases isSent
  · split at isSent
    · cases isSent
    · rename_i requested
      cases isSent
      exact ⟨_, requested⟩

theorem isClean_of_carryOut
    {client : Headers}
    {dropped : List String}
    {walk : Walk}
    {task : Projection.Task}
    {id : String}
    {sent : Request}
    (filters : Filters client dropped walk.headers)
    (hasId : walk.headers.values requestIdHeader = [Bytes.ofString id])
    (isSent : (walk.carryOut task).sent = some sent) :
    IsClean client dropped sent := by
  obtain ⟨address, requested⟩ := outbound_of_carryOut isSent
  exact isClean_outbound filters hasId requested

theorem Prepares.isClean_of_carryOut
    {service : Service}
    {table : Routing.Table}
    {request sent : Request}
    {extraction : Extraction}
    {primary : Primary}
    {status : Nat}
    {part : Multipart.Part}
    {walk : Walk}
    {tasks : List Projection.Task}
    {task : Projection.Task}
    (prepares : Prepares service table request extraction primary)
    (replied :
      .ofExcept (service.ask table primary) = Reply.multipart status part walk tasks)
    (isSent : (walk.carryOut task).sent = some sent) :
    extraction.query.isSome ∧ IsClean request.headers droppedFromFollowUps sent := by
  obtain ⟨isQueried, headers⟩ := walk_of_ask replied
  have filters := prepares.followUp_filters isQueried
  have hasId := prepares.values_requestId
  have idKept : (followUpHeaders primary.headers).values requestIdHeader =
      primary.headers.values requestIdHeader := by
    rw [followUpHeaders, Headers.values_without]
    exact if_neg (by decide)
  rw [← idKept] at hasId
  rw [← headers] at filters hasId
  rw [isSome_of_mapM prepares.parsed] at isQueried
  exact ⟨isQueried, Gateway.isClean_of_carryOut filters hasId isSent⟩

/-! ## Everything that is sent -/

/-- What all requests of an exchange tell a backend, by what was found in the client's request. -/
structure Exchange.IsClean (exchange : Exchange) (client : Headers) (extraction : Extraction) :
    Prop where
  requests :
    ∃ primary followUps, exchange.sent = primary :: followUps ∧
      Gateway.IsClean client (droppedFromPrimary extraction) primary ∧
      ∀ followUp ∈ followUps,
        extraction.query.isSome ∧ Gateway.IsClean client droppedFromFollowUps followUp
  /-- Whatever tasks are begun, and in whatever order, while the body of the answer is read. -/
  tasks :
    ∀ status part walk tasks, exchange.reply = some (.multipart status part walk tasks) →
      ∀ task sent, (walk.carryOut task).sent = some sent →
        extraction.query.isSome ∧ Gateway.IsClean client droppedFromFollowUps sent

theorem IsClean.of_identified
    {drawn : Drawn}
    {request sent : Request}
    {dropped : List String}
    (clean : IsClean (identified drawn request).headers dropped sent) :
    IsClean request.headers dropped sent where
  toFilters := clean.toFilters.of_identified
  host := clean.host
  hasId := clean.hasId

theorem extractQuery_identified
    (limit : Nat)
    (drawn : Drawn)
    (request : Request) :
    extractQuery limit (identified drawn request) = extractQuery limit request := by
  have notQuery : queryHeader ≠ requestIdHeader := by decide
  have notType : "content-type" ≠ requestIdHeader := by decide
  rw [extractQuery, extractQuery, queryInHeaders?, queryInHeaders?, announcesJson, announcesJson,
    firstText?_identified notQuery, firstText?_identified notType, identified_target,
    identified_body]

/-- Backends receive clean requests only, whatever clients send and backends answer. -/
theorem serve_sends_clean
    (service : Service)
    (table : Routing.Table)
    (drawn : Drawn)
    (schedule : Nat → Happening)
    (time : Nat)
    (request : Request) :
    (service.serve table drawn schedule time request).sent = [] ∨
      ∃ extraction, extractQuery service.limit request = .ok extraction ∧
        (service.serve table drawn schedule time request).IsClean request.headers extraction := by
  cases atPath : hasPath request.target with
  | false =>
      left
      rw [serve_of_no_path atPath]
  | true =>
      rcases answer_cases service table (identified drawn request) with
        ⟨error, answer⟩ | ⟨extraction, primary, prepares⟩
      · left
        rw [serve_of_answer atPath answer]
        rfl
      · right
        have extracted := prepares.extracted
        rw [extractQuery_identified] at extracted
        rw [serve_of_answer atPath prepares.answer_eq]
        refine ⟨extraction, extracted,
          ⟨primary.request, _, rfl, prepares.isClean.of_identified, ?_⟩, ?_⟩
        · intro followUp member
          obtain ⟨_, _, _, _, _, replied, isSent⟩ := exists_task_of_mem_response member
          obtain ⟨isQueried, clean⟩ := prepares.isClean_of_carryOut replied isSent
          exact ⟨isQueried, clean.of_identified⟩
        · intro status part walk tasks replied task sent isSent
          obtain ⟨isQueried, clean⟩ :=
            prepares.isClean_of_carryOut (Option.some.inj replied) isSent
          exact ⟨isQueried, clean.of_identified⟩

end QueryGateway.Gateway
