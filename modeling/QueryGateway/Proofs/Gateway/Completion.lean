import QueryGateway.Proofs.Gateway.Delivery
import QueryGateway.Proofs.Gateway.Restraint

/-!
# An answer that has been read to its end

The follow-ups of a request are fetched side by side, and what has been begun
and written at some time depends on the scheduler.  Once the encoder has been
terminated, the body does so no more.  If the tasks form finite trees and all of
them succeed, each was begun once, and the body has their parts in pre-order.
If one of them fails, the body has the parts of those before it; these and the
one that failed were begun, and perhaps some that were waiting behind it.

A fair scheduler lets the encoder come to its end: the walk takes no more tasks
than the trees have, every item of the walk is received, and a poll behind the
last one gives the end.
-/

namespace QueryGateway.Gateway

open Message Multipart

/-! ## The end comes -/

section

variable
    {walk : Walk}
    {boundary : String}
    {concurrency : Nat}
    {primary : Part}
    {tasks : List Projection.Task}
    {schedule : Nat → Happening}
    {reading : Reading}
    {trees : List TaskTree}

/-- A reading that goes on, and has received every item of the walk, owes nothing. -/
theorem Walk.Leads.eq_nil_of_items_prefix
    {carriedOut waiting : List Projection.Task}
    (leads : walk.Leads tasks carriedOut waiting)
    (unfolds : walk.Unfolds tasks trees)
    (allReceived :
      walk.items (walk.untilFailure (TaskTree.preorders trees)).length tasks <+:
        carriedOut.map walk.item) :
    waiting = [] := by
  cases waiting with
  | nil => rfl
  | cons task waiting =>
      have noMore := allReceived.length_le
      rw [Walk.items_eq_map_order, Walk.order_of_unfolds unfolds, List.take_length,
        List.length_map, List.length_map] at noMore
      -- The walk takes one task more than have been carried out.
      have oneMore := congrArg List.length (leads.order_eq 1)
      rw [Walk.order_of_unfolds unfolds, Walk.order_one, List.length_take, List.length_append,
        List.length_singleton] at oneMore
      omega

/-- If nothing is owed, the next poll terminates the encoder. -/
theorem Reading.isTerminated_of_poll
    (goesOn : reading.encoder.isTerminated = false)
    (areOpen : AreOpen reading.stream.levels)
    (owesNothing : owed reading.stream.levels = [])
    (begins : Nat) :
    (walk.read boundary concurrency reading (.poll begins)).encoder.isTerminated = true := by
  have advances := walk.poll_advances concurrency begins reading.stream.begun areOpen
  rw [walk.read_poll boundary concurrency goesOn]
  generalize walk.poll concurrency begins reading.stream.begun reading.stream.levels = polled
    at advances ⊢
  obtain ⟨event, levels, begun⟩ := polled
  simp only at advances ⊢
  cases advances with
  | part first => simp [owesNothing] at first
  | error first => simp [owesNothing] at first
  | wait owes => exact (owes owesNothing).elim
  | done => rfl

/-- On finite trees, a fair scheduler lets the encoder come to its end. -/
theorem Walk.IsFair.exists_terminated
    (fair : walk.IsFair concurrency tasks schedule)
    (boundary : String)
    (primary : Part)
    (unfolds : walk.Unfolds tasks trees) :
    ∃ time,
      (walk.reading boundary concurrency primary tasks schedule
        time).encoder.isTerminated = true := by
  obtain ⟨time, allReceived⟩ :=
    fair.exists_items_prefix (walk.untilFailure (TaskTree.preorders trees)).length
  obtain ⟨polling, isLater, begins, polled⟩ := fair.polled time
  cases walk.follows_reading boundary concurrency primary tasks schedule polling with
  | failed isTerminated => exact ⟨polling, isTerminated⟩
  | ended isTerminated => exact ⟨polling, isTerminated⟩
  | running carriedOut goesOn areOpen leads received =>
      have stillReceived := allReceived.trans (Walk.received_prefix_stream isLater)
      rw [← walk.stream_reading boundary concurrency primary tasks schedule goesOn,
        received] at stillReceived
      refine ⟨polling + 1, ?_⟩
      rw [Walk.reading, polled]
      exact Reading.isTerminated_of_poll goesOn areOpen
        (leads.eq_nil_of_items_prefix unfolds stillReceived) _

/-! ## What there is in the end -/

/-- If all tasks succeed, each was begun once, and their parts came in pre-order. -/
theorem Reading.Follows.of_success
    (follows : reading.Follows walk concurrency tasks)
    (isTerminated : reading.encoder.isTerminated = true)
    (unfolds : walk.Unfolds tasks trees)
    (succeed : ∀ task ∈ TaskTree.preorders trees, ¬ walk.Fails task) :
    reading.stream.received = (TaskTree.preorders trees).map walk.item ∧
      reading.stream.hasEnded = true ∧
      reading.stream.begun.Perm (TaskTree.preorders trees) ∧
      (concurrency ≤ 1 → reading.stream.begun = TaskTree.preorders trees) := by
  cases follows with
  | running _ goesOn => simp [goesOn] at isTerminated
  | @failed carriedOut waiting _ failing _ leads fails =>
      obtain ⟨others, waitingUnfolds, preorder⟩ := leads.exists_trees unfolds
      have isTask : failing ∈ TaskTree.preorders others :=
        waitingUnfolds.sublist_preorders.subset (List.mem_cons_self ..)
      exact (succeed failing (by simp [preorder, isTask]) fails).elim
  | ended _ leads received told begun inTurn =>
      obtain ⟨others, nothingUnfolds, preorder⟩ := leads.exists_trees unfolds
      cases nothingUnfolds
      rw [TaskTree.preorders, List.append_nil] at preorder
      rw [preorder]
      exact ⟨received, told, begun, inTurn⟩

/--
If a task is the first one to fail, what came are the parts of those before it
and its error; some that were waiting behind it may have been begun.
-/
theorem Reading.Follows.of_failure
    (follows : reading.Follows walk concurrency tasks)
    (isTerminated : reading.encoder.isTerminated = true)
    (unfolds : walk.Unfolds tasks trees)
    {before after : List Projection.Task}
    {failing : Projection.Task}
    (preorder : TaskTree.preorders trees = before ++ failing :: after)
    (succeed : ∀ task ∈ before, ¬ walk.Fails task)
    (fails : walk.Fails failing) :
    reading.stream.received = (before ++ [failing]).map walk.item ∧
      reading.stream.hasEnded = false ∧
      ∃ ahead, ahead.Sublist after ∧
        reading.stream.begun.Perm (before ++ failing :: ahead) ∧
        (concurrency ≤ 1 → reading.stream.begun = before ++ [failing]) := by
  cases follows with
  | running _ goesOn => simp [goesOn] at isTerminated
  | ended _ leads =>
      obtain ⟨others, nothingUnfolds, allCarriedOut⟩ := leads.exists_trees unfolds
      cases nothingUnfolds
      rw [TaskTree.preorders, List.append_nil, preorder] at allCarriedOut
      exact (leads.not_fails failing (by simp [← allCarriedOut]) fails).elim
  | @failed carriedOut waiting ahead found _ leads foundFails received untold wereWaiting begun
      inTurn =>
      obtain ⟨_, waitingUnfolds, carriedOutFirst⟩ := leads.exists_trees unfolds
      cases waitingUnfolds with
      | cons below beside =>
          -- A task that fails brings up none, so behind it come the trees beside it.
          obtain ⟨_, foundResult, _⟩ := foundFails.exists_error
          rw [Walk.discovered_of_failure foundResult] at below
          cases below
          rw [TaskTree.preorders_cons, List.nil_append, preorder] at carriedOutFirst
          obtain ⟨_, result, _⟩ := fails.exists_error
          have sameStart := congrArg walk.untilFailure carriedOutFirst
          rw [Walk.untilFailure_append_of_succeed succeed,
            Walk.untilFailure_append_of_succeed leads.not_fails,
            Walk.untilFailure_of_failure result, Walk.untilFailure_of_failure foundResult]
            at sameStart
          obtain ⟨rfl, sameTask⟩ := List.append_inj' sameStart rfl
          cases sameTask
          cases List.append_cancel_left carriedOutFirst
          exact ⟨received, untold, ahead, wereWaiting.trans beside.sublist_preorders, begun, inTurn⟩

end

/-! ## What the client receives -/

/-- What is sent does not depend on the order in which tasks are begun. -/
theorem Walk.sent_perm
    (walk : Walk)
    {begun tasks : List Projection.Task}
    (isPerm : begun.Perm tasks) :
    (walk.sent begun).Perm (walk.sent tasks) :=
  isPerm.filterMap _

theorem Walk.sent_append
    (walk : Walk)
    (first second : List Projection.Task) :
    walk.sent (first ++ second) = walk.sent first ++ walk.sent second :=
  List.filterMap_append ..

/-- If one fetch at a time is allowed, the requests are those of the first steps of the walk. -/
theorem Walk.exists_sent_eq_steps
    (walk : Walk)
    (boundary : String)
    {concurrency : Nat}
    (oneAtATime : concurrency ≤ 1)
    (primary : Part)
    (tasks : List Projection.Task)
    (schedule : Nat → Happening)
    (time : Nat) :
    ∃ count,
      walk.sent (walk.reading boundary concurrency primary tasks schedule time).stream.begun =
        (walk.steps count tasks).filterMap (·.sent) := by
  have follows := walk.follows_reading boundary concurrency primary tasks schedule time
  obtain ⟨count, begun, _⟩ :=
    Reading.Follows.exists_count walk concurrency tasks follows oneAtATime
  refine ⟨count, ?_⟩
  rw [begun]
  exact walk.sent_order count tasks

section

variable
    {service : Service}
    {table : Routing.Table}
    {drawn : Drawn}
    {request : Request}
    (queried : Queried service table (identified drawn request))
    {schedule : Nat → Happening}
    {time : Nat}
    {trees : List TaskTree}

/-- The encoder of the answer has been given an error or the end. -/
def Queried.IsAnswered
    (queried : Queried service table (identified drawn request))
    (schedule : Nat → Happening)
    (time : Nat) :
    Prop :=
  (queried.reading drawn.boundary schedule time).encoder.isTerminated = true

/-- The reading of the follow-ups follows their walk. -/
theorem Queried.follows
    (schedule : Nat → Happening)
    (time : Nat) :
    (queried.reading drawn.boundary schedule time).Follows queried.walk service.concurrency
      queried.visit.projection.followUps :=
  queried.walk.follows_reading drawn.boundary service.concurrency queried.visit.part _ schedule time

/-- What has come out of the encoder is what it makes of what it was given. -/
theorem Queried.writes
    (schedule : Nat → Happening)
    (time : Nat) :
    (queried.reading drawn.boundary schedule time).Writes drawn.boundary queried.visit.part :=
  queried.walk.writes_reading drawn.boundary service.concurrency rfl _ schedule time

variable
    (notHead : request.method ≠ "HEAD")
    (notConnect : request.method ≠ "CONNECT")
    (atPath : hasPath request.target = true)

section

variable
    {carriedOut more : List Projection.Task}
    {visits : List Visit}
    (hasFollowUps : queried.visit.projection.followUps ≠ [])
    (completes : List.Forall₂ queried.walk.Completes carriedOut visits)

include notHead notConnect atPath hasFollowUps completes

/-- The parts of what has been carried out are delivered, if this and an ending were received. -/
theorem Queried.delivers_of_given
    (isBoundary : IsBoundary drawn.boundary)
    (named : service.backend.NamesHeaders)
    {failure : Option GatewayError}
    (begun :
      (queried.reading drawn.boundary schedule time).stream.begun.Perm (carriedOut ++ more))
    (given :
      (queried.reading drawn.boundary schedule time).given queried.visit.part =
        chunkEvents ((queried.visit :: visits).map Visit.part) ++ [endingOf failure]) :
    (service.serve table drawn schedule time request).Delivers drawn.boundary
      (queried.visit :: visits) (queried.walk.sent more) failure := by
  obtain ⟨sent, announced, body⟩ :=
    queried.serve_with_followUps schedule time notHead notConnect atPath hasFollowUps
  have sentPerm := queried.walk.sent_perm begun
  rw [Walk.sent_append, Walk.sent_of_completes completes] at sentPerm
  refine Exchange.delivers_of_written isBoundary (queried.areNamed named completes) ?_
    announced ?_
  · rw [sent, List.map_cons, List.cons_append]
    exact sentPerm.cons _
  · rw [body, (queried.writes schedule time).written, given]

/-- If the tasks were begun in their order, their requests were sent in this order. -/
theorem Queried.sent_of_begun
    (begun : (queried.reading drawn.boundary schedule time).stream.begun = carriedOut ++ more) :
    (service.serve table drawn schedule time request).sent =
      (queried.visit :: visits).map Visit.request ++ queried.walk.sent more := by
  obtain ⟨sent, _, _⟩ :=
    queried.serve_with_followUps schedule time notHead notConnect atPath hasFollowUps
  rw [sent, begun, Walk.sent_append, Walk.sent_of_completes completes, List.map_cons,
    List.cons_append]

end

variable
    (isBoundary : IsBoundary drawn.boundary)
    (named : service.backend.NamesHeaders)
    (hasFollowUps : queried.visit.projection.followUps ≠ [])
    (unfolds : queried.walk.Unfolds queried.visit.projection.followUps trees)
    (isAnswered : queried.IsAnswered schedule time)

include notHead notConnect atPath isBoundary named hasFollowUps unfolds isAnswered

/-- If all follow-ups succeed, their parts are received, in pre-order. -/
theorem Queried.delivers_of_success
    {visits : List Visit}
    (completes : List.Forall₂ queried.walk.Completes (TaskTree.preorders trees) visits) :
    (service.serve table drawn schedule time request).Delivers drawn.boundary
        (queried.visit :: visits) [] none ∧
      (service.concurrency ≤ 1 →
        (service.serve table drawn schedule time request).sent =
          (queried.visit :: visits).map Visit.request) := by
  obtain ⟨received, told, begun, inTurn⟩ :=
    (queried.follows schedule time).of_success isAnswered unfolds
      (Walk.not_fails_of_completes completes)
  have given : (queried.reading drawn.boundary schedule time).given queried.visit.part =
      chunkEvents ((queried.visit :: visits).map Visit.part) ++ [endingOf none] := by
    rw [Walk.map_item_of_completes completes] at received
    simp [Reading.given, received, told, chunkEvents, endingOf]
  rw [← List.append_nil (TaskTree.preorders trees)] at begun inTurn
  constructor
  · exact queried.delivers_of_given notHead notConnect atPath hasFollowUps completes isBoundary
      named begun given
  · intro oneAtATime
    exact (queried.sent_of_begun notHead notConnect atPath hasFollowUps completes
      (inTurn oneAtATime)).trans (List.append_nil _)

/--
If a follow-up fails, the parts before it are received; beside what these need,
it has been asked for, and perhaps some that stand behind it.
-/
theorem Queried.delivers_of_failure
    {before after : List Projection.Task}
    {failing : Projection.Task}
    {error : GatewayError}
    {visits : List Visit}
    (preorder : TaskTree.preorders trees = before ++ failing :: after)
    (completes : List.Forall₂ queried.walk.Completes before visits)
    (fails : (queried.walk.carryOut failing).result = .error error) :
    (∃ ahead, ahead.Sublist after ∧
        (service.serve table drawn schedule time request).Delivers drawn.boundary
          (queried.visit :: visits) (queried.walk.sent (failing :: ahead)) (some error)) ∧
      (service.concurrency ≤ 1 →
        (service.serve table drawn schedule time request).sent =
          (queried.visit :: visits).map Visit.request ++ queried.walk.sent [failing]) := by
  have isFailed := Walk.item_of_failure fails
  obtain ⟨received, untold, ahead, areBehind, begun, inTurn⟩ :=
    (queried.follows schedule time).of_failure isAnswered unfolds preorder
      (Walk.not_fails_of_completes completes) ⟨error, isFailed⟩
  have given : (queried.reading drawn.boundary schedule time).given queried.visit.part =
      chunkEvents ((queried.visit :: visits).map Visit.part) ++ [endingOf (some error)] := by
    rw [List.map_append, Walk.map_item_of_completes completes, List.map_singleton,
      isFailed] at received
    simp [Reading.given, received, untold, chunkEvents, endingOf]
  constructor
  · exact ⟨ahead, areBehind, queried.delivers_of_given notHead notConnect atPath hasFollowUps
      completes isBoundary named begun given⟩
  · intro oneAtATime
    exact queried.sent_of_begun notHead notConnect atPath hasFollowUps completes
      (inTurn oneAtATime)

omit hasFollowUps unfolds isAnswered in
/--
What a client receives for a query, whatever scheduler decides about the
fetches.  Without follow-ups, it is the projected document, for which one request
was sent.  With follow-ups, the encoder is given the end at some time if the
scheduler is fair and the trees are finite.  From then on the body is that of
the projected document and of the follow-ups in pre-order, for each of which one
request was sent; or it breaks off at the first one that fails.
-/
theorem serve_delivers_preorder
    (schedule : Nat → Happening) :
    (queried.visit.projection.followUps = [] → ∀ time,
      (service.serve table drawn schedule time request).sent = [queried.visit.request] ∧
        (service.serve table drawn schedule time request).response.status =
          queried.visit.response.status ∧
        (service.serve table drawn schedule time request).response.body =
          .ofBytes (Bytes.ofString queried.visit.projection.target.render)) ∧
    ∀ trees,
      queried.visit.projection.followUps ≠ [] →
      queried.walk.Unfolds queried.visit.projection.followUps trees →
        (queried.walk.IsFair service.concurrency queried.visit.projection.followUps schedule →
          ∃ time, queried.IsAnswered schedule time) ∧
        ∀ time, queried.IsAnswered schedule time →
          (∀ visits,
            List.Forall₂ queried.walk.Completes (TaskTree.preorders trees) visits →
              (service.serve table drawn schedule time request).Delivers drawn.boundary
                  (queried.visit :: visits) [] none ∧
                (service.concurrency ≤ 1 →
                  (service.serve table drawn schedule time request).sent =
                    (queried.visit :: visits).map Visit.request)) ∧
          ∀ before failing after error visits,
            TaskTree.preorders trees = before ++ failing :: after →
            List.Forall₂ queried.walk.Completes before visits →
            (queried.walk.carryOut failing).result = .error error →
              (∃ ahead, ahead.Sublist after ∧
                (service.serve table drawn schedule time request).Delivers drawn.boundary
                  (queried.visit :: visits) (queried.walk.sent (failing :: ahead))
                  (some error)) ∧
              (service.concurrency ≤ 1 →
                (service.serve table drawn schedule time request).sent =
                  (queried.visit :: visits).map Visit.request ++ queried.walk.sent [failing]) := by
  constructor
  · intro noFollowUps time
    exact queried.serve_without_followUps schedule time notHead notConnect atPath noFollowUps
  · intro trees hasFollowUps unfolds
    constructor
    · intro fair
      exact fair.exists_terminated drawn.boundary queried.visit.part unfolds
    · intro time isAnswered
      constructor
      · intro visits completes
        exact queried.delivers_of_success notHead notConnect atPath isBoundary named hasFollowUps
          unfolds isAnswered completes
      · intro before failing after error visits preorder completes fails
        exact queried.delivers_of_failure notHead notConnect atPath isBoundary named hasFollowUps
          unfolds isAnswered preorder completes fails

end

/-! ## A kennel with a query -/

namespace Kennel

/-- Pets are told about elsewhere, and so are their toys. -/
def query : String :=
  "\x7b pets @GET(fragment: \"Pet\") \x7d " ++
    "fragment Pet on Pet \x7b name toys @GET(fragment: \"Toy\") \x7d " ++
    "fragment Toy on Toy \x7b name \x7d"

def service (isGone : Bool) : Service where
  backend := backend isGone
  limit := 100
  concurrency := 3

def request : Request :=
  ⟨"GET", ⟨none, none, "/kennel", none⟩,
    ⟨[("host", Bytes.ofString "gateway"), (queryHeader, Bytes.ofString query),
      (requestIdHeader, Bytes.ofString "7")]⟩, .empty⟩

def drawn : Drawn :=
  ⟨"1", "b0undary"⟩

theorem isBoundary :
    IsBoundary drawn.boundary where
  nonempty := by decide
  alphanumeric := by simp [drawn]

theorem namesHeaders
    (isGone : Bool) :
    (service isGone).backend.NamesHeaders := by
  intro request response answered
  simp only [service, backend] at answered
  split_ifs at answered <;> cases answered <;>
    simp [told, Headers.AreNamed, Headers.empty]

/-- What is told about a pet that is gone. -/
def goneError : GatewayError :=
  .backend (.status "http://gateway/tom" 404 "")

theorem tom_is_gone :
    (walk true).carryOut (petTask "/tom") =
      ⟨some (asked "gateway" "/tom"), .error goneError⟩ := by
  have address : (walk true).address "/tom" = .ok "http://gateway/tom" := by
    decide +kernel
  have requested : (walk true).request "http://gateway/tom" = .ok (asked "gateway" "/tom") := by
    decide +kernel
  have fetched : fetch (walk true).backend (walk true).limit (asked "gateway" "/tom") =
      .error (.status "http://gateway/tom" 404 "") := by
    decide +kernel
  have failed : (walk true).part (petTask "/tom") "http://gateway/tom" (asked "gateway" "/tom") =
      .error goneError := by
    rw [Walk.part, fetched]
    rfl
  simp only [Walk.carryOut, petTask, address, requested]
  exact congrArg _ failed

/-- The second pet has no toys, or is gone; only the first one has further tasks. -/
theorem unfolds
    (isGone : Bool) :
    (walk isGone).Unfolds pets
      [.node (petTask "/rex") [.node (toyTask "/ball") []], .node (petTask "/tom") [],
        .node (petTask "/kit") []] := by
  have noneBelow {task : Projection.Task} (discovers : (walk isGone).discovered task = []) :
      (walk isGone).Unfolds ((walk isGone).discovered task) [] := by
    rw [discovers]
    exact .nil
  have belowRex : (walk isGone).Unfolds ((walk isGone).discovered (petTask "/rex"))
      [.node (toyTask "/ball") []] := by
    rw [Walk.discovered_of_success (rex_completes isGone).result_eq]
    exact .cons (noneBelow (Walk.discovered_of_success (ball_completes isGone).result_eq)) .nil
  refine .cons belowRex (.cons (noneBelow ?_) (.cons (noneBelow ?_) .nil))
  · cases isGone with
    | false => exact Walk.discovered_of_success tom_completes.result_eq
    | true => exact Walk.discovered_of_failure (congrArg Outcome.result tom_is_gone)
  · exact Walk.discovered_of_success (kit_completes isGone).result_eq

/-- What is told about the kennel has three links. -/
def kennel : Visit where
  request := asked "kennel" "/pets"
  response := told kennelText
  projection := ⟨.object [("pets", .array [link "/rex", link "/tom", link "/kit"])], pets⟩

theorem parsed :
    Query.Document.ofString query = .ok document := by
  cbv

theorem isJson :
    Json.ofBytes? (Bytes.ofString kennelText) =
      some (.object [("pets", .array [link "/rex", link "/tom", link "/kit"])]) := by
  cbv

theorem projected :
    Projection.project document
        (.object [("pets", .array [link "/rex", link "/tom", link "/kit"])]) =
      .ok kennel.projection := by
  cbv

/-- The kennel is asked for and found. -/
def queried (isGone : Bool) : Queried (service isGone) table (identified drawn request) where
  ingress := "http://gateway/kennel"
  egress := "http://kennel/pets"
  query := query
  place := .header
  body := .untouched .empty
  document := document
  base := base
  visit := kennel
  routed := by decide +kernel
  extracted := by cases isGone <;> decide +kernel
  parsed := parsed
  isUrl := by decide +kernel
  sent := by decide +kernel
  projected :=
    ⟨.object [("pets", .array [link "/rex", link "/tom", link "/kit"])],
      ⟨by cases isGone <;> decide +kernel, by decide +kernel, Bytes.ofString kennelText,
        by cases isGone <;> decide +kernel, isJson⟩,
      projected⟩

theorem queried_walk
    (isGone : Bool) :
    (queried isGone).walk = walk isGone := by
  have headers :
      followUpHeaders (queriedHeaders (identified drawn request) (.untouched .empty)) =
        ⟨[("x-request-id", Bytes.ofString "7")]⟩ := by
    decide +kernel
  simp only [Queried.walk, queried, headers]
  rfl

/-- Both kennels have been read to their end, although later fetches finish before earlier ones. -/
theorem isAnswered
    (isGone : Bool) :
    (queried isGone).IsAnswered outOfOrder 14 := by
  rw [Queried.IsAnswered, Queried.reading, queried_walk]
  cases isGone <;> decide +kernel

/--
Of three pets the first one has a toy, and up to three links of a list are
followed at once.  The client receives the toy before the other pets; if the
second pet is gone, the body breaks off there, and the third one has been asked
for in vain.
-/
theorem serve_delivers_pets :
    (∃ time, (queried false).IsAnswered takingTurns time) ∧
      ((service false).serve table drawn outOfOrder 14 request).Delivers drawn.boundary
        [kennel, rex.visit, ball.visit, tom.visit, kit.visit] [] none ∧
      (∃ ahead, ahead.Sublist [petTask "/kit"] ∧
        ((service true).serve table drawn outOfOrder 14 request).Delivers drawn.boundary
          [kennel, rex.visit, ball.visit] ((queried true).walk.sent (petTask "/tom" :: ahead))
          (some goneError)) ∧
      ((queried true).reading drawn.boundary outOfOrder 14).stream.begun.map (·.url) =
        ["/rex", "/tom", "/kit", "/ball"] := by
  have walkUnfolds (isGone : Bool) : (queried isGone).walk.Unfolds pets
      [.node (petTask "/rex") [.node (toyTask "/ball") []], .node (petTask "/tom") [],
        .node (petTask "/kit") []] := by
    rw [queried_walk]
    exact unfolds isGone
  have hasFollowUps : pets ≠ [] := by
    simp [pets]
  have delivered (isGone : Bool) (schedule : Nat → Happening) :=
    (serve_delivers_preorder (queried isGone) (by decide) (by decide) (by decide +kernel)
      isBoundary (namesHeaders isGone) schedule).2 _ hasFollowUps (walkUnfolds isGone)
  refine ⟨?_, ?_, ?_, ?_⟩
  · exact (delivered false takingTurns).1 (Walk.isFair_takingTurns _ _ _)
  · have completes : List.Forall₂ (queried false).walk.Completes
        [petTask "/rex", toyTask "/ball", petTask "/tom", petTask "/kit"]
        [rex.visit, ball.visit, tom.visit, kit.visit] := by
      rw [queried_walk]
      exact .cons (rex_completes false) (.cons (ball_completes false)
        (.cons tom_completes (.cons (kit_completes false) .nil)))
    exact (((delivered false outOfOrder).2 14 (isAnswered false)).1 _ completes).1
  · have completes : List.Forall₂ (queried true).walk.Completes
        [petTask "/rex", toyTask "/ball"] [rex.visit, ball.visit] := by
      rw [queried_walk]
      exact .cons (rex_completes true) (.cons (ball_completes true) .nil)
    have fails : ((queried true).walk.carryOut (petTask "/tom")).result = .error goneError := by
      rw [queried_walk, tom_is_gone]
    exact (((delivered true outOfOrder).2 14 (isAnswered true)).2 _ _ [petTask "/kit"] _ _
      rfl completes fails).1
  · rw [Queried.reading, queried_walk]
    decide +kernel

end Kennel

end QueryGateway.Gateway
