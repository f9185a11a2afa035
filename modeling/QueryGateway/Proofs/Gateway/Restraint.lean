import QueryGateway.Proofs.Gateway.Delivery
import QueryGateway.Proofs.Gateway.Fairness
import QueryGateway.Proofs.Gateway.Reading

/-!
# Nothing is begun after an error

Whoever polls a stream of follow-ups, the tasks of every list are begun in the
order of the list and not too far ahead.  But an error that has passed stops
only what passes behind it: a stream that were asked again would begin fetches
again.  It is the encoder of the answer that asks no more once it has been given
an error, and so nothing is begun after one while an answer is read.

If one fetch at a time is allowed, the tasks are begun in the order of the walk
in depth: at any time they are those that the walk has behind it, and the one
that is in hand.
-/

namespace QueryGateway.Gateway

open Multipart (Event Part)

/-! ## The reading and its stream -/

section

variable
    (walk : Walk)
    (boundary : String)
    (concurrency : Nat)
    (primary : Part)
    (tasks : List Projection.Task)
    (schedule : Nat → Happening)

/-- What happens in a reading that goes on happens in its stream. -/
theorem Walk.stream_read
    {reading : Reading}
    (goesOn : reading.encoder.isTerminated = false)
    (happening : Happening) :
    (walk.read boundary concurrency reading happening).stream =
      walk.next concurrency reading.stream happening := by
  cases happening with
  | finish number => rfl
  | poll begins => rw [walk.read_poll boundary concurrency goesOn]

/-- Until the encoder is terminated, a reading is that of the stream as it is. -/
theorem Walk.stream_reading
    {time : Nat}
    (goesOn :
      (walk.reading boundary concurrency primary tasks schedule
        time).encoder.isTerminated = false) :
    (walk.reading boundary concurrency primary tasks schedule time).stream =
      walk.stream concurrency tasks schedule time := by
  induction time with
  | zero => rfl
  | succ time induction =>
      cases wentOn : (walk.reading boundary concurrency primary tasks schedule
          time).encoder.isTerminated with
      | true =>
          obtain ⟨levels, same⟩ :=
            walk.read_of_terminated boundary concurrency wentOn (schedule time)
          rw [reading, same] at goesOn
          exact absurd wentOn (Bool.eq_false_iff.mp goesOn)
      | false =>
          rw [reading, walk.stream_read boundary concurrency wentOn, induction wentOn, stream]

/-- What a reading has begun and received is what the stream had at some time. -/
theorem Walk.exists_stream
    (time : Nat) :
    ∃ stop, stop ≤ time ∧
      (walk.reading boundary concurrency primary tasks schedule time).stream.begun =
        (walk.stream concurrency tasks schedule stop).begun ∧
      (walk.reading boundary concurrency primary tasks schedule time).stream.received =
        (walk.stream concurrency tasks schedule stop).received := by
  induction time with
  | zero => exact ⟨0, Nat.le_refl 0, rfl, rfl⟩
  | succ time induction =>
      cases wentOn : (walk.reading boundary concurrency primary tasks schedule
          time).encoder.isTerminated with
      | true =>
          obtain ⟨stop, isEarlier, begun, received⟩ := induction
          obtain ⟨levels, same⟩ :=
            walk.read_of_terminated boundary concurrency wentOn (schedule time)
          rw [reading, same]
          exact ⟨stop, Nat.le_succ_of_le isEarlier, begun, received⟩
      | false =>
          refine ⟨time + 1, Nat.le_refl _, ?_⟩
          rw [reading, walk.stream_read boundary concurrency wentOn,
            walk.stream_reading boundary concurrency primary tasks schedule wentOn, stream]
          exact ⟨rfl, rfl⟩

/-- A terminated encoder begins, receives and writes nothing more. -/
theorem Walk.reading_of_terminated
    {time later : Nat}
    (isLater : time ≤ later)
    (isTerminated :
      (walk.reading boundary concurrency primary tasks schedule
        time).encoder.isTerminated = true) :
    ∃ levels,
      walk.reading boundary concurrency primary tasks schedule later =
        { walk.reading boundary concurrency primary tasks schedule time with
          stream :=
            { (walk.reading boundary concurrency primary tasks schedule time).stream with
              levels } } := by
  induction isLater with
  | refl => exact ⟨_, rfl⟩
  | @step later isLater induction =>
      obtain ⟨levels, same⟩ := induction
      have stillTerminated : (walk.reading boundary concurrency primary tasks schedule
          later).encoder.isTerminated = true := by
        rw [same]
        exact isTerminated
      obtain ⟨laterLevels, stillSame⟩ :=
        walk.read_of_terminated boundary concurrency stillTerminated (schedule later)
      refine ⟨laterLevels, ?_⟩
      rw [reading, stillSame, same]

/-! ## Tasks in turn -/

/-- An error that has been received has terminated the encoder. -/
theorem Reading.Follows.isTerminated_of_error
    {reading : Reading}
    (follows : reading.Follows walk concurrency tasks)
    {error : GatewayError}
    (isReceived : .failed error ∈ reading.stream.received) :
    reading.encoder.isTerminated = true := by
  cases follows with
  | running carriedOut _ _ leads received =>
      rw [received] at isReceived
      obtain ⟨task, member, isFailed⟩ := List.mem_map.mp isReceived
      exact (leads.not_fails task member ⟨error, isFailed⟩).elim
  | failed isTerminated => exact isTerminated
  | ended isTerminated => exact isTerminated

/-- What has been begun are the first tasks of the order, and all of them in the end. -/
theorem Reading.Follows.exists_count
    {reading : Reading}
    (follows : reading.Follows walk concurrency tasks)
    (oneAtATime : concurrency ≤ 1) :
    ∃ count, reading.stream.begun = walk.order count tasks ∧
      (reading.encoder.isTerminated = true →
        ∀ more, walk.order (count + more) tasks = reading.stream.begun) := by
  cases follows with
  | @ended carriedOut isTerminated leads _ _ _ inTurn =>
      have order (more : Nat) : walk.order (carriedOut.length + more) tasks =
          reading.stream.begun := by
        rw [leads.order_eq, Walk.order_nil, List.append_nil, inTurn oneAtATime]
      exact ⟨carriedOut.length, (order 0).symm, fun _ => order⟩
  | @failed carriedOut _ _ _ isTerminated leads fails _ _ _ _ inTurn =>
      obtain ⟨error, fails, _⟩ := fails.exists_error
      have order (more : Nat) : walk.order (carriedOut.length + 1 + more) tasks =
          reading.stream.begun := by
        rw [Nat.add_assoc, Nat.add_comm 1, leads.order_eq, Walk.order_of_failure more fails,
          inTurn oneAtATime]
      exact ⟨carriedOut.length + 1, (order 0).symm, fun _ => order⟩
  | running carriedOut goesOn _ leads _ _ _ inTurn =>
      obtain ⟨isSolo, begun⟩ := inTurn oneAtATime
      have notTerminated : reading.encoder.isTerminated ≠ true := by
        simp [goesOn]
      by_cases isIdle : inHand reading.stream.levels = []
      · refine ⟨carriedOut.length, ?_, fun isTerminated => (notTerminated isTerminated).elim⟩
        rw [begun, isIdle]
        exact (leads.order_eq 0).symm
      · refine ⟨carriedOut.length + 1, ?_, fun isTerminated => (notTerminated isTerminated).elim⟩
        rw [begun, leads.order_eq 1]
        cases first : owed reading.stream.levels with
        | nil => exact (isIdle (inHand_eq_nil_of_owed first)).elim
        | cons task waiting =>
            rw [Walk.order_one, inHand_eq_of_owed isSolo first isIdle]

/-- On finite trees the tasks are begun in pre-order, up to the first failure. -/
theorem Reading.Follows.begun_of_unfolds
    {reading : Reading}
    (follows : reading.Follows walk concurrency tasks)
    (oneAtATime : concurrency ≤ 1)
    {trees : List TaskTree}
    (unfolds : walk.Unfolds tasks trees) :
    reading.stream.begun <+: walk.untilFailure (TaskTree.preorders trees) ∧
      (reading.encoder.isTerminated = true →
        reading.stream.begun = walk.untilFailure (TaskTree.preorders trees)) := by
  obtain ⟨count, begun, whole⟩ :=
    Reading.Follows.exists_count walk concurrency tasks follows oneAtATime
  constructor
  · rw [begun, Walk.order_of_unfolds unfolds]
    exact List.take_prefix _ _
  · intro isTerminated
    have all := whole isTerminated (walk.untilFailure (TaskTree.preorders trees)).length
    rw [Walk.order_of_unfolds unfolds, List.take_of_length_le (Nat.le_add_left _ _)] at all
    exact all.symm

/-! ## Every schedule -/

/-- A stream is orderly at any time, whoever polls it. -/
theorem Walk.isOrderly_tracked
    (time : Nat) :
    (walk.tracked concurrency tasks schedule time).IsOrderly walk concurrency tasks := by
  have run : walk.Accounts (max concurrency 1) tasks
        (walk.tracked concurrency tasks schedule time).lanes
        (walk.tracked concurrency tasks schedule time).record ∧
      walk.Yields (walk.tracked concurrency tasks schedule time) := by
    induction time with
    | zero => exact ⟨walk.accounts_start _ tasks, walk.yields_start tasks⟩
    | succ time induction =>
        exact ⟨induction.1.track (schedule time), induction.2.track concurrency (schedule time)⟩
  exact run.1.isOrderly run.2

/--
Follow-ups are fetched in order and never past a failure.  Whoever polls the
stream of some tasks, and whichever fetches finish when, the tasks of every list
are begun in the order of the list, each once, and at most as many of them as
may be fetched at once are begun and not yielded.  A reading is that of such a
stream, until the encoder is terminated: nothing begins after an error has been
received, and if one fetch at a time is allowed, the tasks begin in the order of
the walk in depth, which is the pre-order of their trees, up to the first one
that fails.
-/
theorem Walk.stream_begins_in_order :
    (∀ time,
      (walk.tracked concurrency tasks schedule time).stream =
          walk.stream concurrency tasks schedule time ∧
        (walk.tracked concurrency tasks schedule time).IsOrderly walk concurrency tasks) ∧
    (∀ time,
      ((walk.reading boundary concurrency primary tasks schedule
            time).encoder.isTerminated = false →
          (walk.reading boundary concurrency primary tasks schedule time).stream =
            walk.stream concurrency tasks schedule time) ∧
        ∃ stop, stop ≤ time ∧
          (walk.reading boundary concurrency primary tasks schedule time).stream.begun =
            (walk.stream concurrency tasks schedule stop).begun ∧
          (walk.reading boundary concurrency primary tasks schedule time).stream.received =
            (walk.stream concurrency tasks schedule stop).received) ∧
    (∀ time later error, time ≤ later →
      .failed error ∈
          (walk.reading boundary concurrency primary tasks schedule time).stream.received →
        (walk.reading boundary concurrency primary tasks schedule later).stream.begun =
          (walk.reading boundary concurrency primary tasks schedule time).stream.begun) ∧
    (concurrency ≤ 1 →
      (∀ time, ∃ count,
        (walk.reading boundary concurrency primary tasks schedule time).stream.begun =
            walk.order count tasks ∧
          ((walk.reading boundary concurrency primary tasks schedule
                time).encoder.isTerminated = true →
            ∀ more, walk.order (count + more) tasks =
              (walk.reading boundary concurrency primary tasks schedule time).stream.begun)) ∧
      ∀ trees, walk.Unfolds tasks trees → ∀ time,
        (walk.reading boundary concurrency primary tasks schedule time).stream.begun <+:
            walk.untilFailure (TaskTree.preorders trees) ∧
          ((walk.reading boundary concurrency primary tasks schedule
                time).encoder.isTerminated = true →
            (walk.reading boundary concurrency primary tasks schedule time).stream.begun =
              walk.untilFailure (TaskTree.preorders trees))) := by
  have follows := walk.follows_reading boundary concurrency primary tasks schedule
  refine ⟨?_, ?_, ?_, ?_⟩
  · intro time
    exact ⟨walk.stream_tracked concurrency tasks schedule time,
      walk.isOrderly_tracked concurrency tasks schedule time⟩
  · intro time
    exact ⟨walk.stream_reading boundary concurrency primary tasks schedule,
      walk.exists_stream boundary concurrency primary tasks schedule time⟩
  · intro time later error isLater isReceived
    have isTerminated := (follows time).isTerminated_of_error walk concurrency tasks isReceived
    obtain ⟨levels, same⟩ :=
      walk.reading_of_terminated boundary concurrency primary tasks schedule isLater isTerminated
    rw [same]
  · intro oneAtATime
    constructor
    · intro time
      exact (follows time).exists_count walk concurrency tasks oneAtATime
    · intro trees unfolds time
      exact (follows time).begun_of_unfolds walk concurrency tasks oneAtATime unfolds

end

/-! ## A toy that is lost -/

namespace PetStore

/-- A link that leads nowhere. -/
def lostTask : Projection.Task :=
  { toyTask with url := "http://[" }

theorem lostTask_address :
    queried.walk.address lostTask.url =
      .error (.invalidAddress "http://[" "invalid IPv6 address") := by
  decide +kernel

/-- What is told about a link that leads nowhere. -/
def lostError : GatewayError :=
  .backend (.invalidAddress "http://[" "invalid IPv6 address")

theorem lostTask_fails :
    (queried.walk.carryOut lostTask).result = .error lostError := by
  rw [Walk.carryOut, lostTask_address]
  rfl

theorem unfolds_lost :
    queried.walk.Unfolds [toyTask, lostTask, toyTask]
      [.node toyTask [], .node lostTask [], .node toyTask []] := by
  have toyAlone : queried.walk.Unfolds (queried.walk.discovered toyTask) [] := by
    rw [Walk.discovered_of_success completes.result_eq]
    exact .nil
  have lostAlone : queried.walk.Unfolds (queried.walk.discovered lostTask) [] := by
    rw [Walk.discovered_of_failure lostTask_fails]
    exact .nil
  exact .cons toyAlone (.cons lostAlone (.cons toyAlone .nil))

theorem untilFailure_lost :
    queried.walk.untilFailure
        (TaskTree.preorders [.node toyTask [], .node lostTask [], .node toyTask []]) =
      [toyTask, lostTask] :=
  (Walk.untilFailure_of_success completes.result_eq _).trans
    (congrArg (toyTask :: ·) (Walk.untilFailure_of_failure lostTask_fails _))

/-- The toy behind the lost one is not fetched, however long the answer is read. -/
theorem toy_behind_lost_is_not_begun :
    (queried.walk.reading drawn.boundary 1 petVisit.part [toyTask, lostTask, toyTask] takingTurns
        7).stream.begun = [toyTask, lostTask] ∧
      ∀ later, 7 ≤ later →
        (queried.walk.reading drawn.boundary 1 petVisit.part [toyTask, lostTask, toyTask]
            takingTurns later).stream.begun =
          (queried.walk.reading drawn.boundary 1 petVisit.part [toyTask, lostTask, toyTask]
            takingTurns 7).stream.begun := by
  obtain ⟨_, _, noneBehind, inTurn⟩ := queried.walk.stream_begins_in_order drawn.boundary 1
    petVisit.part [toyTask, lostTask, toyTask] takingTurns
  have isTerminated : (queried.walk.reading drawn.boundary 1 petVisit.part
      [toyTask, lostTask, toyTask] takingTurns 7).encoder.isTerminated = true := by
    decide +kernel
  have isReceived : .failed lostError ∈ (queried.walk.reading drawn.boundary 1 petVisit.part
      [toyTask, lostTask, toyTask] takingTurns 7).stream.received := by
    decide +kernel
  constructor
  · rw [((inTurn (Nat.le_refl 1)).2 _ unfolds_lost 7).2 isTerminated]
    exact untilFailure_lost
  · intro later isLater
    exact noneBehind 7 later _ isLater isReceived

/--
Polled again after the error, the stream begins the toy behind the lost one,
although one fetch at a time is allowed; and a stream that nobody polls begins
none of the tasks.
-/
theorem toy_behind_lost_is_begun :
    queried.walk.Unfolds [toyTask, lostTask, toyTask]
        [.node toyTask [], .node lostTask [], .node toyTask []] ∧
      queried.walk.untilFailure
          (TaskTree.preorders [.node toyTask [], .node lostTask [], .node toyTask []]) =
        [toyTask, lostTask] ∧
      .failed lostError ∈
        (queried.walk.stream 1 [toyTask, lostTask, toyTask] takingTurns 7).received ∧
      (queried.walk.stream 1 [toyTask, lostTask, toyTask] takingTurns 7).begun.map (·.url) =
        ["/toys/2", "http://["] ∧
      (queried.walk.stream 1 [toyTask, lostTask, toyTask] takingTurns 9).begun.map (·.url) =
        ["/toys/2", "http://[", "/toys/2"] ∧
      (queried.walk.stream 1 [toyTask, lostTask, toyTask] (fun _ => .finish 0) 9).begun = [] := by
  refine ⟨unfolds_lost, untilFailure_lost, ?_, ?_, ?_, rfl⟩
  · decide +kernel
  · decide +kernel
  · decide +kernel

end PetStore

end QueryGateway.Gateway
