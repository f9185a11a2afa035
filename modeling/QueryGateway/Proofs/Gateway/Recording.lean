import QueryGateway.Proofs.Gateway.Scheduling
import QueryGateway.Proofs.Gateway.Visits

/-!
# A record of what a stream begins

The tasks that a stream has begun do not tell which lists they stand in, since a
task may come up more than once.  A record gives every task its position: the
path to its list, and its index in the list.  The path names the task that the
list came up in, by the indices on the way to it.

The record is kept beside the stream, poll by poll: a level is a lane when the
path to its list is known, and how many tasks of the list its queue has yielded.
Whoever forgets the record is left with the stream.
-/

namespace QueryGateway.Gateway

open Multipart (Event)

/-! ## Positions -/

/-- The path to the list that a task stands in, and its index there. -/
structure Position where
  list : List Nat
  index : Nat
deriving DecidableEq, Repr

/-- The path to the list of the tasks that come up in a task. -/
def Position.below (position : Position) : List Nat :=
  position.list ++ [position.index]

/-- A task at a position. -/
structure Placed where
  position : Position
  task : Projection.Task

/-- The indices of the tasks that stand in a list. -/
def indicesIn (list : List Nat) (placed : List Placed) : List Nat :=
  (placed.filter (·.position.list = list)).map (·.position.index)

namespace Walk

/-- The list that a path leads to; every index leads to the tasks that come up there. -/
def listAt (walk : Walk) (tasks : List Projection.Task) (path : List Nat) :
    List Projection.Task :=
  path.foldl (fun tasks index => tasks[index]?.elim [] walk.discovered) tasks

/-- The task at a position. -/
def taskAt? (walk : Walk) (tasks : List Projection.Task) (position : Position) :
    Option Projection.Task :=
  (walk.listAt tasks position.list)[position.index]?

@[simp]
theorem listAt_nil
    (walk : Walk)
    (tasks : List Projection.Task) :
    walk.listAt tasks [] = tasks :=
  rfl

theorem listAt_below
    (walk : Walk)
    (tasks : List Projection.Task)
    (position : Position) :
    walk.listAt tasks position.below = (walk.taskAt? tasks position).elim [] walk.discovered := by
  simp [listAt, taskAt?, Position.below]

end Walk

theorem Position.below_inj
    {first second : Position} :
    first.below = second.below ↔ first = second := by
  cases first
  cases second
  simp [Position.below]

theorem Position.below_ne_nil
    (position : Position) :
    position.below ≠ [] := by
  simp [Position.below]

@[simp]
theorem indicesIn_append
    (list : List Nat)
    (first second : List Placed) :
    indicesIn list (first ++ second) = indicesIn list first ++ indicesIn list second := by
  simp [indicesIn]

theorem indicesIn_eq_nil
    {list : List Nat}
    {placed : List Placed}
    (elsewhere : ∀ entry ∈ placed, entry.position.list ≠ list) :
    indicesIn list placed = [] := by
  simpa [indicesIn] using elsewhere

theorem mem_indicesIn_of_mem
    {placed : List Placed}
    {entry : Placed}
    (member : entry ∈ placed) :
    entry.position.index ∈ indicesIn entry.position.list placed := by
  simp only [indicesIn, List.mem_map, List.mem_filter, decide_eq_true_eq]
  exact ⟨entry, ⟨member, rfl⟩, rfl⟩

/-! ## Polls with a record -/

/-- A level whose list is known, and how many tasks of the list its queue has yielded. -/
structure Lane where
  list : List Nat
  yielded : Nat
  level : Level

/-- The tasks that have been begun, and those that the queues have yielded, in their orders. -/
structure Record where
  begun : List Placed
  yielded : List Placed

/-- The record with further tasks that have been begun or yielded. -/
def Record.extend (record : Record) (begun yielded : List Placed) : Record :=
  ⟨record.begun ++ begun, record.yielded ++ yielded⟩

@[simp]
theorem Record.begun_extend
    (record : Record)
    (begun yielded : List Placed) :
    (record.extend begun yielded).begun = record.begun ++ begun :=
  rfl

@[simp]
theorem Record.yielded_extend
    (record : Record)
    (begun yielded : List Placed) :
    (record.extend begun yielded).yielded = record.yielded ++ yielded :=
  rfl

/-- Tasks that stand in other lists do not count for a list. -/
theorem Record.indicesIn_extend
    (record : Record)
    {list : List Nat}
    {begun yielded : List Placed}
    (elsewhere : ∀ entry ∈ begun ++ yielded, entry.position.list ≠ list) :
    indicesIn list (record.extend begun yielded).begun = indicesIn list record.begun ∧
      indicesIn list (record.extend begun yielded).yielded = indicesIn list record.yielded := by
  have noneBegun : indicesIn list begun = [] :=
    indicesIn_eq_nil fun entry member => elsewhere entry (by simp [member])
  have noneYielded : indicesIn list yielded = [] :=
    indicesIn_eq_nil fun entry member => elsewhere entry (by simp [member])
  simp [noneBegun, noneYielded]

/-- What a poll gives and what it leaves behind, with the record. -/
structure Recorded where
  event : Event GatewayError
  lanes : List Lane
  record : Record

/-- The poll without its record. -/
def Recorded.polled (recorded : Recorded) : Polled :=
  ⟨recorded.event, recorded.lanes.map (·.level), recorded.record.begun.map (·.task)⟩

/-- Let pass what came from the queue of a lane or from inside it. -/
def Lane.passOn (lane : Lane) (nested : List Lane) (record : Record)
    (event : Event GatewayError) : Recorded :=
  ⟨(lane.level.pass event).1, { lane with level := (lane.level.pass event).2 } :: nested, record⟩

/-- The lane inside another one after a task has brought up tasks. -/
def lanesBelow (position : Position) (tasks : List Projection.Task) : List Lane :=
  (nestedIn tasks).map (⟨position.below, 0, ·⟩)

/-- The tasks of the fetches that begin, in a queue that starts at an index of its list. -/
def placedBeginning (list : List Nat) : Nat → Nat → List Slot → List Placed
  | 0, _, _ => []
  | _ + 1, _, [] => []
  | begins + 1, index, slot :: slots =>
      if slot.progress = .queued then
        ⟨⟨list, index⟩, slot.task⟩ :: placedBeginning list begins (index + 1) slots
      else
        placedBeginning list (begins + 1) (index + 1) slots

namespace Walk

/-- Poll the queue of a lane, and record what it begins or yields. -/
def recordQueue (walk : Walk) (concurrency begins : Nat) (record : Record) (lane : Lane) :
    Recorded :=
  let level := lane.level.filled concurrency
  match level.slots with
  | [] => { lane with level := level }.passOn [] record .ended
  | ⟨task, .finished⟩ :: slots =>
      let position : Position := ⟨lane.list, lane.yielded⟩
      let later : Lane := ⟨lane.list, lane.yielded + 1, { level with slots }⟩
      let record := record.extend [] [⟨position, task⟩]
      match (walk.carryOut task).result with
      | .ok (part, tasks) => later.passOn (lanesBelow position tasks) record (.chunk part)
      | .error error => later.passOn [] record (.failed error)
  | slots =>
      let level := { level with slots := beginFetches begins record.begun.length slots }
      let begun := placedBeginning lane.list begins lane.yielded slots
      { lane with level }.passOn [] (record.extend begun []) .pending

/-- Poll a stream, and record what it begins or yields. -/
def recordPoll (walk : Walk) (concurrency begins : Nat) (record : Record) : List Lane → Recorded
  | [] => ⟨.ended, [], record⟩
  | lane :: nested =>
      if lane.level.isOver then
        ⟨.ended, lane :: nested, record⟩
      else
        let inside := walk.recordPoll concurrency begins record nested
        match inside.event with
        | .ended => walk.recordQueue concurrency begins inside.record lane
        | event => lane.passOn inside.lanes inside.record event

end Walk

/-! ## Forgetting the record -/

theorem map_task_placedBeginning
    (list : List Nat)
    (begins index : Nat)
    (slots : List Slot) :
    (placedBeginning list begins index slots).map (·.task) = beginning begins slots := by
  induction slots generalizing begins index with
  | nil => cases begins <;> simp [placedBeginning, beginning]
  | cons slot slots induction =>
      cases begins with
      | zero => simp [placedBeginning, beginning]
      | succ begins =>
          by_cases isQueued : slot.progress = .queued
          · simpa [placedBeginning, beginning, isQueued] using induction begins (index + 1)
          · simpa [placedBeginning, beginning, isQueued] using induction (begins + 1) (index + 1)

theorem map_level_lanesBelow
    (position : Position)
    (tasks : List Projection.Task) :
    (lanesBelow position tasks).map (·.level) = nestedIn tasks := by
  simp [lanesBelow, Function.comp_def]

@[simp]
theorem Lane.polled_passOn
    (lane : Lane)
    (nested : List Lane)
    (record : Record)
    (event : Event GatewayError) :
    (lane.passOn nested record event).polled =
      Gateway.passOn lane.level (nested.map (·.level)) (record.begun.map (·.task)) event := by
  simp [Lane.passOn, Gateway.passOn, Recorded.polled]

section

variable
    (walk : Walk)
    (concurrency begins : Nat)

theorem Walk.polled_recordQueue
    (record : Record)
    (lane : Lane) :
    (walk.recordQueue concurrency begins record lane).polled =
      walk.pollQueue concurrency begins (record.begun.map (·.task)) lane.level := by
  rw [Walk.recordQueue, Walk.pollQueue]
  cases slots : (lane.level.filled concurrency).slots with
  | nil => simp
  | cons slot rest =>
      obtain ⟨task, progress⟩ := slot
      cases progress with
      | queued => simp [map_task_placedBeginning]
      | underWay number => simp [map_task_placedBeginning]
      | finished =>
          cases result : (walk.carryOut task).result with
          | ok yielded => simp [result, map_level_lanesBelow]
          | error error => simp [result]

theorem Walk.polled_recordPoll
    (record : Record)
    (lanes : List Lane) :
    (walk.recordPoll concurrency begins record lanes).polled =
      walk.poll concurrency begins (record.begun.map (·.task)) (lanes.map (·.level)) := by
  induction lanes with
  | nil => rfl
  | cons lane nested induction =>
      rw [List.map_cons, Walk.recordPoll, Walk.poll, ← induction]
      by_cases isOver : lane.level.isOver = true
      · simp [isOver, Recorded.polled]
      · simp only [isOver, Bool.false_eq_true, if_false]
        generalize walk.recordPoll concurrency begins record nested = inside
        obtain ⟨event, lanes, record⟩ := inside
        cases event with
        | ended => exact walk.polled_recordQueue concurrency begins record lane
        | chunk part => simp [Recorded.polled, Lane.passOn, passOn]
        | pending => simp [Recorded.polled, Lane.passOn, passOn]
        | failed error => simp [Recorded.polled, Lane.passOn, passOn]

end

/-! ## Runs with a record -/

/-- A stream with its record. -/
structure Tracked where
  lanes : List Lane
  record : Record
  received : List (Event GatewayError)
  hasEnded : Bool

/-- The stream without its record. -/
def Tracked.stream (tracked : Tracked) : Stream where
  levels := tracked.lanes.map (·.level)
  begun := tracked.record.begun.map (·.task)
  received := tracked.received
  hasEnded := tracked.hasEnded

/-- The stream of some tasks before it is polled. -/
def Tracked.start (tasks : List Projection.Task) : Tracked :=
  ⟨[⟨[], 0, .start tasks⟩], ⟨[], []⟩, [], false⟩

/-- The fetch with a number finishes if it belongs to the lane. -/
def Lane.finish (number : Nat) (lane : Lane) : Lane :=
  { lane with level := lane.level.finish number }

namespace Walk

/-- The stream and its record after something has happened. -/
def track (walk : Walk) (concurrency : Nat) (tracked : Tracked) : Happening → Tracked
  | .finish number => { tracked with lanes := tracked.lanes.map (·.finish number) }
  | .poll begins =>
      let recorded := walk.recordPoll concurrency begins tracked.record tracked.lanes
      { lanes := recorded.lanes
        record := recorded.record
        received := tracked.received ++ [recorded.event].filter isItem
        hasEnded := tracked.hasEnded || recorded.event = .ended }

/-- The stream of some tasks and its record after a number of happenings. -/
def tracked (walk : Walk) (concurrency : Nat) (tasks : List Projection.Task)
    (schedule : Nat → Happening) : Nat → Tracked
  | 0 => .start tasks
  | time + 1 =>
      walk.track concurrency (walk.tracked concurrency tasks schedule time) (schedule time)

variable
    (walk : Walk)
    (concurrency : Nat)

@[simp]
theorem stream_track
    (tracked : Tracked)
    (happening : Happening) :
    (walk.track concurrency tracked happening).stream =
      walk.next concurrency tracked.stream happening := by
  cases happening with
  | finish number =>
      simp [track, next, Tracked.stream, Lane.finish, Function.comp_def]
  | poll begins =>
      have forgotten := walk.polled_recordPoll concurrency begins tracked.record tracked.lanes
      simp only [next, Tracked.stream, ← forgotten]
      rfl

/-- A record changes nothing about its stream. -/
theorem stream_tracked
    (tasks : List Projection.Task)
    (schedule : Nat → Happening)
    (time : Nat) :
    (walk.tracked concurrency tasks schedule time).stream =
      walk.stream concurrency tasks schedule time := by
  induction time with
  | zero => rfl
  | succ time induction => rw [tracked, stream_track, induction, Walk.stream]

end Walk

/-! ## What is received -/

namespace Walk

variable
    (walk : Walk)
    (concurrency begins : Nat)

/-- What a queue yields is what it gives, as long as no error has passed. -/
theorem recordQueue_yields
    (record : Record)
    (lane : Lane) :
    ∃ yielded,
      (walk.recordQueue concurrency begins record lane).record.yielded =
        record.yielded ++ yielded ∧
      (lane.level.IsOpen →
        yielded.map (walk.item ·.task) =
          [(walk.recordQueue concurrency begins record lane).event].filter isItem) := by
  rw [recordQueue]
  split
  · exact ⟨[], by simp [Lane.passOn, Level.pass]⟩
  · next task slots first =>
      refine ⟨[⟨⟨lane.list, lane.yielded⟩, task⟩], ?_⟩
      split
      · next part tasks succeeds =>
          refine ⟨rfl, fun isOpen => ?_⟩
          have laterOpen : Level.IsOpen { lane.level.filled concurrency with slots } := isOpen
          simp [Lane.passOn, Level.pass_chunk laterOpen, item_of_success succeeds]
      · next error fails =>
          refine ⟨rfl, fun isOpen => ?_⟩
          have laterOpen : Level.IsOpen { lane.level.filled concurrency with slots } := isOpen
          simp [Lane.passOn, Level.pass_failed laterOpen, item_of_failure fails]
  · exact ⟨[], by simp [Lane.passOn, Level.pass]⟩

/-- What the queues yield in a poll is what it gives, as long as no error has passed. -/
theorem recordPoll_yields
    (record : Record)
    (lanes : List Lane) :
    ∃ yielded,
      (walk.recordPoll concurrency begins record lanes).record.yielded =
        record.yielded ++ yielded ∧
      (AreOpen (lanes.map (·.level)) →
        yielded.map (walk.item ·.task) =
          [(walk.recordPoll concurrency begins record lanes).event].filter isItem) := by
  induction lanes with
  | nil => exact ⟨[], by simp [recordPoll]⟩
  | cons lane nested induction =>
      rw [recordPoll]
      split
      · exact ⟨[], by simp⟩
      · obtain ⟨inside, isInside, given⟩ := induction
        generalize walk.recordPoll concurrency begins record nested = recorded at isInside given ⊢
        obtain ⟨event, later, afterwards⟩ := recorded
        simp only at isInside given ⊢
        cases event with
        | ended =>
            obtain ⟨yielded, isYielded, givenHere⟩ :=
              walk.recordQueue_yields concurrency begins afterwards lane
            refine ⟨inside ++ yielded, ?_, ?_⟩
            · rw [isYielded, isInside, List.append_assoc]
            · intro areOpen
              obtain ⟨isOpen, nestedOpen⟩ := areOpen_cons.mp areOpen
              rw [List.map_append, given nestedOpen, givenHere isOpen]
              simp
        | chunk part =>
            refine ⟨inside, isInside, fun areOpen => ?_⟩
            obtain ⟨isOpen, nestedOpen⟩ := areOpen_cons.mp areOpen
            simp [given nestedOpen, Lane.passOn, Level.pass_chunk isOpen]
        | pending =>
            refine ⟨inside, isInside, fun areOpen => ?_⟩
            simp [given (areOpen_cons.mp areOpen).2, Lane.passOn, Level.pass]
        | failed error =>
            refine ⟨inside, isInside, fun areOpen => ?_⟩
            obtain ⟨isOpen, nestedOpen⟩ := areOpen_cons.mp areOpen
            simp [given nestedOpen, Lane.passOn, Level.pass_failed isOpen]

end Walk

/-- An error closes a stream, and nothing else does. -/
theorem Walk.Advances.closes_or_areOpen
    {walk : Walk}
    {begins : Nat}
    {levels later : List Level}
    {event : Event GatewayError}
    (advances : walk.Advances begins levels event later) :
    (∃ error, event = .failed error ∧ IsClosed later) ∨
      (∀ error, event ≠ .failed error) ∧ AreOpen later := by
  cases advances with
  | part first succeeds rest areOpen => exact .inr ⟨by simp, areOpen⟩
  | error first fails isClosed => exact .inl ⟨_, rfl, isClosed⟩
  | wait owes rest areOpen => exact .inr ⟨by simp, areOpen⟩
  | done owesNothing rest areOpen => exact .inr ⟨by simp, areOpen⟩

/-- The queues have yielded what has been received, and more only after an error. -/
inductive Walk.Yields (walk : Walk) (tracked : Tracked) : Prop where
  | running
      (areOpen : AreOpen tracked.stream.levels)
      (succeed : ∀ task ∈ tracked.record.yielded.map (·.task), ¬ walk.Fails task)
      (received : tracked.received = (tracked.record.yielded.map (·.task)).map walk.item)
  | failed
      (isClosed : IsClosed tracked.stream.levels)
      (fails : ∃ task ∈ tracked.record.yielded.map (·.task), walk.Fails task)
      (received :
        tracked.received =
          (walk.untilFailure (tracked.record.yielded.map (·.task))).map walk.item)

theorem Walk.yields_start
    (walk : Walk)
    (tasks : List Projection.Task) :
    walk.Yields (.start tasks) := by
  refine .running ?_ ?_ rfl
  · simp [AreOpen, Tracked.stream, Tracked.start, Level.start, Level.IsOpen]
  · simp [Tracked.start]

theorem Walk.Yields.received_eq
    {walk : Walk}
    {tracked : Tracked}
    (yields : walk.Yields tracked) :
    tracked.received =
      (walk.untilFailure (tracked.record.yielded.map (·.task))).map walk.item := by
  cases yields with
  | running areOpen succeed received =>
      have allKept := Walk.untilFailure_append_of_succeed succeed []
      rw [List.append_nil, Walk.untilFailure, List.append_nil] at allKept
      rw [allKept, received]
  | failed isClosed fails received => exact received

/-- What a poll yields and gives is received, and an error is the last that is. -/
theorem Walk.yields_of_advances
    {walk : Walk}
    {begins : Nat}
    {tracked later : Tracked}
    {event : Event GatewayError}
    {yielded : List Placed}
    (succeed : ∀ task ∈ tracked.record.yielded.map (·.task), ¬ walk.Fails task)
    (received : tracked.received = (tracked.record.yielded.map (·.task)).map walk.item)
    (advances : walk.Advances begins tracked.stream.levels event later.stream.levels)
    (given : yielded.map (walk.item ·.task) = [event].filter isItem)
    (nowYielded : later.record.yielded = tracked.record.yielded ++ yielded)
    (nowReceived : later.received = tracked.received ++ [event].filter isItem) :
    walk.Yields later := by
  have areYielded : later.record.yielded.map (·.task) =
      tracked.record.yielded.map (·.task) ++ yielded.map (·.task) := by
    rw [nowYielded, List.map_append]
  have areReceived : later.received =
      tracked.received ++ (yielded.map (·.task)).map walk.item := by
    rw [nowReceived, ← given, List.map_map]
    rfl
  rcases advances.closes_or_areOpen with ⟨error, rfl, isClosed⟩ | ⟨noError, stillOpen⟩
  · obtain ⟨entry, rfl, isFailed⟩ := List.map_eq_singleton_iff.mp given
    refine .failed isClosed ?_ ?_
    · exact ⟨entry.task, by simp [areYielded], error, isFailed⟩
    · rw [areReceived, areYielded, Walk.untilFailure_append_of_succeed succeed, received]
      simp [Walk.untilFailure_singleton]
  · refine .running stillOpen ?_ ?_
    · rw [areYielded]
      rintro task member ⟨error, isFailed⟩
      rcases List.mem_append.mp member with before | now
      · exact succeed task before ⟨error, isFailed⟩
      · obtain ⟨entry, isEntry, rfl⟩ := List.mem_map.mp now
        have isGiven : walk.item entry.task ∈ yielded.map (walk.item ·.task) :=
          List.mem_map_of_mem isEntry
        rw [given] at isGiven
        have isEvent := List.mem_singleton.mp (List.mem_filter.mp isGiven).1
        exact noError error (isEvent.symm.trans isFailed)
    · rw [areReceived, areYielded, List.map_append, received]

/-- Whatever happens, what has been received is what has been yielded up to an error. -/
theorem Walk.Yields.track
    {walk : Walk}
    {tracked : Tracked}
    (yields : walk.Yields tracked)
    (concurrency : Nat)
    (happening : Happening) :
    walk.Yields (walk.track concurrency tracked happening) := by
  have forgotten := walk.stream_track concurrency tracked happening
  cases happening with
  | finish number =>
      cases yields with
      | running areOpen succeed received =>
          refine .running ?_ succeed received
          rw [forgotten]
          exact areOpen_finish number areOpen
      | failed isClosed fails received =>
          refine .failed ?_ fails received
          rw [forgotten]
          exact isClosed_finish number isClosed
  | poll begins =>
      obtain ⟨yielded, isYielded, given⟩ :=
        walk.recordPoll_yields concurrency begins tracked.record tracked.lanes
      have sameEvent : (walk.recordPoll concurrency begins tracked.record tracked.lanes).event =
          (walk.poll concurrency begins tracked.stream.begun tracked.stream.levels).event :=
        congrArg Polled.event
          (walk.polled_recordPoll concurrency begins tracked.record tracked.lanes)
      cases yields with
      | running areOpen succeed received =>
          have advances : walk.Advances begins tracked.stream.levels
              (walk.recordPoll concurrency begins tracked.record tracked.lanes).event
              (walk.track concurrency tracked (.poll begins)).stream.levels := by
            rw [forgotten, sameEvent]
            exact walk.poll_advances concurrency begins tracked.stream.begun areOpen
          exact Walk.yields_of_advances succeed received advances (given areOpen) isYielded rfl
      | failed isClosed fails received =>
          obtain ⟨noItem, stillClosed⟩ :=
            walk.poll_of_closed concurrency begins tracked.stream.begun isClosed
          rw [← sameEvent] at noItem
          refine .failed ?_ ?_ ?_
          · rw [forgotten]
            exact stillClosed
          · obtain ⟨task, member, isFailed⟩ := fails
            exact ⟨task, by simp [Walk.track, isYielded, member], isFailed⟩
          · rw [Walk.track, isYielded, List.map_append,
              Walk.untilFailure_append_of_fails fails, ← received]
            simp [noItem]

end QueryGateway.Gateway
