import QueryGateway.Gateway.FollowUp

/-!
# Follow-ups fetched side by side

The gateway fetches several tasks of a list at once and still hands out their
parts in the order of the list: a queue is filled with as many tasks as may be
fetched at once, and only its first one is waited for.  The tasks that a part
brings up form a list of their own, whose stream stands before the rest of the
list that the part came from, so that the parts stand in the order of a walk in
depth.

Such streams are nested, each level in the stream of the level around it.  Every
level lets the first error pass and ends at the next item.

What happens is the choice of a scheduler: the stream is polled, and a poll may
begin fetches; and a fetch that is under way finishes, at any level, whenever
its answer has come.  A fetch whose answer is there at once is one that finishes
before the next poll.

The stream is read by the encoder of the answer, which asks no more once it has
been given an error or the end.
-/

namespace QueryGateway.Gateway

open Multipart (Event)

/-! ## Levels -/

/-- How far a fetch has come. -/
inductive Progress where
  | queued
  /-- Fetches are numbered in the order in which they begin. -/
  | underWay (number : Nat)
  | finished
deriving DecidableEq, Repr

/-- A task in a queue. -/
structure Slot where
  task : Projection.Task
  progress : Progress

/-- The stream for a list of tasks, without the streams inside it. -/
structure Level where
  waiting : List Projection.Task
  slots : List Slot
  /-- Has an error passed? -/
  isFailed : Bool
  /-- Has the stream ended after an error? -/
  isOver : Bool

namespace Level

/-- The level for a list of tasks before it is polled. -/
def start (tasks : List Projection.Task) : Level :=
  ⟨tasks, [], false, false⟩

/-- The tasks whose parts have not been handed out. -/
def tasks (level : Level) : List Projection.Task :=
  level.slots.map (·.task) ++ level.waiting

/-- The level with its queue filled; the queue has room for one task at least. -/
def filled (concurrency : Nat) (level : Level) : Level :=
  let room := max concurrency 1 - level.slots.length
  { level with
    waiting := level.waiting.drop room
    slots := level.slots ++ (level.waiting.take room).map (⟨·, .queued⟩) }

/-- Let an item pass, unless an error has passed before. -/
def pass (level : Level) : Event GatewayError → Event GatewayError × Level
  | .chunk part =>
      if level.isFailed then (.ended, { level with isOver := true })
      else (.chunk part, level)
  | .failed error =>
      if level.isFailed then (.ended, { level with isOver := true })
      else (.failed error, { level with isFailed := true })
  | event => (event, level)

end Level

/-- Begin the first queued fetches. -/
def beginFetches : Nat → Nat → List Slot → List Slot
  | 0, _, slots => slots
  | _ + 1, _, [] => []
  | begins + 1, number, slot :: slots =>
      if slot.progress = .queued then
        ⟨slot.task, .underWay number⟩ :: beginFetches begins (number + 1) slots
      else
        slot :: beginFetches (begins + 1) number slots

/-- The tasks of the fetches that begin. -/
def beginning (begins : Nat) (slots : List Slot) : List Projection.Task :=
  ((slots.filter (·.progress = .queued)).take begins).map (·.task)

/-- The fetch with a number finishes. -/
def Slot.finish (number : Nat) (slot : Slot) : Slot :=
  if slot.progress = .underWay number then ⟨slot.task, .finished⟩ else slot

/-- The fetch with a number finishes if it belongs to the level. -/
def Level.finish (number : Nat) (level : Level) : Level :=
  { level with slots := level.slots.map (·.finish number) }

/-! ## Polls -/

/-- What a poll gives and what it leaves behind. -/
structure Polled where
  event : Event GatewayError
  /-- The levels from the outermost to the innermost. -/
  levels : List Level
  /-- The tasks that have been begun, in their order. -/
  begun : List Projection.Task

/-- Let pass what came from the queue of a level or from inside it. -/
def passOn (level : Level) (nested : List Level) (begun : List Projection.Task)
    (event : Event GatewayError) : Polled :=
  ⟨(level.pass event).1, (level.pass event).2 :: nested, begun⟩

/-- The level inside another one after a part has brought up tasks. -/
def nestedIn (tasks : List Projection.Task) : List Level :=
  if tasks.isEmpty then [] else [.start tasks]

namespace Walk

/-- Poll the queue of a level; nothing is inside the level any more. -/
def pollQueue (walk : Walk) (concurrency begins : Nat) (begun : List Projection.Task)
    (level : Level) : Polled :=
  let level := level.filled concurrency
  match level.slots with
  | [] => passOn level [] begun .ended
  | ⟨task, .finished⟩ :: slots =>
      let level := { level with slots }
      match (walk.carryOut task).result with
      | .ok (part, tasks) => passOn level (nestedIn tasks) begun (.chunk part)
      | .error error => passOn level [] begun (.failed error)
  | slots =>
      let level := { level with slots := beginFetches begins begun.length slots }
      passOn level [] (begun ++ beginning begins slots) .pending

/-- Poll a stream: what is inside a level comes before the queue of the level. -/
def poll (walk : Walk) (concurrency begins : Nat) (begun : List Projection.Task) :
    List Level → Polled
  | [] => ⟨.ended, [], begun⟩
  | level :: nested =>
      if level.isOver then
        ⟨.ended, level :: nested, begun⟩
      else
        let inside := walk.poll concurrency begins begun nested
        match inside.event with
        | .ended => walk.pollQueue concurrency begins inside.begun level
        | event => passOn level inside.levels inside.begun event

end Walk

/-! ## Runs -/

/-- What can happen to a stream. -/
inductive Happening where
  /-- It is polled, and at most so many fetches begin. -/
  | poll (begins : Nat)
  /-- The fetch with this number finishes. -/
  | finish (number : Nat)

/-- A stream and what has been received from it. -/
structure Stream where
  levels : List Level
  begun : List Projection.Task
  received : List (Event GatewayError)
  /-- Has the stream told that it has ended? -/
  hasEnded : Bool

/-- Is it an item of a stream, a part or an error? -/
def isItem : Event GatewayError → Bool
  | .chunk _ => true
  | .failed _ => true
  | .pending => false
  | .ended => false

@[simp]
theorem isItem_chunk
    (part : Multipart.Part) :
    isItem (.chunk part) = true := by
  simp [isItem]

@[simp]
theorem isItem_failed
    (error : GatewayError) :
    isItem (.failed error) = true := by
  simp [isItem]

@[simp]
theorem isItem_pending :
    isItem .pending = false := by
  simp [isItem]

@[simp]
theorem isItem_ended :
    isItem .ended = false := by
  simp [isItem]

/-- The stream of some tasks before it is polled. -/
def Stream.start (tasks : List Projection.Task) : Stream :=
  ⟨[.start tasks], [], [], false⟩

/-- Is the fetch with a number under way? -/
def Stream.IsUnderWay (stream : Stream) (number : Nat) : Prop :=
  ∃ level ∈ stream.levels, ∃ slot ∈ level.slots, slot.progress = .underWay number

/-- The stream after something has happened. -/
def Walk.next (walk : Walk) (concurrency : Nat) (stream : Stream) : Happening → Stream
  | .finish number => { stream with levels := stream.levels.map (·.finish number) }
  | .poll begins =>
      let polled := walk.poll concurrency begins stream.begun stream.levels
      { levels := polled.levels
        begun := polled.begun
        received := stream.received ++ [polled.event].filter isItem
        hasEnded := stream.hasEnded || polled.event = .ended }

/-- The stream of some tasks after a number of happenings. -/
def Walk.stream (walk : Walk) (concurrency : Nat) (tasks : List Projection.Task)
    (schedule : Nat → Happening) : Nat → Stream
  | 0 => .start tasks
  | time + 1 => walk.next concurrency (walk.stream concurrency tasks schedule time) (schedule time)

/-! ## The reader -/

/-- The encoder of an answer, the stream that it reads, and what has come out of it. -/
structure Reading where
  encoder : Multipart.Encoder
  stream : Stream
  written : List (Multipart.Output GatewayError)

/-- The first part of an answer waits for no follow-up. -/
def Reading.start (boundary : String) (primary : Multipart.Part)
    (tasks : List Projection.Task) : Reading :=
  let (output, encoder) := Multipart.Encoder.start.answer boundary (.chunk primary)
  ⟨encoder, .start tasks, [output]⟩

namespace Walk

/-- The encoder is polled, and polls the stream unless it has been terminated. -/
def read (walk : Walk) (boundary : String) (concurrency : Nat) (reading : Reading) :
    Happening → Reading
  | .finish number =>
      { reading with stream := walk.next concurrency reading.stream (.finish number) }
  | .poll begins =>
      if reading.encoder.isTerminated then
        reading
      else
        let event :=
          (walk.poll concurrency begins reading.stream.begun reading.stream.levels).event
        let (output, encoder) := reading.encoder.answer boundary event
        { encoder
          stream := walk.next concurrency reading.stream (.poll begins)
          written := reading.written ++ [output].filter (·.isReceived) }

/-- The reading of the follow-ups of some tasks after a number of happenings. -/
def reading (walk : Walk) (boundary : String) (concurrency : Nat) (primary : Multipart.Part)
    (tasks : List Projection.Task) (schedule : Nat → Happening) : Nat → Reading
  | 0 => .start boundary primary tasks
  | time + 1 =>
      walk.read boundary concurrency
        (walk.reading boundary concurrency primary tasks schedule time) (schedule time)

/-- The requests that have been sent for tasks that were begun, in their order. -/
def sent (walk : Walk) (begun : List Projection.Task) : List Message.Request :=
  begun.filterMap fun task => (walk.carryOut task).sent

end Walk

end QueryGateway.Gateway
