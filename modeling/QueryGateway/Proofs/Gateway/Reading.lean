import QueryGateway.Proofs.Gateway.Succession

/-!
# The reader keeps up with the walk

The encoder of an answer reads the stream of follow-ups until it is given an
error or the end.  At any time before that the walk in depth has carried out the
tasks whose parts have been received; the tasks that have been begun are these
and the ones in hand, each as often as it comes up, and no others.

When an error ends the reading, the tasks that were begun are those that the
walk has carried out, the one that failed, and perhaps some that were waiting
behind it.  When the stream ends, nothing is owed, so nothing is in hand any
more, and what has been begun is what the walk has carried out.

If one fetch at a time is allowed, the tasks are begun in the order of the walk.
-/

namespace QueryGateway.Gateway

open Multipart (Event Part)

/-! ## One happening -/

section

variable
    (walk : Walk)
    (boundary : String)
    (concurrency : Nat)
    {reading : Reading}

/-- A poll of an encoder that goes on is a poll of the stream. -/
theorem Walk.read_poll
    (goesOn : reading.encoder.isTerminated = false)
    (begins : Nat) :
    walk.read boundary concurrency reading (.poll begins) =
      let event := (walk.poll concurrency begins reading.stream.begun reading.stream.levels).event
      { encoder := (reading.encoder.answer boundary event).2
        stream := walk.next concurrency reading.stream (.poll begins)
        written :=
          reading.written ++ [(reading.encoder.answer boundary event).1].filter (·.isReceived) } := by
  simp [Walk.read, goesOn]

/-- Once the encoder has been terminated, fetches may finish, and that is all. -/
theorem Walk.read_of_terminated
    (isTerminated : reading.encoder.isTerminated = true)
    (happening : Happening) :
    ∃ levels,
      walk.read boundary concurrency reading happening =
        { reading with stream := { reading.stream with levels } } := by
  cases happening with
  | finish number => exact ⟨_, rfl⟩
  | poll begins => exact ⟨reading.stream.levels, by simp [Walk.read, isTerminated]⟩

end

/-! ## What has been begun -/

/-- What a reading has received and begun, beside what the walk has carried out. -/
inductive Reading.Follows (walk : Walk) (concurrency : Nat) (tasks : List Projection.Task)
    (reading : Reading) : Prop where
  /-- The walk goes on with the tasks that are owed. -/
  | running
      (carriedOut : List Projection.Task)
      (goesOn : reading.encoder.isTerminated = false)
      (areOpen : AreOpen reading.stream.levels)
      (leads : walk.Leads tasks carriedOut (owed reading.stream.levels))
      (received : reading.stream.received = carriedOut.map walk.item)
      (untold : reading.stream.hasEnded = false)
      (begun : reading.stream.begun.Perm (carriedOut ++ inHand reading.stream.levels))
      (inTurn :
        concurrency ≤ 1 →
          IsSolo reading.stream.levels ∧
            reading.stream.begun = carriedOut ++ inHand reading.stream.levels)
  /-- A task has failed, and some that were waiting behind it may have been begun. -/
  | failed
      {carriedOut waiting ahead : List Projection.Task}
      {failing : Projection.Task}
      (isTerminated : reading.encoder.isTerminated = true)
      (leads : walk.Leads tasks carriedOut (failing :: waiting))
      (fails : walk.Fails failing)
      (received : reading.stream.received = (carriedOut ++ [failing]).map walk.item)
      (untold : reading.stream.hasEnded = false)
      (wereWaiting : ahead.Sublist waiting)
      (begun : reading.stream.begun.Perm (carriedOut ++ failing :: ahead))
      (inTurn : concurrency ≤ 1 → reading.stream.begun = carriedOut ++ [failing])
  /-- All tasks have been carried out. -/
  | ended
      {carriedOut : List Projection.Task}
      (isTerminated : reading.encoder.isTerminated = true)
      (leads : walk.Leads tasks carriedOut [])
      (received : reading.stream.received = carriedOut.map walk.item)
      (told : reading.stream.hasEnded = true)
      (begun : reading.stream.begun.Perm carriedOut)
      (inTurn : concurrency ≤ 1 → reading.stream.begun = carriedOut)

namespace Reading

variable
    {walk : Walk}
    {boundary : String}
    {concurrency begins : Nat}
    {primary : Part}
    {tasks : List Projection.Task}
    {reading : Reading}

theorem follows_start
    (walk : Walk)
    (boundary : String)
    (concurrency : Nat)
    (primary : Part)
    (tasks : List Projection.Task) :
    (start boundary primary tasks).Follows walk concurrency tasks := by
  have owesAll : owed (Stream.start tasks).levels = tasks := by
    simp [Stream.start, owed, Level.start, Level.tasks]
  have noneHeld : inHand (Stream.start tasks).levels = [] := by
    simp [Stream.start, inHand, Level.start, Level.begun]
  refine .running [] rfl ?_ ?_ rfl rfl ?_ fun _ => ⟨?_, ?_⟩
  · simp [start, Stream.start, AreOpen, Level.start, Level.IsOpen]
  · exact owesAll.symm ▸ .start
  · exact .of_eq noneHeld.symm
  · simp [start, Stream.start, IsSolo, Level.start]
  · exact noneHeld.symm

/-- A poll that hands out a part is a step of the walk, and one that does not is none. -/
theorem follows_of_advances
    {later : Reading}
    {event : Event GatewayError}
    {carriedOut : List Projection.Task}
    (goesOn : reading.encoder.isTerminated = false)
    (leads : walk.Leads tasks carriedOut (owed reading.stream.levels))
    (received : reading.stream.received = carriedOut.map walk.item)
    (untold : reading.stream.hasEnded = false)
    (begun : reading.stream.begun.Perm (carriedOut ++ inHand reading.stream.levels))
    (inTurn :
      concurrency ≤ 1 →
        IsSolo reading.stream.levels ∧
          reading.stream.begun = carriedOut ++ inHand reading.stream.levels)
    (advances : walk.Advances begins reading.stream.levels event later.stream.levels)
    (proceeds :
      Proceeds (owed reading.stream.levels) (inHand reading.stream.levels) reading.stream.begun
        event (inHand later.stream.levels) later.stream.begun)
    (staysSolo : concurrency ≤ 1 → IsSolo later.stream.levels)
    (encoder : later.encoder = (reading.encoder.answer boundary event).2)
    (nowReceived : later.stream.received = reading.stream.received ++ [event].filter isItem)
    (nowTold :
      later.stream.hasEnded = (reading.stream.hasEnded || decide (event = .ended))) :
    later.Follows walk concurrency tasks := by
  cases advances with
  | @part task part found waiting _ first succeeds rest areOpen =>
      cases proceeds with
      | begins noItem => cases noItem
      | yields _ task isFirst handsOut sameBegun =>
          rw [first] at leads isFirst
          cases isFirst
          refine .running (carriedOut ++ [task]) ?_ areOpen ?_ ?_ ?_ ?_ ?_
          · rw [encoder]
            exact goesOn
          · rw [rest]
            exact leads.onward succeeds
          · rw [nowReceived, received, List.map_append, List.map_singleton,
              Walk.item_of_success succeeds]
            rfl
          · simp [nowTold, untold]
          · rw [sameBegun, List.append_assoc, List.singleton_append, ← handsOut]
            exact begun
          · intro oneAtATime
            refine ⟨staysSolo oneAtATime, ?_⟩
            rw [sameBegun, (inTurn oneAtATime).2, handsOut, List.append_assoc,
              List.singleton_append]
  | @error task error waiting _ first fails isClosed =>
      cases proceeds with
      | begins noItem => cases noItem
      | yields _ task isFirst handsOut sameBegun =>
          have wereOwed := inHand_sublist_owed reading.stream.levels
          rw [handsOut, first] at wereOwed
          rw [first] at leads isFirst
          cases isFirst
          refine .failed ?_ leads ⟨error, Walk.item_of_failure fails⟩ ?_ ?_
            (List.cons_sublist_cons.mp wereOwed) ?_ ?_
          · rw [encoder]
            rfl
          · rw [nowReceived, received, List.map_append, List.map_singleton,
              Walk.item_of_failure fails]
            rfl
          · simp [nowTold, untold]
          · rw [sameBegun, ← handsOut]
            exact begun
          · intro oneAtATime
            obtain ⟨isSolo, begun⟩ := inTurn oneAtATime
            have isBusy : inHand reading.stream.levels ≠ [] := by
              simp [handsOut]
            rw [sameBegun, begun, inHand_eq_of_owed isSolo first isBusy]
  | wait owes rest areOpen =>
      cases proceeds with
      | yields givesItem => cases givesItem
      | begins _ more nowBegun nowHeld =>
          refine .running carriedOut ?_ areOpen ?_ ?_ ?_ ?_ ?_
          · rw [encoder]
            exact goesOn
          · rw [rest]
            exact leads
          · simpa [nowReceived] using received
          · simp [nowTold, untold]
          · have held := (begun.append_right more).trans (.of_eq (List.append_assoc ..))
            rw [nowBegun]
            exact held.trans (nowHeld.symm.append_left carriedOut)
          · intro oneAtATime
            have laterSolo := staysSolo oneAtATime
            refine ⟨laterSolo, ?_⟩
            rw [nowBegun, (inTurn oneAtATime).2, inHand_eq_of_perm laterSolo nowHeld,
              List.append_assoc]
  | done owesNothing rest areOpen =>
      cases proceeds with
      | yields givesItem => cases givesItem
      | begins _ more nowBegun nowHeld =>
          -- What is in hand is owed, so nothing is in hand any more, and nothing begins.
          have noneHeld := inHand_eq_nil_of_owed owesNothing
          rw [inHand_eq_nil_of_owed rest, noneHeld, List.nil_append] at nowHeld
          rw [nowHeld.nil_eq.symm, List.append_nil] at nowBegun
          rw [noneHeld, List.append_nil] at begun inTurn
          rw [owesNothing] at leads
          refine .ended ?_ leads ?_ ?_ ?_ fun oneAtATime => ?_
          · rw [encoder]
            rfl
          · simpa [nowReceived] using received
          · simp [nowTold]
          · rw [nowBegun]
            exact begun
          · rw [nowBegun]
            exact (inTurn oneAtATime).2

/-- Whatever happens, a reading goes on following the walk. -/
theorem Follows.read
    (follows : reading.Follows walk concurrency tasks)
    (boundary : String)
    (happening : Happening) :
    (walk.read boundary concurrency reading happening).Follows walk concurrency tasks := by
  cases follows with
  | failed isTerminated leads fails received untold wereWaiting begun inTurn =>
      obtain ⟨levels, same⟩ :=
        walk.read_of_terminated boundary concurrency isTerminated happening
      rw [same]
      exact .failed isTerminated leads fails received untold wereWaiting begun inTurn
  | ended isTerminated leads received told begun inTurn =>
      obtain ⟨levels, same⟩ :=
        walk.read_of_terminated boundary concurrency isTerminated happening
      rw [same]
      exact .ended isTerminated leads received told begun inTurn
  | running carriedOut goesOn areOpen leads received untold begun inTurn =>
      cases happening with
      | finish number =>
          refine .running carriedOut goesOn ?_ ?_ received untold ?_ ?_
          · exact areOpen_finish number areOpen
          · simpa [Walk.read, Walk.next, owed_finish] using leads
          · simpa [Walk.read, Walk.next, inHand_finish] using begun
          · intro oneAtATime
            obtain ⟨isSolo, begun⟩ := inTurn oneAtATime
            refine ⟨isSolo_finish number isSolo, ?_⟩
            simpa [Walk.read, Walk.next, inHand_finish] using begun
      | poll begins =>
          have advances :=
            walk.poll_advances concurrency begins reading.stream.begun areOpen
          have proceeds :=
            walk.poll_proceeds concurrency begins reading.stream.begun areOpen
          rw [walk.read_poll boundary concurrency goesOn]
          refine follows_of_advances goesOn leads received untold begun inTurn advances proceeds
            ?_ rfl rfl rfl
          intro oneAtATime
          exact walk.isSolo_poll begins reading.stream.begun oneAtATime (inTurn oneAtATime).1

/-- What is received comes of tasks, an item of each. -/
theorem Follows.exists_tasks
    (follows : reading.Follows walk concurrency tasks) :
    ∃ yielded : List Projection.Task, reading.stream.received = yielded.map walk.item := by
  cases follows with
  | running carriedOut _ _ _ received => exact ⟨carriedOut, received⟩
  | failed _ _ _ received => exact ⟨_, received⟩
  | ended _ _ received => exact ⟨_, received⟩

end Reading

/-- At any time, a reading follows the walk. -/
theorem Walk.follows_reading
    (walk : Walk)
    (boundary : String)
    (concurrency : Nat)
    (primary : Part)
    (tasks : List Projection.Task)
    (schedule : Nat → Happening)
    (time : Nat) :
    (walk.reading boundary concurrency primary tasks schedule time).Follows
      walk concurrency tasks := by
  induction time with
  | zero => exact Reading.follows_start walk boundary concurrency primary tasks
  | succ time induction => exact induction.read boundary (schedule time)

/-! ## What comes out of the encoder -/

/-- What the encoder is given: the first part, what has been received, and perhaps the end. -/
def Reading.given (primary : Part) (reading : Reading) : List (Event GatewayError) :=
  (.chunk primary :: reading.stream.received) ++ if reading.stream.hasEnded then [.ended] else []

/-- What has come out of the encoder is what it makes of what it was given. -/
structure Reading.Writes (boundary : String) (primary : Part) (reading : Reading) : Prop where
  written : reading.written = Multipart.outputs boundary (reading.given primary)
  /-- The parts are complete, so the encoder stands between two of them. -/
  isBetween : reading.encoder.isTerminated = false → reading.encoder = .start

namespace Reading

variable
    {walk : Walk}
    {boundary : String}
    {concurrency : Nat}
    {primary : Part}
    {tasks : List Projection.Task}
    {reading : Reading}

theorem writes_start
    (boundary : String)
    (isLast : primary.isLast = true)
    (tasks : List Projection.Task) :
    (start boundary primary tasks).Writes boundary primary where
  written := rfl
  isBetween _ := by
    simp [start, Multipart.Encoder.answer, Multipart.Encoder.start, isLast]

/-- What the encoder is given next comes out, unless there is nothing yet. -/
theorem writes_of_answer
    {parts : List Part}
    {event : Event GatewayError}
    {stream : Stream}
    (complete : ∀ part ∈ parts, part.isLast = true)
    (isComplete : ∀ part, event = .chunk part → part.isLast = true)
    (given :
      (.chunk primary :: stream.received) ++ (if stream.hasEnded then [.ended] else []) =
        Multipart.chunkEvents parts ++ [event].filter (· ≠ .pending)) :
    Writes boundary primary
      { encoder := (Multipart.Encoder.start.answer boundary event).2
        stream
        written := Multipart.outputs boundary (Multipart.chunkEvents parts ++ [event]) } := by
  constructor
  · rw [Reading.given, given]
    cases event with
    | pending =>
        rw [Multipart.outputs_concat boundary complete]
        simp [Multipart.Encoder.answer, Multipart.Output.isReceived]
    | chunk part => simp
    | failed error => simp
    | ended => simp
  · intro goesOn
    cases event with
    | pending => rfl
    | chunk part => simp [Multipart.Encoder.answer, Multipart.Encoder.start, isComplete part rfl]
    | failed error => cases goesOn
    | ended => cases goesOn

theorem Writes.read
    (writes : reading.Writes boundary primary)
    (isLast : primary.isLast = true)
    (follows : reading.Follows walk concurrency tasks)
    (happening : Happening) :
    (walk.read boundary concurrency reading happening).Writes boundary primary := by
  cases goesOn : reading.encoder.isTerminated with
  | true =>
      obtain ⟨levels, same⟩ := walk.read_of_terminated boundary concurrency goesOn happening
      rw [same]
      exact ⟨writes.written, writes.isBetween⟩
  | false =>
      cases happening with
      | finish number => exact ⟨writes.written, writes.isBetween⟩
      | poll begins =>
          cases follows with
          | failed isTerminated => simp [goesOn] at isTerminated
          | ended isTerminated => simp [goesOn] at isTerminated
          | running carriedOut _ areOpen leads received untold =>
              obtain ⟨parts, areParts, complete⟩ := leads.exists_parts
              have allComplete : ∀ part ∈ primary :: parts, part.isLast = true := by
                simpa [isLast] using complete
              have given : reading.given primary = Multipart.chunkEvents (primary :: parts) := by
                simp [Reading.given, untold, received, areParts, Multipart.chunkEvents]
              have advances :=
                walk.poll_advances concurrency begins reading.stream.begun areOpen
              rw [walk.read_poll boundary concurrency goesOn, writes.isBetween goesOn,
                writes.written, given]
              simp only [← Multipart.outputs_concat boundary allComplete]
              refine writes_of_answer allComplete ?_ ?_
              · intro part isPart
                rw [isPart] at advances
                cases advances with
                | part first succeeds => exact Walk.isLast_of_carryOut succeeds
              · rw [← given, Walk.next, Reading.given]
                cases (walk.poll concurrency begins reading.stream.begun
                  reading.stream.levels).event <;> simp [untold]

end Reading

/-- At any time, what has come out of the encoder is what it makes of what it was given. -/
theorem Walk.writes_reading
    (walk : Walk)
    (boundary : String)
    (concurrency : Nat)
    {primary : Part}
    (isLast : primary.isLast = true)
    (tasks : List Projection.Task)
    (schedule : Nat → Happening)
    (time : Nat) :
    (walk.reading boundary concurrency primary tasks schedule time).Writes boundary primary := by
  induction time with
  | zero => exact Reading.writes_start boundary isLast tasks
  | succ time induction =>
      exact induction.read isLast
        (walk.follows_reading boundary concurrency primary tasks schedule time) (schedule time)

end QueryGateway.Gateway
