import QueryGateway.Proofs.Gateway.Visits

/-!
# The order of parts does not depend on the scheduler

Whatever a scheduler does, the items of a stream of follow-ups are those of the
walk that carries out one task after another: a stream has at any time received
the items of some first steps of the walk, it does not end before the walk does,
and a fair scheduler brings every item in the end.

The tasks whose parts a stream still owes, from the innermost level to the
outermost one, are the tasks that the walk has waiting.  A poll that hands out a
part takes the first of them, as the walk does.  Only the outermost level is
read, and after an error it lets nothing pass, so the walk and the stream stop
at the same item.
-/

namespace QueryGateway.Gateway

open Multipart (Event)

/-! ## The items of the walk -/

namespace Walk

/-- The items of the first steps of a walk. -/
def items (walk : Walk) (count : Nat) (tasks : List Projection.Task) : List (Event GatewayError) :=
  ((walk.steps count tasks).map (·.event)).filter isItem

variable
    {walk : Walk}
    {task : Projection.Task}
    (count : Nat)

@[simp]
theorem items_zero
    (walk : Walk)
    (tasks : List Projection.Task) :
    walk.items 0 tasks = [] := by
  simp [items, steps]

@[simp]
theorem items_nil
    (walk : Walk) :
    walk.items count [] = [] := by
  cases count <;> simp [items, steps]

theorem items_of_success
    {part : Multipart.Part}
    {tasks : List Projection.Task}
    (succeeds : (walk.carryOut task).result = .ok (part, tasks))
    (waiting : List Projection.Task) :
    walk.items (count + 1) (task :: waiting) =
      .chunk part :: walk.items count (tasks ++ waiting) := by
  simp [items, steps, succeeds]

theorem items_of_failure
    {error : GatewayError}
    (fails : (walk.carryOut task).result = .error error)
    (waiting : List Projection.Task) :
    walk.items (count + 1) (task :: waiting) = [.failed error] := by
  simp [items, steps, fails]

theorem length_items_le
    (walk : Walk)
    (tasks : List Projection.Task) :
    (walk.items count tasks).length ≤ count := by
  induction count generalizing tasks with
  | zero => simp
  | succ count induction =>
      cases tasks with
      | nil => simp
      | cons task waiting =>
          cases result : (walk.carryOut task).result with
          | error error => simp [items_of_failure count result]
          | ok yielded =>
              rw [items_of_success count result, List.length_cons]
              exact Nat.succ_le_succ (induction _)

/-- More steps add items behind those of fewer steps. -/
theorem items_prefix_of_le
    (walk : Walk)
    (tasks : List Projection.Task)
    {more : Nat}
    (fewer : count ≤ more) :
    walk.items count tasks <+: walk.items more tasks := by
  induction count generalizing tasks more with
  | zero => simp
  | succ count induction =>
      cases more with
      | zero => simp at fewer
      | succ more =>
          cases tasks with
          | nil => simp
          | cons task waiting =>
              cases result : (walk.carryOut task).result with
              | error error => simp [items_of_failure _ result]
              | ok yielded =>
                  rw [items_of_success _ result, items_of_success _ result]
                  exact List.cons_prefix_cons.mpr
                    ⟨rfl, induction _ (Nat.le_of_succ_le_succ fewer)⟩

/-- There is no item behind an error, and none but parts before it. -/
theorem error_is_last
    (walk : Walk)
    (tasks : List Projection.Task)
    {before after : List (Event GatewayError)}
    {error : GatewayError}
    (split : walk.items count tasks = before ++ .failed error :: after) :
    after = [] ∧ ∀ event ∈ before, ∃ part, event = .chunk part := by
  induction count generalizing tasks before with
  | zero => simp at split
  | succ count induction =>
      cases tasks with
      | nil => simp at split
      | cons task waiting =>
          cases result : (walk.carryOut task).result with
          | error error =>
              rw [items_of_failure count result] at split
              cases before with
              | nil => simp_all
              | cons first before => simp at split
          | ok yielded =>
              rw [items_of_success count result] at split
              cases before with
              | nil => simp at split
              | cons first before =>
                  rw [List.cons_append, List.cons.injEq] at split
                  obtain ⟨isLast, parts⟩ := induction _ split.2
                  refine ⟨isLast, ?_⟩
                  intro event member
                  rcases List.mem_cons.mp member with rfl | member
                  · exact ⟨_, split.1.symm⟩
                  · exact parts event member

end Walk

/-! ## What a stream owes -/

/-- The tasks whose parts a stream owes, in the order in which they come. -/
def owed : List Level → List Projection.Task
  | [] => []
  | level :: nested => owed nested ++ level.tasks

/-- How far the fetch has come that a stream waits for, if it is in a queue. -/
def foremost : List Level → Option Progress
  | [] => none
  | level :: nested =>
      if (owed nested).isEmpty then level.slots.head?.map (·.progress) else foremost nested

/-- No error has passed. -/
def Level.IsOpen (level : Level) : Prop :=
  level.isFailed = false ∧ level.isOver = false

/-- No error has passed at any level. -/
def AreOpen (levels : List Level) : Prop :=
  ∀ level ∈ levels, level.IsOpen

/-- An error has passed at the outermost level. -/
def IsClosed : List Level → Prop
  | [] => False
  | level :: _ => level.isFailed = true

/--
What a poll does to a stream in which no error has passed.  Only the tasks that
are owed and the foremost fetch matter.
-/
inductive Walk.Advances (walk : Walk) (begins : Nat) (levels : List Level) :
    Event GatewayError → List Level → Prop where
  | part
      {task : Projection.Task}
      {part : Multipart.Part}
      {tasks waiting : List Projection.Task}
      {later : List Level}
      (first : owed levels = task :: waiting)
      (succeeds : (walk.carryOut task).result = .ok (part, tasks))
      (rest : owed later = tasks ++ waiting)
      (areOpen : AreOpen later) :
      walk.Advances begins levels (.chunk part) later
  | error
      {task : Projection.Task}
      {error : GatewayError}
      {waiting : List Projection.Task}
      {later : List Level}
      (first : owed levels = task :: waiting)
      (fails : (walk.carryOut task).result = .error error)
      (isClosed : IsClosed later) :
      walk.Advances begins levels (.failed error) later
  | wait
      {later : List Level}
      (owes : owed levels ≠ [])
      (rest : owed later = owed levels)
      (areOpen : AreOpen later)
      (unfinished : foremost levels ≠ some .finished)
      (kept :
        ∀ number, foremost levels = some (.underWay number) →
          foremost later = some (.underWay number))
      (begun : begins ≠ 0 → ∃ number, foremost later = some (.underWay number)) :
      walk.Advances begins levels .pending later
  | done
      {later : List Level}
      (owesNothing : owed levels = [])
      (rest : owed later = [])
      (areOpen : AreOpen later) :
      walk.Advances begins levels .ended later

theorem owed_singleton
    (level : Level) :
    owed [level] = level.tasks := by
  simp [owed]

theorem foremost_singleton
    (level : Level) :
    foremost [level] = level.slots.head?.map (·.progress) := by
  simp [foremost, owed]

theorem owed_nestedIn
    (tasks : List Projection.Task) :
    owed (nestedIn tasks) = tasks := by
  cases tasks with
  | nil => rfl
  | cons task tasks => simp [nestedIn, owed, Level.start, Level.tasks]

theorem areOpen_nestedIn
    (tasks : List Projection.Task) :
    AreOpen (nestedIn tasks) := by
  cases tasks with
  | nil => simp [nestedIn, AreOpen]
  | cons task tasks => simp [nestedIn, AreOpen, Level.IsOpen, Level.start]

theorem areOpen_cons
    {level : Level}
    {levels : List Level} :
    AreOpen (level :: levels) ↔ level.IsOpen ∧ AreOpen levels := by
  simp [AreOpen]

/-! ## One poll -/

theorem beginFetches_tasks
    (begins number : Nat)
    (slots : List Slot) :
    (beginFetches begins number slots).map (·.task) = slots.map (·.task) := by
  induction slots generalizing begins number with
  | nil => cases begins <;> rfl
  | cons slot slots induction =>
      cases begins with
      | zero => rfl
      | succ begins =>
          by_cases isQueued : slot.progress = .queued
          · simp [beginFetches, isQueued, induction]
          · simp [beginFetches, isQueued, induction]

/-- A first fetch that is under way stays so, whatever begins behind it. -/
theorem head?_beginFetches_of_underWay
    (begins number : Nat)
    {slot : Slot}
    (slots : List Slot)
    (notQueued : slot.progress ≠ .queued) :
    (beginFetches begins number (slot :: slots)).head? = some slot := by
  cases begins with
  | zero => rfl
  | succ begins => simp [beginFetches, notQueued]

theorem head?_beginFetches_of_queued
    (begins number : Nat)
    {slot : Slot}
    (slots : List Slot)
    (isQueued : slot.progress = .queued) :
    (beginFetches (begins + 1) number (slot :: slots)).head? =
      some ⟨slot.task, .underWay number⟩ := by
  simp [beginFetches, isQueued]

theorem Level.tasks_filled
    (concurrency : Nat)
    (level : Level) :
    (level.filled concurrency).tasks = level.tasks := by
  simp [Level.tasks, Level.filled, Function.comp_def]

/-- A queue that is empty when it has been filled is that of a level that owes nothing. -/
theorem Level.tasks_of_filled_empty
    {concurrency : Nat}
    {level : Level}
    (isEmpty : (level.filled concurrency).slots = []) :
    level.tasks = [] := by
  simp only [Level.filled, List.append_eq_nil_iff, List.map_eq_nil_iff, List.take_eq_nil_iff]
    at isEmpty
  obtain ⟨noSlots, noRoom | noneWaiting⟩ := isEmpty
  · rw [noSlots, List.length_nil] at noRoom
    omega
  · simp [Level.tasks, noSlots, noneWaiting]

/-- The first fetch of a queue stays the first one when the queue is filled. -/
theorem Level.head?_filled
    (concurrency : Nat)
    {level : Level}
    {progress : Progress}
    (first : level.slots.head?.map (·.progress) = some progress) :
    (level.filled concurrency).slots.head?.map (·.progress) = some progress := by
  cases slots : level.slots with
  | nil => simp [slots] at first
  | cons slot slots =>
      simp only [slots, List.head?_cons] at first
      simp [Level.filled, slots, first]

theorem Level.pass_chunk
    {level : Level}
    (isOpen : level.IsOpen)
    (part : Multipart.Part) :
    level.pass (.chunk part) = (.chunk part, level) := by
  simp [Level.pass, isOpen.1]

theorem Level.pass_failed
    {level : Level}
    (isOpen : level.IsOpen)
    (error : GatewayError) :
    level.pass (.failed error) = (.failed error, { level with isFailed := true }) := by
  simp [Level.pass, isOpen.1]

/-- A queue whose first fetch has not finished is waited for. -/
theorem Walk.advances_of_unfinished
    (walk : Walk)
    (concurrency begins number : Nat)
    {level : Level}
    {slot : Slot}
    {slots : List Slot}
    (isOpen : level.IsOpen)
    (first : (level.filled concurrency).slots = slot :: slots)
    (unfinished : slot.progress ≠ .finished) :
    walk.Advances begins [level] .pending
      [{ level.filled concurrency with slots := beginFetches begins number (slot :: slots) }] := by
  have owes := level.tasks_filled concurrency
  have isFirst {progress : Progress} (isForemost : foremost [level] = some progress) :
      slot.progress = progress := by
    rw [foremost_singleton] at isForemost
    have kept := Level.head?_filled concurrency isForemost
    simpa [first] using kept
  refine .wait ?_ ?_ ?_ ?_ ?_ ?_
  · rw [owed_singleton, ← owes, Level.tasks, first]
    simp
  · rw [owed_singleton, owed_singleton, ← owes, Level.tasks, Level.tasks, first,
      beginFetches_tasks]
  · exact areOpen_cons.mpr ⟨isOpen, by simp [AreOpen]⟩
  · intro isForemost
    exact unfinished (isFirst isForemost)
  · intro number isForemost
    have isUnderWay := isFirst isForemost
    rw [foremost_singleton, head?_beginFetches_of_underWay _ _ _ (by simp [isUnderWay])]
    simp [isUnderWay]
  · intro some
    obtain ⟨begins, rfl⟩ := Nat.exists_eq_succ_of_ne_zero some
    rw [foremost_singleton]
    cases progress : slot.progress with
    | finished => exact (unfinished progress).elim
    | queued =>
        rw [head?_beginFetches_of_queued _ _ _ progress]
        exact ⟨_, rfl⟩
    | underWay number =>
        rw [head?_beginFetches_of_underWay _ _ _ (by simp [progress])]
        exact ⟨number, by simp [progress]⟩

/-- The queue of a level advances the stream for the level. -/
theorem Walk.pollQueue_advances
    (walk : Walk)
    (concurrency begins : Nat)
    (begun : List Projection.Task)
    {level : Level}
    (isOpen : level.IsOpen) :
    walk.Advances begins [level]
      (walk.pollQueue concurrency begins begun level).event
      (walk.pollQueue concurrency begins begun level).levels := by
  have filledOpen : (level.filled concurrency).IsOpen := isOpen
  have owes := level.tasks_filled concurrency
  rw [Walk.pollQueue]
  cases slots : (level.filled concurrency).slots with
  | nil =>
      have nothing := Level.tasks_of_filled_empty slots
      refine .done ?_ ?_ ?_
      · rw [owed_singleton, nothing]
      · exact (owed_singleton _).trans (owes.trans nothing)
      · exact areOpen_cons.mpr ⟨filledOpen, by simp [AreOpen]⟩
  | cons slot rest =>
      obtain ⟨task, progress⟩ := slot
      cases progress with
      | queued => exact walk.advances_of_unfinished _ _ _ isOpen slots (by simp)
      | underWay number => exact walk.advances_of_unfinished _ _ _ isOpen slots (by simp)
      | finished =>
          have first : owed [level] =
              task :: (rest.map (·.task) ++ (level.filled concurrency).waiting) := by
            rw [owed_singleton, ← owes, Level.tasks, slots]
            rfl
          have restOpen :
              Level.IsOpen { level.filled concurrency with slots := rest } := filledOpen
          cases result : (walk.carryOut task).result with
          | error error =>
              simp only [result, passOn, Level.pass_failed restOpen]
              exact .error first result rfl
          | ok yielded =>
              simp only [result, passOn, Level.pass_chunk restOpen]
              refine .part first result ?_ ?_
              · simp [owed, owed_nestedIn, Level.tasks]
              · exact areOpen_cons.mpr ⟨restOpen, areOpen_nestedIn _⟩

/-- What advances inside a level advances the stream of the level. -/
theorem Walk.Advances.inside
    {walk : Walk}
    {begins : Nat}
    {nested later : List Level}
    {event : Event GatewayError}
    (advances : walk.Advances begins nested event later)
    (notEnded : event ≠ .ended)
    {level : Level}
    (isOpen : level.IsOpen)
    (begun : List Projection.Task) :
    walk.Advances begins (level :: nested)
      (passOn level later begun event).event
      (passOn level later begun event).levels := by
  cases advances with
  | @part task part tasks waiting _ first succeeds rest areOpen =>
      have firstOfAll : owed (level :: nested) = task :: (waiting ++ level.tasks) := by
        rw [owed, first, List.cons_append]
      rw [passOn, level.pass_chunk isOpen]
      refine .part firstOfAll succeeds ?_ ?_
      · rw [owed, rest, List.append_assoc]
      · exact areOpen_cons.mpr ⟨isOpen, areOpen⟩
  | @error task error waiting _ first fails isClosed =>
      have firstOfAll : owed (level :: nested) = task :: (waiting ++ level.tasks) := by
        rw [owed, first, List.cons_append]
      rw [passOn, level.pass_failed isOpen]
      exact .error firstOfAll fails rfl
  | wait owes rest areOpen unfinished kept begun =>
      have stillOwes : owed later ≠ [] := by
        rw [rest]
        exact owes
      have inside : foremost (level :: nested) = foremost nested := by
        simp [foremost, owes]
      have stillInside : foremost (level :: later) = foremost later := by
        simp [foremost, stillOwes]
      refine .wait ?_ ?_ ?_ ?_ ?_ ?_
      · simp [owed, owes]
      · exact congrArg (· ++ level.tasks) rest
      · exact areOpen_cons.mpr ⟨isOpen, areOpen⟩
      · rw [inside]
        exact unfinished
      · rw [inside]
        intro number isForemost
        exact stillInside.trans (kept number isForemost)
      · intro some
        obtain ⟨number, isForemost⟩ := begun some
        exact ⟨number, stillInside.trans isForemost⟩
  | done => exact (notEnded rfl).elim

/-- A level inside which nothing is owed advances as if nothing were inside it. -/
theorem Walk.Advances.around
    {walk : Walk}
    {begins : Nat}
    {level : Level}
    {nested later : List Level}
    {event : Event GatewayError}
    (owesNothing : owed nested = [])
    (advances : walk.Advances begins [level] event later) :
    walk.Advances begins (level :: nested) event later := by
  have owes : owed (level :: nested) = owed [level] := by
    simp [owed, owesNothing]
  have isForemost : foremost (level :: nested) = foremost [level] := by
    simp [foremost, owed, owesNothing]
  cases advances with
  | part first succeeds rest areOpen => exact .part (owes.trans first) succeeds rest areOpen
  | error first fails isClosed => exact .error (owes.trans first) fails isClosed
  | done nothing rest areOpen => exact .done (owes.trans nothing) rest areOpen
  | wait owesSome rest areOpen unfinished kept begun =>
      rw [← owes] at owesSome rest
      rw [← isForemost] at unfinished kept
      exact .wait owesSome rest areOpen unfinished kept begun

/-- A poll advances a stream in which no error has passed. -/
theorem Walk.poll_advances
    (walk : Walk)
    (concurrency begins : Nat)
    (begun : List Projection.Task)
    {levels : List Level}
    (areOpen : AreOpen levels) :
    walk.Advances begins levels
      (walk.poll concurrency begins begun levels).event
      (walk.poll concurrency begins begun levels).levels := by
  induction levels with
  | nil => exact .done rfl rfl areOpen
  | cons level nested induction =>
      obtain ⟨isOpen, nestedOpen⟩ := areOpen_cons.mp areOpen
      have inside := induction nestedOpen
      simp only [Walk.poll, isOpen.2, Bool.false_eq_true, if_false]
      generalize walk.poll concurrency begins begun nested = polled at inside ⊢
      cases event : polled.event with
      | ended =>
          rw [event] at inside
          cases inside with
          | done owesNothing _ _ =>
              exact (walk.pollQueue_advances concurrency begins polled.begun isOpen).around
                owesNothing
      | chunk part =>
          rw [event] at inside
          exact inside.inside (by simp) isOpen polled.begun
      | pending =>
          rw [event] at inside
          exact inside.inside (by simp) isOpen polled.begun
      | failed error =>
          rw [event] at inside
          exact inside.inside (by simp) isOpen polled.begun

/-! ## After an error -/

theorem passOn_of_failed
    {level : Level}
    (isFailed : level.isFailed = true)
    (nested : List Level)
    (begun : List Projection.Task)
    (event : Event GatewayError) :
    isItem (passOn level nested begun event).event = false ∧
      IsClosed (passOn level nested begun event).levels := by
  cases event with
  | chunk part => simp [passOn, Level.pass, isFailed, isItem, IsClosed]
  | failed error => simp [passOn, Level.pass, isFailed, isItem, IsClosed]
  | pending => exact ⟨rfl, isFailed⟩
  | ended => exact ⟨rfl, isFailed⟩

theorem Walk.pollQueue_of_failed
    (walk : Walk)
    (concurrency begins : Nat)
    (begun : List Projection.Task)
    {level : Level}
    (isFailed : level.isFailed = true) :
    isItem (walk.pollQueue concurrency begins begun level).event = false ∧
      IsClosed (walk.pollQueue concurrency begins begun level).levels := by
  have filledFailed : (level.filled concurrency).isFailed = true := isFailed
  rw [Walk.pollQueue]
  split
  · apply passOn_of_failed filledFailed
  · split
    · apply passOn_of_failed
      exact filledFailed
    · apply passOn_of_failed
      exact filledFailed
  · apply passOn_of_failed
    exact filledFailed

/-- A stream that has let an error pass hands out nothing more. -/
theorem Walk.poll_of_closed
    (walk : Walk)
    (concurrency begins : Nat)
    (begun : List Projection.Task)
    {levels : List Level}
    (isClosed : IsClosed levels) :
    isItem (walk.poll concurrency begins begun levels).event = false ∧
      IsClosed (walk.poll concurrency begins begun levels).levels := by
  cases levels with
  | nil => exact isClosed.elim
  | cons level nested =>
      rw [Walk.poll]
      split
      · exact ⟨rfl, isClosed⟩
      · simp only
        split
        · apply walk.pollQueue_of_failed
          exact isClosed
        · apply passOn_of_failed
          exact isClosed

/-! ## Fetches that finish -/

/-- How far a fetch has come when the one with a number has finished. -/
def Progress.finish (number : Nat) (progress : Progress) : Progress :=
  if progress = .underWay number then .finished else progress

theorem Slot.progress_finish
    (number : Nat)
    (slot : Slot) :
    (slot.finish number).progress = slot.progress.finish number := by
  unfold Slot.finish Progress.finish
  split <;> rfl

theorem Slot.task_finish
    (number : Nat)
    (slot : Slot) :
    (slot.finish number).task = slot.task := by
  unfold Slot.finish
  split <;> rfl

theorem Level.tasks_finish
    (number : Nat)
    (level : Level) :
    (level.finish number).tasks = level.tasks := by
  simp [Level.tasks, Level.finish, Function.comp_def, Slot.task_finish]

theorem owed_finish
    (number : Nat)
    (levels : List Level) :
    owed (levels.map (·.finish number)) = owed levels := by
  induction levels with
  | nil => rfl
  | cons level nested induction =>
      rw [List.map_cons, owed, owed, induction, Level.tasks_finish]

theorem foremost_finish
    (number : Nat)
    (levels : List Level) :
    foremost (levels.map (·.finish number)) = (foremost levels).map (·.finish number) := by
  induction levels with
  | nil => rfl
  | cons level nested induction =>
      rw [List.map_cons, foremost, foremost, owed_finish, induction]
      split
      · cases slots : level.slots with
        | nil => simp [Level.finish, slots]
        | cons slot slots => simp [Level.finish, slots, Slot.progress_finish]
      · rfl

theorem areOpen_finish
    (number : Nat)
    {levels : List Level}
    (areOpen : AreOpen levels) :
    AreOpen (levels.map (·.finish number)) := by
  intro level member
  obtain ⟨before, isLevel, rfl⟩ := List.mem_map.mp member
  exact areOpen before isLevel

theorem isClosed_finish
    (number : Nat)
    {levels : List Level}
    (isClosed : IsClosed levels) :
    IsClosed (levels.map (·.finish number)) := by
  cases levels with
  | nil => exact isClosed
  | cons level nested => exact isClosed

/-! ## Every schedule -/

/-- A stream has received what some first steps of the walk yield. -/
inductive Walk.Follows (walk : Walk) (tasks : List Projection.Task) (stream : Stream) : Prop where
  /-- The walk goes on with the tasks that are owed. -/
  | running
      (count : Nat)
      (areOpen : AreOpen stream.levels)
      (received :
        ∀ more, walk.items (count + more) tasks =
          stream.received ++ walk.items more (owed stream.levels))
      (ending : stream.hasEnded = true → owed stream.levels = [])
  /-- The walk has ended with an error. -/
  | failed
      (count : Nat)
      (isClosed : IsClosed stream.levels)
      (received : ∀ more, walk.items (count + more) tasks = stream.received)

theorem Walk.follows_start
    (walk : Walk)
    (tasks : List Projection.Task) :
    walk.Follows tasks (.start tasks) := by
  refine .running 0 ?_ ?_ ?_
  · simp [AreOpen, Stream.start, Level.start, Level.IsOpen]
  · simp [Stream.start, owed, Level.start, Level.tasks]
  · simp [Stream.start]

/-- A poll that takes a task from those owed is a step of the walk. -/
theorem Walk.follows_of_advances
    {walk : Walk}
    {tasks : List Projection.Task}
    {begins count : Nat}
    {stream later : Stream}
    {event : Event GatewayError}
    (received :
      ∀ more, walk.items (count + more) tasks =
        stream.received ++ walk.items more (owed stream.levels))
    (ending : stream.hasEnded = true → owed stream.levels = [])
    (advances : walk.Advances begins stream.levels event later.levels)
    (nowReceived : later.received = stream.received ++ [event].filter isItem)
    (nowEnded : later.hasEnded = (stream.hasEnded || decide (event = .ended))) :
    walk.Follows tasks later := by
  have oneMore (more : Nat) : count + 1 + more = count + (more + 1) := by
    omega
  cases advances with
  | part first succeeds rest areOpen =>
      refine .running (count + 1) areOpen ?_ ?_
      · intro more
        rw [oneMore, received, first, Walk.items_of_success more succeeds, rest, nowReceived]
        simp
      · intro isEnded
        have wasEnded : stream.hasEnded = true := by simpa [nowEnded] using isEnded
        simp [ending wasEnded] at first
  | error first fails isClosed =>
      refine .failed (count + 1) isClosed ?_
      intro more
      rw [oneMore, received, first, Walk.items_of_failure more fails, nowReceived]
      simp
  | wait owes rest areOpen unfinished kept begun =>
      refine .running count areOpen ?_ ?_
      · simpa [nowReceived, rest] using received
      · simpa [nowEnded, rest] using ending
  | done owesNothing rest areOpen =>
      refine .running count areOpen ?_ ?_
      · simpa [nowReceived, rest, owesNothing] using received
      · simp [rest]

/-- Whatever happens, a stream goes on following the walk. -/
theorem Walk.Follows.next
    {walk : Walk}
    {tasks : List Projection.Task}
    {stream : Stream}
    (follows : walk.Follows tasks stream)
    (concurrency : Nat)
    (happening : Happening) :
    walk.Follows tasks (walk.next concurrency stream happening) := by
  cases follows with
  | running count areOpen received ending =>
      cases happening with
      | poll begins =>
          have advances := walk.poll_advances concurrency begins stream.begun areOpen
          exact Walk.follows_of_advances received ending advances rfl rfl
      | finish number =>
          refine .running count (areOpen_finish number areOpen) ?_ ?_
          · simpa [Walk.next, owed_finish] using received
          · simpa [Walk.next, owed_finish] using ending
  | failed count isClosed received =>
      cases happening with
      | poll begins =>
          obtain ⟨noItem, stillClosed⟩ :=
            walk.poll_of_closed concurrency begins stream.begun isClosed
          refine .failed count stillClosed ?_
          simpa [Walk.next, noItem] using received
      | finish number => exact .failed count (isClosed_finish number isClosed) received

section

variable
    (walk : Walk)
    (concurrency : Nat)
    (tasks : List Projection.Task)
    (schedule : Nat → Happening)

/-- At any time, a stream has received what some first steps of the walk yield. -/
theorem Walk.follows_stream
    (time : Nat) :
    walk.Follows tasks (walk.stream concurrency tasks schedule time) := by
  induction time with
  | zero => exact walk.follows_start tasks
  | succ time induction => exact induction.next concurrency (schedule time)

end

theorem Walk.Follows.exists_count
    {walk : Walk}
    {tasks : List Projection.Task}
    {stream : Stream}
    (follows : walk.Follows tasks stream) :
    ∃ count, stream.received = walk.items count tasks := by
  cases follows with
  | running count areOpen received ending =>
      have atOnce := received 0
      simp only [Nat.add_zero, items_zero, List.append_nil] at atOnce
      exact ⟨count, atOnce.symm⟩
  | failed count isClosed received => exact ⟨count, (received 0).symm⟩

/-- Items that no further steps add to are all the items of a walk. -/
theorem Walk.items_prefix_of_final
    {walk : Walk}
    {tasks : List Projection.Task}
    {count : Nat}
    {final : List (Event GatewayError)}
    (isFinal : ∀ more, walk.items (count + more) tasks = final)
    (other : Nat) :
    walk.items other tasks <+: final := by
  rw [← isFinal other]
  exact items_prefix_of_le other walk tasks (Nat.le_add_left other count)

/-- A stream that has ended has received every item. -/
theorem Walk.Follows.items_prefix_of_ended
    {walk : Walk}
    {tasks : List Projection.Task}
    {stream : Stream}
    (follows : walk.Follows tasks stream)
    (hasEnded : stream.hasEnded = true)
    (count : Nat) :
    walk.items count tasks <+: stream.received := by
  cases follows with
  | running first areOpen received ending =>
      have isFinal (more : Nat) : walk.items (first + more) tasks = stream.received := by
        rw [received more, ending hasEnded, items_nil, List.append_nil]
      exact Walk.items_prefix_of_final isFinal count
  | failed first isClosed received => exact Walk.items_prefix_of_final received count

end QueryGateway.Gateway
