import QueryGateway.Proofs.Gateway.Accounting

/-!
# What is in hand

A stream has tasks in hand whose fetches have begun and whose parts it has not
handed out.  All of them are owed, in the order in which they are in hand, and
the first one that is handed out is the first of them.  A poll either hands out
this one, or begins fetches for further tasks.

If one fetch at a time is allowed, only the innermost level has a task in its
queue, and that is the first of the tasks that are owed.

The order in which the walk takes the tasks is unrolled as far as somebody asks,
as the walk itself is; on finite trees it is their pre-order, up to the first
failure.
-/

namespace QueryGateway.Gateway

open Multipart (Event)

/-! ## The order of the walk -/

namespace Walk

/--
The first tasks in the order of the walk in depth: a task comes before those
that it brings up, and these come before the tasks behind it.  The first one
that fails is the last one.
-/
def order (walk : Walk) : Nat → List Projection.Task → List Projection.Task
  | 0, _ => []
  | _ + 1, [] => []
  | count + 1, task :: waiting =>
      match (walk.carryOut task).result with
      | .ok (_, tasks) => task :: walk.order count (tasks ++ waiting)
      | .error _ => [task]

variable
    {walk : Walk}
    {task : Projection.Task}
    (count : Nat)

@[simp]
theorem order_nil
    (walk : Walk) :
    walk.order count [] = [] := by
  cases count <;> rfl

theorem order_of_success
    {part : Multipart.Part}
    {tasks : List Projection.Task}
    (succeeds : (walk.carryOut task).result = .ok (part, tasks))
    (waiting : List Projection.Task) :
    walk.order (count + 1) (task :: waiting) = task :: walk.order count (tasks ++ waiting) := by
  simp [order, succeeds]

theorem order_of_failure
    {error : GatewayError}
    (fails : (walk.carryOut task).result = .error error)
    (waiting : List Projection.Task) :
    walk.order (count + 1) (task :: waiting) = [task] := by
  simp [order, fails]

/-- The first task in the order is the first one of the list, whatever becomes of it. -/
theorem order_one
    (walk : Walk)
    (task : Projection.Task)
    (waiting : List Projection.Task) :
    walk.order 1 (task :: waiting) = [task] := by
  rw [order]
  split <;> rfl

end Walk

/-- The order begins with the tasks that have been carried out. -/
theorem Walk.Leads.order_eq
    {walk : Walk}
    {tasks carriedOut waiting : List Projection.Task}
    (leads : walk.Leads tasks carriedOut waiting)
    (more : Nat) :
    walk.order (carriedOut.length + more) tasks = carriedOut ++ walk.order more waiting := by
  induction leads generalizing more with
  | start => simp
  | @onward carriedOut waiting found task part _ succeeds induction =>
      have oneMore : (carriedOut ++ [task]).length + more = carriedOut.length + (more + 1) := by
        rw [List.length_append, List.length_singleton, Nat.add_assoc, Nat.add_comm 1]
      rw [oneMore, induction, order_of_success more succeeds, List.append_assoc,
        List.singleton_append]

/-- On finite trees the order is the pre-order, up to the first failure. -/
theorem Walk.order_of_unfolds
    {walk : Walk}
    {tasks : List Projection.Task}
    {trees : List TaskTree}
    (unfolds : walk.Unfolds tasks trees)
    (count : Nat) :
    walk.order count tasks = (walk.untilFailure (TaskTree.preorders trees)).take count := by
  induction count generalizing tasks trees with
  | zero => simp [order]
  | succ count induction =>
      cases unfolds with
      | nil => simp [TaskTree.preorders, untilFailure]
      | @cons task tasks children trees below beside =>
          rw [TaskTree.preorders_cons]
          cases result : (walk.carryOut task).result with
          | error error =>
              rw [order_of_failure count result, untilFailure_of_failure result]
              simp
          | ok yielded =>
              rw [discovered_of_success result] at below
              rw [order_of_success count result, untilFailure_of_success result,
                List.take_succ_cons, induction (below.append beside)]

/-- The items of the walk are those of the tasks that it takes. -/
theorem Walk.items_eq_map_order
    (walk : Walk)
    (count : Nat)
    (tasks : List Projection.Task) :
    walk.items count tasks = (walk.order count tasks).map walk.item := by
  induction count generalizing tasks with
  | zero => simp [order]
  | succ count induction =>
      cases tasks with
      | nil => simp
      | cons task waiting =>
          cases result : (walk.carryOut task).result with
          | error error =>
              rw [items_of_failure count result, order_of_failure count result,
                List.map_singleton, item_of_failure result]
          | ok yielded =>
              rw [items_of_success count result, order_of_success count result,
                List.map_cons, item_of_success result, induction]

/-- The requests of the walk are those of the tasks that it takes. -/
theorem Walk.sent_order
    (walk : Walk)
    (count : Nat)
    (tasks : List Projection.Task) :
    walk.sent (walk.order count tasks) = (walk.steps count tasks).filterMap (·.sent) := by
  induction count generalizing tasks with
  | zero => rfl
  | succ count induction =>
      cases tasks with
      | nil => rfl
      | cons task waiting =>
          cases result : (walk.carryOut task).result with
          | error error =>
              rw [order_of_failure count result, steps, result]
              rfl
          | ok yielded =>
              rw [order_of_success count result, steps, result, List.filterMap_cons, ← induction]
              rfl

/-! ## Tasks in hand -/

/-- The tasks of a level whose fetches have begun. -/
def Level.begun (level : Level) : List Projection.Task :=
  (level.slots.filter (·.progress ≠ .queued)).map (·.task)

/-- The tasks of a stream that have been begun and not handed out. -/
def inHand : List Level → List Projection.Task
  | [] => []
  | level :: nested => inHand nested ++ level.begun

theorem inHand_singleton
    (level : Level) :
    inHand [level] = level.begun := by
  simp [inHand]

theorem inHand_nestedIn
    (tasks : List Projection.Task) :
    inHand (nestedIn tasks) = [] := by
  cases tasks <;> simp [nestedIn, inHand, Level.start, Level.begun]

/-- What is in hand is owed. -/
theorem inHand_sublist_owed
    (levels : List Level) :
    (inHand levels).Sublist (owed levels) := by
  induction levels with
  | nil => exact .slnil
  | cons level nested induction =>
      refine induction.append ?_
      have ofSlots : level.begun.Sublist (level.slots.map (·.task)) :=
        (List.filter_sublist).map _
      exact ofSlots.trans (List.sublist_append_left _ _)

theorem inHand_eq_nil_of_owed
    {levels : List Level}
    (owesNothing : owed levels = []) :
    inHand levels = [] := by
  have isPart := inHand_sublist_owed levels
  rw [owesNothing] at isPart
  exact List.sublist_nil.mp isPart

theorem Level.begun_finish
    (number : Nat)
    (level : Level) :
    (level.finish number).begun = level.begun := by
  have sameFilter : (fun slot : Slot => decide ((slot.finish number).progress ≠ .queued)) =
      fun slot => decide (slot.progress ≠ .queued) := by
    funext slot
    rw [Slot.progress_finish, Progress.finish]
    split
    · next isUnderWay => simp [isUnderWay]
    · rfl
  simp only [Level.begun, Level.finish, List.filter_map, Function.comp_def, sameFilter,
    List.map_map, Slot.task_finish]

theorem inHand_finish
    (number : Nat)
    (levels : List Level) :
    inHand (levels.map (·.finish number)) = inHand levels := by
  induction levels with
  | nil => rfl
  | cons level nested induction =>
      rw [List.map_cons, inHand, inHand, induction, Level.begun_finish]

theorem Level.begun_pass
    (level : Level)
    (event : Event GatewayError) :
    (level.pass event).2.begun = level.begun := by
  rw [Level.begun, Level.slots_pass, Level.begun]

theorem Level.begun_filled
    (concurrency : Nat)
    (level : Level) :
    (level.filled concurrency).begun = level.begun := by
  have noneBegun (tasks : List Projection.Task) :
      (tasks.map (Slot.mk · .queued)).filter (·.progress ≠ .queued) = [] := by
    simp
  rw [Level.begun, Level.begun, Level.filled, List.filter_append, noneBegun, List.append_nil]

/-- The tasks that begin are in hand with those that have begun before. -/
theorem Level.begun_beginFetches
    (level : Level)
    (begins number : Nat)
    (slots : List Slot) :
    (Level.begun { level with slots := beginFetches begins number slots }).Perm
      (Level.begun { level with slots } ++ beginning begins slots) := by
  simp only [Level.begun, beginning]
  induction slots generalizing begins number with
  | nil => cases begins <;> simp [beginFetches]
  | cons slot slots induction =>
      cases begins with
      | zero => simp [beginFetches]
      | succ begins =>
          by_cases isQueued : slot.progress = .queued
          · have others := (induction begins (number + 1)).cons slot.task
            simpa [beginFetches, isQueued] using others.trans List.perm_middle.symm
          · have others := (induction (begins + 1) number).cons slot.task
            simpa [beginFetches, isQueued] using others

/-! ## One poll -/

/-- What a poll does to the tasks in hand and to those that have been begun. -/
inductive Proceeds (owes held begun : List Projection.Task) (event : Event GatewayError)
    (laterHeld laterBegun : List Projection.Task) : Prop where
  /-- The first task that is owed is in hand, and comes to an item. -/
  | yields
      (givesItem : isItem event = true)
      (task : Projection.Task)
      (isFirst : owes.head? = some task)
      (handsOut : held = task :: laterHeld)
      (sameBegun : laterBegun = begun)
  /-- Fetches may begin. -/
  | begins
      (noItem : isItem event = false)
      (more : List Projection.Task)
      (nowBegun : laterBegun = begun ++ more)
      (nowHeld : laterHeld.Perm (held ++ more))

/-- A poll proceeds from the tasks that are owed and in hand. -/
def Polled.ProceedsFrom (levels : List Level) (begun : List Projection.Task)
    (polled : Polled) : Prop :=
  Proceeds (owed levels) (inHand levels) begun polled.event (inHand polled.levels) polled.begun

section

variable
    (walk : Walk)
    (concurrency begins : Nat)
    (begun : List Projection.Task)

/-- A queue whose first fetch has not finished begins fetches. -/
theorem Walk.pollQueue_of_unfinished
    {level : Level}
    {slot : Slot}
    {slots : List Slot}
    (first : (level.filled concurrency).slots = slot :: slots)
    (unfinished : slot.progress ≠ .finished) :
    walk.pollQueue concurrency begins begun level =
      ⟨.pending,
        [{ level.filled concurrency with
          slots := beginFetches begins begun.length (slot :: slots) }],
        begun ++ beginning begins (slot :: slots)⟩ := by
  obtain ⟨task, progress⟩ := slot
  cases progress with
  | queued => simp [Walk.pollQueue, first, passOn, Level.pass]
  | underWay number => simp [Walk.pollQueue, first, passOn, Level.pass]
  | finished => exact (unfinished rfl).elim

theorem Walk.pollQueue_proceeds
    {level : Level}
    (isOpen : level.IsOpen) :
    (walk.pollQueue concurrency begins begun level).ProceedsFrom [level] begun := by
  have inHandFilled : inHand [level] = (level.filled concurrency).begun := by
    rw [inHand_singleton, Level.begun_filled]
  cases first : (level.filled concurrency).slots with
  | nil =>
      simp only [Walk.pollQueue, first, passOn, Level.pass]
      refine .begins rfl [] ?_ ?_
      · simp
      · rw [inHand_singleton, inHandFilled, List.append_nil]
  | cons slot slots =>
      by_cases isFinished : slot.progress = .finished
      · obtain ⟨task, progress⟩ := slot
        subst isFinished
        have laterOpen : Level.IsOpen { level.filled concurrency with slots } := isOpen
        have handsOut : inHand [level] =
            task :: Level.begun { level.filled concurrency with slots } := by
          simp [inHandFilled, Level.begun, first]
        have isFirst : (owed [level]).head? = some task := by
          rw [owed_singleton, ← level.tasks_filled concurrency, Level.tasks, first]
          rfl
        cases result : (walk.carryOut task).result with
        | ok yielded =>
            simp only [Walk.pollQueue, first, result, passOn, Level.pass_chunk laterOpen]
            refine .yields rfl task isFirst ?_ rfl
            rw [handsOut, inHand, inHand_nestedIn, List.nil_append]
        | error error =>
            simp only [Walk.pollQueue, first, result, passOn, Level.pass_failed laterOpen]
            refine .yields rfl task isFirst ?_ rfl
            rw [handsOut, inHand_singleton]
            rfl
      · rw [walk.pollQueue_of_unfinished concurrency begins begun first isFinished]
        refine .begins rfl _ rfl ?_
        rw [inHandFilled, inHand_singleton]
        have begunNow := Level.begun_beginFetches (level.filled concurrency) begins begun.length
          (slot :: slots)
        rw [← first] at begunNow ⊢
        exact begunNow

/-- A level adds what it has in hand to what happens inside it. -/
theorem Polled.ProceedsFrom.around
    {nested : List Level}
    {polled : Polled}
    (inside : polled.ProceedsFrom nested begun)
    {level : Level}
    (isOpen : level.IsOpen) :
    (passOn level polled.levels polled.begun polled.event).ProceedsFrom
      (level :: nested) begun := by
  have sameEvent : (level.pass polled.event).1 = polled.event := by
    cases polled.event <;> simp [Level.pass, isOpen.1]
  have laterHeld : inHand (passOn level polled.levels polled.begun polled.event).levels =
      inHand polled.levels ++ level.begun := by
    rw [passOn, inHand, Level.begun_pass]
  rw [Polled.ProceedsFrom, laterHeld, inHand, owed, passOn, sameEvent]
  cases inside with
  | yields givesItem task isFirst handsOut sameBegun =>
      refine .yields givesItem task ?_ ?_ sameBegun
      · rw [List.head?_append, isFirst, Option.some_or]
      · rw [handsOut, List.cons_append]
  | begins noItem more nowBegun nowHeld =>
      refine .begins noItem more nowBegun ?_
      have around := nowHeld.append_right level.begun
      rw [List.append_assoc] at around ⊢
      exact around.trans (List.perm_append_comm.append_left _)

/-- A poll of a stream in which no error has passed. -/
theorem Walk.poll_proceeds
    {levels : List Level}
    (areOpen : AreOpen levels) :
    (walk.poll concurrency begins begun levels).ProceedsFrom levels begun := by
  induction levels with
  | nil => exact .begins rfl [] (by simp [Walk.poll]) (.refl _)
  | cons level nested induction =>
      obtain ⟨isOpen, nestedOpen⟩ := areOpen_cons.mp areOpen
      have inside := induction nestedOpen
      have advances := walk.poll_advances concurrency begins begun nestedOpen
      simp only [Walk.poll, isOpen.2, Bool.false_eq_true, if_false]
      generalize walk.poll concurrency begins begun nested = polled at inside advances ⊢
      split
      · next ended =>
          -- Nothing is in hand where nothing is owed, so nothing has begun inside the level.
          rw [ended] at advances
          cases advances with
          | done owesNothing rest =>
              cases inside with
              | yields givesItem => simp [ended] at givesItem
              | begins noItem more nowBegun nowHeld =>
                  rw [inHand_eq_nil_of_owed owesNothing, inHand_eq_nil_of_owed rest,
                    List.nil_append] at nowHeld
                  have sameHeld : inHand (level :: nested) = inHand [level] := by
                    simp [inHand, inHand_eq_nil_of_owed owesNothing]
                  have sameOwed : owed (level :: nested) = owed [level] := by
                    simp [owed, owesNothing]
                  rw [Polled.ProceedsFrom, sameHeld, sameOwed, nowBegun, nowHeld.nil_eq.symm,
                    List.append_nil]
                  exact walk.pollQueue_proceeds concurrency begins begun isOpen
      · exact inside.around begun isOpen

end

/-! ## One task at a time -/

/-- Only the innermost queue holds a task, and it holds no other one. -/
def IsSolo : List Level → Prop
  | [] => True
  | level :: nested =>
      level.slots.length ≤ 1 ∧ (nested ≠ [] → level.slots = []) ∧ IsSolo nested

theorem Level.begun_of_empty
    {level : Level}
    (isEmpty : level.slots = []) :
    level.begun = [] := by
  simp [Level.begun, isEmpty]

theorem isSolo_nestedIn
    (tasks : List Projection.Task) :
    IsSolo (nestedIn tasks) := by
  cases tasks <;> simp [nestedIn, IsSolo, Level.start]

theorem eq_nil_or_singleton
    {α : Type}
    {list : List α}
    (atMostOne : list.length ≤ 1) :
    list = [] ∨ ∃ element, list = [element] := by
  rcases Nat.le_one_iff_eq_zero_or_eq_one.mp atMostOne with isEmpty | isSingle
  · exact .inl (List.length_eq_zero_iff.mp isEmpty)
  · exact .inr (List.length_eq_one_iff.mp isSingle)

/-- What is in hand is owed first. -/
theorem inHand_prefix_owed
    {levels : List Level}
    (isSolo : IsSolo levels) :
    inHand levels <+: owed levels := by
  induction levels with
  | nil => exact List.prefix_refl _
  | cons level nested induction =>
      obtain ⟨atMostOne, emptyAround, nestedSolo⟩ := isSolo
      rw [inHand, owed]
      by_cases isInnermost : nested = []
      · subst isInnermost
        rcases eq_nil_or_singleton atMostOne with slots | ⟨slot, slots⟩
        · simp [Level.begun, slots, inHand]
        · by_cases isQueued : slot.progress = .queued
          · simp [Level.begun, slots, isQueued, inHand]
          · simp [Level.begun, Level.tasks, slots, isQueued, inHand, owed]
      · rw [Level.begun_of_empty (emptyAround isInnermost), List.append_nil]
        exact (induction nestedSolo).trans (List.prefix_append _ _)

theorem length_inHand_le
    {levels : List Level}
    (isSolo : IsSolo levels) :
    (inHand levels).length ≤ 1 := by
  induction levels with
  | nil => simp [inHand]
  | cons level nested induction =>
      obtain ⟨atMostOne, emptyAround, nestedSolo⟩ := isSolo
      rw [inHand]
      by_cases isInnermost : nested = []
      · subst isInnermost
        simp only [inHand, List.nil_append, Level.begun, List.length_map]
        exact Nat.le_trans (List.length_filter_le _ _) atMostOne
      · rw [Level.begun_of_empty (emptyAround isInnermost), List.append_nil]
        exact induction nestedSolo

/-- What is in hand is the first task that is owed. -/
theorem inHand_eq_of_owed
    {levels : List Level}
    {task : Projection.Task}
    {waiting : List Projection.Task}
    (isSolo : IsSolo levels)
    (first : owed levels = task :: waiting)
    (isBusy : inHand levels ≠ []) :
    inHand levels = [task] := by
  obtain ⟨others, isPrefix⟩ := inHand_prefix_owed isSolo
  rcases eq_nil_or_singleton (length_inHand_le isSolo) with isIdle | ⟨other, isHeld⟩
  · exact (isBusy isIdle).elim
  · rw [isHeld, first] at isPrefix
    simp only [List.cons_append, List.cons.injEq] at isPrefix
    rw [isHeld, isPrefix.1]

/-- Of single tasks the order is known. -/
theorem inHand_eq_of_perm
    {levels : List Level}
    {held : List Projection.Task}
    (isSolo : IsSolo levels)
    (isHeld : (inHand levels).Perm held) :
    inHand levels = held := by
  rcases eq_nil_or_singleton (length_inHand_le isSolo) with isIdle | ⟨task, isBusy⟩
  · rw [isIdle] at isHeld ⊢
    exact isHeld.nil_eq
  · rw [isBusy] at isHeld ⊢
    exact (List.perm_singleton.mp isHeld.symm).symm

theorem isSolo_finish
    (number : Nat)
    {levels : List Level}
    (isSolo : IsSolo levels) :
    IsSolo (levels.map (·.finish number)) := by
  induction levels with
  | nil => trivial
  | cons level nested induction =>
      obtain ⟨atMostOne, emptyAround, nestedSolo⟩ := isSolo
      refine ⟨by simpa [Level.finish] using atMostOne, ?_, induction nestedSolo⟩
      intro hasNested
      have isEmpty := emptyAround (by simpa using hasNested)
      simp [Level.finish, isEmpty]

theorem Level.length_filled_le
    {concurrency : Nat}
    (oneAtATime : concurrency ≤ 1)
    {level : Level}
    (atMostOne : level.slots.length ≤ 1) :
    (level.filled concurrency).slots.length ≤ 1 := by
  simp only [Level.filled, List.length_append, List.length_map, List.length_take]
  omega

theorem isSolo_singleton
    {level : Level}
    (atMostOne : level.slots.length ≤ 1) :
    IsSolo [level] :=
  ⟨atMostOne, by simp, trivial⟩

section

variable
    (walk : Walk)
    {concurrency : Nat}
    (begins : Nat)
    (begun : List Projection.Task)

theorem Walk.isSolo_pollQueue
    (oneAtATime : concurrency ≤ 1)
    {level : Level}
    (atMostOne : level.slots.length ≤ 1) :
    IsSolo (walk.pollQueue concurrency begins begun level).levels := by
  have atMostOneFilled := Level.length_filled_le oneAtATime atMostOne
  rcases eq_nil_or_singleton atMostOneFilled with first | ⟨slot, first⟩
  · simp only [Walk.pollQueue, first, passOn, Level.pass]
    exact isSolo_singleton atMostOneFilled
  · by_cases isFinished : slot.progress = .finished
    · obtain ⟨task, progress⟩ := slot
      subst isFinished
      cases result : (walk.carryOut task).result with
      | ok yielded =>
          simp only [Walk.pollQueue, first, result, passOn]
          refine ⟨?_, fun _ => ?_, isSolo_nestedIn _⟩
          · simp [Level.slots_pass]
          · simp [Level.slots_pass]
      | error error =>
          simp only [Walk.pollQueue, first, result, passOn]
          exact isSolo_singleton (by simp [Level.slots_pass])
    · rw [walk.pollQueue_of_unfinished concurrency begins begun first isFinished]
      have sameLength := congrArg List.length
        (beginFetches_tasks begins begun.length [slot])
      exact isSolo_singleton (by simpa using Nat.le_of_eq sameLength)

/-- Single tasks stay single. -/
theorem Walk.isSolo_poll
    (oneAtATime : concurrency ≤ 1)
    {levels : List Level}
    (isSolo : IsSolo levels) :
    IsSolo (walk.poll concurrency begins begun levels).levels := by
  induction levels with
  | nil => trivial
  | cons level nested induction =>
      obtain ⟨atMostOne, emptyAround, nestedSolo⟩ := isSolo
      have inside := induction nestedSolo
      have passes (notEnded : (walk.poll concurrency begins begun nested).event ≠ .ended) :
          level.slots = [] := by
        refine emptyAround ?_
        rintro rfl
        exact notEnded rfl
      rw [Walk.poll]
      split
      · exact ⟨atMostOne, emptyAround, nestedSolo⟩
      · simp only
        generalize walk.poll concurrency begins begun nested = polled at inside passes ⊢
        split
        · exact walk.isSolo_pollQueue begins polled.begun oneAtATime atMostOne
        · next notEnded =>
            have isEmpty := passes notEnded
            refine ⟨?_, fun _ => ?_, inside⟩
            · simp [Level.slots_pass, isEmpty]
            · rw [Level.slots_pass, isEmpty]

end

end QueryGateway.Gateway
