import QueryGateway.Proofs.Gateway.Recording
import QueryGateway.Proofs.Gateway.Scheduling

/-!
# Every list is begun in order and not too far ahead

Of the tasks of a list, the queue yields the first ones, and it has begun those
and some that come directly behind them.  How many it has begun ahead of what it
has yielded is bounded by its room, since it has begun only what is in it.

The invariant accounts for the lanes of a stream: what is left in a lane is the
list without the tasks that were yielded, and of its queue the first tasks have
been begun.  A poll changes one lane, leaves the lanes inside it, and may enter
one for a list that no task has been recorded in.  Whether an error has passed
does not matter here.
-/

namespace QueryGateway.Gateway

open Multipart (Event)

/-! ## Queues -/

/-- So many tasks of a queue have been begun: the first ones, and no others. -/
inductive AreBegun : Nat → List Slot → Prop where
  | none
      {slots : List Slot}
      (areQueued : ∀ slot ∈ slots, slot.progress = .queued) :
      AreBegun 0 slots
  | cons
      {count : Nat}
      {slot : Slot}
      {slots : List Slot}
      (hasBegun : slot.progress ≠ .queued)
      (rest : AreBegun count slots) :
      AreBegun (count + 1) (slot :: slots)

namespace AreBegun

variable
    {count : Nat}
    {slots : List Slot}

theorem le_length
    (areBegun : AreBegun count slots) :
    count ≤ slots.length := by
  induction areBegun with
  | none => exact Nat.zero_le _
  | cons _ _ induction => exact Nat.succ_le_succ induction

theorem append
    (areBegun : AreBegun count slots)
    {queued : List Slot}
    (areQueued : ∀ slot ∈ queued, slot.progress = .queued) :
    AreBegun count (slots ++ queued) := by
  induction areBegun with
  | none others =>
      refine .none ?_
      intro slot member
      exact (List.mem_append.mp member).elim (others slot) (areQueued slot)
  | cons hasBegun _ induction => exact .cons hasBegun induction

theorem finish
    (areBegun : AreBegun count slots)
    (number : Nat) :
    AreBegun count (slots.map (·.finish number)) := by
  induction areBegun with
  | none areQueued =>
      refine .none ?_
      intro slot member
      obtain ⟨before, isSlot, rfl⟩ := List.mem_map.mp member
      rw [Slot.progress_finish, areQueued before isSlot]
      rfl
  | @cons count slot slots hasBegun _ induction =>
      refine .cons ?_ induction
      rw [Slot.progress_finish, Progress.finish]
      split
      · simp
      · exact hasBegun

/-- A queue whose first task has been begun. -/
theorem of_cons
    {slot : Slot}
    (areBegun : AreBegun count (slot :: slots))
    (hasBegun : slot.progress ≠ .queued) :
    ∃ others, count = others + 1 ∧ AreBegun others slots := by
  cases areBegun with
  | none areQueued => exact (hasBegun (areQueued slot (by simp))).elim
  | cons _ rest => exact ⟨_, rfl, rest⟩

/-- The tasks that begin are those behind the ones that have been begun. -/
theorem beginFetches
    (areBegun : AreBegun count slots)
    (list : List Nat)
    (begins number index : Nat) :
    ∃ more, AreBegun (count + more) (Gateway.beginFetches begins number slots) ∧
      (placedBeginning list begins index slots).map (·.position.index) =
        List.range' (index + count) more := by
  induction areBegun generalizing begins number index with
  | @none slots areQueued =>
      induction slots generalizing begins number index with
      | nil => exact ⟨0, .none (by cases begins <;> simp [Gateway.beginFetches]),
          by cases begins <;> simp [placedBeginning]⟩
      | cons slot slots induction =>
          cases begins with
          | zero => exact ⟨0, .none (by simpa [Gateway.beginFetches] using areQueued), rfl⟩
          | succ begins =>
              have isQueued := areQueued slot (by simp)
              obtain ⟨more, areBegun, indices⟩ := induction
                (fun slot member => areQueued slot (by simp [member])) begins (number + 1)
                (index + 1)
              simp only [Nat.zero_add, Nat.add_zero] at areBegun indices
              refine ⟨more + 1, ?_, ?_⟩
              · simp only [Gateway.beginFetches, isQueued, if_true, Nat.zero_add]
                exact .cons (by simp) areBegun
              · simp [placedBeginning, isQueued, indices, List.range'_succ]
  | @cons count slot slots hasBegun rest induction =>
      cases begins with
      | zero => exact ⟨0, .cons hasBegun rest, rfl⟩
      | succ begins =>
          obtain ⟨more, areBegun, indices⟩ := induction (begins + 1) number (index + 1)
          refine ⟨more, ?_, ?_⟩
          · simp only [Gateway.beginFetches, hasBegun, if_false, Nat.add_right_comm count 1]
            exact .cons hasBegun areBegun
          · simp only [placedBeginning, hasBegun, if_false, indices]
            rw [Nat.add_right_comm index 1 count, Nat.add_assoc]

end AreBegun

/-- Where the tasks that begin stand. -/
theorem placed_of_mem_placedBeginning
    {list : List Nat}
    {begins index : Nat}
    {slots : List Slot}
    {entry : Placed}
    (member : entry ∈ placedBeginning list begins index slots) :
    entry.position.list = list ∧
      ∃ offset, entry.position.index = index + offset ∧
        (slots.map (·.task))[offset]? = some entry.task := by
  induction slots generalizing begins index with
  | nil => cases begins <;> cases member
  | cons slot slots induction =>
      cases begins with
      | zero => cases member
      | succ begins =>
          have behind {begins : Nat}
              (member : entry ∈ placedBeginning list begins (index + 1) slots) :
              entry.position.list = list ∧
                ∃ offset, entry.position.index = index + offset ∧
                  ((slot :: slots).map (·.task))[offset]? = some entry.task := by
            obtain ⟨isList, offset, isIndex, isTask⟩ := induction member
            exact ⟨isList, offset + 1, by omega, by simpa using isTask⟩
          rw [placedBeginning] at member
          split at member
          · rcases List.mem_cons.mp member with rfl | member
            · exact ⟨rfl, 0, rfl, rfl⟩
            · exact behind member
          · exact behind member

/-! ## Accounts -/

/--
Of the tasks of a list, the first ones have been yielded; those have been begun,
and at most as many directly behind them as there is room for.
-/
def Record.KeepsOrder (room : Nat) (record : Record) (list : List Nat) : Prop :=
  ∃ yielded ahead,
    indicesIn list record.yielded = List.range yielded ∧
      indicesIn list record.begun = List.range (yielded + ahead) ∧ ahead ≤ room

/-- The list of a request, or one that came up in a task that has been yielded. -/
def Record.Reaches (record : Record) (list : List Nat) : Prop :=
  list = [] ∨ ∃ entry ∈ record.yielded, entry.position.below = list

/-- A lane that is as the record of its list tells. -/
structure Lane.IsAccounted (walk : Walk) (room : Nat) (tasks : List Projection.Task)
    (record : Record) (lane : Lane) : Prop where
  rest : lane.level.tasks = (walk.listAt tasks lane.list).drop lane.yielded
  fits : lane.level.slots.length ≤ room
  yielded : indicesIn lane.list record.yielded = List.range lane.yielded
  begun :
    ∃ count, AreBegun count lane.level.slots ∧
      indicesIn lane.list record.begun = List.range (lane.yielded + count)

/-- The lanes of a stream and its record agree. -/
structure Walk.Accounts (walk : Walk) (room : Nat) (tasks : List Projection.Task)
    (lanes : List Lane) (record : Record) : Prop where
  accounted : ∀ lane ∈ lanes, lane.IsAccounted walk room tasks record
  distinct : (lanes.map (·.list)).Nodup
  reached : ∀ list ∈ lanes.map (·.list), record.Reaches list
  placed :
    ∀ entry ∈ record.begun ++ record.yielded,
      record.Reaches entry.position.list ∧
        walk.taskAt? tasks entry.position = some entry.task
  ordered : ∀ list, record.KeepsOrder room list

variable
    {walk : Walk}
    {room concurrency : Nat}
    {tasks : List Projection.Task}
    {lane : Lane}
    {lanes outer nested : List Lane}
    {record : Record}

theorem Record.Reaches.extend
    {list : List Nat}
    (reaches : record.Reaches list)
    (begun yielded : List Placed) :
    (record.extend begun yielded).Reaches list := by
  rcases reaches with isFirst | ⟨entry, member, isBelow⟩
  · exact .inl isFirst
  · exact .inr ⟨entry, by simp [member], isBelow⟩

theorem Record.mem_extend
    {entry : Placed}
    {begun yielded : List Placed}
    (member :
      entry ∈ (record.extend begun yielded).begun ++ (record.extend begun yielded).yielded) :
    entry ∈ record.begun ++ record.yielded ∨ entry ∈ begun ++ yielded := by
  simp only [Record.begun_extend, Record.yielded_extend, List.mem_append] at member ⊢
  tauto

theorem Lane.IsAccounted.keepsOrder
    (accounted : lane.IsAccounted walk room tasks record) :
    record.KeepsOrder room lane.list := by
  obtain ⟨count, areBegun, begun⟩ := accounted.begun
  exact ⟨lane.yielded, count, accounted.yielded, begun,
    Nat.le_trans areBegun.le_length accounted.fits⟩

/-- What a lane has left stands in its list behind what it has yielded. -/
theorem Lane.IsAccounted.taskAt?_eq
    (accounted : lane.IsAccounted walk room tasks record)
    (offset : Nat) :
    walk.taskAt? tasks ⟨lane.list, lane.yielded + offset⟩ = lane.level.tasks[offset]? := by
  rw [accounted.rest, List.getElem?_drop]
  rfl

/-- The list below the next task of a lane is not reached before that task is yielded. -/
theorem Lane.IsAccounted.not_reaches
    (accounted : lane.IsAccounted walk room tasks record) :
    ¬ record.Reaches (Position.below ⟨lane.list, lane.yielded⟩) := by
  rintro (isFirst | ⟨entry, member, isSame⟩)
  · exact Position.below_ne_nil _ isFirst
  · have isIndex := mem_indicesIn_of_mem member
    rw [Position.below_inj.mp isSame, accounted.yielded, List.mem_range] at isIndex
    exact Nat.lt_irrefl _ isIndex

/-! ## Changes to a lane -/

theorem Level.slots_pass
    (level : Level)
    (event : Event GatewayError) :
    (level.pass event).2.slots = level.slots := by
  cases event <;> simp only [Level.pass] <;> split <;> rfl

theorem Level.tasks_pass
    (level : Level)
    (event : Event GatewayError) :
    (level.pass event).2.tasks = level.tasks := by
  cases event <;> simp only [Level.pass] <;> split <;> rfl

namespace Lane.IsAccounted

theorem pass
    (accounted : lane.IsAccounted walk room tasks record)
    (event : Event GatewayError) :
    IsAccounted walk room tasks record { lane with level := (lane.level.pass event).2 } where
  rest := by simpa only [Level.tasks_pass] using accounted.rest
  fits := by simpa only [Level.slots_pass] using accounted.fits
  yielded := accounted.yielded
  begun := by simpa only [Level.slots_pass] using accounted.begun

theorem finish
    (accounted : lane.IsAccounted walk room tasks record)
    (number : Nat) :
    (lane.finish number).IsAccounted walk room tasks record where
  rest := by simpa only [Lane.finish, Level.tasks_finish] using accounted.rest
  fits := by simpa [Lane.finish, Level.finish] using accounted.fits
  yielded := accounted.yielded
  begun := by
    obtain ⟨count, areBegun, begun⟩ := accounted.begun
    exact ⟨count, areBegun.finish number, begun⟩

theorem filled
    (accounted : lane.IsAccounted walk (max concurrency 1) tasks record) :
    IsAccounted walk (max concurrency 1) tasks record
      { lane with level := lane.level.filled concurrency } where
  rest := by simpa only [Level.tasks_filled] using accounted.rest
  fits := by
    have fits := accounted.fits
    simp only [Level.filled, List.length_append, List.length_map, List.length_take]
    omega
  yielded := accounted.yielded
  begun := by
    obtain ⟨count, areBegun, begun⟩ := accounted.begun
    refine ⟨count, areBegun.append ?_, begun⟩
    intro slot member
    obtain ⟨task, _, rfl⟩ := List.mem_map.mp member
    rfl

/-- The queue begins fetches. -/
theorem begins
    (accounted : lane.IsAccounted walk room tasks record)
    (begins number : Nat) :
    IsAccounted walk room tasks
      (record.extend (placedBeginning lane.list begins lane.yielded lane.level.slots) [])
      { lane with
        level := { lane.level with slots := beginFetches begins number lane.level.slots } } where
  rest := by simpa only [Level.tasks, beginFetches_tasks] using accounted.rest
  fits := by
    have sameLength := congrArg List.length (beginFetches_tasks begins number lane.level.slots)
    simp only [List.length_map] at sameLength
    exact Nat.le_trans (Nat.le_of_eq sameLength) accounted.fits
  yielded := by simpa using accounted.yielded
  begun := by
    obtain ⟨count, areBegun, begun⟩ := accounted.begun
    obtain ⟨more, areBegun, indices⟩ :=
      areBegun.beginFetches lane.list begins number lane.yielded
    refine ⟨count + more, areBegun, ?_⟩
    have isIn : indicesIn lane.list
        (placedBeginning lane.list begins lane.yielded lane.level.slots) =
          List.range' (lane.yielded + count) more := by
      rw [indicesIn, List.filter_eq_self.mpr, indices]
      intro entry member
      simpa using (placed_of_mem_placedBeginning member).1
    have joined := @List.range'_append_1 0 (lane.yielded + count) more
    rw [Nat.zero_add] at joined
    rw [Record.begun_extend, indicesIn_append, begun, isIn, List.range_eq_range', joined,
      List.range_eq_range', Nat.add_assoc]

/-- The queue yields its first task. -/
theorem yields
    (accounted : lane.IsAccounted walk room tasks record)
    {slot : Slot}
    {slots : List Slot}
    (first : lane.level.slots = slot :: slots)
    (hasBegun : slot.progress ≠ .queued) :
    IsAccounted walk room tasks (record.extend [] [⟨⟨lane.list, lane.yielded⟩, slot.task⟩])
      ⟨lane.list, lane.yielded + 1, { lane.level with slots }⟩ where
  rest := by
    have rest := accounted.rest
    simp only [Level.tasks, first, List.map_cons, List.cons_append] at rest ⊢
    rw [← List.drop_drop, ← rest, List.drop_one, List.tail_cons]
  fits := by
    have fits := accounted.fits
    rw [first, List.length_cons] at fits
    exact Nat.le_of_succ_le fits
  yielded := by
    rw [Record.yielded_extend, indicesIn_append, accounted.yielded, List.range_succ]
    simp [indicesIn]
  begun := by
    obtain ⟨count, areBegun, begun⟩ := accounted.begun
    rw [first] at areBegun
    obtain ⟨others, rfl, othersBegun⟩ := areBegun.of_cons hasBegun
    refine ⟨others, othersBegun, ?_⟩
    rw [Record.begun_extend, List.append_nil, begun, Nat.add_right_comm, Nat.add_assoc]

/-- What is recorded in other lists does not matter. -/
theorem extend
    (accounted : lane.IsAccounted walk room tasks record)
    {begun yielded : List Placed}
    (elsewhere : ∀ entry ∈ begun ++ yielded, entry.position.list ≠ lane.list) :
    lane.IsAccounted walk room tasks (record.extend begun yielded) := by
  obtain ⟨sameBegun, sameYielded⟩ := record.indicesIn_extend elsewhere
  refine ⟨accounted.rest, accounted.fits, ?_, ?_⟩
  · rw [sameYielded]
    exact accounted.yielded
  · rw [sameBegun]
    exact accounted.begun

end Lane.IsAccounted

theorem Record.KeepsOrder.extend
    {list : List Nat}
    (keepsOrder : record.KeepsOrder room list)
    {begun yielded : List Placed}
    (elsewhere : ∀ entry ∈ begun ++ yielded, entry.position.list ≠ list) :
    (record.extend begun yielded).KeepsOrder room list := by
  obtain ⟨sameBegun, sameYielded⟩ := record.indicesIn_extend elsewhere
  rw [Record.KeepsOrder, sameBegun, sameYielded]
  exact keepsOrder

/-! ## Changes to the lanes of a stream -/

namespace Walk.Accounts

/-- Lanes may be left. -/
theorem leave
    (accounts : walk.Accounts room tasks lanes record)
    {later : List Lane}
    (areLeft : later.Sublist lanes) :
    walk.Accounts room tasks later record where
  accounted lane member := accounts.accounted lane (areLeft.subset member)
  distinct := (areLeft.map _).nodup accounts.distinct
  reached list member := accounts.reached list ((areLeft.map _).subset member)
  placed := accounts.placed
  ordered := accounts.ordered

/-- Lanes may change within their lists. -/
theorem replace
    (accounts : walk.Accounts room tasks lanes record)
    {later : List Lane}
    (sameLists : later.map (·.list) = lanes.map (·.list))
    (accounted : ∀ lane ∈ later, lane.IsAccounted walk room tasks record) :
    walk.Accounts room tasks later record where
  accounted := accounted
  distinct := sameLists ▸ accounts.distinct
  reached := sameLists ▸ accounts.reached
  placed := accounts.placed
  ordered := accounts.ordered

theorem pass
    (accounts : walk.Accounts room tasks (outer ++ lane :: nested) record)
    (event : Event GatewayError) :
    walk.Accounts room tasks
      (outer ++ { lane with level := (lane.level.pass event).2 } :: nested) record := by
  refine accounts.replace (by simp) ?_
  intro other member
  rcases List.mem_append.mp member with isOuter | member
  · exact accounts.accounted other (by simp [isOuter])
  · rcases List.mem_cons.mp member with rfl | isNested
    · exact (accounts.accounted lane (by simp)).pass event
    · exact accounts.accounted other (by simp [isNested])

theorem finish
    (accounts : walk.Accounts room tasks lanes record)
    (number : Nat) :
    walk.Accounts room tasks (lanes.map (·.finish number)) record := by
  refine accounts.replace (by simp [Lane.finish, Function.comp_def]) ?_
  intro other member
  obtain ⟨before, isLane, rfl⟩ := List.mem_map.mp member
  exact (accounts.accounted before isLane).finish number

/-- A list that is not reached holds none of the tasks of a record. -/
theorem not_mem_of_not_reaches
    (accounts : walk.Accounts room tasks lanes record)
    {list : List Nat}
    (notReached : ¬ record.Reaches list) :
    ∀ entry ∈ record.begun ++ record.yielded, entry.position.list ≠ list := by
  rintro entry member rfl
  exact notReached (accounts.placed entry member).1

/-- The innermost lane changes, and so does the record of its list. -/
theorem update
    (accounts : walk.Accounts room tasks (outer ++ [lane]) record)
    {later : Lane}
    {begun yielded : List Placed}
    (sameList : later.list = lane.list)
    (added :
      ∀ entry ∈ begun ++ yielded,
        entry.position.list = lane.list ∧ walk.taskAt? tasks entry.position = some entry.task)
    (accounted : later.IsAccounted walk room tasks (record.extend begun yielded)) :
    walk.Accounts room tasks (outer ++ [later]) (record.extend begun yielded) := by
  have noneIn {list : List Nat} (isOther : list ≠ lane.list) :
      ∀ entry ∈ begun ++ yielded, entry.position.list ≠ list := by
    rintro entry member rfl
    exact isOther (added entry member).1
  have sameLists : (outer ++ [later]).map (·.list) = (outer ++ [lane]).map (·.list) := by
    simp [sameList]
  have ownList : record.Reaches lane.list := accounts.reached _ (by simp)
  refine ⟨?_, sameLists ▸ accounts.distinct, ?_, ?_, ?_⟩
  · intro other member
    rcases List.mem_append.mp member with isOuter | isLater
    · have isOther : other.list ≠ lane.list := by
        have distinct := accounts.distinct
        simp only [List.map_append, List.map_cons, List.map_nil, List.nodup_append] at distinct
        exact distinct.2.2 _ (List.mem_map_of_mem isOuter) _ (by simp)
      exact (accounts.accounted other (by simp [isOuter])).extend (noneIn isOther)
    · rw [List.mem_singleton.mp isLater]
      exact accounted
  · intro list member
    rw [sameLists] at member
    exact (accounts.reached list member).extend begun yielded
  · intro entry member
    rcases Record.mem_extend member with wasThere | isAdded
    · obtain ⟨reaches, isTask⟩ := accounts.placed entry wasThere
      exact ⟨reaches.extend begun yielded, isTask⟩
    · obtain ⟨isHere, isTask⟩ := added entry isAdded
      exact ⟨(isHere ▸ ownList).extend begun yielded, isTask⟩
  · intro list
    by_cases isHere : list = lane.list
    · rw [isHere, ← sameList]
      exact accounted.keepsOrder
    · exact (accounts.ordered list).extend (noneIn isHere)

/-- A lane is entered for a list that no task has been recorded in. -/
theorem enter
    (accounts : walk.Accounts room tasks lanes record)
    (list : List Nat)
    (reaches : record.Reaches list)
    (isNew : list ∉ lanes.map (·.list))
    (noneThere : ∀ entry ∈ record.begun ++ record.yielded, entry.position.list ≠ list) :
    walk.Accounts room tasks (lanes ++ [⟨list, 0, .start (walk.listAt tasks list)⟩]) record := by
  refine ⟨?_, ?_, ?_, accounts.placed, accounts.ordered⟩
  · intro lane member
    rcases List.mem_append.mp member with isLane | isEntered
    · exact accounts.accounted lane isLane
    · rw [List.mem_singleton.mp isEntered]
      refine ⟨by simp [Level.tasks, Level.start], by simp [Level.start], ?_, 0, .none ?_, ?_⟩
      · exact indicesIn_eq_nil fun entry member => noneThere entry (by simp [member])
      · simp [Level.start]
      · exact indicesIn_eq_nil fun entry member => noneThere entry (by simp [member])
  · rw [List.map_append, List.nodup_append]
    refine ⟨accounts.distinct, by simp, ?_⟩
    rintro other member _ isEntered rfl
    simp only [List.map_cons, List.map_nil, List.mem_singleton] at isEntered
    exact isNew (isEntered ▸ member)
  · intro other member
    rw [List.map_append] at member
    rcases List.mem_append.mp member with isLane | isEntered
    · exact accounts.reached other isLane
    · simp only [List.map_cons, List.map_nil, List.mem_singleton] at isEntered
      exact isEntered ▸ reaches

/-- The queue of the innermost lane begins fetches. -/
theorem begins
    (accounts : walk.Accounts room tasks (outer ++ [lane]) record)
    (begins number : Nat) :
    walk.Accounts room tasks
      (outer ++
        [{ lane with
          level := { lane.level with slots := beginFetches begins number lane.level.slots } }])
      (record.extend (placedBeginning lane.list begins lane.yielded lane.level.slots) []) := by
  have accounted := accounts.accounted lane (by simp)
  refine accounts.update rfl ?_ (accounted.begins begins number)
  rintro ⟨⟨list, index⟩, task⟩ member
  rw [List.append_nil] at member
  obtain ⟨rfl, offset, rfl, isTask⟩ := placed_of_mem_placedBeginning member
  refine ⟨rfl, ?_⟩
  rw [accounted.taskAt?_eq, Level.tasks,
    List.getElem?_append_left (List.getElem?_eq_some_iff.mp isTask).1]
  exact isTask

/-- The queue of the innermost lane yields a task, and the tasks that it brings up are entered. -/
theorem yields
    (accounts : walk.Accounts room tasks (outer ++ [lane]) record)
    {slot : Slot}
    {slots : List Slot}
    (first : lane.level.slots = slot :: slots)
    (hasBegun : slot.progress ≠ .queued) :
    walk.Accounts room tasks
      (outer ++ ⟨lane.list, lane.yielded + 1, { lane.level with slots }⟩ ::
        lanesBelow ⟨lane.list, lane.yielded⟩ (walk.discovered slot.task))
      (record.extend [] [⟨⟨lane.list, lane.yielded⟩, slot.task⟩]) := by
  have accounted := accounts.accounted lane (by simp)
  have isTask : walk.taskAt? tasks ⟨lane.list, lane.yielded⟩ = some slot.task := by
    simpa [Level.tasks, first] using accounted.taskAt?_eq 0
  have yielded : walk.Accounts room tasks
      (outer ++ [⟨lane.list, lane.yielded + 1, { lane.level with slots }⟩])
      (record.extend [] [⟨⟨lane.list, lane.yielded⟩, slot.task⟩]) := by
    refine accounts.update rfl ?_ (accounted.yields first hasBegun)
    intro entry member
    rw [List.mem_singleton.mp member]
    exact ⟨rfl, isTask⟩
  rw [lanesBelow, nestedIn]
  split
  · exact yielded
  · -- The list below the task was not reached before, so it is in no lane and holds no task.
    have notReached := accounted.not_reaches
    have isList : walk.listAt tasks (Position.below ⟨lane.list, lane.yielded⟩) =
        walk.discovered slot.task := by
      rw [listAt_below, isTask, Option.elim_some]
    have entered := yielded.enter (Position.below ⟨lane.list, lane.yielded⟩)
    rw [isList, List.append_assoc] at entered
    refine entered (.inr ⟨⟨⟨lane.list, lane.yielded⟩, slot.task⟩, by simp, rfl⟩) ?_ ?_
    · intro member
      have isLane : Position.below ⟨lane.list, lane.yielded⟩ ∈
          (outer ++ [lane]).map (·.list) := by
        simpa using member
      exact notReached (accounts.reached _ isLane)
    · intro entry member isThere
      rcases Record.mem_extend member with wasThere | isYielded
      · exact accounts.not_mem_of_not_reaches notReached entry wasThere isThere
      · rw [List.mem_singleton.mp isYielded] at isThere
        exact notReached (isThere ▸ accounts.reached _ (by simp))

end Walk.Accounts

/-! ## Polls -/

/-- The queue of the innermost lane is polled. -/
theorem Walk.Accounts.recordQueue
    (accounts : walk.Accounts (max concurrency 1) tasks (outer ++ [lane]) record)
    (begins : Nat) :
    walk.Accounts (max concurrency 1) tasks
      (outer ++ (walk.recordQueue concurrency begins record lane).lanes)
      (walk.recordQueue concurrency begins record lane).record := by
  have filled : walk.Accounts (max concurrency 1) tasks
      (outer ++ [{ lane with level := lane.level.filled concurrency }]) record := by
    refine accounts.replace (by simp) ?_
    intro other member
    rcases List.mem_append.mp member with isOuter | isFilled
    · exact accounts.accounted other (by simp [isOuter])
    · rw [List.mem_singleton.mp isFilled]
      exact (accounts.accounted lane (by simp)).filled
  rw [Walk.recordQueue]
  split
  · exact filled.pass .ended
  · next task slots first =>
      have yielded := filled.yields first (by simp)
      simp only [Walk.discovered] at yielded
      split
      · next succeeds =>
          rw [succeeds] at yielded
          exact yielded.pass _
      · next fails =>
          rw [fails] at yielded
          exact yielded.pass _
  · exact (filled.begins begins record.begun.length).pass .pending

/-- A poll leaves the lanes accounted for, whatever lies around them. -/
theorem Walk.Accounts.recordPoll
    (begins : Nat)
    (accounts : walk.Accounts (max concurrency 1) tasks (outer ++ lanes) record) :
    walk.Accounts (max concurrency 1) tasks
      (outer ++ (walk.recordPoll concurrency begins record lanes).lanes)
      (walk.recordPoll concurrency begins record lanes).record := by
  induction lanes generalizing outer with
  | nil => exact accounts
  | cons lane nested induction =>
      rw [Walk.recordPoll]
      split
      · exact accounts
      · have inside := @induction (outer ++ [lane]) (by simpa using accounts)
        simp only
        split
        · refine Walk.Accounts.recordQueue ?_ begins
          exact inside.leave (List.sublist_append_left _ _)
        · have around : walk.Accounts (max concurrency 1) tasks
              (outer ++ lane :: (walk.recordPoll concurrency begins record nested).lanes)
              (walk.recordPoll concurrency begins record nested).record := by
            simpa using inside
          exact around.pass _

/-! ## Runs -/

theorem Walk.accounts_start
    (walk : Walk)
    (room : Nat)
    (tasks : List Projection.Task) :
    walk.Accounts room tasks (Tracked.start tasks).lanes (Tracked.start tasks).record where
  accounted := by
    intro lane member
    rw [List.mem_singleton.mp member]
    refine ⟨?_, ?_, rfl, 0, .none ?_, rfl⟩
    · simp [Level.tasks, Level.start]
    · simp [Level.start]
    · simp [Level.start]
  distinct := by simp [Tracked.start]
  reached := by simp [Tracked.start, Record.Reaches]
  placed := by simp [Tracked.start]
  ordered _ := ⟨0, 0, rfl, rfl, Nat.zero_le _⟩

/-- Whatever happens, the lanes stay accounted for. -/
theorem Walk.Accounts.track
    {tracked : Tracked}
    (accounts : walk.Accounts (max concurrency 1) tasks tracked.lanes tracked.record)
    (happening : Happening) :
    walk.Accounts (max concurrency 1) tasks (walk.track concurrency tracked happening).lanes
      (walk.track concurrency tracked happening).record := by
  cases happening with
  | finish number => exact accounts.finish number
  | poll begins => exact @Walk.Accounts.recordPoll _ _ _ _ [] _ begins accounts

/-- What holds of a stream and its record whoever reads it. -/
structure Tracked.IsOrderly (walk : Walk) (concurrency : Nat) (tasks : List Projection.Task)
    (tracked : Tracked) : Prop where
  /-- Tasks are recorded where they stand. -/
  placed :
    ∀ entry ∈ tracked.record.begun ++ tracked.record.yielded,
      walk.taskAt? tasks entry.position = some entry.task
  /-- What has been yielded has been received, up to an error. -/
  received :
    tracked.received =
      (walk.untilFailure (tracked.record.yielded.map (·.task))).map walk.item
  /-- No queue holds more tasks than may be fetched at once. -/
  fits : ∀ level ∈ tracked.stream.levels, level.slots.length ≤ max concurrency 1
  /-- The tasks of a list are begun and yielded in order, each once, and not too far ahead. -/
  ordered : ∀ list, tracked.record.KeepsOrder (max concurrency 1) list

theorem Walk.Accounts.isOrderly
    {tracked : Tracked}
    (accounts : walk.Accounts (max concurrency 1) tasks tracked.lanes tracked.record)
    (yields : walk.Yields tracked) :
    tracked.IsOrderly walk concurrency tasks where
  placed entry member := (accounts.placed entry member).2
  received := yields.received_eq
  fits := by
    intro level member
    obtain ⟨lane, isLane, rfl⟩ := List.mem_map.mp member
    exact (accounts.accounted lane isLane).fits
  ordered := accounts.ordered

end QueryGateway.Gateway
