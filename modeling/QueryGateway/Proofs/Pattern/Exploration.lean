import Mathlib.Data.List.Nodup
import Mathlib.Data.List.Perm.Subperm
import QueryGateway.Proofs.Pattern.States

/-!
# Exploring a place

At every place the machine takes the states of its threads apart and gives up
those that it met before.  Nothing is lost by this: a thread has success at the
place if and only if the exploration ends in a match, or asks for the character
that follows and has success behind it.

When no match is found, the states that were met are closed: what they are
taken apart into was met too, and those that want a character have asked for
it.  As they all come from the list of the pattern's states, the exploration
comes to an end within the steps that it is given.
-/

namespace QueryGateway.Pattern

variable {text : List Char}

/-- The character behind a place is asked for, with success. -/
def Frontier.Advances (frontier : Frontier) (text : List Char) (position : Nat) : Prop :=
  ∃ demand ∈ frontier.demands, ∃ character,
    text[position]? = some character ∧ demand.set.contains character = true ∧
      Succeeds text demand.next.state (position + 1)

/-! ## What is found stands for success -/

/-- The ways to go on when a thread is explored. -/
theorem explore_cases
    (here : Place)
    (fuel : Nat)
    (thread : Thread)
    (threads : List Thread)
    (visited : List State) :
    (thread.state ∈ visited ∧
        explore here (fuel + 1) (thread :: threads) visited =
          explore here fuel threads visited) ∨
      (thread.state ∉ visited ∧
        ((thread.state = [] ∧
            explore here (fuel + 1) (thread :: threads) visited = ⟨[], some thread.marks⟩) ∨
          (∃ set rest, thread.state = .oneOf set :: rest ∧
            explore here (fuel + 1) (thread :: threads) visited =
              ⟨⟨set, rest, thread.marks⟩ ::
                  (explore here fuel threads (thread.state :: visited)).demands,
                (explore here fuel threads (thread.state :: visited)).accepted⟩) ∨
          ∃ node rest, thread.state = node :: rest ∧ (∀ set, node ≠ .oneOf set) ∧
            explore here (fuel + 1) (thread :: threads) visited =
              explore here fuel (unfold here node rest thread.marks ++ threads)
                (thread.state :: visited))) := by
  rw [explore]
  by_cases isVisited : thread.state ∈ visited
  · left
    refine ⟨isVisited, ?_⟩
    rw [if_pos (List.contains_iff_mem.mpr isVisited)]
  · right
    refine ⟨isVisited, ?_⟩
    rw [if_neg (mt List.contains_iff_mem.mp isVisited)]
    obtain ⟨state, marks⟩ := thread
    cases state with
    | nil => exact .inl ⟨rfl, rfl⟩
    | cons node rest =>
        cases node with
        | oneOf set => exact .inr (.inl ⟨set, rest, rfl, rfl⟩)
        | empty | mark | assert | sequence | either | loop | plus | exactly | upTo =>
            exact .inr (.inr ⟨_, rest, rfl, nofun, rfl⟩)

/-- Whatever is found, some thread has success. -/
theorem exists_succeeds_of_explore
    {position fuel : Nat}
    {threads : List Thread}
    {visited : List State}
    (found :
      (explore (placeAt text position) fuel threads visited).accepted.isSome ∨
        (explore (placeAt text position) fuel threads visited).Advances text position) :
    ∃ thread ∈ threads, Succeeds text thread.state position := by
  induction fuel generalizing threads visited with
  | zero =>
      rcases found with none | ⟨_, none, _⟩
      · cases none
      · cases none
  | succ fuel induction =>
      cases threads with
      | nil =>
          rcases found with none | ⟨_, none, _⟩
          · cases none
          · cases none
      | cons thread threads =>
          rcases explore_cases (placeAt text position) fuel thread threads visited with
            ⟨_, explored⟩ | ⟨_, ⟨isEmpty, _⟩ | ⟨set, rest, isState, explored⟩ |
              ⟨node, rest, isState, _, explored⟩⟩
          · rw [explored] at found
            obtain ⟨other, member, succeeds⟩ := induction found
            exact ⟨other, List.mem_cons_of_mem _ member, succeeds⟩
          · exact ⟨thread, List.mem_cons_self, isEmpty ▸ .done⟩
          · rw [explored] at found
            rcases found with accepted | ⟨demand, member, character, isHere, isMember, succeeds⟩
            · obtain ⟨other, member, succeeds⟩ := induction (.inl accepted)
              exact ⟨other, List.mem_cons_of_mem _ member, succeeds⟩
            · rcases List.mem_cons.mp member with rfl | member
              · exact ⟨thread, List.mem_cons_self, isState ▸ .take isHere isMember succeeds⟩
              · obtain ⟨other, member, succeeds⟩ :=
                  induction (.inr ⟨demand, member, character, isHere, isMember, succeeds⟩)
                exact ⟨other, List.mem_cons_of_mem _ member, succeeds⟩
          · rw [explored] at found
            obtain ⟨other, member, succeeds⟩ := induction found
            rcases List.mem_append.mp member with isNext | member
            · refine ⟨thread, List.mem_cons_self, ?_⟩
              rw [isState]
              apply Succeeds.step _ succeeds
              rw [← map_state_unfold _ node rest thread.marks]
              exact List.mem_map.mpr ⟨other, isNext, rfl⟩
            · exact ⟨other, List.mem_cons_of_mem _ member, succeeds⟩

/-! ## What has success is found -/

/-- The states of a pattern, of which those that were met are different ones. -/
structure Room (states visited : List State) : Prop where
  closed : ∀ state next, state ∈ states → LeadsTo state next → next ∈ states
  within : visited ⊆ states
  distinct : visited.Nodup

theorem Room.cons
    {states visited : List State}
    (room : Room states visited)
    {state : State}
    (isState : state ∈ states)
    (isNew : state ∉ visited) :
    Room states (state :: visited) where
  closed := room.closed
  within := List.cons_subset.mpr ⟨isState, room.within⟩
  distinct := List.nodup_cons.mpr ⟨isNew, room.distinct⟩

/-- The threads that a state is taken apart into are in states of the pattern. -/
theorem Room.unfolds
    {states visited : List State}
    (room : Room states visited)
    {here : Place}
    {node : Node}
    {rest : State}
    (isState : node :: rest ∈ states)
    {threads : List Thread}
    (inStates : ∀ thread ∈ threads, thread.state ∈ states)
    (marks : Marks) :
    ∀ thread ∈ unfold here node rest marks ++ threads, thread.state ∈ states := by
  intro thread member
  rcases List.mem_append.mp member with isNext | member
  · apply room.closed _ _ isState
    apply LeadsTo.apart here
    rw [← map_state_unfold _ _ _ marks]
    exact List.mem_map.mpr ⟨thread, isNext, rfl⟩
  · exact inStates thread member

theorem Room.length_le
    {states visited : List State}
    (room : Room states visited) :
    visited.length ≤ states.length :=
  (room.distinct.subperm room.within).length_le

/-- The states that were met lead to others that were met, or that threads are in. -/
structure IsPending (here : Place) (visited : List State) (threads : List Thread) : Prop where
  unfinished : [] ∉ visited
  apart :
    ∀ node rest, node :: rest ∈ visited → ∀ next ∈ successors here node rest,
      next ∈ visited ∨ ∃ thread ∈ threads, thread.state = next

/-- What the states that were met before, and those of some threads, come to. -/
structure Meets (here : Place) (visited : List State) (threads : List Thread)
    (demands : List Demand) (met : List State) : Prop where
  keeps : visited ⊆ met
  begins : ∀ thread ∈ threads, thread.state ∈ met
  unfinished : [] ∉ met
  apart :
    ∀ node rest, node :: rest ∈ met → ∀ next ∈ successors here node rest, next ∈ met
  asked :
    ∀ set rest, .oneOf set :: rest ∈ met →
      .oneOf set :: rest ∈ visited ∨
        ∃ demand ∈ demands, demand.set = set ∧ demand.next.state = rest

theorem IsPending.meets
    {here : Place}
    {visited : List State}
    (pending : IsPending here visited []) :
    Meets here visited [] [] visited where
  keeps := List.Subset.refl _
  begins := nofun
  unfinished := pending.unfinished
  apart := by
    intro node rest isVisited next isNext
    exact (pending.apart node rest isVisited next isNext).resolve_right nofun
  asked := fun _ _ => .inl

section

variable
    {here : Place}
    {visited : List State}
    {thread : Thread}
    {threads : List Thread}

/-- A thread in a state that was met before can be given up. -/
theorem IsPending.giveUp
    (pending : IsPending here visited (thread :: threads))
    (isVisited : thread.state ∈ visited) :
    IsPending here visited threads where
  unfinished := pending.unfinished
  apart := by
    intro node rest isKnown next isNext
    rcases pending.apart node rest isKnown next isNext with isKnown | ⟨other, member, rfl⟩
    · exact .inl isKnown
    · rcases List.mem_cons.mp member with rfl | member
      · exact .inl isVisited
      · exact .inr ⟨other, member, rfl⟩

/-- A thread's state is met, and other threads are put into what it is taken apart into. -/
theorem IsPending.takeApart
    {node : Node}
    {rest : State}
    (pending : IsPending here visited (thread :: threads))
    (isState : thread.state = node :: rest)
    {others : List Thread}
    (areNext : ∀ next ∈ successors here node rest, ∃ other ∈ others, other.state = next) :
    IsPending here (thread.state :: visited) (others ++ threads) where
  unfinished := by
    rw [isState, List.mem_cons, not_or]
    exact ⟨nofun, pending.unfinished⟩
  apart := by
    intro other below isKnown next isNext
    rcases List.mem_cons.mp isKnown with isThis | isKnown
    · rw [isState] at isThis
      cases isThis
      obtain ⟨other, member, rfl⟩ := areNext next isNext
      exact .inr ⟨other, List.mem_append_left _ member, rfl⟩
    · rcases pending.apart other below isKnown next isNext with isKnown | ⟨later, member, rfl⟩
      · exact .inl (List.mem_cons_of_mem _ isKnown)
      · rcases List.mem_cons.mp member with rfl | member
        · exact .inl List.mem_cons_self
        · exact .inr ⟨later, List.mem_append_right _ member, rfl⟩

/-- What is met after a thread's state was met is met from the thread on. -/
theorem Meets.of_takeApart
    {others : List Thread}
    {demands more : List Demand}
    {met : List State}
    (meets : Meets here (thread.state :: visited) (others ++ threads) demands met)
    (subset : demands ⊆ more)
    (wants :
      ∀ set rest, thread.state = .oneOf set :: rest →
        ∃ demand ∈ more, demand.set = set ∧ demand.next.state = rest) :
    Meets here visited (thread :: threads) more met where
  keeps := List.Subset.trans (List.subset_cons_self _ _) meets.keeps
  begins := by
    intro other member
    rcases List.mem_cons.mp member with rfl | member
    · exact meets.keeps List.mem_cons_self
    · exact meets.begins other (List.mem_append_right _ member)
  unfinished := meets.unfinished
  apart := meets.apart
  asked := by
    intro set rest isMet
    rcases meets.asked set rest isMet with isKnown | ⟨demand, member, isDemand⟩
    · rcases List.mem_cons.mp isKnown with isThis | isKnown
      · exact .inr (wants set rest isThis.symm)
      · exact .inl isKnown
    · exact .inr ⟨demand, subset member, isDemand⟩

end

/--
Without a match, the exploration meets states that lead to no others.  Every
step takes one of the threads, and adds two at most for a state that is new.
-/
theorem exists_meets_of_explore
    {here : Place}
    {states visited : List State}
    {fuel : Nat}
    {threads : List Thread}
    (room : Room states visited)
    (inStates : ∀ thread ∈ threads, thread.state ∈ states)
    (enough : threads.length + 2 * (states.length - visited.length) ≤ fuel)
    (noMatch : (explore here fuel threads visited).accepted = none)
    (pending : IsPending here visited threads) :
    ∃ met, Meets here visited threads (explore here fuel threads visited).demands met := by
  induction fuel generalizing threads visited with
  | zero =>
      obtain rfl : threads = [] := List.eq_nil_of_length_eq_zero (by omega)
      exact ⟨visited, pending.meets⟩
  | succ fuel induction =>
      cases threads with
      | nil => exact ⟨visited, pending.meets⟩
      | cons thread threads =>
          have isState := inStates thread List.mem_cons_self
          have othersInStates : ∀ other ∈ threads, other.state ∈ states :=
            fun other member => inStates other (List.mem_cons_of_mem _ member)
          rw [List.length_cons] at enough
          rcases explore_cases here fuel thread threads visited with
            ⟨isVisited, explored⟩ | ⟨isNew, ⟨_, explored⟩ | ⟨set, rest, isWant, explored⟩ |
              ⟨node, rest, isNode, notOneOf, explored⟩⟩
          · rw [explored] at noMatch ⊢
            obtain ⟨met, meets⟩ := induction room othersInStates (by omega) noMatch
              (pending.giveUp isVisited)
            refine ⟨met, { meets with begins := ?_ }⟩
            intro other member
            rcases List.mem_cons.mp member with rfl | member
            · exact meets.keeps isVisited
            · exact meets.begins other member
          · rw [explored] at noMatch
            cases noMatch
          · rw [explored] at noMatch ⊢
            have larger := room.cons isState isNew
            have fits := larger.length_le
            have goesOn : IsPending here (thread.state :: visited) ([] ++ threads) :=
              pending.takeApart isWant nofun
            rw [List.length_cons] at fits
            obtain ⟨met, meets⟩ := induction larger othersInStates
              (by rw [List.length_cons]; omega) noMatch goesOn
            have meetsNone : Meets here (thread.state :: visited) ([] ++ threads) _ met := meets
            refine ⟨met, meetsNone.of_takeApart (List.subset_cons_self _ _) ?_⟩
            intro other below isThis
            rw [isWant] at isThis
            cases isThis
            exact ⟨_, List.mem_cons_self, rfl, rfl⟩
          · rw [explored] at noMatch ⊢
            have larger := room.cons isState isNew
            have fits := larger.length_le
            have few := length_unfold_le here node rest thread.marks
            have areNext : ∀ next ∈ successors here node rest,
                ∃ other ∈ unfold here node rest thread.marks, other.state = next := by
              intro next isNext
              rw [← map_state_unfold _ _ _ thread.marks] at isNext
              exact List.mem_map.mp isNext
            have nextInStates : ∀ other ∈ unfold here node rest thread.marks ++ threads,
                other.state ∈ states :=
              room.unfolds (isNode ▸ isState) othersInStates thread.marks
            rw [List.length_cons] at fits
            obtain ⟨met, meets⟩ := induction larger nextInStates
              (by rw [List.length_append, List.length_cons]; omega) noMatch
              (pending.takeApart isNode areNext)
            refine ⟨met, meets.of_takeApart (List.Subset.refl _) ?_⟩
            intro set below isThis
            rw [isNode] at isThis
            cases isThis
            exact absurd rfl (notOneOf set)

/-- The states that are asked for behind the place are states of the pattern. -/
theorem Room.demands
    {here : Place}
    {states visited known : List State}
    {fuel : Nat}
    {threads : List Thread}
    (room : Room states known)
    (inStates : ∀ thread ∈ threads, thread.state ∈ states) :
    ∀ demand ∈ (explore here fuel threads visited).demands, demand.next.state ∈ states := by
  induction fuel generalizing threads visited with
  | zero => nofun
  | succ fuel induction =>
      cases threads with
      | nil => nofun
      | cons thread threads =>
          have isState := inStates thread List.mem_cons_self
          have othersInStates : ∀ other ∈ threads, other.state ∈ states :=
            fun other member => inStates other (List.mem_cons_of_mem _ member)
          rcases explore_cases here fuel thread threads visited with
            ⟨_, explored⟩ | ⟨_, ⟨_, explored⟩ | ⟨set, rest, isWant, explored⟩ |
              ⟨node, rest, isNode, _, explored⟩⟩
          · rw [explored]
            exact induction othersInStates
          · rw [explored]
            nofun
          · rw [explored]
            intro demand member
            rcases List.mem_cons.mp member with rfl | member
            · exact room.closed _ _ (isWant ▸ isState) (.behind set rest)
            · exact induction othersInStates demand member
          · rw [explored]
            exact induction (room.unfolds (isNode ▸ isState) othersInStates thread.marks)

/-- In states that were met, and lead to no others, success comes from behind the place. -/
theorem Meets.advances
    {position : Nat}
    {threads : List Thread}
    {frontier : Frontier}
    {met : List State}
    (meets : Meets (placeAt text position) [] threads frontier.demands met)
    {state : State}
    (isMet : state ∈ met)
    (succeeds : Succeeds text state position) :
    frontier.Advances text position := by
  induction succeeds with
  | done => exact absurd isMet meets.unfinished
  | step isNext _ induction => exact induction meets (meets.apart _ _ isMet _ isNext)
  | take isHere isMember succeeds _ =>
      rcases meets.asked _ _ isMet with none | ⟨demand, member, rfl, rfl⟩
      · cases none
      · exact ⟨demand, member, _, isHere, isMember, succeeds⟩

/-- Exploring a place loses no success, and makes none up. -/
theorem explore_finds_iff
    (text : List Char)
    (position : Nat)
    {fuel : Nat}
    {states : List State}
    {threads : List Thread}
    (room : Room states [])
    (inStates : ∀ thread ∈ threads, thread.state ∈ states)
    (enough : threads.length + 2 * states.length ≤ fuel) :
    ((explore (placeAt text position) fuel threads []).accepted.isSome ∨
        (explore (placeAt text position) fuel threads []).Advances text position) ↔
      ∃ thread ∈ threads, Succeeds text thread.state position := by
  constructor
  · exact exists_succeeds_of_explore
  · rintro ⟨thread, member, succeeds⟩
    cases accepted : (explore (placeAt text position) fuel threads []).accepted with
    | some marks => exact .inl rfl
    | none =>
        have pending : IsPending (placeAt text position) [] threads := ⟨nofun, nofun⟩
        obtain ⟨met, meets⟩ := exists_meets_of_explore room inStates enough accepted pending
        exact .inr (meets.advances (meets.begins thread member) succeeds)

end QueryGateway.Pattern
