import QueryGateway.Proofs.Pattern.Exploration

/-!
# Searching for a match

The machine finds a match in a text if and only if its pattern matches
somewhere in it.  As the machine goes over the text, a match is found in the
end if it was found before, if a thread has success from here on, or if the
pattern succeeds at some position from here on.
-/

namespace QueryGateway.Pattern

theorem placeAt_append
    (before after : List Char) :
    placeAt (before ++ after) before.length =
      ⟨before.length, before.getLast?, after.head?⟩ := by
  rw [placeAt, List.take_left, List.getElem?_append_right (Nat.le_refl _), Nat.sub_self,
    List.head?_eq_getElem?]

theorem room_allStates
    (node : Node) :
    Room node.allStates [] where
  closed := fun _ _ => node.allStates_closed
  within := List.nil_subset _
  distinct := List.nodup_nil

/-- The threads that go on behind a character. -/
def Frontier.behind (frontier : Frontier) (character : Char) : List Thread :=
  (frontier.demands.filter (·.set.contains character)).map (·.next)

/-- They succeed if the frontier advances. -/
theorem exists_next_iff
    {text : List Char}
    {position : Nat}
    {character : Char}
    (isHere : text[position]? = some character)
    (frontier : Frontier) :
    (∃ thread ∈ frontier.behind character,
        Succeeds text thread.state (position + 1)) ↔
      frontier.Advances text position := by
  constructor
  · rintro ⟨thread, member, succeeds⟩
    obtain ⟨demand, kept, rfl⟩ := List.mem_map.mp member
    obtain ⟨isDemand, isMember⟩ := List.mem_filter.mp kept
    exact ⟨demand, isDemand, character, isHere, isMember, succeeds⟩
  · rintro ⟨demand, isDemand, other, alsoHere, isMember, succeeds⟩
    obtain rfl : character = other := Option.some.inj (isHere.symm.trans alsoHere)
    have kept : demand ∈ frontier.demands.filter (·.set.contains character) :=
      List.mem_filter.mpr ⟨isDemand, isMember⟩
    exact ⟨demand.next, List.mem_map.mpr ⟨demand, kept, rfl⟩, succeeds⟩

section

variable
    {program : Program}
    {threads : List Thread}
    {best : Option Marks}

/-- The thread that begins anew, unless there is a match already. -/
def Program.start (program : Program) (best : Option Marks) : List Thread :=
  if best.isNone then [⟨[program.root], List.replicate program.markCount none⟩] else []

/-- What the exploration of a place finds, while the machine goes over a text. -/
def Program.frontier (program : Program) (before : List Char) (threads : List Thread)
    (best : Option Marks) (after : List Char) : Frontier :=
  explore ⟨before.length, before.getLast?, after.head?⟩
    (threads.length + 2 * program.root.stateCount + 4) (threads ++ program.start best) []

/-- The match that is known after a place was explored. -/
def Program.known (program : Program) (before : List Char) (threads : List Thread)
    (best : Option Marks) (after : List Char) : Option Marks :=
  (program.frontier before threads best after).accepted.orElse fun _ => best

theorem start_in_states
    (inStates : ∀ thread ∈ threads, thread.state ∈ program.root.allStates)
    (best : Option Marks) :
    ∀ thread ∈ threads ++ program.start best, thread.state ∈ program.root.allStates := by
  intro thread member
  rcases List.mem_append.mp member with member | isStart
  · exact inStates thread member
  · rw [Program.start] at isStart
    split at isStart
    · obtain rfl := List.mem_singleton.mp isStart
      exact program.root.mem_allStates_self
    · cases isStart

/-- At a place a match is found or hoped for if one was, or if a thread or the pattern succeeds. -/
theorem known_or_advances_iff
    (inStates : ∀ thread ∈ threads, thread.state ∈ program.root.allStates)
    (best : Option Marks)
    (before after : List Char) :
    ((program.known before threads best after).isSome ∨
        (program.frontier before threads best after).Advances (before ++ after)
          before.length) ↔
      best.isSome ∨
        (∃ thread ∈ threads, Succeeds (before ++ after) thread.state before.length) ∨
          Succeeds (before ++ after) [program.root] before.length := by
  cases best with
  | some marks =>
      have isKnown : (program.known before threads (some marks) after).isSome := by
        rw [Program.known]
        cases (program.frontier before threads (some marks) after).accepted <;> rfl
      exact ⟨fun _ => .inl rfl, fun _ => .inl isKnown⟩
  | none =>
      have enough : (threads ++ program.start none).length + 2 * program.root.allStates.length ≤
          threads.length + 2 * program.root.stateCount + 4 := by
        rw [List.length_append, Node.length_allStates]
        have one : (program.start none).length = 1 := rfl
        omega
      have isKnown : program.known before threads none after =
          (program.frontier before threads none after).accepted := by
        rw [Program.known]
        cases (program.frontier before threads none after).accepted <;> rfl
      have finds := explore_finds_iff (before ++ after) before.length
        (room_allStates program.root) (start_in_states inStates none) enough
      rw [placeAt_append] at finds
      rw [isKnown, Program.frontier, finds]
      constructor
      · rintro ⟨thread, member, succeeds⟩
        rcases List.mem_append.mp member with member | isStart
        · exact .inr (.inl ⟨thread, member, succeeds⟩)
        · obtain rfl := List.mem_singleton.mp isStart
          exact .inr (.inr succeeds)
      · rintro (none | ⟨thread, member, succeeds⟩ | succeeds)
        · cases none
        · exact ⟨thread, List.mem_append_left _ member, succeeds⟩
        · exact ⟨_, List.mem_append_right _ (List.mem_singleton_self _), succeeds⟩

theorem run_nil
    (before : List Char) :
    program.run before.length before.getLast? threads best [] =
      program.known before threads best [] := by
  rw [Program.run]
  rfl

theorem run_cons
    (before : List Char)
    (character : Char)
    (after : List Char) :
    program.run before.length before.getLast? threads best (character :: after) =
      if ((program.frontier before threads best (character :: after)).behind character).isEmpty &&
          (program.known before threads best (character :: after)).isSome then
        program.known before threads best (character :: after)
      else
        program.run (before.length + 1) (some character)
          ((program.frontier before threads best (character :: after)).behind character)
          (program.known before threads best (character :: after)) after := by
  rw [Program.run]
  rfl

theorem behind_in_states
    (inStates : ∀ thread ∈ threads, thread.state ∈ program.root.allStates)
    (best : Option Marks)
    (before : List Char)
    (character : Char)
    (after : List Char) :
    ∀ thread ∈ (program.frontier before threads best (character :: after)).behind character,
      thread.state ∈ program.root.allStates := by
  intro thread member
  obtain ⟨demand, kept, rfl⟩ := List.mem_map.mp member
  exact (room_allStates program.root).demands (start_in_states inStates best) demand
    (List.mem_filter.mp kept).1

/-- To match from a position on is to match there or from the next one on. -/
theorem exists_from_iff
    {text : List Char}
    {state : State}
    {position : Nat}
    (within : position ≤ text.length) :
    (∃ other, position ≤ other ∧ other ≤ text.length ∧ Succeeds text state other) ↔
      Succeeds text state position ∨
        ∃ other, position + 1 ≤ other ∧ other ≤ text.length ∧ Succeeds text state other := by
  constructor
  · rintro ⟨other, above, below, succeeds⟩
    rcases Nat.eq_or_lt_of_le above with rfl | above
    · exact .inl succeeds
    · exact .inr ⟨other, above, below, succeeds⟩
  · rintro (succeeds | ⟨other, above, below, succeeds⟩)
    · exact ⟨position, Nat.le_refl _, within, succeeds⟩
    · exact ⟨other, Nat.le_of_succ_le above, below, succeeds⟩

/-- A match is found if one was, or if a thread or the pattern succeeds from here on. -/
theorem run_isSome_iff
    (inStates : ∀ thread ∈ threads, thread.state ∈ program.root.allStates)
    (before after : List Char) :
    (program.run before.length before.getLast? threads best after).isSome ↔
      best.isSome ∨
        (∃ thread ∈ threads, Succeeds (before ++ after) thread.state before.length) ∨
          ∃ position, before.length ≤ position ∧ position ≤ (before ++ after).length ∧
            Succeeds (before ++ after) [program.root] position := by
  induction after generalizing before threads best with
  | nil =>
      have finds := known_or_advances_iff inStates best before []
      have atEnd : ¬ (program.frontier before threads best []).Advances (before ++ [])
          before.length := by
        rintro ⟨_, _, _, isHere, _⟩
        simp at isHere
      have noneLater : ¬ ∃ other, before.length + 1 ≤ other ∧ other ≤ (before ++ []).length ∧
          Succeeds (before ++ []) [program.root] other := by
        rintro ⟨other, above, below, _⟩
        rw [List.append_nil] at below
        omega
      rw [run_nil, exists_from_iff (by simp), or_iff_left noneLater, ← finds, or_iff_left atEnd]
  | cons character after induction =>
      have finds := known_or_advances_iff inStates best before (character :: after)
      have isHere : (before ++ character :: after)[before.length]? = some character := by
        simp
      have later : (program.run (before ++ [character]).length (before ++ [character]).getLast?
          ((program.frontier before threads best (character :: after)).behind character)
          (program.known before threads best (character :: after)) after).isSome ↔ _ :=
        induction (behind_in_states inStates best before character after) (before ++ [character])
      simp only [List.length_append, List.length_singleton, List.getLast?_concat,
        List.append_assoc, List.singleton_append] at later
      rw [exists_next_iff isHere] at later
      have either : (program.run before.length before.getLast? threads best
            (character :: after)).isSome ↔
          (program.known before threads best (character :: after)).isSome ∨
            (program.frontier before threads best (character :: after)).Advances
                (before ++ character :: after) before.length ∨
              ∃ other, before.length + 1 ≤ other ∧
                other ≤ (before ++ character :: after).length ∧
                Succeeds (before ++ character :: after) [program.root] other := by
        rw [run_cons]
        split
        case isTrue ends =>
          have isKnown := (Bool.and_eq_true_iff.mp ends).2
          exact ⟨fun _ => .inl isKnown, fun _ => isKnown⟩
        case isFalse =>
          rw [later]
          simp
      have fromHere : (∃ other, before.length ≤ other ∧
            other ≤ (before ++ character :: after).length ∧
            Succeeds (before ++ character :: after) [program.root] other) ↔ _ :=
        exists_from_iff (by simp)
      rw [either, fromHere, ← or_assoc, finds, or_assoc, or_assoc]

end

/-- A program finds a match in a text that its pattern matches somewhere, and in no other. -/
theorem search_isSome_iff
    (program : Program)
    (text : List Char) :
    (program.search text).isSome ↔
      ∃ start stop, start ≤ text.length ∧ program.root.Spans text start stop := by
  have none : ∀ thread ∈ ([] : List Thread), thread.state ∈ program.root.allStates := by
    simp
  have runs : (program.run [].length [].getLast? [] .none text).isSome ↔ _ :=
    run_isSome_iff none [] text
  rw [Program.search]
  refine runs.trans ?_
  constructor
  · rintro (none | ⟨_, none, _⟩ | ⟨start, _, within, succeeds⟩)
    · cases none
    · cases none
    · obtain ⟨stop, spans⟩ := succeeds_singleton_iff.mp succeeds
      exact ⟨start, stop, within, spans⟩
  · rintro ⟨start, stop, within, spans⟩
    have succeeds := succeeds_singleton_iff.mpr ⟨stop, spans⟩
    exact .inr (.inr ⟨start, Nat.zero_le _, within, succeeds⟩)

end QueryGateway.Pattern
