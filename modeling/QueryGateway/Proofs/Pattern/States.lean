import QueryGateway.Proofs.Pattern.Meaning

/-!
# The states of a pattern

The states that a node gives rise to, with what is to be matched behind it, can
be listed beforehand.  No state in the list leads out of it, except to what is
to be matched behind the node.  There are as many of them as `stateCount` says,
which is why the machine needs no more steps at a place than it is given.
-/

namespace QueryGateway.Pattern

/-- The states of a node that is repeated from a count on down. -/
def countdown (again : Nat → Node) (inside : State → List State) (rest : State) :
    Nat → List State
  | 0 => [again 0 :: rest]
  | count + 1 =>
      (again (count + 1) :: rest) ::
        (inside (again count :: rest) ++ countdown again inside rest count)

/-- The states that a node gives rise to before the rest is left. -/
def Node.states : Node → State → List State
  | .empty, rest => [.empty :: rest]
  | .oneOf set, rest => [.oneOf set :: rest]
  | .mark number, rest => [.mark number :: rest]
  | .assert condition, rest => [.assert condition :: rest]
  | .sequence first second, rest =>
      (.sequence first second :: rest) :: (first.states (second :: rest) ++ second.states rest)
  | .either first second, rest =>
      (.either first second :: rest) :: (first.states rest ++ second.states rest)
  | .loop greedy body, rest =>
      (.loop greedy body :: rest) :: body.states (.loop greedy body :: rest)
  | .plus greedy body, rest =>
      (.plus greedy body :: rest) :: (.loop greedy body :: rest) ::
        body.states (.loop greedy body :: rest)
  | .exactly count body, rest => countdown (.exactly · body) body.states rest count
  | .upTo greedy count body, rest => countdown (.upTo greedy · body) body.states rest count

theorem length_countdown
    (again : Nat → Node)
    {inside : State → List State}
    {size : Nat}
    (length : ∀ rest, (inside rest).length = size)
    (rest : State)
    (count : Nat) :
    (countdown again inside rest count).length = 1 + count * (1 + size) := by
  induction count with
  | zero => simp [countdown]
  | succ count induction =>
      rw [countdown, List.length_cons, List.length_append, length, induction, Nat.succ_mul]
      omega

theorem Node.length_states
    (node : Node)
    (rest : State) :
    (node.states rest).length = node.stateCount := by
  induction node generalizing rest with
  | empty | oneOf | mark | assert => rfl
  | sequence first second ofFirst ofSecond =>
      simp only [states, stateCount, List.length_cons, List.length_append, ofFirst, ofSecond]
      omega
  | either first second ofFirst ofSecond =>
      simp only [states, stateCount, List.length_cons, List.length_append, ofFirst, ofSecond]
      omega
  | loop greedy body induction =>
      rw [states, stateCount, List.length_cons, induction, Nat.add_comm]
  | plus greedy body induction =>
      rw [states, stateCount, List.length_cons, List.length_cons, induction]
      omega
  | exactly count body induction =>
      rw [states, stateCount, length_countdown _ induction]
  | upTo greedy count body induction =>
      rw [states, stateCount, length_countdown _ induction]

theorem mem_countdown_self
    (again : Nat → Node)
    (inside : State → List State)
    (rest : State)
    (count : Nat) :
    again count :: rest ∈ countdown again inside rest count := by
  cases count with
  | zero => exact List.mem_cons_self
  | succ count => exact List.mem_cons_self

theorem Node.mem_states_self
    (node : Node)
    (rest : State) :
    node :: rest ∈ node.states rest := by
  cases node with
  | empty | oneOf | mark | assert | sequence | either | loop | plus => exact List.mem_cons_self
  | exactly count body => exact mem_countdown_self (.exactly · body) _ rest count
  | upTo greedy count body => exact mem_countdown_self (.upTo greedy · body) _ rest count

/-- One state can come after another one, at the same place or behind a character. -/
inductive LeadsTo : State → State → Prop where
  | apart
      {node : Node}
      {rest next : State}
      (here : Place)
      (isNext : next ∈ successors here node rest) :
      LeadsTo (node :: rest) next
  | behind
      (set : CharSet)
      (rest : State) :
      LeadsTo (.oneOf set :: rest) rest

section

variable
    {rest next : State}

theorem LeadsTo.of_loop
    {greedy : Bool}
    {body : Node}
    (leads : LeadsTo (.loop greedy body :: rest) next) :
    next = body :: .loop greedy body :: rest ∨ next = rest := by
  cases leads with
  | apart here isNext =>
      rwa [successors, unfold, map_state_preferring, mem_preferring] at isNext

theorem LeadsTo.of_exactly
    {count : Nat}
    {body : Node}
    (leads : LeadsTo (.exactly count body :: rest) next) :
    next = rest ∨ ∃ fewer, count = fewer + 1 ∧ next = body :: .exactly fewer body :: rest := by
  cases leads with
  | apart here isNext =>
      cases count with
      | zero => exact .inl (List.mem_singleton.mp isNext)
      | succ count => exact .inr ⟨count, rfl, List.mem_singleton.mp isNext⟩

theorem LeadsTo.of_upTo
    {greedy : Bool}
    {count : Nat}
    {body : Node}
    (leads : LeadsTo (.upTo greedy count body :: rest) next) :
    next = rest ∨ ∃ fewer, count = fewer + 1 ∧ next = body :: .upTo greedy fewer body :: rest := by
  cases leads with
  | apart here isNext =>
      cases count with
      | zero => exact .inl (List.mem_singleton.mp isNext)
      | succ count =>
          rw [successors, unfold, map_state_preferring, mem_preferring] at isNext
          rcases isNext with isMore | isRest
          · exact .inr ⟨count, rfl, isMore⟩
          · exact .inl isRest

/-- Counting down leads through the body to one less, and to the rest in the end. -/
theorem countdown_closed
    (again : Nat → Node)
    {body : Node}
    (ofAgain :
      ∀ {count next}, LeadsTo (again count :: rest) next →
        next = rest ∨ ∃ fewer, count = fewer + 1 ∧ next = body :: again fewer :: rest)
    (ofBody :
      ∀ {below state next}, state ∈ body.states below → LeadsTo state next →
        next ∈ body.states below ∨ next = below)
    {count : Nat}
    {state : State}
    (isState : state ∈ countdown again body.states rest count)
    (leads : LeadsTo state next) :
    next ∈ countdown again body.states rest count ∨ next = rest := by
  induction count with
  | zero =>
      obtain rfl := List.mem_singleton.mp isState
      rcases ofAgain leads with isRest | ⟨_, impossible, _⟩
      · exact .inr isRest
      · cases impossible
  | succ count induction =>
      rw [countdown, List.mem_cons, List.mem_append]
      rcases List.mem_cons.mp isState with rfl | isState
      · rcases ofAgain leads with isRest | ⟨fewer, same, isMore⟩
        · exact .inr isRest
        · cases same
          exact .inl (.inr (.inl (isMore ▸ body.mem_states_self _)))
      · rcases List.mem_append.mp isState with inBody | isState
        · rcases ofBody inBody leads with inBody | rfl
          · exact .inl (.inr (.inl inBody))
          · exact .inl (.inr (.inr (mem_countdown_self again _ rest count)))
        · rcases induction isState with isLater | isRest
          · exact .inl (.inr (.inr isLater))
          · exact .inr isRest

/-- No state of a node leads anywhere but to states of the node and to the rest. -/
theorem Node.states_closed
    {node : Node}
    {state : State}
    (isState : state ∈ node.states rest)
    (leads : LeadsTo state next) :
    next ∈ node.states rest ∨ next = rest := by
  induction node generalizing rest state next with
  | empty | mark =>
      obtain rfl := List.mem_singleton.mp isState
      cases leads with
      | apart here isNext => exact .inr (List.mem_singleton.mp isNext)
  | oneOf =>
      obtain rfl := List.mem_singleton.mp isState
      cases leads with
      | apart here isNext => cases isNext
      | behind => exact .inr rfl
  | assert condition =>
      obtain rfl := List.mem_singleton.mp isState
      cases leads with
      | apart here isNext =>
          rw [successors, unfold] at isNext
          split at isNext
          · exact .inr (List.mem_singleton.mp isNext)
          · cases isNext
  | sequence first second ofFirst ofSecond =>
      rw [states, List.mem_cons, List.mem_append]
      rcases List.mem_cons.mp isState with rfl | isState
      · cases leads with
        | apart here isNext =>
            obtain rfl := List.mem_singleton.mp isNext
            exact .inl (.inr (.inl (first.mem_states_self _)))
      · rcases List.mem_append.mp isState with inFirst | inSecond
        · rcases ofFirst inFirst leads with inFirst | rfl
          · exact .inl (.inr (.inl inFirst))
          · exact .inl (.inr (.inr (second.mem_states_self _)))
        · rcases ofSecond inSecond leads with inSecond | isRest
          · exact .inl (.inr (.inr inSecond))
          · exact .inr isRest
  | either first second ofFirst ofSecond =>
      rw [states, List.mem_cons, List.mem_append]
      rcases List.mem_cons.mp isState with rfl | isState
      · cases leads with
        | apart here isNext =>
            rcases List.mem_cons.mp isNext with rfl | isNext
            · exact .inl (.inr (.inl (first.mem_states_self _)))
            · obtain rfl := List.mem_singleton.mp isNext
              exact .inl (.inr (.inr (second.mem_states_self _)))
      · rcases List.mem_append.mp isState with inFirst | inSecond
        · rcases ofFirst inFirst leads with inFirst | isRest
          · exact .inl (.inr (.inl inFirst))
          · exact .inr isRest
        · rcases ofSecond inSecond leads with inSecond | isRest
          · exact .inl (.inr (.inr inSecond))
          · exact .inr isRest
  | loop greedy body induction =>
      rw [states, List.mem_cons]
      rcases List.mem_cons.mp isState with rfl | inBody
      · rcases leads.of_loop with rfl | isRest
        · exact .inl (.inr (body.mem_states_self _))
        · exact .inr isRest
      · rcases induction inBody leads with inBody | rfl
        · exact .inl (.inr inBody)
        · exact .inl (.inl rfl)
  | plus greedy body induction =>
      rw [states, List.mem_cons, List.mem_cons]
      rcases List.mem_cons.mp isState with rfl | isState
      · cases leads with
        | apart here isNext =>
            obtain rfl := List.mem_singleton.mp isNext
            exact .inl (.inr (.inr (body.mem_states_self _)))
      · rcases List.mem_cons.mp isState with rfl | inBody
        · rcases leads.of_loop with rfl | isRest
          · exact .inl (.inr (.inr (body.mem_states_self _)))
          · exact .inr isRest
        · rcases induction inBody leads with inBody | rfl
          · exact .inl (.inr (.inr inBody))
          · exact .inl (.inr (.inl rfl))
  | exactly count body induction =>
      exact countdown_closed (.exactly · body) LeadsTo.of_exactly induction isState leads
  | upTo greedy count body induction =>
      exact countdown_closed (.upTo greedy · body) LeadsTo.of_upTo induction isState leads

end

/-- All states that come up when a node is matched. -/
def Node.allStates (node : Node) : List State :=
  [] :: node.states []

theorem Node.allStates_closed
    {node : Node}
    {state next : State}
    (isState : state ∈ node.allStates)
    (leads : LeadsTo state next) :
    next ∈ node.allStates := by
  rcases List.mem_cons.mp isState with rfl | isState
  · cases leads
  · rcases states_closed isState leads with isState | rfl
    · exact List.mem_cons_of_mem _ isState
    · exact List.mem_cons_self

theorem Node.mem_allStates_self
    (node : Node) :
    [node] ∈ node.allStates :=
  List.mem_cons_of_mem _ (node.mem_states_self [])

theorem Node.length_allStates
    (node : Node) :
    node.allStates.length = node.stateCount + 1 := by
  rw [allStates, List.length_cons, length_states]

end QueryGateway.Pattern
