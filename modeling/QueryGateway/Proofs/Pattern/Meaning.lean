import QueryGateway.Pattern.Machine

/-!
# What a pattern matches

`Node.Spans` says what a compiled pattern matches within a text: from one
position up to another.  It speaks neither of states nor of preference.  A node
that is repeated matches piece after piece, and a condition matches nothing at
a place where it holds.

The machine takes states apart, one node after the other.  A state succeeds at
a position if this ends well in some way: nothing is left to be matched in the
end.  The state of a single node succeeds where the node matches up to anywhere.
-/

namespace QueryGateway.Pattern

/-- The place in a text with so many characters before it. -/
def placeAt (text : List Char) (position : Nat) : Place :=
  ⟨position, (text.take position).getLast?, text[position]?⟩

/-- A node matches what stands between two positions of a text. -/
inductive Node.Spans (text : List Char) : Node → Nat → Nat → Prop where
  | empty
      {start : Nat} :
      Spans text .empty start start
  | oneOf
      {set : CharSet}
      {start : Nat}
      {character : Char}
      (isHere : text[start]? = some character)
      (isMember : set.contains character = true) :
      Spans text (.oneOf set) start (start + 1)
  | mark
      {number start : Nat} :
      Spans text (.mark number) start start
  | assert
      {condition : Condition}
      {start : Nat}
      (holds : condition.holds (placeAt text start) = true) :
      Spans text (.assert condition) start start
  | sequence
      {first second : Node}
      {start middle stop : Nat}
      (ofFirst : Spans text first start middle)
      (ofSecond : Spans text second middle stop) :
      Spans text (.sequence first second) start stop
  | first
      {first second : Node}
      {start stop : Nat}
      (ofFirst : Spans text first start stop) :
      Spans text (.either first second) start stop
  | second
      {first second : Node}
      {start stop : Nat}
      (ofSecond : Spans text second start stop) :
      Spans text (.either first second) start stop
  | loopEnd
      {greedy : Bool}
      {body : Node}
      {start : Nat} :
      Spans text (.loop greedy body) start start
  | loopOn
      {greedy : Bool}
      {body : Node}
      {start middle stop : Nat}
      (ofBody : Spans text body start middle)
      (more : Spans text (.loop greedy body) middle stop) :
      Spans text (.loop greedy body) start stop
  | plus
      {greedy : Bool}
      {body : Node}
      {start middle stop : Nat}
      (ofBody : Spans text body start middle)
      (more : Spans text (.loop greedy body) middle stop) :
      Spans text (.plus greedy body) start stop
  | exactlyEnd
      {body : Node}
      {start : Nat} :
      Spans text (.exactly 0 body) start start
  | exactlyOn
      {count : Nat}
      {body : Node}
      {start middle stop : Nat}
      (ofBody : Spans text body start middle)
      (more : Spans text (.exactly count body) middle stop) :
      Spans text (.exactly (count + 1) body) start stop
  | upToEnd
      {greedy : Bool}
      {count : Nat}
      {body : Node}
      {start : Nat} :
      Spans text (.upTo greedy count body) start start
  | upToOn
      {greedy : Bool}
      {count : Nat}
      {body : Node}
      {start middle stop : Nat}
      (ofBody : Spans text body start middle)
      (more : Spans text (.upTo greedy count body) middle stop) :
      Spans text (.upTo greedy (count + 1) body) start stop

theorem Node.Spans.le_length
    {text : List Char}
    {node : Node}
    {start stop : Nat}
    (spans : node.Spans text start stop)
    (within : start ≤ text.length) :
    stop ≤ text.length := by
  induction spans with
  | empty | mark | assert | loopEnd | exactlyEnd | upToEnd => exact within
  | oneOf isHere => exact (List.getElem?_eq_some_iff.mp isHere).1
  | first _ induction | second _ induction => exact induction within
  | sequence _ _ ofFirst ofSecond => exact ofSecond (ofFirst within)
  | loopOn _ _ ofBody more | plus _ _ ofBody more | exactlyOn _ _ ofBody more
  | upToOn _ _ ofBody more => exact more (ofBody within)

/-! ## States -/

/-- The states that the first node of a state is taken apart into. -/
def successors (here : Place) (node : Node) (rest : State) : List State :=
  (unfold here node rest []).map (·.state)

theorem map_state_preferring
    (greedy : Bool)
    (more fewer : Thread) :
    (preferring greedy more fewer).map (·.state) = preferring greedy more.state fewer.state := by
  cases greedy <;> rfl

theorem mem_preferring
    {α : Type}
    {greedy : Bool}
    {more fewer other : α} :
    other ∈ preferring greedy more fewer ↔ other = more ∨ other = fewer := by
  cases greedy
  · simp [preferring, or_comm]
  · simp [preferring]

theorem map_state_unfold
    (here : Place)
    (node : Node)
    (rest : State)
    (marks : Marks) :
    (unfold here node rest marks).map (·.state) = successors here node rest := by
  rw [successors]
  cases node with
  | empty | oneOf | mark | sequence | either | plus => rfl
  | assert condition =>
      rw [unfold, unfold]
      split <;> rfl
  | loop => rw [unfold, unfold, map_state_preferring, map_state_preferring]
  | exactly count => cases count <;> rfl
  | upTo greedy count =>
      cases count with
      | zero => rfl
      | succ => rw [unfold, unfold, map_state_preferring, map_state_preferring]

theorem length_unfold_le
    (here : Place)
    (node : Node)
    (rest : State)
    (marks : Marks) :
    (unfold here node rest marks).length ≤ 2 := by
  cases node with
  | empty | oneOf | mark | sequence | either | plus => simp [unfold]
  | assert condition =>
      rw [unfold]
      split <;> simp
  | loop greedy => cases greedy <;> simp [unfold, preferring]
  | exactly count => cases count <;> simp [unfold]
  | upTo greedy count => cases count <;> cases greedy <;> simp [unfold, preferring]

/-- What is still to be matched can be matched from a position on, up to anywhere. -/
inductive Succeeds (text : List Char) : State → Nat → Prop where
  | done
      {position : Nat} :
      Succeeds text [] position
  | step
      {node : Node}
      {rest next : State}
      {position : Nat}
      (isNext : next ∈ successors (placeAt text position) node rest)
      (succeeds : Succeeds text next position) :
      Succeeds text (node :: rest) position
  | take
      {set : CharSet}
      {rest : State}
      {position : Nat}
      {character : Char}
      (isHere : text[position]? = some character)
      (isMember : set.contains character = true)
      (succeeds : Succeeds text rest (position + 1)) :
      Succeeds text (.oneOf set :: rest) position

variable {text : List Char}

/-- What a node matches can be taken apart. -/
theorem Node.Spans.succeeds
    {node : Node}
    {start stop : Nat}
    (spans : node.Spans text start stop)
    {rest : State}
    (succeeds : Succeeds text rest stop) :
    Succeeds text (node :: rest) start := by
  induction spans generalizing rest with
  | empty | mark | exactlyEnd => exact .step (List.mem_singleton_self _) succeeds
  | oneOf isHere isMember => exact .take isHere isMember succeeds
  | assert holds =>
      apply Succeeds.step _ succeeds
      simp [successors, unfold, holds]
  | sequence _ _ ofFirst ofSecond =>
      exact .step (List.mem_singleton_self _) (ofFirst (ofSecond succeeds))
  | first _ ofFirst => exact .step List.mem_cons_self (ofFirst succeeds)
  | second _ ofSecond =>
      exact .step (List.mem_cons_of_mem _ List.mem_cons_self) (ofSecond succeeds)
  | plus _ _ ofBody more | exactlyOn _ _ ofBody more =>
      exact .step (List.mem_singleton_self _) (ofBody (more succeeds))
  | loopEnd =>
      apply Succeeds.step _ succeeds
      rw [successors, unfold, map_state_preferring, mem_preferring]
      exact .inr rfl
  | loopOn _ _ ofBody more =>
      apply Succeeds.step _ (ofBody (more succeeds))
      rw [successors, unfold, map_state_preferring, mem_preferring]
      exact .inl rfl
  | @upToEnd _ count =>
      apply Succeeds.step _ succeeds
      cases count with
      | zero => exact List.mem_singleton_self _
      | succ count =>
          rw [successors, unfold, map_state_preferring, mem_preferring]
          exact .inr rfl
  | upToOn _ _ ofBody more =>
      apply Succeeds.step _ (ofBody (more succeeds))
      rw [successors, unfold, map_state_preferring, mem_preferring]
      exact .inl rfl

/-- The nodes of a state match one after the other. -/
def SpansAll (text : List Char) : State → Nat → Nat → Prop
  | [], start, stop => start = stop
  | node :: rest, start, stop =>
      ∃ middle, node.Spans text start middle ∧ SpansAll text rest middle stop

/-- What the parts of a node match makes up what the node matches. -/
theorem spansAll_of_successor
    {node : Node}
    {rest next : State}
    {start stop : Nat}
    (isNext : next ∈ successors (placeAt text start) node rest)
    (spans : SpansAll text next start stop) :
    SpansAll text (node :: rest) start stop := by
  cases node with
  | empty =>
      obtain rfl := List.mem_singleton.mp isNext
      exact ⟨start, .empty, spans⟩
  | oneOf => cases isNext
  | mark =>
      obtain rfl := List.mem_singleton.mp isNext
      exact ⟨start, .mark, spans⟩
  | assert condition =>
      by_cases holds : condition.holds (placeAt text start) = true
      · simp only [successors, unfold, holds, if_true, List.map_cons, List.map_nil,
          List.mem_singleton] at isNext
        subst isNext
        exact ⟨start, .assert holds, spans⟩
      · simp [successors, unfold, holds] at isNext
  | sequence =>
      obtain rfl := List.mem_singleton.mp isNext
      obtain ⟨middle, ofFirst, last, ofSecond, others⟩ := spans
      exact ⟨last, .sequence ofFirst ofSecond, others⟩
  | either =>
      rcases List.mem_cons.mp isNext with rfl | isNext
      · obtain ⟨middle, ofFirst, others⟩ := spans
        exact ⟨middle, .first ofFirst, others⟩
      · obtain rfl := List.mem_singleton.mp isNext
        obtain ⟨middle, ofSecond, others⟩ := spans
        exact ⟨middle, .second ofSecond, others⟩
  | loop =>
      rw [successors, unfold, map_state_preferring, mem_preferring] at isNext
      rcases isNext with rfl | rfl
      · obtain ⟨middle, ofBody, last, more, others⟩ := spans
        exact ⟨last, .loopOn ofBody more, others⟩
      · exact ⟨start, .loopEnd, spans⟩
  | plus =>
      obtain rfl := List.mem_singleton.mp isNext
      obtain ⟨middle, ofBody, last, more, others⟩ := spans
      exact ⟨last, .plus ofBody more, others⟩
  | exactly count =>
      cases count with
      | zero =>
          obtain rfl := List.mem_singleton.mp isNext
          exact ⟨start, .exactlyEnd, spans⟩
      | succ count =>
          obtain rfl := List.mem_singleton.mp isNext
          obtain ⟨middle, ofBody, last, more, others⟩ := spans
          exact ⟨last, .exactlyOn ofBody more, others⟩
  | upTo greedy count =>
      cases count with
      | zero =>
          obtain rfl := List.mem_singleton.mp isNext
          exact ⟨start, .upToEnd, spans⟩
      | succ count =>
          rw [successors, unfold, map_state_preferring, mem_preferring] at isNext
          rcases isNext with rfl | rfl
          · obtain ⟨middle, ofBody, last, more, others⟩ := spans
            exact ⟨last, .upToOn ofBody more, others⟩
          · exact ⟨start, .upToEnd, spans⟩

theorem Succeeds.exists_spansAll
    {state : State}
    {position : Nat}
    (succeeds : Succeeds text state position) :
    ∃ stop, SpansAll text state position stop := by
  induction succeeds with
  | done => exact ⟨_, rfl⟩
  | step isNext _ induction =>
      obtain ⟨stop, spans⟩ := induction
      exact ⟨stop, spansAll_of_successor isNext spans⟩
  | take isHere isMember _ induction =>
      obtain ⟨stop, spans⟩ := induction
      exact ⟨stop, _, .oneOf isHere isMember, spans⟩

/-- A node that is all there is to be matched succeeds where it matches. -/
theorem succeeds_singleton_iff
    {node : Node}
    {position : Nat} :
    Succeeds text [node] position ↔ ∃ stop, node.Spans text position stop := by
  constructor
  · intro succeeds
    obtain ⟨stop, middle, spans, rfl⟩ := succeeds.exists_spansAll
    exact ⟨middle, spans⟩
  · rintro ⟨stop, spans⟩
    exact spans.succeeds .done

end QueryGateway.Pattern
