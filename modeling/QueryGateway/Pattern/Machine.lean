import QueryGateway.Pattern.CharSet

/-!
# Matching

A compiled pattern is a `Node`.  A state of a match is the list of nodes that
are still to be matched, one after the other; a thread is a state together with
the marks that were set on the way to it.

All threads advance over the text side by side, in the order of their
preference.  At every place the states of the threads are explored: nodes that
match no character are taken apart, the preferred alternative first, until each
thread wants a character or has nothing left to match.  A state that was met
before at the same place is given up, since whatever it could still lead to is
found by the thread that met it first.  This keeps the number of threads within
the size of the pattern, and ends loops that match nothing.

A match may begin anywhere in the text, but an earlier beginning is preferred;
among matches with the same beginning the preferred alternatives decide.  A
thread that has nothing left to match ends all threads of lower preference.
-/

namespace QueryGateway.Pattern

/-- Conditions on a place, under the flags in force. -/
inductive Condition where
  | textStart
  | textEnd
  /-- At the start of a line; `returns` tells whether a carriage return ends lines. -/
  | lineStart (returns : Bool)
  /-- At the end of a line. -/
  | lineEnd (returns : Bool)
  /--
  About the characters before and after the place: whether each is part of a
  word.  `none` leaves one of them open.
  -/
  | word (unicode : Bool) (before after : Option Bool)
  /-- Exactly one of the characters around the place is part of a word. -/
  | boundary (unicode : Bool)
  /-- Both or none of the characters around the place are part of a word. -/
  | noBoundary (unicode : Bool)
deriving DecidableEq, Repr

/-- A compiled pattern. -/
inductive Node where
  | empty
  | oneOf (set : CharSet)
  /-- Note the place under a number. -/
  | mark (number : Nat)
  | assert (condition : Condition)
  | sequence (first second : Node)
  /-- One of the two, the first one preferred. -/
  | either (first second : Node)
  /-- Any number of times; greedy prefers more. -/
  | loop (greedy : Bool) (body : Node)
  /-- Once and then any number of times. -/
  | plus (greedy : Bool) (body : Node)
  /-- A fixed number of times. -/
  | exactly (count : Nat) (body : Node)
  /-- At most a number of times. -/
  | upTo (greedy : Bool) (count : Nat) (body : Node)
deriving DecidableEq, Repr, Inhabited

namespace Node

/-- Can the node match the empty text, perhaps under conditions? -/
def canBeEmpty : Node → Bool
  | .empty => true
  | .oneOf _ => false
  | .mark _ => true
  | .assert _ => true
  | .sequence first second => first.canBeEmpty && second.canBeEmpty
  | .either first second => first.canBeEmpty || second.canBeEmpty
  | .loop _ _ => true
  | .plus _ body => body.canBeEmpty
  | .exactly count body => count == 0 || body.canBeEmpty
  | .upTo _ _ _ => true

/-- Can the node match nothing but the empty text? -/
def isAlwaysEmpty : Node → Bool
  | .empty => true
  | .oneOf _ => false
  | .mark _ => true
  | .assert _ => true
  | .sequence first second => first.isAlwaysEmpty && second.isAlwaysEmpty
  | .either first second => first.isAlwaysEmpty && second.isAlwaysEmpty
  | .loop _ body => body.isAlwaysEmpty
  | .plus _ body => body.isAlwaysEmpty
  | .exactly count body => count == 0 || body.isAlwaysEmpty
  | .upTo _ count body => count == 0 || body.isAlwaysEmpty

/-- The number of states that the node gives rise to. -/
def stateCount : Node → Nat
  | .empty => 1
  | .oneOf _ => 1
  | .mark _ => 1
  | .assert _ => 1
  | .sequence first second => 1 + first.stateCount + second.stateCount
  | .either first second => 1 + first.stateCount + second.stateCount
  | .loop _ body => 1 + body.stateCount
  | .plus _ body => 2 + body.stateCount
  | .exactly count body => 1 + count * (1 + body.stateCount)
  | .upTo _ count body => 1 + count * (1 + body.stateCount)

/-- An estimate of the bytes that a table of the states takes up. -/
def weight : Node → Nat
  | .empty => 32
  | .oneOf set => set.weight
  | .mark _ => 32
  | .assert _ => 32
  | .sequence first second => first.weight + second.weight
  | .either first second => 40 + first.weight + second.weight
  | .loop _ body => 40 + body.weight
  | .plus _ body => 40 + body.weight
  | .exactly count body => count * body.weight
  | .upTo _ count body => 32 + count * (40 + body.weight)

/-- The node repeated, with an upper bound or without one. -/
def repeated (body : Node) (minimum : Nat) (maximum : Option Nat) (greedy : Bool) : Node :=
  let minimum := if body.isAlwaysEmpty then min minimum 1 else minimum
  let maximum := if body.isAlwaysEmpty then some (min (maximum.getD 1) 1) else maximum
  match minimum, maximum with
  | 0, none =>
      if body.canBeEmpty then
        if greedy then .either (.plus greedy body) .empty else .either .empty (.plus greedy body)
      else
        .loop greedy body
  | 1, none => .plus greedy body
  | least + 2, none => .sequence (.exactly (least + 1) body) (.plus greedy body)
  | least, some most =>
      if most = 0 then .empty
      else if least = 1 ∧ most = 1 then body
      else if least = most then .exactly least body
      else if least = 0 then .upTo greedy most body
      else .sequence (.exactly least body) (.upTo greedy (most - least) body)

end Node

/-- What is still to be matched, one node after the other. -/
abbrev State := List Node

/-- The places noted under each number. -/
abbrev Marks := List (Option Nat)

/-- A state and the marks set on the way to it. -/
structure Thread where
  state : State
  marks : Marks
deriving Repr

/-- A place in a text: how far it is from the start, and the characters around it. -/
structure Place where
  position : Nat
  before : Option Char
  after : Option Char
deriving Repr

/-- Is the character part of a word? -/
def isWordChar (unicode : Bool) (character : Option Char) : Bool :=
  match character with
  | none => false
  | some character =>
      if unicode then Unicode.isWord character
      else character.isAlphanum || character == '_'

/-- Does the condition hold at the place? -/
def Condition.holds (condition : Condition) (here : Place) : Bool :=
  match condition with
  | .textStart => here.before.isNone
  | .textEnd => here.after.isNone
  | .lineStart false => here.before.isNone || here.before == some '\n'
  | .lineStart true =>
      here.before.isNone || here.before == some '\n' ||
        (here.before == some '\r' && here.after != some '\n')
  | .lineEnd false => here.after.isNone || here.after == some '\n'
  | .lineEnd true =>
      here.after.isNone || here.after == some '\r' ||
        (here.after == some '\n' && here.before != some '\r')
  | .word unicode before after =>
      (before.map (· == isWordChar unicode here.before)).getD true &&
        (after.map (· == isWordChar unicode here.after)).getD true
  | .boundary unicode => isWordChar unicode here.before != isWordChar unicode here.after
  | .noBoundary unicode => isWordChar unicode here.before == isWordChar unicode here.after

/-- Two ways to go on, the first one preferred if `greedy`. -/
def preferring {α : Type} (greedy : Bool) (more fewer : α) : List α :=
  if greedy then [more, fewer] else [fewer, more]

/--
Take the first node of a state apart, unless it wants a character: the states
to go on with, the preferred one first.
-/
def unfold (here : Place) (node : Node) (rest : State) (marks : Marks) : List Thread :=
  match node with
  | .empty => [⟨rest, marks⟩]
  | .oneOf _ => []
  | .mark number => [⟨rest, marks.set number (some here.position)⟩]
  | .assert condition => if condition.holds here then [⟨rest, marks⟩] else []
  | .sequence first second => [⟨first :: second :: rest, marks⟩]
  | .either first second => [⟨first :: rest, marks⟩, ⟨second :: rest, marks⟩]
  | .loop greedy body =>
      preferring greedy ⟨body :: .loop greedy body :: rest, marks⟩ ⟨rest, marks⟩
  | .plus greedy body => [⟨body :: .loop greedy body :: rest, marks⟩]
  | .exactly 0 _ => [⟨rest, marks⟩]
  | .exactly (count + 1) body => [⟨body :: .exactly count body :: rest, marks⟩]
  | .upTo _ 0 _ => [⟨rest, marks⟩]
  | .upTo greedy (count + 1) body =>
      preferring greedy ⟨body :: .upTo greedy count body :: rest, marks⟩ ⟨rest, marks⟩

/-- A thread that wants a character of a set and then goes on. -/
structure Demand where
  set : CharSet
  next : Thread
deriving Repr

/-- What exploring a place gives: demands in the order of preference, then perhaps a match. -/
structure Frontier where
  demands : List Demand
  accepted : Option Marks
deriving Repr

/-- Explore threads at a place, giving up the states that were `visited` before. -/
def explore (here : Place) (fuel : Nat) (threads : List Thread) (visited : List State) :
    Frontier :=
  match fuel, threads with
  | fuel + 1, thread :: threads =>
      if visited.contains thread.state then
        explore here fuel threads visited
      else
        match thread.state with
        | [] => ⟨[], some thread.marks⟩
        | .oneOf set :: rest =>
            let frontier := explore here fuel threads (thread.state :: visited)
            { frontier with demands := ⟨set, rest, thread.marks⟩ :: frontier.demands }
        | node :: rest =>
            explore here fuel (unfold here node rest thread.marks ++ threads)
              (thread.state :: visited)
  | _, _ => ⟨[], none⟩

/-- A pattern that is ready to be matched. -/
structure Program where
  root : Node
  /-- The number of marks. -/
  markCount : Nat
deriving DecidableEq, Repr

/--
Match from a place on.  `threads` are those that began earlier, and `best` is
the match found so far; no thread begins anew once there is one.
-/
def Program.run (program : Program) (position : Nat) (before : Option Char)
    (threads : List Thread) (best : Option Marks) (text : List Char) : Option Marks :=
  let start : List Thread :=
    if best.isNone then [⟨[program.root], List.replicate program.markCount none⟩] else []
  let here : Place := ⟨position, before, text.head?⟩
  let fuel := threads.length + 2 * program.root.stateCount + 4
  let frontier := explore here fuel (threads ++ start) []
  let best := frontier.accepted.orElse fun _ => best
  match text with
  | [] => best
  | character :: text =>
      let threads := (frontier.demands.filter (·.set.contains character)).map (·.next)
      if threads.isEmpty && best.isSome then
        best
      else
        program.run (position + 1) (some character) threads best text

/-- The marks of the preferred match within a text. -/
def Program.search (program : Program) (text : List Char) : Option Marks :=
  program.run 0 none [] none text

end QueryGateway.Pattern
