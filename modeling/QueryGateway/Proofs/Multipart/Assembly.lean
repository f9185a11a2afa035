import QueryGateway.Proofs.Multipart.Polling

/-!
# Parts in several chunks

A source that has not come to its end offers chunks and polls on which it has
nothing.  The chunks make up parts: a part goes from its first chunk to the next
one that completes it, has the headers of its first chunk and the contents of
all of them.  The last part may lack its end.

What is written for the chunks is what is written for the parts they make up,
each in one piece.  Polls on which there is nothing leave no trace in it.
-/

namespace QueryGateway.Multipart

variable {ε : Type}

/-! ## Chunks among events -/

/-- The chunk that an event brings. -/
def Event.chunk? : Event ε → Option Part
  | .chunk part => some part
  | _ => none

/-- Does the source go on behind the event? -/
def Event.goesOn : Event ε → Bool
  | .chunk _ => true
  | .pending => true
  | _ => false

def chunksOf (events : List (Event ε)) : List Part :=
  events.filterMap (·.chunk?)

/-- Is a part left unfinished by some chunks? -/
def leavesOpen (chunks : List Part) : Bool :=
  chunks.getLast?.any (!·.isLast)

@[simp]
theorem chunksOf_nil :
    chunksOf ([] : List (Event ε)) = [] :=
  rfl

@[simp]
theorem chunksOf_append
    (events others : List (Event ε)) :
    chunksOf (events ++ others) = chunksOf events ++ chunksOf others := by
  simp [chunksOf]

@[simp]
theorem chunksOf_chunk
    (part : Part) :
    chunksOf [(.chunk part : Event ε)] = [part] :=
  rfl

@[simp]
theorem chunksOf_pending :
    chunksOf [(.pending : Event ε)] = [] :=
  rfl

theorem chunksOf_chunkEvents
    (parts : List Part) :
    chunksOf (chunkEvents parts : List (Event ε)) = parts := by
  rw [chunksOf, chunkEvents, List.filterMap_map]
  exact List.filterMap_some

@[simp]
theorem leavesOpen_append_singleton
    (chunks : List Part)
    (chunk : Part) :
    leavesOpen (chunks ++ [chunk]) = !chunk.isLast := by
  simp [leavesOpen]

theorem leavesOpen_of_complete
    {chunks : List Part}
    (complete : ∀ chunk ∈ chunks, chunk.isLast = true) :
    leavesOpen chunks = false := by
  rw [leavesOpen]
  cases last : chunks.getLast? with
  | none => rfl
  | some chunk => simp [complete chunk (List.mem_of_getLast? last)]

/-! ## What is yielded -/

/-- What is yielded for an event that comes after some chunks. -/
def yieldAfter (boundary : String) (earlier : List Part) : Event ε → Output ε
  | .chunk part =>
      .bytes ((if leavesOpen earlier then [] else opening boundary part.headers) ++
        part.content ++ (if part.isLast then lineEnd else []))
  | _ => .pending

/-- What is yielded for events that stand behind others, as long as the source goes on. -/
def yieldsAfter (boundary : String) (earlier : List (Event ε)) (events : List (Event ε)) :
    List (Output ε) :=
  events.mapIdx fun index event =>
    yieldAfter boundary (chunksOf (earlier ++ events.take index)) event

/-- What is yielded for the first events of a source. -/
def yields (boundary : String) (events : List (Event ε)) : List (Output ε) :=
  events.mapIdx fun index event => yieldAfter boundary (chunksOf (events.take index)) event

theorem yields_eq
    (boundary : String)
    (events : List (Event ε)) :
    yields boundary events = yieldsAfter boundary [] events :=
  rfl

@[simp]
theorem length_yields
    (boundary : String)
    (events : List (Event ε)) :
    (yields boundary events).length = events.length := by
  simp [yields]

theorem yieldsAfter_cons
    (boundary : String)
    (earlier : List (Event ε))
    (event : Event ε)
    (events : List (Event ε)) :
    yieldsAfter boundary earlier (event :: events) =
      yieldAfter boundary (chunksOf earlier) event ::
        yieldsAfter boundary (earlier ++ [event]) events := by
  simp [yieldsAfter, List.mapIdx_cons]

theorem yieldsAfter_append
    (boundary : String)
    (earlier events others : List (Event ε)) :
    yieldsAfter boundary earlier (events ++ others) =
      yieldsAfter boundary earlier events ++ yieldsAfter boundary (earlier ++ events) others := by
  induction events generalizing earlier with
  | nil => simp [yieldsAfter]
  | cons event events induction =>
      rw [List.cons_append, yieldsAfter_cons, yieldsAfter_cons, induction]
      simp

theorem yields_append
    (boundary : String)
    (events others : List (Event ε)) :
    yields boundary (events ++ others) =
      yields boundary events ++ yieldsAfter boundary events others :=
  yieldsAfter_append boundary [] events others

/-- Polls on which there is nothing change nothing about what is received. -/
theorem filter_yieldsAfter
    (boundary : String)
    (earlier : List (Event ε))
    {events : List (Event ε)}
    (goOn : ∀ event ∈ events, event.goesOn = true) :
    (yieldsAfter boundary earlier events).filter (·.isReceived) =
      yieldsAfter boundary (chunkEvents (chunksOf earlier)) (chunkEvents (chunksOf events)) := by
  induction events generalizing earlier with
  | nil => rfl
  | cons event events induction =>
      have others := induction (earlier ++ [event])
        fun other member => goOn other (List.mem_cons_of_mem event member)
      rw [yieldsAfter_cons]
      cases event with
      | chunk part =>
          have behind : (chunkEvents (chunksOf (earlier ++ [.chunk part])) : List (Event ε)) =
              chunkEvents (chunksOf earlier) ++ [.chunk part] := by
            simp [chunkEvents]
          have split : (chunkEvents (chunksOf (.chunk part :: events)) : List (Event ε)) =
              .chunk part :: chunkEvents (chunksOf events) := rfl
          rw [List.filter_cons_of_pos rfl, others, behind, split, yieldsAfter_cons,
            chunksOf_chunkEvents]
      | pending =>
          rw [List.filter_cons_of_neg (by simp [yieldAfter, Output.isReceived]), others]
          simp [chunksOf, Event.chunk?]
      | failed error => cases goOn _ List.mem_cons_self
      | ended => cases goOn _ List.mem_cons_self

theorem filter_yields
    (boundary : String)
    {events : List (Event ε)}
    (goOn : ∀ event ∈ events, event.goesOn = true) :
    (yields boundary events).filter (·.isReceived) =
      yields boundary (chunkEvents (chunksOf events)) :=
  filter_yieldsAfter boundary [] goOn

/-! ## Content -/

/-- The bytes that an output carries. -/
def Output.content : Output ε → Bytes
  | .bytes content => content
  | _ => []

def contentOf (outputs : List (Output ε)) : Bytes :=
  outputs.flatMap (·.content)

@[simp]
theorem contentOf_append
    (outputs others : List (Output ε)) :
    contentOf (outputs ++ others) = contentOf outputs ++ contentOf others := by
  simp [contentOf]

@[simp]
theorem contentOf_cons
    (output : Output ε)
    (outputs : List (Output ε)) :
    contentOf (output :: outputs) = output.content ++ contentOf outputs :=
  rfl

@[simp]
theorem contentOf_replicate_ended
    (count : Nat) :
    contentOf (List.replicate count (.ended : Output ε)) = [] := by
  simp [contentOf, Output.content]

theorem contentOf_isPrefix
    {outputs others : List (Output ε)}
    (first : outputs <+: others) :
    contentOf outputs <+: contentOf others := by
  obtain ⟨rest, rfl⟩ := first
  rw [contentOf_append]
  exact List.prefix_append _ _

/-- What is not received has no content. -/
theorem contentOf_filter_isReceived
    (outputs : List (Output ε)) :
    contentOf (outputs.filter (·.isReceived)) = contentOf outputs := by
  induction outputs with
  | nil => rfl
  | cons output outputs induction =>
      cases output with
      | bytes content => rw [List.filter_cons_of_pos rfl, contentOf_cons, induction, contentOf_cons]
      | failed error => rw [List.filter_cons_of_pos rfl, contentOf_cons, induction, contentOf_cons]
      | pending => rw [List.filter_cons_of_neg Bool.false_ne_true, induction, contentOf_cons]; rfl
      | ended => rw [List.filter_cons_of_neg Bool.false_ne_true, induction, contentOf_cons]; rfl

/-- More chunks only add to what is written, whatever comes between them. -/
theorem contentOf_yields_isPrefix
    (boundary : String)
    {events others : List (Event ε)}
    (goOn : ∀ event ∈ events, event.goesOn = true)
    (othersGoOn : ∀ event ∈ others, event.goesOn = true)
    (first : chunksOf events <+: chunksOf others) :
    contentOf (yields boundary events) <+: contentOf (yields boundary others) := by
  obtain ⟨more, isMore⟩ := first
  have split : (chunkEvents (chunksOf others) : List (Event ε)) =
      chunkEvents (chunksOf events) ++ chunkEvents more := by
    simp [chunkEvents, ← isMore]
  rw [← contentOf_filter_isReceived, filter_yields boundary goOn,
    ← contentOf_filter_isReceived (yields boundary others), filter_yields boundary othersGoOn,
    split, yields_append]
  exact contentOf_isPrefix (List.prefix_append _ _)

/-- The parts that chunks make up, the last one perhaps without its end. -/
def assemble : List Part → List Part
  | [] => []
  | chunk :: chunks =>
      if chunk.isLast then
        chunk :: assemble chunks
      else
        match assemble chunks with
        | [] => [chunk]
        | next :: others =>
            ⟨chunk.headers, chunk.content ++ next.content, next.isLast⟩ :: others

theorem assemble_of_complete
    {chunks : List Part}
    (complete : ∀ chunk ∈ chunks, chunk.isLast = true) :
    assemble chunks = chunks := by
  induction chunks with
  | nil => rfl
  | cons chunk chunks induction =>
      have others := induction fun other member =>
        complete other (List.mem_cons_of_mem chunk member)
      rw [assemble, if_pos (complete chunk List.mem_cons_self), others]

/-- Only the last part that is made up may lack its end. -/
theorem pairwise_assemble
    (chunks : List Part) :
    (assemble chunks).Pairwise fun part _ => part.isLast = true := by
  induction chunks with
  | nil => exact .nil
  | cons chunk chunks induction =>
      rw [assemble.eq_def]
      dsimp only
      split
      case isTrue complete => exact .cons (fun _ _ => complete) induction
      case isFalse =>
        split
        case h_1 => exact List.pairwise_singleton _ chunk
        case h_2 next others assembled =>
          rw [assembled] at induction
          exact List.pairwise_cons.mpr (List.pairwise_cons.mp induction)

/-- What is written for parts when the first of them has been begun already. -/
def resumed (boundary : String) : List Part → Bytes
  | [] => []
  | part :: parts => part.content ++ (if part.isLast then lineEnd else []) ++ encoded boundary parts

theorem encoded_cons
    (boundary : String)
    (part : Part)
    (parts : List Part) :
    encoded boundary (part :: parts) =
      opening boundary part.headers ++ resumed boundary (part :: parts) := by
  simp [encoded, resumed, Encoder.encode, Encoder.start]

theorem encoded_assemble_cons
    (boundary : String)
    (chunk : Part)
    (chunks : List Part) :
    encoded boundary (assemble (chunk :: chunks)) =
      opening boundary chunk.headers ++ resumed boundary (assemble (chunk :: chunks)) := by
  rw [assemble]
  split
  case isTrue => exact encoded_cons boundary chunk _
  case isFalse =>
    split
    case h_1 => exact encoded_cons boundary chunk []
    case h_2 next others _ =>
      exact encoded_cons boundary ⟨chunk.headers, chunk.content ++ next.content, next.isLast⟩ others

theorem resumed_assemble_cons
    (boundary : String)
    (chunk : Part)
    (chunks : List Part) :
    resumed boundary (assemble (chunk :: chunks)) =
      chunk.content ++
        if chunk.isLast then lineEnd ++ encoded boundary (assemble chunks)
        else resumed boundary (assemble chunks) := by
  rw [assemble]
  split
  case isTrue complete => simp [resumed, complete]
  case isFalse incomplete =>
    split
    case h_1 assembled => simp [resumed, incomplete, encoded, assembled]
    case h_2 next others assembled => simp [resumed, assembled]

/-- What is written for chunks is what is written for the parts they make up. -/
theorem contentOf_yieldsAfter
    (boundary : String)
    (earlier : List (Event ε))
    {events : List (Event ε)}
    (goOn : ∀ event ∈ events, event.goesOn = true) :
    contentOf (yieldsAfter boundary earlier events) =
      if leavesOpen (chunksOf earlier) then resumed boundary (assemble (chunksOf events))
      else encoded boundary (assemble (chunksOf events)) := by
  induction events generalizing earlier with
  | nil => simp [yieldsAfter, contentOf, chunksOf, assemble, resumed, encoded]
  | cons event events induction =>
      have others := induction (earlier ++ [event])
        fun other member => goOn other (List.mem_cons_of_mem event member)
      rw [yieldsAfter_cons, contentOf_cons, others]
      cases event with
      | chunk chunk =>
          have split : chunksOf (.chunk chunk :: events) = chunk :: chunksOf events := rfl
          rw [chunksOf_append, chunksOf_chunk, leavesOpen_append_singleton, split,
            encoded_assemble_cons, resumed_assemble_cons, yieldAfter, Output.content]
          cases leavesOpen (chunksOf earlier) <;> cases chunk.isLast <;> simp
      | pending => simp [yieldAfter, Output.content, chunksOf, Event.chunk?]
      | failed error => cases goOn _ List.mem_cons_self
      | ended => cases goOn _ List.mem_cons_self

theorem contentOf_yields
    (boundary : String)
    {events : List (Event ε)}
    (goOn : ∀ event ∈ events, event.goesOn = true) :
    contentOf (yields boundary events) = encoded boundary (assemble (chunksOf events)) :=
  contentOf_yieldsAfter boundary [] goOn

end QueryGateway.Multipart
