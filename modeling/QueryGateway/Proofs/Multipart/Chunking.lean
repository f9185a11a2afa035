import Mathlib.Data.List.Basic
import Mathlib.Data.List.Forall2
import QueryGateway.Proofs.Multipart.Interruption

/-!
# How parts are cut into chunks

A part may be cut into chunks in any way: into one or many, empty or not.  Its
first chunk brings its headers, and only its last chunk is marked as the last
one.  What the other chunks bring as headers is of no importance.

The body is the same for every way to cut its parts, and it is the body of the
parts that come in one piece each.  A source that ends inside a part yields the
same body as if it had marked the last chunk that it had.
-/

namespace QueryGateway.Multipart

/-- The chunks make up a complete part. -/
structure Part.IsCutInto (part : Part) (chunks : List Part) : Prop where
  isLast : part.isLast = true
  headers : chunks.head?.map (·.headers) = some part.headers
  content : chunks.flatMap (·.content) = part.content
  marks : chunks.map (·.isLast) = List.replicate (chunks.length - 1) false ++ [true]

theorem Part.IsCutInto.assemble_append
    {part : Part}
    {chunks : List Part}
    (isCut : part.IsCutInto chunks)
    (others : List Part) :
    assemble (chunks ++ others) = part :: assemble others := by
  induction chunks generalizing part with
  | nil => simpa using isCut.headers
  | cons chunk chunks induction =>
      rcases isCut with ⟨isLast, headers, content, marks⟩
      have sameHeaders : chunk.headers = part.headers := by
        simpa using headers
      rw [List.flatMap_cons] at content
      cases chunks with
      | nil =>
          have marked : chunk.isLast = true := by
            simpa using marks
          have sameContent : chunk.content = part.content := by
            simpa using content
          have same : chunk = part := by
            cases chunk
            cases part
            simp_all
          rw [List.cons_append, List.nil_append, assemble, if_pos marked, same]
      | cons next more =>
          rw [List.length_cons, Nat.add_sub_cancel, List.length_cons, List.replicate_succ,
            List.map_cons, List.cons_append] at marks
          rcases List.cons.inj marks with ⟨unmarked, marks⟩
          -- what stands behind the first chunk is a part of its own, under other headers
          have rest : Part.IsCutInto ⟨next.headers, (next :: more).flatMap (·.content), true⟩
              (next :: more) :=
            ⟨rfl, rfl, rfl, marks⟩
          rw [List.cons_append, assemble, if_neg (by simp [unmarked]), induction rest]
          cases part
          simp_all

/-- Chunks of complete parts make up these parts. -/
theorem assemble_flatten
    {parts : List Part}
    {pieces : List (List Part)}
    (areCut : List.Forall₂ Part.IsCutInto parts pieces) :
    assemble pieces.flatten = parts := by
  induction areCut with
  | nil => rfl
  | cons isCut _ induction => rw [List.flatten_cons, isCut.assemble_append, induction]

theorem leavesOpen_append
    (chunks : List Part)
    {others : List Part}
    (nonempty : others ≠ []) :
    leavesOpen (chunks ++ others) = leavesOpen others := by
  rcases List.exists_cons_of_ne_nil nonempty with ⟨first, others, rfl⟩
  simp [leavesOpen, List.getLast?_append, List.getLast?_cons]

theorem Part.IsCutInto.leavesOpen_eq
    {part : Part}
    {chunks : List Part}
    (isCut : part.IsCutInto chunks) :
    leavesOpen chunks = false := by
  have last := congrArg List.getLast? isCut.marks
  rw [List.getLast?_map, List.getLast?_concat, Option.map_eq_some_iff] at last
  rcases last with ⟨chunk, isLast, marked⟩
  simp [leavesOpen, isLast, marked]

theorem leavesOpen_flatten
    {parts : List Part}
    {pieces : List (List Part)}
    (areCut : List.Forall₂ Part.IsCutInto parts pieces) :
    leavesOpen pieces.flatten = false := by
  induction areCut with
  | nil => rfl
  | @cons part chunks _ pieces isCut _ induction =>
      rw [List.flatten_cons]
      by_cases isEnd : pieces.flatten = []
      · rw [isEnd, List.append_nil, isCut.leavesOpen_eq]
      · rw [leavesOpen_append chunks isEnd, induction]

section

variable
    {ε : Type}
    (boundary : String)
    {events rest : List (Event ε)}

/-- The body of a source that ends. -/
theorem contentOf_run_ended
    (goOn : ∀ event ∈ events, event.goesOn = true)
    (isEnd : rest.headD .ended = .ended)
    {polls : Nat}
    (enough : events.length < polls) :
    contentOf (Encoder.start.run boundary polls (events ++ rest)) =
      encoded boundary (assemble (chunksOf events)) ++
        ((if leavesOpen (chunksOf events) then lineEnd else []) ++ closing boundary) := by
  rcases Nat.exists_eq_add_of_lt enough with ⟨more, rfl⟩
  rw [Nat.add_assoc, (Encoder.run_of_last boundary goOn rest isEnd rfl more).1, contentOf_append,
    contentOf_yields boundary goOn, contentOf_cons, contentOf_replicate_ended, List.append_nil]
  rfl

/-- A mark on the last chunk writes what the end writes for a part without it. -/
theorem encoded_assemble_marked
    (earlier : List Part)
    (chunk : Part) :
    encoded boundary (assemble (earlier ++ [{ chunk with isLast := true }])) =
      encoded boundary (assemble (earlier ++ [{ chunk with isLast := false }])) ++ lineEnd := by
  have written : ∀ last : Part,
      encoded boundary (assemble (earlier ++ [last])) =
        contentOf (yields boundary (chunkEvents earlier : List (Event Unit))) ++
          ((if leavesOpen earlier then [] else opening boundary last.headers) ++ last.content ++
            (if last.isLast then lineEnd else [])) := by
    intro last
    have goOn : ∀ event ∈ (chunkEvents (earlier ++ [last]) : List (Event Unit)),
        event.goesOn = true := by
      intro event member
      rcases List.mem_map.mp member with ⟨part, _, rfl⟩
      rfl
    have split : (chunkEvents (earlier ++ [last]) : List (Event Unit)) =
        chunkEvents earlier ++ [.chunk last] := by
      simp [chunkEvents]
    rw [← @chunksOf_chunkEvents Unit (earlier ++ [last]), ← contentOf_yields boundary goOn,
      split, yields_append, contentOf_append, yieldsAfter_cons, chunksOf_chunkEvents, contentOf_cons]
    simp [yieldAfter, Output.content, yieldsAfter, contentOf]
  rw [written, written]
  simp

end

/--
However parts are cut into chunks, and however often there is nothing in between,
the body is that of the parts in one piece each.  A source that ends inside a part
yields the body of a source whose last chunk is marked.
-/
theorem run_is_chunk_agnostic
    {ε : Type}
    (boundary : String)
    {events rest : List (Event ε)}
    (goOn : ∀ event ∈ events, event.goesOn = true)
    (isEnd : rest.headD .ended = .ended)
    {polls : Nat}
    (enough : events.length < polls) :
    let body := contentOf (Encoder.start.run boundary polls (events ++ rest))
    (∀ parts pieces,
      List.Forall₂ Part.IsCutInto parts pieces → chunksOf events = pieces.flatten →
        body =
          contentOf (Encoder.start.run boundary (parts.length + 1)
            (chunkEvents parts ++ [.ended] : List (Event ε)))) ∧
      ∀ earlier chunk, chunksOf events = earlier ++ [chunk] → chunk.isLast = false →
        body =
          contentOf (Encoder.start.run boundary (earlier.length + 2)
            (chunkEvents (earlier ++ [{ chunk with isLast := true }]) ++ [.ended] :
              List (Event ε))) := by
  have chunksGoOn : ∀ parts, ∀ event ∈ (chunkEvents parts : List (Event ε)),
      event.goesOn = true := by
    intro parts event member
    rcases List.mem_map.mp member with ⟨part, _, rfl⟩
    rfl
  intro body
  have isBody : body = _ := contentOf_run_ended boundary goOn isEnd enough
  rw [isBody]
  constructor
  · intro parts pieces areCut brings
    have complete : ∀ part ∈ parts, part.isLast = true := by
      intro part member
      rcases List.mem_iff_getElem.mp member with ⟨index, inParts, rfl⟩
      exact (areCut.get inParts (areCut.length_eq ▸ inParts)).isLast
    rw [contentOf_run_ended boundary (chunksGoOn parts) rfl (by simp [chunkEvents]),
      chunksOf_chunkEvents, brings, assemble_flatten areCut, leavesOpen_flatten areCut,
      assemble_of_complete complete, leavesOpen_of_complete complete]
  · intro earlier chunk brings unmarked
    have isOpen : { chunk with isLast := false } = chunk := by
      rw [← unmarked]
    rw [contentOf_run_ended boundary (chunksGoOn _) rfl (by simp [chunkEvents]),
      chunksOf_chunkEvents, brings, encoded_assemble_marked, isOpen,
      leavesOpen_append_singleton, leavesOpen_append_singleton, unmarked]
    simp

/-! ## A greeting in pieces -/

namespace Pieces

/-- The second part is empty. -/
def parts : List Part :=
  [.complete [("A", "1")] (Bytes.ofString "hello"), .complete [] []]

/-- One chunk is empty, and the headers behind the first chunk are ignored. -/
def pieces : List (List Part) :=
  [[⟨[("A", "1")], Bytes.ofString "he", false⟩, ⟨[("B", "2")], [], false⟩,
      ⟨[("C", "3")], Bytes.ofString "llo", true⟩],
    [⟨[], [], false⟩, ⟨[("D", "4")], [], true⟩]]

theorem parts_areCut :
    List.Forall₂ Part.IsCutInto parts pieces :=
  .cons ⟨rfl, rfl, rfl, rfl⟩ (.cons ⟨rfl, rfl, rfl, rfl⟩ .nil)

/-- There is nothing yet before the second part, which then lacks its end. -/
def interrupted : List (Event String) :=
  chunkEvents (pieces.flatten.take 3) ++ [.pending, .chunk ⟨[], [], false⟩]

theorem pieces_are_put_together :
    contentOf (Encoder.start.run "b" 6 (chunkEvents pieces.flatten ++ [] : List (Event String))) =
        contentOf (Encoder.start.run "b" 3
          (chunkEvents parts ++ [.ended] : List (Event String))) ∧
      contentOf (Encoder.start.run "b" 6 (interrupted ++ [.ended])) =
        contentOf (Encoder.start.run "b" 5
          (chunkEvents (pieces.flatten.take 3 ++ [⟨[], [], true⟩]) ++ [.ended] :
            List (Event String))) := by
  have wholeGoOn : ∀ event ∈ (chunkEvents pieces.flatten : List (Event String)),
      event.goesOn = true := by
    decide
  have goOn : ∀ event ∈ interrupted, event.goesOn = true := by decide
  have whole := @run_is_chunk_agnostic _ "b" _ [] wholeGoOn rfl 6 (by decide)
  have cutShort := @run_is_chunk_agnostic _ "b" _ [.ended] goOn rfl 6 (by decide)
  exact ⟨whole.1 parts pieces parts_areCut rfl,
    cutShort.2 (pieces.flatten.take 3) ⟨[], [], false⟩ rfl rfl⟩

end Pieces

end QueryGateway.Multipart
