import QueryGateway.Proofs.Multipart.Interruption

/-!
# Bodies that are complete

The body that is written for complete parts ends with the closing line, holds
the boundary once for each part and once more in that line, and is decoded to
the parts again.

The boundary is counted at every place at which it begins, also where it would
overlap itself.  A separator that is not in the boundary splits the count, so it
is enough to count in the pieces between line ends and dashes.
-/

namespace QueryGateway.Multipart

/-- The number of places in some bytes at which a sequence begins. -/
def occurrences (sought bytes : Bytes) : Nat :=
  (List.range bytes.length).countP fun place => sought.isPrefixOf (bytes.drop place)

section

variable {sought : Bytes}

theorem occurrences_cons
    (sought : Bytes)
    (byte : UInt8)
    (bytes : Bytes) :
    occurrences sought (byte :: bytes) =
      (if sought <+: byte :: bytes then 1 else 0) + occurrences sought bytes := by
  have later : ((List.range bytes.length).map Nat.succ).countP
        (fun place => sought.isPrefixOf ((byte :: bytes).drop place)) =
      occurrences sought bytes := by
    rw [List.countP_map]
    rfl
  rw [occurrences, List.length_cons, List.range_succ_eq_map, List.countP_cons, later, Nat.add_comm]
  simp

/-- Only what is in front of a separator counts for a beginning there. -/
theorem isPrefix_separated_iff
    {separator : UInt8}
    (absent : separator ∉ sought)
    (left right : Bytes) :
    sought <+: left ++ separator :: right ↔ sought <+: left := by
  constructor
  · intro found
    rcases List.prefix_or_prefix_of_prefix found (List.prefix_append left _) with within | across
    · exact within
    · obtain ⟨rest, rfl⟩ := across
      rw [List.prefix_append_right_inj] at found
      cases rest with
      | nil => simp
      | cons byte rest =>
          have same : byte = separator := (List.cons_prefix_cons.mp found).1
          exact (absent (by simp [same])).elim
  · intro found
    exact found.trans (List.prefix_append left _)

theorem occurrences_separated
    (nonempty : sought ≠ [])
    {separator : UInt8}
    (absent : separator ∉ sought)
    (left right : Bytes) :
    occurrences sought (left ++ separator :: right) =
      occurrences sought left + occurrences sought right := by
  induction left with
  | nil =>
      have notHere : ¬ sought <+: separator :: right := by
        intro found
        have inNothing := (isPrefix_separated_iff absent [] right).mp found
        exact nonempty (List.prefix_nil.mp inNothing)
      rw [List.nil_append, occurrences_cons, if_neg notHere]
      rfl
  | cons byte left induction =>
      have same := isPrefix_separated_iff absent (byte :: left) right
      rw [List.cons_append] at same ⊢
      rw [occurrences_cons, occurrences_cons, induction, Nat.add_assoc]
      simp only [same]

theorem occurrences_lineEnd
    (nonempty : sought ≠ [])
    (noReturn : 0x0D ∉ sought)
    (noFeed : 0x0A ∉ sought)
    (left right : Bytes) :
    occurrences sought (left ++ (lineEnd ++ right)) =
      occurrences sought left + occurrences sought right := by
  have split := occurrences_separated nonempty noReturn left (0x0A :: right)
  have rest := occurrences_separated nonempty noFeed [] right
  rw [List.nil_append] at rest
  rw [rest] at split
  simpa [lineEnd, occurrences] using split

theorem occurrences_of_not_infix
    {bytes : Bytes}
    (absent : ¬ sought <:+: bytes) :
    occurrences sought bytes = 0 := by
  induction bytes with
  | nil => rfl
  | cons byte bytes induction =>
      have notHere : ¬ sought <+: byte :: bytes := fun found => absent found.isInfix
      have notLater : ¬ sought <:+: bytes := fun found =>
        absent (found.trans (List.suffix_cons byte bytes).isInfix)
      rw [occurrences_cons, if_neg notHere, induction notLater]

theorem occurrences_self
    (nonempty : sought ≠ []) :
    occurrences sought sought = 1 := by
  obtain ⟨byte, bytes, rfl⟩ := List.exists_cons_of_ne_nil nonempty
  have notLater : ¬ byte :: bytes <:+: bytes := by
    intro found
    have notLonger := found.length_le
    rw [List.length_cons] at notLonger
    omega
  rw [occurrences_cons, if_pos (List.prefix_refl _), occurrences_of_not_infix notLater]

end

variable {boundary : String}

/-- The boundary stands once in its mark, whatever dashes or line end stand behind it. -/
theorem occurrences_mark
    (isBoundary : IsBoundary boundary) :
    occurrences (Bytes.ofString boundary) (mark boundary) = 1 := by
  have noDash := isBoundary.not_mem 0x2D (by decide) (by decide)
  have first := occurrences_separated isBoundary.bytes_ne_nil noDash []
    (0x2D :: Bytes.ofString boundary)
  have second := occurrences_separated isBoundary.bytes_ne_nil noDash [] (Bytes.ofString boundary)
  rw [occurrences_self isBoundary.bytes_ne_nil] at second
  rw [List.nil_append] at first second
  rw [second] at first
  simpa [mark, dashes, occurrences] using first

theorem occurrences_closing
    (isBoundary : IsBoundary boundary) :
    occurrences (Bytes.ofString boundary) (closing boundary) = 1 := by
  have noDash := isBoundary.not_mem 0x2D (by decide) (by decide)
  have first := occurrences_separated isBoundary.bytes_ne_nil noDash (mark boundary)
    (0x2D :: lineEnd)
  have second := occurrences_separated isBoundary.bytes_ne_nil noDash [] lineEnd
  have third := occurrences_lineEnd isBoundary.bytes_ne_nil
    (isBoundary.not_mem 0x0D (by decide) (by decide))
    (isBoundary.not_mem 0x0A (by decide) (by decide)) [] []
  have nothing : occurrences (Bytes.ofString boundary) [] = 0 := rfl
  rw [List.nil_append, List.append_nil] at third
  rw [third, List.nil_append, nothing] at second
  rw [second, occurrences_mark isBoundary] at first
  rw [closing_eq]
  exact first

/-- In front of anything, complete parts hold the boundary once each. -/
theorem occurrences_encoded
    (isBoundary : IsBoundary boundary)
    {parts : List Part}
    (framable : ∀ part ∈ parts, part.IsFramable boundary)
    (rest : Bytes) :
    occurrences (Bytes.ofString boundary) (encoded boundary parts ++ rest) =
      parts.length + occurrences (Bytes.ofString boundary) rest := by
  have noReturn := isBoundary.not_mem 0x0D (by decide) (by decide)
  have noFeed := isBoundary.not_mem 0x0A (by decide) (by decide)
  induction parts with
  | nil => simp [encoded]
  | cons part parts induction =>
      have ofPart := framable part List.mem_cons_self
      have others := induction fun other member => framable other (List.mem_cons_of_mem part member)
      -- between the two line ends of a piece stand its headers and its content
      let inside := headerLines part.headers ++ (lineEnd ++ part.content)
      have isPiece : part.piece = lineEnd ++ (inside ++ lineEnd) := by
        simp [Part.piece, inside]
      have notInside : ¬ Bytes.ofString boundary <:+: inside := by
        intro found
        refine ofPart.not_occurs isBoundary (found.trans ?_)
        rw [isPiece]
        exact ⟨lineEnd, lineEnd, by simp⟩
      have split : encoded boundary (part :: parts) ++ rest =
          mark boundary ++
            (lineEnd ++ (inside ++ (lineEnd ++ (encoded boundary parts ++ rest)))) := by
        rw [encoded, List.flatMap_cons, encode_start boundary ofPart.isLast, isPiece]
        simp [encoded]
      rw [split, occurrences_lineEnd isBoundary.bytes_ne_nil noReturn noFeed,
        occurrences_lineEnd isBoundary.bytes_ne_nil noReturn noFeed, occurrences_mark isBoundary,
        occurrences_of_not_infix notInside, others, List.length_cons]
      omega

/--
However a source of complete parts is polled until it has ended, the body holds
the boundary once more than there are parts, ends with the closing line, and is
decoded to the parts.
-/
theorem decode?_of_complete
    {ε : Type}
    (isBoundary : IsBoundary boundary)
    {parts : List Part}
    (framable : ∀ part ∈ parts, part.IsFramable boundary)
    {events rest : List (Event ε)}
    (goOn : ∀ event ∈ events, event.goesOn = true)
    (brings : chunksOf events = parts)
    (isEnd : rest.headD .ended = .ended)
    {polls : Nat}
    (enough : events.length < polls) :
    let body := contentOf (Encoder.start.run boundary polls (events ++ rest))
    occurrences (Bytes.ofString boundary) body = parts.length + 1 ∧
      closing boundary <:+ body ∧
      decode? boundary body = some ⟨parts, true⟩ := by
  intro body
  have isBody : body = encoded boundary parts ++ closing boundary := by
    have complete : ∀ part ∈ parts, part.isLast = true :=
      fun part member => (framable part member).isLast
    obtain ⟨more, isMore⟩ := Nat.exists_eq_add_of_lt enough
    have ended := (Encoder.run_of_last boundary goOn rest isEnd rfl more).1
    have finished : (Encoder.behind parts).finish boundary = closing boundary := by
      rw [Encoder.finish, Encoder.behind, leavesOpen_of_complete complete]
      rfl
    simp only [body]
    rw [isMore, Nat.add_assoc, ended, contentOf_append, contentOf_yields boundary goOn, brings,
      assemble_of_complete complete, contentOf_cons, contentOf_replicate_ended, List.append_nil,
      Encoder.answer, Output.content, finished]
  rw [isBody]
  refine ⟨?_, List.suffix_append _ _, decode?_encoded_closing isBoundary framable⟩
  rw [occurrences_encoded isBoundary framable, occurrences_closing isBoundary]

/-! ## A body with awkward contents -/

namespace Awkward

/-- No headers, a content of line ends and dashes, a content that is empty. -/
def parts : List Part :=
  [.complete [] (Bytes.ofString "\r\n\r\n--"),
    .complete [("Content-Type", "text/plain"), ("X-Empty", "")] [],
    .complete [] []]

/-- There is nothing yet before the second part. -/
def events : List (Event String) :=
  [.chunk (.complete [] (Bytes.ofString "\r\n\r\n--")), .pending,
    .chunk (.complete [("Content-Type", "text/plain"), ("X-Empty", "")] []),
    .chunk (.complete [] [])]

theorem decode?_parts :
    let body := contentOf (Encoder.start.run "q7" 6 (events ++ [.ended]))
    occurrences (Bytes.ofString "q7") body = 4 ∧ closing "q7" <:+ body ∧
      decode? "q7" body = some ⟨parts, true⟩ := by
  have framable : ∀ part ∈ parts, part.IsFramable "q7" := by decide +kernel
  have goOn : ∀ event ∈ events, event.goesOn = true := by decide
  exact decode?_of_complete (by decide) framable goOn rfl rfl (by decide)

end Awkward

end QueryGateway.Multipart
