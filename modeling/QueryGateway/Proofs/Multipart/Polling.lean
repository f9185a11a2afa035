import QueryGateway.Proofs.Multipart.Framing

/-!
# What the encoder yields for complete parts

As long as the source has complete parts, every poll yields one of them with
its frame, and the encoder stands between parts again.  What the source has
next decides how the body ends: with the closing line, or with an error.
-/

namespace QueryGateway.Multipart

variable {ε : Type}

/-- The events of a source that has parts. -/
def chunkEvents (parts : List Part) : List (Event ε) :=
  parts.map .chunk

/-- What the encoder yields for complete parts. -/
def framedOutputs (boundary : String) (parts : List Part) : List (Output ε) :=
  parts.map fun part => .bytes (Encoder.start.encode boundary part)

theorem start_answer_chunk
    (boundary : String)
    {part : Part}
    (isLast : part.isLast = true) :
    Encoder.start.answer boundary (.chunk part : Event ε) =
      (.bytes (Encoder.start.encode boundary part), Encoder.start) := by
  simp [Encoder.answer, Encoder.start, isLast]

/-- A poll takes the first event of the source, unless the encoder has terminated. -/
theorem poll_cons
    (boundary : String)
    {encoder : Encoder}
    (running : encoder.isTerminated = false)
    (event : Event ε)
    (source : List (Event ε)) :
    encoder.poll boundary (event :: source) =
      ((encoder.answer boundary event).1, (encoder.answer boundary event).2, source) := by
  simp [Encoder.poll, running]

/-- Complete parts are framed one by one, and leave the encoder as it was. -/
theorem run_chunkEvents
    (boundary : String)
    {parts : List Part}
    (complete : ∀ part ∈ parts, part.isLast = true)
    (source : List (Event ε)) :
    Encoder.start.run boundary (chunkEvents parts ++ source).length (chunkEvents parts ++ source) =
      framedOutputs boundary parts ++ Encoder.start.run boundary source.length source := by
  induction parts with
  | nil => rfl
  | cons part parts induction =>
      have others := induction fun other member => complete other (List.mem_cons_of_mem part member)
      have answered : Encoder.start.answer boundary (.chunk part : Event ε) = _ :=
        start_answer_chunk boundary (complete part (List.mem_cons_self ..))
      simp only [chunkEvents, List.map_cons, List.cons_append, List.length_cons, Encoder.run]
      rw [poll_cons boundary rfl, answered]
      exact congrArg _ others

/-- What a reader receives begins with the complete parts. -/
theorem outputs_chunkEvents
    (boundary : String)
    {parts : List Part}
    (complete : ∀ part ∈ parts, part.isLast = true)
    (source : List (Event ε)) :
    outputs boundary (chunkEvents parts ++ source) =
      framedOutputs boundary parts ++ outputs boundary source := by
  have allReceived : (framedOutputs boundary parts : List (Output ε)).filter (·.isReceived) =
      framedOutputs boundary parts := by
    refine List.filter_eq_self.mpr ?_
    intro output member
    obtain ⟨part, _, rfl⟩ := List.mem_map.mp member
    rfl
  rw [outputs, run_chunkEvents boundary complete, List.filter_append, allReceived]
  rfl

/-- What the encoder is given next comes out behind the complete parts. -/
theorem outputs_concat
    (boundary : String)
    {parts : List Part}
    (complete : ∀ part ∈ parts, part.isLast = true)
    (event : Event ε) :
    outputs boundary (chunkEvents parts ++ [event]) =
      outputs boundary (chunkEvents parts) ++
        [(Encoder.start.answer boundary event).1].filter (·.isReceived) := by
  have first : outputs boundary (chunkEvents parts ++ ([] : List (Event ε))) = _ :=
    outputs_chunkEvents boundary complete []
  have single : outputs boundary [event] =
      [(Encoder.start.answer boundary event).1].filter (·.isReceived) := by
    simp [outputs, Encoder.run, Encoder.poll, Encoder.start]
  rw [List.append_nil] at first
  rw [outputs_chunkEvents boundary complete, first, single]
  exact congrArg (· ++ _) (List.append_nil _).symm

end QueryGateway.Multipart
