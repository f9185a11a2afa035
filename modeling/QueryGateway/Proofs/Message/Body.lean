import QueryGateway.Message.Body

/-!
# Looking into bodies

However a body is cut into chunks, it is read as a whole if all that arrives of
it is within the limit, and then its failure is met, if it fails.  Otherwise the
limit is exceeded by some chunk, before a failure is met.  Then nothing is lost:
the same bytes arrive again, and after them the same failure.

The induction goes along the chunks, with what has been read before them kept in
front.
-/

namespace QueryGateway.Message

variable
    {limit : Nat}
    {failure : Option String}

theorem bufferChunks_of_fits
    {buffered : Bytes}
    {chunks : List Bytes}
    (fits : buffered.length + chunks.flatten.length ≤ limit) :
    bufferChunks limit failure buffered chunks =
      match failure with
      | none => .ok (.complete (buffered ++ chunks.flatten))
      | some detail => .error detail := by
  induction chunks generalizing buffered with
  | nil => cases failure <;> simp [bufferChunks]
  | cons chunk chunks induction =>
      rw [List.flatten_cons, List.length_append] at fits
      have chunkFits : ¬ buffered.length + chunk.length > limit := by
        omega
      have othersFit : (buffered ++ chunk).length + chunks.flatten.length ≤ limit := by
        rw [List.length_append]
        omega
      rw [bufferChunks, if_neg chunkFits, induction othersFit, List.flatten_cons,
        List.append_assoc]

/-- What was buffered when the limit was exceeded is in front of what comes again. -/
theorem exists_bufferChunks_of_exceeds
    {buffered : Bytes}
    {chunks : List Bytes}
    (kept : buffered.length ≤ limit)
    (exceeds : limit < buffered.length + chunks.flatten.length) :
    ∃ replay, bufferChunks limit failure buffered chunks = .ok (.overflow replay) ∧
      replay.content = buffered ++ chunks.flatten ∧ replay.failure = failure := by
  induction chunks generalizing buffered with
  | nil =>
      rw [List.flatten_nil, List.length_nil] at exceeds
      omega
  | cons chunk chunks induction =>
      rw [bufferChunks]
      split
      case isTrue =>
        exact ⟨_, rfl, by simp [Body.content, Body.streamed], rfl⟩
      case isFalse chunkFits =>
        rw [List.flatten_cons, List.length_append] at exceeds
        have stillKept : (buffered ++ chunk).length ≤ limit := by
          rw [List.length_append]
          omega
        have othersExceed : limit < (buffered ++ chunk).length + chunks.flatten.length := by
          rw [List.length_append]
          omega
        rw [List.flatten_cons, ← List.append_assoc]
        exact induction stillKept othersExceed

namespace Body

variable
    {body : Body}

/-- A body within the limit is read to its end, or to its failure. -/
theorem buffer_of_fits
    (fits : body.content.length ≤ limit) :
    body.buffer limit =
      match body.failure with
      | none => .ok (.complete body.content)
      | some detail => .error detail := by
  apply bufferChunks_of_fits
  rwa [List.length_nil, Nat.zero_add]

/-- A body beyond the limit arrives again as it is, with its failure if it fails. -/
theorem exists_buffer_of_exceeds
    (exceeds : limit < body.content.length) :
    ∃ replay, body.buffer limit = .ok (.overflow replay) ∧
      replay.content = body.content ∧ replay.failure = body.failure := by
  apply exists_bufferChunks_of_exceeds
  · exact Nat.zero_le limit
  · rwa [List.length_nil, Nat.zero_add]

end Body

end QueryGateway.Message
