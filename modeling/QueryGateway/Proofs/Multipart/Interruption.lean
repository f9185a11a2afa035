import QueryGateway.Proofs.Multipart.Assembly

/-!
# How a body ends

However a source goes on before it ends or fails, and however often the encoder
is polled, every chunk is yielded when it comes, the end yields the closing line,
and an error yields itself.  Behind either of them nothing is yielded any more,
and whatever the source may still have is left there.

What was yielded before an error is how the body would have begun without it.  As
long as the boundary stands nowhere in the parts, it does not hold a closing
line, so a reader can tell that the body is not complete.
-/

namespace QueryGateway.Multipart

variable
    {ε : Type}
    (boundary : String)

namespace Encoder

/-- The encoder and what is left of its source after a number of polls. -/
def polled (boundary : String) : Nat → Encoder → List (Event ε) → Encoder × List (Event ε)
  | 0, encoder, source => (encoder, source)
  | polls + 1, encoder, source =>
      polled boundary polls (encoder.poll boundary source).2.1 (encoder.poll boundary source).2.2

/-- The encoder behind some chunks. -/
def behind (chunks : List Part) : Encoder :=
  ⟨leavesOpen chunks, false⟩

theorem run_succ
    (polls : Nat)
    (encoder : Encoder)
    (source : List (Event ε)) :
    encoder.run boundary (polls + 1) source =
      (encoder.poll boundary source).1 ::
        (encoder.poll boundary source).2.1.run boundary polls
          (encoder.poll boundary source).2.2 :=
  rfl

/-- Polling more often goes on where polling has stopped. -/
theorem run_add
    (polls more : Nat)
    (encoder : Encoder)
    (source : List (Event ε)) :
    encoder.run boundary (polls + more) source =
      encoder.run boundary polls source ++
        (encoder.polled boundary polls source).1.run boundary more
          (encoder.polled boundary polls source).2 := by
  induction polls generalizing encoder source with
  | zero => simp [run, polled]
  | succ polls induction =>
      rw [Nat.add_right_comm, run_succ, run_succ, polled, induction, List.cons_append]

theorem polled_add
    (polls more : Nat)
    (encoder : Encoder)
    (source : List (Event ε)) :
    encoder.polled boundary (polls + more) source =
      (encoder.polled boundary polls source).1.polled boundary more
        (encoder.polled boundary polls source).2 := by
  induction polls generalizing encoder source with
  | zero => simp [polled]
  | succ polls induction =>
      rw [Nat.add_right_comm, polled, polled, induction]

/-- A source that runs out of events has ended. -/
theorem poll_eq
    {encoder : Encoder}
    (running : encoder.isTerminated = false)
    (source : List (Event ε)) :
    encoder.poll boundary source =
      ((encoder.answer boundary (source.headD .ended)).1,
        (encoder.answer boundary (source.headD .ended)).2, source.tail) := by
  cases source with
  | nil => simp [poll, running]
  | cons event source => exact poll_cons boundary running event source

/-! ## As long as the source goes on -/

theorem poll_goesOn
    (earlier : List (Event ε))
    {event : Event ε}
    (goesOn : event.goesOn = true)
    (rest : List (Event ε)) :
    (behind (chunksOf earlier)).poll boundary (event :: rest) =
      (yieldAfter boundary (chunksOf earlier) event,
        behind (chunksOf (earlier ++ [event])), rest) := by
  rw [poll_cons boundary rfl]
  cases event with
  | chunk part =>
      rw [chunksOf_append, chunksOf_chunk, behind, behind, leavesOpen_append_singleton]
      rfl
  | pending =>
      rw [chunksOf_append, chunksOf_pending, List.append_nil]
      rfl
  | failed error => cases goesOn
  | ended => cases goesOn

theorem run_goesOn
    (earlier : List (Event ε))
    {events : List (Event ε)}
    (goOn : ∀ event ∈ events, event.goesOn = true)
    (rest : List (Event ε)) :
    (behind (chunksOf earlier)).run boundary events.length (events ++ rest) =
        yieldsAfter boundary earlier events ∧
      (behind (chunksOf earlier)).polled boundary events.length (events ++ rest) =
        (behind (chunksOf (earlier ++ events)), rest) := by
  induction events generalizing earlier with
  | nil => simp [run, polled, yieldsAfter]
  | cons event events induction =>
      have others := induction (earlier ++ [event])
        fun other member => goOn other (List.mem_cons_of_mem event member)
      have polledFirst := poll_goesOn boundary earlier (goOn event List.mem_cons_self)
        (events ++ rest)
      rw [List.append_assoc, List.singleton_append] at others
      rw [List.length_cons, List.cons_append, run_succ, polled, polledFirst, yieldsAfter_cons]
      exact ⟨congrArg _ others.1, others.2⟩

/-- Polls that are not more than the events take so many of the events. -/
theorem run_of_le
    {events : List (Event ε)}
    (goOn : ∀ event ∈ events, event.goesOn = true)
    (rest : List (Event ε))
    {polls : Nat}
    (few : polls ≤ events.length) :
    start.run boundary polls (events ++ rest) = (yields boundary events).take polls ∧
      start.polled boundary polls (events ++ rest) =
        (behind (chunksOf (events.take polls)), events.drop polls ++ rest) := by
  have takenGoOn : ∀ event ∈ events.take polls, event.goesOn = true :=
    fun event member => goOn event (List.mem_of_mem_take member)
  have first := run_goesOn boundary [] takenGoOn (events.drop polls ++ rest)
  have yielded : (yields boundary events).take polls = yields boundary (events.take polls) := by
    have whole := yields_append boundary (events.take polls) (events.drop polls)
    rw [List.take_append_drop] at whole
    rw [whole, List.take_left' (by simp [few])]
  rwa [List.length_take_of_le few, ← List.append_assoc, List.take_append_drop, ← yields_eq,
    ← yielded] at first

/-! ## Behind the end -/

theorem run_of_terminated
    {encoder : Encoder}
    (terminated : encoder.isTerminated = true)
    (polls : Nat)
    (source : List (Event ε)) :
    encoder.run boundary polls source = List.replicate polls .ended ∧
      encoder.polled boundary polls source = (encoder, source) := by
  have idle : encoder.poll boundary source = (.ended, encoder, source) := by
    simp [poll, terminated]
  induction polls with
  | zero => exact ⟨rfl, rfl⟩
  | succ polls induction =>
      rw [run_succ, polled, idle, List.replicate_succ]
      exact ⟨congrArg _ induction.1, induction.2⟩

/-- An event that terminates the encoder is the last one that it takes. -/
theorem run_of_last
    {events : List (Event ε)}
    (goOn : ∀ event ∈ events, event.goesOn = true)
    (rest : List (Event ε))
    {last : Event ε}
    (isLast : rest.headD .ended = last)
    (terminates : ((behind (chunksOf events)).answer boundary last).2.isTerminated = true)
    (more : Nat) :
    start.run boundary (events.length + (more + 1)) (events ++ rest) =
        yields boundary events ++
          ((behind (chunksOf events)).answer boundary last).1 :: List.replicate more .ended ∧
      (start.polled boundary (events.length + (more + 1)) (events ++ rest)).2 = rest.tail := by
  obtain ⟨yielded, left⟩ := run_of_le boundary goOn rest (Nat.le_refl _)
  rw [List.take_of_length_le (by simp)] at yielded
  rw [List.take_length, List.drop_length, List.nil_append] at left
  have taken : (behind (chunksOf events)).poll boundary rest = _ := poll_eq boundary rfl rest
  rw [isLast] at taken
  obtain ⟨idle, leaves⟩ := run_of_terminated boundary terminates more rest.tail
  constructor
  · rw [run_add, yielded, left, run_succ, taken, idle]
  · rw [polled_add, left, polled, taken, leaves]

end Encoder

/-! ## Bodies that are not closed -/

section

variable {boundary : String}

theorem opening_eq
    (boundary : String)
    (headers : List (String × String)) :
    opening boundary headers = mark boundary ++ (lineEnd ++ (headerLines headers ++ lineEnd)) := by
  simp [opening, mark, headerLines, headerLine, line]

/-- A boundary with dashes behind it is too long for a mark with its dashes in front. -/
theorem not_infix_mark
    (isBoundary : IsBoundary boundary) :
    ¬ Bytes.ofString boundary ++ dashes <:+: mark boundary := by
  intro found
  have same := found.eq_of_length (by simp [mark, Nat.add_comm])
  obtain ⟨first, others, isCons⟩ := List.exists_cons_of_ne_nil isBoundary.bytes_ne_nil
  have isDash : first = 0x2D := by
    rw [mark, isCons, dashes] at same
    exact (List.cons.inj same).1
  have noDash := isBoundary.not_mem 0x2D (by decide) (by decide)
  exact noDash (isDash ▸ isCons ▸ List.mem_cons_self)

/-- What is written for parts that avoid the boundary holds no closing line. -/
theorem not_infix_encoded
    (isBoundary : IsBoundary boundary)
    {parts : List Part}
    (complete : parts.Pairwise fun part _ => part.isLast = true)
    (avoids : ∀ part ∈ parts, part.Avoids boundary) :
    ¬ Bytes.ofString boundary ++ dashes <:+: encoded boundary parts := by
  have noReturn : 0x0D ∉ Bytes.ofString boundary ++ dashes := by
    have absent := isBoundary.not_mem 0x0D (by decide) (by decide)
    simp [absent, dashes]
  have noFeed : 0x0A ∉ Bytes.ofString boundary ++ dashes := by
    have absent := isBoundary.not_mem 0x0A (by decide) (by decide)
    simp [absent, dashes]
  have holds : ∀ bytes, Bytes.ofString boundary ++ dashes <:+: bytes → Occurs boundary bytes :=
    fun bytes found => (List.prefix_append _ dashes).isInfix.trans found
  have notInNothing : ¬ Bytes.ofString boundary ++ dashes <:+: [] := by
    simp [dashes]
  induction parts with
  | nil => exact notInNothing
  | cons part parts induction =>
      have avoidsPart := avoids part List.mem_cons_self
      have others := induction (List.pairwise_cons.mp complete).2
        fun other member => avoids other (List.mem_cons_of_mem part member)
      intro found
      rw [encoded_cons, opening_eq, resumed] at found
      simp only [List.append_assoc] at found
      rcases infix_of_lineEnd noReturn noFeed _ _ found with inMark | found
      · exact not_infix_mark isBoundary inMark
      have found := infix_of_headerLines noReturn noFeed
        (fun header member inLine =>
          avoidsPart.not_occurs_line isBoundary header member (holds _ inLine)) found
      rcases infix_of_lineEnd noReturn noFeed [] _ found with inNothing | found
      · exact notInNothing inNothing
      cases last : part.isLast with
      | true =>
          rw [last, if_pos rfl] at found
          rcases infix_of_lineEnd noReturn noFeed _ _ found with inContent | inOthers
          · exact avoidsPart.notInContent (holds _ inContent)
          · exact others inOthers
      | false =>
          -- only the last part may lack its end, so nothing stands behind its content
          have isEnd : parts = [] := by
            refine List.eq_nil_iff_forall_not_mem.mpr fun other member => ?_
            rw [(List.pairwise_cons.mp complete).1 other member] at last
            cases last
          rw [isEnd, last] at found
          exact avoidsPart.notInContent (holds _ (by simpa [encoded] using found))

theorem contentOf_run_failed
    (boundary : String)
    {events : List (Event ε)}
    (goOn : ∀ event ∈ events, event.goesOn = true)
    (error : ε)
    (after : List (Event ε))
    (polls : Nat) :
    contentOf (Encoder.start.run boundary polls (events ++ .failed error :: after)) <+:
      contentOf (yields boundary events) := by
  by_cases few : polls ≤ events.length
  · rw [(Encoder.run_of_le boundary goOn _ few).1]
    exact contentOf_isPrefix (List.take_prefix _ _)
  · obtain ⟨more, isMore⟩ := Nat.exists_eq_add_of_lt (Nat.lt_of_not_le few)
    have answered := (Encoder.run_of_last boundary goOn (.failed error :: after) rfl rfl more).1
    rw [isMore, Nat.add_assoc, answered]
    simp [Encoder.answer, Output.content]

end

/--
A body yields every chunk of its source when it comes, and does not depend on the
polls in between on which there is nothing.  The end of the source is answered by
the closing line and an error by itself; then nothing is yielded any more, and
the rest of the source is left alone.  A body that fails is the beginning of every
body of a source that begins with the same chunks, and holds no closing line as
long as the parts avoid the boundary.
-/
theorem body_ends_as_source
    (boundary : String)
    {events : List (Event ε)}
    (goOn : ∀ event ∈ events, event.goesOn = true)
    (error : ε)
    (after : List (Event ε)) :
    (∀ rest polls, polls ≤ events.length →
      Encoder.start.run boundary polls (events ++ rest) = (yields boundary events).take polls ∧
        Encoder.start.polled boundary polls (events ++ rest) =
          (.behind (chunksOf (events.take polls)), events.drop polls ++ rest)) ∧
      (yields boundary events).filter (·.isReceived) =
        yields boundary (chunkEvents (chunksOf events)) ∧
      (∀ rest more, rest.headD .ended = .ended →
        Encoder.start.run boundary (events.length + (more + 1)) (events ++ rest) =
            yields boundary events ++
              .bytes ((if leavesOpen (chunksOf events) then lineEnd else []) ++ closing boundary) ::
                List.replicate more .ended ∧
          (Encoder.start.polled boundary (events.length + (more + 1)) (events ++ rest)).2 =
            rest.tail) ∧
      (∀ more,
        Encoder.start.run boundary (events.length + (more + 1)) (events ++ .failed error :: after) =
            yields boundary events ++ .failed error :: List.replicate more .ended ∧
          (Encoder.start.polled boundary (events.length + (more + 1))
            (events ++ .failed error :: after)).2 = after) ∧
      ∀ polls,
        (∀ (others rest : List (Event ε)) count, (∀ event ∈ others, event.goesOn = true) →
          chunksOf events <+: chunksOf others → others.length ≤ count →
            contentOf (Encoder.start.run boundary polls (events ++ .failed error :: after)) <+:
              contentOf (Encoder.start.run boundary count (others ++ rest))) ∧
        (IsBoundary boundary → (∀ part ∈ assemble (chunksOf events), part.Avoids boundary) →
          ¬ mark boundary ++ dashes <:+:
            contentOf (Encoder.start.run boundary polls (events ++ .failed error :: after))) := by
  refine ⟨?_, filter_yields boundary goOn, ?_, ?_, ?_⟩
  · intro rest polls few
    exact Encoder.run_of_le boundary goOn rest few
  · intro rest more isEnd
    exact Encoder.run_of_last boundary goOn rest isEnd rfl more
  · intro more
    exact Encoder.run_of_last boundary goOn (.failed error :: after) rfl rfl more
  · intro polls
    have yielded := contentOf_run_failed boundary goOn error after polls
    constructor
    · intro others rest count othersGoOn first enough
      obtain ⟨more, rfl⟩ := Nat.exists_eq_add_of_le enough
      have begun := (Encoder.run_of_le boundary othersGoOn rest (Nat.le_refl _)).1
      rw [List.take_of_length_le (by simp)] at begun
      rw [Encoder.run_add, begun, contentOf_append]
      exact (yielded.trans (contentOf_yields_isPrefix boundary goOn othersGoOn first)).trans
        (List.prefix_append _ _)
    · intro isBoundary avoids found
      have closed : Bytes.ofString boundary ++ dashes <:+:
          encoded boundary (assemble (chunksOf events)) := by
        rw [← contentOf_yields boundary goOn]
        refine List.IsInfix.trans ?_ (found.trans yielded.isInfix)
        rw [mark, List.append_assoc]
        exact (List.suffix_append _ _).isInfix
      exact not_infix_encoded isBoundary (pairwise_assemble _) avoids closed

/-! ## A body that breaks off -/

namespace BrokenOff

/-- A greeting in two chunks, and the beginning of another part. -/
def events : List (Event String) :=
  [.chunk ⟨[("A", "1")], Bytes.ofString "he", false⟩, .pending,
    .chunk ⟨[("ignored", "x")], Bytes.ofString "llo", true⟩,
    .chunk ⟨[], Bytes.ofString "--", false⟩]

/-- More is there behind the error. -/
def after : List (Event String) :=
  [.chunk ⟨[], Bytes.ofString "never", true⟩, .ended]

theorem not_closed :
    (∀ event ∈ events, event.goesOn = true) ∧
      Encoder.start.run "b" 6 (events ++ .failed "reset" :: after) =
        [.bytes (Bytes.ofString "--b\r\nA: 1\r\n\r\nhe"), .pending,
          .bytes (Bytes.ofString "llo\r\n"), .bytes (Bytes.ofString "--b\r\n\r\n--"),
          .failed "reset", .ended] ∧
      ¬ mark "b" ++ dashes <:+:
        contentOf (Encoder.start.run "b" 6 (events ++ .failed "reset" :: after)) := by
  have goOn : ∀ event ∈ events, event.goesOn = true := by decide
  have avoids : ∀ part ∈ assemble (chunksOf events), part.Avoids "b" := by decide +kernel
  obtain ⟨_, _, _, failed, body⟩ := body_ends_as_source "b" goOn "reset" after
  refine ⟨goOn, ?_, (body 6).2 (by decide) avoids⟩
  have yielded : Encoder.start.run "b" 6 (events ++ .failed "reset" :: after) =
      yields "b" events ++ .failed "reset" :: List.replicate 1 .ended :=
    (failed 1).1
  rw [yielded]
  decide +kernel

end BrokenOff

end QueryGateway.Multipart
