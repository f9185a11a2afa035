import QueryGateway.Proofs.Multipart.Cutting
import QueryGateway.Proofs.Text.Utf8

/-!
# Decoding what was encoded

A body that the encoder writes for complete parts is cut at its boundary lines
into those parts again.  The boundary is a word of letters and digits that
stands nowhere in the parts; since line ends, colons and blanks are neither,
it then stands nowhere between the boundary lines, not even across the seams of
headers and content.

Within a part, the header lines hold no line end of their own and are not
empty, so the first empty line is the one before the content, whatever lines
the content has.
-/

namespace QueryGateway.Multipart

/-- Boundaries are words of letters and digits. -/
structure IsBoundary (boundary : String) : Prop where
  nonempty : boundary ≠ ""
  alphanumeric : ∀ character ∈ boundary.toList, character.isAlphanum = true

/-- A header that fits into a line. -/
structure IsLine (header : String × String) : Prop where
  nonempty : header.1 ≠ ""
  noColon : ':' ∉ header.1.toList
  noReturn : '\r' ∉ header.1.toList ∧ '\r' ∉ header.2.toList
  noFeed : '\n' ∉ header.1.toList ∧ '\n' ∉ header.2.toList

/-- Does a boundary occur in some bytes? -/
def Occurs (boundary : String) (bytes : Bytes) : Prop :=
  Bytes.ofString boundary <:+: bytes

/-- A boundary that occurs nowhere in a part. -/
structure Part.Avoids (boundary : String) (part : Part) : Prop where
  notInName : ∀ header ∈ part.headers, ¬ Occurs boundary (Bytes.ofString header.1)
  notInValue : ∀ header ∈ part.headers, ¬ Occurs boundary (Bytes.ofString header.2)
  notInContent : ¬ Occurs boundary part.content

/-- A part in one chunk that can be framed by a boundary. -/
structure Part.IsFramable (boundary : String) (part : Part) : Prop
    extends part.Avoids boundary where
  isLast : part.isLast = true
  isLine : ∀ header ∈ part.headers, IsLine header

instance (boundary : String) : Decidable (IsBoundary boundary) :=
  decidable_of_iff
    (boundary ≠ "" ∧ boundary.toList.all (·.isAlphanum) = true)
    ⟨fun ⟨nonempty, alphanumeric⟩ => ⟨nonempty, List.all_eq_true.mp alphanumeric⟩,
      fun isBoundary => ⟨isBoundary.nonempty, List.all_eq_true.mpr isBoundary.alphanumeric⟩⟩

instance (header : String × String) : Decidable (IsLine header) :=
  decidable_of_iff
    (header.1 ≠ "" ∧ ':' ∉ header.1.toList ∧
      ('\r' ∉ header.1.toList ∧ '\r' ∉ header.2.toList) ∧
      '\n' ∉ header.1.toList ∧ '\n' ∉ header.2.toList)
    ⟨fun ⟨nonempty, noColon, noReturn, noFeed⟩ => ⟨nonempty, noColon, noReturn, noFeed⟩,
      fun isLine => ⟨isLine.nonempty, isLine.noColon, isLine.noReturn, isLine.noFeed⟩⟩

instance (boundary : String) (bytes : Bytes) : Decidable (Occurs boundary bytes) :=
  inferInstanceAs (Decidable (Bytes.ofString boundary <:+: bytes))

instance (boundary : String) (part : Part) : Decidable (part.Avoids boundary) :=
  decidable_of_iff
    ((∀ header ∈ part.headers, ¬ Occurs boundary (Bytes.ofString header.1)) ∧
      (∀ header ∈ part.headers, ¬ Occurs boundary (Bytes.ofString header.2)) ∧
      ¬ Occurs boundary part.content)
    ⟨fun ⟨notInName, notInValue, notInContent⟩ => ⟨notInName, notInValue, notInContent⟩,
      fun avoids => ⟨avoids.notInName, avoids.notInValue, avoids.notInContent⟩⟩

instance (boundary : String) (part : Part) : Decidable (part.IsFramable boundary) :=
  decidable_of_iff
    (part.Avoids boundary ∧ part.isLast = true ∧ ∀ header ∈ part.headers, IsLine header)
    ⟨fun ⟨avoids, isLast, isLine⟩ => ⟨avoids, isLast, isLine⟩,
      fun framable => ⟨framable.toAvoids, framable.isLast, framable.isLine⟩⟩

/-- The mark that a body is cut at. -/
def mark (boundary : String) : Bytes :=
  dashes ++ Bytes.ofString boundary

/-- A header line without its end. -/
def line (header : String × String) : Bytes :=
  Bytes.ofString header.1 ++ Bytes.ofString ": " ++ Bytes.ofString header.2

/-- Headers as lines. -/
def headerLines (headers : List (String × String)) : Bytes :=
  headers.flatMap fun header => line header ++ lineEnd

/-- What stands behind the boundary of a part. -/
def Part.piece (part : Part) : Bytes :=
  lineEnd ++ (headerLines part.headers ++ (lineEnd ++ (part.content ++ lineEnd)))

/-- What stands behind the last boundary of a closed body. -/
def closingPiece : Bytes :=
  dashes ++ lineEnd

theorem lineEnd_ne_nil :
    lineEnd ≠ [] := by
  simp [lineEnd]

theorem headerLines_cons
    (header : String × String)
    (headers : List (String × String)) :
    headerLines (header :: headers) = line header ++ (lineEnd ++ headerLines headers) := by
  simp [headerLines]

theorem encode_start
    (boundary : String)
    {part : Part}
    (isLast : part.isLast = true) :
    Encoder.start.encode boundary part = mark boundary ++ part.piece := by
  simp [Encoder.encode, Encoder.start, opening, mark, Part.piece, isLast, headerLines, headerLine,
    line]

theorem closing_eq
    (boundary : String) :
    closing boundary = mark boundary ++ closingPiece := by
  simp [closing, mark, closingPiece]

/-! ## The boundary and the marks -/

namespace IsBoundary

variable {boundary : String}

theorem bytes_ne_nil
    (isBoundary : IsBoundary boundary) :
    Bytes.ofString boundary ≠ [] :=
  Bytes.ofString_ne_nil isBoundary.nonempty

/-- A byte that stands for neither a letter nor a digit is not in a boundary. -/
theorem not_mem
    (isBoundary : IsBoundary boundary)
    (byte : UInt8)
    (ascii : byte.toNat < 0x80)
    (other : (Char.ofNat byte.toNat).isAlphanum = false) :
    byte ∉ Bytes.ofString boundary := by
  refine Bytes.not_mem_ofString byte ascii fun member => ?_
  rw [isBoundary.alphanumeric _ member] at other
  exact Bool.noConfusion other

theorem feed_not_mem_mark
    (isBoundary : IsBoundary boundary) :
    0x0A ∉ mark boundary := by
  have absent := isBoundary.not_mem 0x0A (by decide) (by decide)
  simp [mark, dashes, absent]

theorem mark_ne_nil
    (boundary : String) :
    mark boundary ≠ [] := by
  simp [mark, dashes]

end IsBoundary

/-- What holds no byte of a line end and is found across one is found on one side of it. -/
theorem infix_of_lineEnd
    {sought : Bytes}
    (noReturn : 0x0D ∉ sought)
    (noFeed : 0x0A ∉ sought)
    (left right : Bytes)
    (found : sought <:+: left ++ (lineEnd ++ right)) :
    sought <:+: left ∨ sought <:+: right := by
  rcases infix_of_separated left noReturn found with inLeft | inRight
  · exact .inl inLeft
  · rcases infix_of_separated [] noFeed inRight with inNothing | inRight
    · exact .inl (inNothing.trans List.nil_infix)
    · exact .inr inRight

theorem occurs_of_lineEnd
    {boundary : String}
    (isBoundary : IsBoundary boundary)
    (left right : Bytes)
    (found : Occurs boundary (left ++ (lineEnd ++ right))) :
    Occurs boundary left ∨ Occurs boundary right :=
  infix_of_lineEnd (isBoundary.not_mem 0x0D (by decide) (by decide))
    (isBoundary.not_mem 0x0A (by decide) (by decide)) left right found

/-- What is found in a header line is found in its name or in its value. -/
theorem occurs_of_line
    {boundary : String}
    (isBoundary : IsBoundary boundary)
    {header : String × String}
    (found : Occurs boundary (line header)) :
    Occurs boundary (Bytes.ofString header.1) ∨ Occurs boundary (Bytes.ofString header.2) := by
  have noColon := isBoundary.not_mem 0x3A (by decide) (by decide)
  have noBlank := isBoundary.not_mem 0x20 (by decide) (by decide)
  have separator : Bytes.ofString ": " = [0x3A, 0x20] := by decide
  rw [line, separator, List.append_assoc] at found
  rcases infix_of_separated (Bytes.ofString header.1) noColon found with inName | inValue
  · exact .inl inName
  · rcases infix_of_separated [] noBlank inValue with inNothing | inValue
    · exact .inl (inNothing.trans List.nil_infix)
    · exact .inr inValue

/-- What stands in none of the header lines is found behind them, if it is found at all. -/
theorem infix_of_headerLines
    {sought : Bytes}
    (noReturn : 0x0D ∉ sought)
    (noFeed : 0x0A ∉ sought)
    {headers : List (String × String)}
    (notInLine : ∀ header ∈ headers, ¬ sought <:+: line header)
    {rest : Bytes}
    (found : sought <:+: headerLines headers ++ rest) :
    sought <:+: rest := by
  induction headers with
  | nil => simpa [headerLines] using found
  | cons header headers induction =>
      rw [headerLines_cons, List.append_assoc, List.append_assoc] at found
      rcases infix_of_lineEnd noReturn noFeed _ _ found with inLine | inOthers
      · exact (notInLine header List.mem_cons_self inLine).elim
      · exact induction
          (fun other member => notInLine other (List.mem_cons_of_mem header member)) inOthers

/-- The boundary stands in no header line of a part that avoids it. -/
theorem Part.Avoids.not_occurs_line
    {boundary : String}
    (isBoundary : IsBoundary boundary)
    {part : Part}
    (avoids : part.Avoids boundary) :
    ∀ header ∈ part.headers, ¬ Occurs boundary (line header) := by
  intro header member found
  rcases occurs_of_line isBoundary found with inName | inValue
  · exact avoids.notInName header member inName
  · exact avoids.notInValue header member inValue

theorem Part.IsFramable.not_occurs
    {boundary : String}
    (isBoundary : IsBoundary boundary)
    {part : Part}
    (framable : part.IsFramable boundary) :
    ¬ Occurs boundary part.piece := by
  have notInNothing : ¬ Occurs boundary [] := by
    intro found
    exact isBoundary.bytes_ne_nil (List.infix_nil.mp found)
  intro found
  rcases occurs_of_lineEnd isBoundary [] _ found with inNothing | inRest
  · exact notInNothing inNothing
  · have inContent := infix_of_headerLines (isBoundary.not_mem 0x0D (by decide) (by decide))
      (isBoundary.not_mem 0x0A (by decide) (by decide))
      (framable.toAvoids.not_occurs_line isBoundary) inRest
    rcases occurs_of_lineEnd isBoundary [] _ inContent with inNothing | inContent
    · exact notInNothing inNothing
    · rcases occurs_of_lineEnd isBoundary _ [] (by simpa using inContent) with
        inContent | inNothing
      · exact framable.notInContent inContent
      · exact notInNothing inNothing

/--
A piece that ends a line and does not hold the boundary holds no beginning of a
mark: a mark that begins in it would have to end in it as well, because there is
no line end in a mark.
-/
theorem unmarked_of_line
    {boundary : String}
    (isBoundary : IsBoundary boundary)
    {front rest : Bytes}
    (absent : ¬ Occurs boundary (front ++ lineEnd)) :
    Unmarked (mark boundary) (front ++ lineEnd) rest := by
  intro back isSuffix nonempty found
  have feed : (0x0A : UInt8) ∈ back := by
    have sameEnd : back.getLast nonempty = 0x0A := by
      rw [isSuffix.getLast nonempty]
      simp [lineEnd]
    exact sameEnd ▸ List.getLast_mem nonempty
  rcases List.prefix_or_prefix_of_prefix found (List.prefix_append back rest) with
    within | across
  · have inMark : Bytes.ofString boundary <:+: mark boundary :=
      (List.suffix_append dashes (Bytes.ofString boundary)).isInfix
    exact absent (inMark.trans (within.isInfix.trans isSuffix.isInfix))
  · exact isBoundary.feed_not_mem_mark (across.subset feed)

theorem Part.IsFramable.unmarked
    {boundary : String}
    (isBoundary : IsBoundary boundary)
    {part : Part}
    (framable : part.IsFramable boundary)
    (rest : Bytes) :
    Unmarked (mark boundary) part.piece rest := by
  have absent := framable.not_occurs isBoundary
  simp only [Part.piece, ← List.append_assoc] at absent ⊢
  exact unmarked_of_line isBoundary absent

theorem unmarked_closingPiece
    {boundary : String}
    (isBoundary : IsBoundary boundary)
    (rest : Bytes) :
    Unmarked (mark boundary) closingPiece rest := by
  refine unmarked_of_line isBoundary fun found => ?_
  have noDash := isBoundary.not_mem 0x2D (by decide) (by decide)
  rcases occurs_of_lineEnd isBoundary _ [] (by simpa using found) with
    inDashes | inNothing
  · obtain ⟨first, others, isCons⟩ := List.exists_cons_of_ne_nil isBoundary.bytes_ne_nil
    have member : first ∈ dashes :=
      inDashes.subset (isCons ▸ List.mem_cons_self ..)
    have isDash : first = 0x2D := by
      simpa [dashes] using member
    exact noDash (isDash ▸ isCons ▸ List.mem_cons_self ..)
  · exact isBoundary.bytes_ne_nil (List.infix_nil.mp inNothing)

/-! ## Reading a part -/

/-- A line holds no byte of a line end. -/
theorem IsLine.return_not_mem
    {header : String × String}
    (isLine : IsLine header) :
    0x0D ∉ line header := by
  have notInName := Bytes.not_mem_ofString 0x0D (by decide) isLine.noReturn.1
  have notInValue := Bytes.not_mem_ofString 0x0D (by decide) isLine.noReturn.2
  have separator : Bytes.ofString ": " = [0x3A, 0x20] := by decide
  simp [line, separator, notInName, notInValue]

theorem IsLine.exists_cons
    {header : String × String}
    (isLine : IsLine header) :
    ∃ first others, line header = first :: others ∧ first ≠ 0x0D := by
  obtain ⟨first, others, isCons⟩ :=
    List.exists_cons_of_ne_nil (Bytes.ofString_ne_nil isLine.nonempty)
  refine ⟨first, others ++ Bytes.ofString ": " ++ Bytes.ofString header.2, ?_, ?_⟩
  · simp [line, isCons]
  · intro isReturn
    refine isLine.return_not_mem ?_
    simp [line, isCons, isReturn]

theorem readHeader?_line
    {header : String × String}
    (isLine : IsLine header) :
    readHeader? (line header) = some header := by
  have noColon := Bytes.not_mem_ofString 0x3A (by decide) isLine.noColon
  have separator : Bytes.ofString ": " = [0x3A, 0x20] := by decide
  have cut : cut? (Bytes.ofString ": ") (line header) =
      some (Bytes.ofString header.1, Bytes.ofString header.2) := by
    rw [line, List.append_assoc]
    refine cut?_append_mark (by simp [separator]) ?_
    rw [separator]
    exact Unmarked.of_head_not_mem noColon _
  simp [readHeader?, cut]

/--
The first empty line is the one behind the header lines, and what stands before
it is cut into those lines.
-/
theorem cut?_headerLines
    {header : String × String}
    {headers : List (String × String)}
    (isLine : ∀ other ∈ header :: headers, IsLine other)
    (after : Bytes) :
    ∃ head,
      cut? (lineEnd ++ lineEnd) (headerLines (header :: headers) ++ (lineEnd ++ after)) =
          some (head, after) ∧
        cutAll lineEnd 0 head = (header :: headers).map line := by
  have noReturn := (isLine header (List.mem_cons_self ..)).return_not_mem
  induction headers generalizing header with
  | nil =>
      refine ⟨line header, ?_, ?_⟩
      · have unmarked : Unmarked (lineEnd ++ lineEnd) (line header)
            ((lineEnd ++ lineEnd) ++ after) :=
          Unmarked.of_head_not_mem noReturn _
        simpa [headerLines] using cut?_append_mark (by simp [lineEnd_ne_nil]) unmarked
      · exact cutAll_unmarked (Unmarked.of_head_not_mem noReturn _)
  | cons second headers induction =>
      obtain ⟨head, cut, cutApart⟩ := induction
        (fun other member => isLine other (List.mem_cons_of_mem header member))
        (isLine second (by simp)).return_not_mem
      refine ⟨line header ++ (lineEnd ++ head), ?_, ?_⟩
      · -- the line end is no empty line, because a header line stands behind it
        obtain ⟨first, others, isCons, notReturn⟩ := (isLine second (by simp)).exists_cons
        have passed : cut? (lineEnd ++ lineEnd)
            (lineEnd ++ (headerLines (second :: headers) ++ (lineEnd ++ after))) =
              some (lineEnd ++ head, after) := by
          rw [headerLines_cons, isCons] at cut ⊢
          simp only [lineEnd, List.cons_append, List.nil_append] at cut ⊢
          rw [cut?, cut?, cut]
          simp [notReturn.symm]
        rw [headerLines_cons, List.append_assoc, List.append_assoc]
        exact cut?_append (Unmarked.of_head_not_mem noReturn _) passed
      · have unmarked : Unmarked lineEnd (line header) (lineEnd ++ head) :=
          Unmarked.of_head_not_mem noReturn _
        have cutFirst := cutAll_append_mark lineEnd_ne_nil unmarked
        rw [cutFirst, cutApart]
        rfl

/-- Items that are read back one by one are read back together. -/
theorem mapM_map_of_read
    {α β : Type}
    {write : α → β}
    {read : β → Option α}
    {items : List α}
    (readBack : ∀ item ∈ items, read (write item) = some item) :
    (items.map write).mapM read = some items := by
  induction items with
  | nil => rfl
  | cons item items induction =>
      have others := induction fun other member => readBack other (List.mem_cons_of_mem item member)
      rw [List.map_cons, List.mapM_cons, readBack item (List.mem_cons_self ..), others]
      rfl

theorem readHeaders?_headerLines
    {headers : List (String × String)}
    (isLine : ∀ header ∈ headers, IsLine header)
    (after : Bytes) :
    readHeaders? (headerLines headers ++ (lineEnd ++ after)) = some (headers, after) := by
  cases headers with
  | nil => simp [headerLines, readHeaders?]
  | cons header headers =>
      obtain ⟨first, others, isCons, notReturn⟩ := (isLine header (by simp)).exists_cons
      have noMark : dropMark? lineEnd
          (headerLines (header :: headers) ++ (lineEnd ++ after)) = none := by
        simp [headerLines_cons, isCons, dropMark?, lineEnd, notReturn.symm]
      obtain ⟨head, cut, cutApart⟩ := cut?_headerLines isLine after
      have readBack := mapM_map_of_read fun header member => readHeader?_line (isLine header member)
      rw [readHeaders?, noMark, cut]
      simp only [Option.bind_eq_bind, Option.bind_some, cutApart, readBack]
      rfl

theorem readPart?_piece
    {boundary : String}
    {part : Part}
    (framable : part.IsFramable boundary) :
    readPart? part.piece = some part := by
  have complete : Part.complete part.headers part.content = part := by
    rw [Part.complete, ← framable.isLast]
  simp [readPart?, Part.piece, readHeaders?_headerLines framable.isLine, complete]

/-! ## Reading a body -/

/-- What is written for complete parts. -/
def encoded (boundary : String) (parts : List Part) : Bytes :=
  parts.flatMap (Encoder.start.encode boundary)

theorem encoded_eq
    {boundary : String}
    {parts : List Part}
    (framable : ∀ part ∈ parts, part.IsFramable boundary) :
    encoded boundary parts = (parts.map Part.piece).flatMap (mark boundary ++ ·) := by
  induction parts with
  | nil => rfl
  | cons part parts induction =>
      have others := induction fun other member =>
        framable other (List.mem_cons_of_mem part member)
      rw [encoded, List.flatMap_cons, ← encoded, others,
        encode_start boundary (framable part (List.mem_cons_self ..)).isLast]
      rfl

theorem getLast?_pieces_ne
    (parts : List Part) :
    (parts.map Part.piece).getLast? ≠ some closingPiece := by
  intro isLast
  obtain ⟨part, member, isClosing⟩ :=
    List.mem_map.mp (List.mem_of_getLast? isLast)
  simp [Part.piece, closingPiece, lineEnd, dashes] at isClosing

/-- A body that was not closed is decoded to its parts, and known not to be closed. -/
theorem decode?_encoded
    {boundary : String}
    (isBoundary : IsBoundary boundary)
    {parts : List Part}
    (framable : ∀ part ∈ parts, part.IsFramable boundary) :
    decode? boundary (encoded boundary parts) = some ⟨parts, false⟩ := by
  have cut : cutAll (mark boundary) 0 (encoded boundary parts) =
      [] :: parts.map Part.piece := by
    rw [encoded_eq framable]
    refine cutAll_flatMap (IsBoundary.mark_ne_nil boundary) fun piece member rest _ => ?_
    obtain ⟨part, partMember, rfl⟩ := List.mem_map.mp member
    exact (framable part partMember).unmarked isBoundary rest
  have isOpen : ((parts.map Part.piece).getLast? == some (dashes ++ lineEnd)) = false :=
    beq_eq_false_iff_ne.mpr (getLast?_pieces_ne parts)
  have readBack := mapM_map_of_read fun part member => readPart?_piece (framable part member)
  rw [decode?, ← mark, cut]
  simp only [isOpen, Bool.false_eq_true, if_false, readBack]
  rfl

/-- A body that was closed is decoded to its parts, and known to be closed. -/
theorem decode?_encoded_closing
    {boundary : String}
    (isBoundary : IsBoundary boundary)
    {parts : List Part}
    (framable : ∀ part ∈ parts, part.IsFramable boundary) :
    decode? boundary (encoded boundary parts ++ closing boundary) = some ⟨parts, true⟩ := by
  have together : encoded boundary parts ++ closing boundary =
      (parts.map Part.piece ++ [closingPiece]).flatMap (mark boundary ++ ·) := by
    rw [encoded_eq framable, closing_eq]
    simp
  have cut : cutAll (mark boundary) 0 (encoded boundary parts ++ closing boundary) =
      [] :: (parts.map Part.piece ++ [closingPiece]) := by
    rw [together]
    refine cutAll_flatMap (IsBoundary.mark_ne_nil boundary) fun piece member rest _ => ?_
    rcases List.mem_append.mp member with member | member
    · obtain ⟨part, partMember, rfl⟩ := List.mem_map.mp member
      exact (framable part partMember).unmarked isBoundary rest
    · rw [List.mem_singleton.mp member]
      exact unmarked_closingPiece isBoundary rest
  have readBack := mapM_map_of_read fun part member => readPart?_piece (framable part member)
  rw [decode?, ← mark, cut]
  simp [show dashes ++ lineEnd = closingPiece from rfl, readBack]

end QueryGateway.Multipart
