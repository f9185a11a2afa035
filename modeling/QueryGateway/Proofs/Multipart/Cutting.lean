import QueryGateway.Multipart.Decoding

/-!
# Cutting at marks

Bytes that were put together from pieces with a mark between them are cut into
those pieces again, provided that no mark begins inside a piece.  Whether one
does depends on what stands behind the piece as well, since a mark may begin
in a piece and end behind it; `Unmarked` speaks about both.

The second half of the file is about sequences that are separated by single
bytes: a sequence without the separator that occurs in the whole occurs on one
side of it.
-/

namespace QueryGateway.Multipart

/-- No mark begins within a piece that is followed by `rest`. -/
def Unmarked (mark piece rest : Bytes) : Prop :=
  ∀ back, back <:+ piece → back ≠ [] → ¬ mark <+: back ++ rest

namespace Unmarked

theorem nil
    (mark rest : Bytes) :
    Unmarked mark [] rest := by
  intro back isSuffix nonempty
  exact (nonempty (List.suffix_nil.mp isSuffix)).elim

theorem head
    {mark piece rest : Bytes}
    {byte : UInt8}
    (unmarked : Unmarked mark (byte :: piece) rest) :
    mark.isPrefixOf (byte :: (piece ++ rest)) = false := by
  have absent := unmarked (byte :: piece) (List.suffix_refl _) (List.cons_ne_nil _ _)
  exact Bool.eq_false_iff.mpr fun found => absent (List.isPrefixOf_iff_prefix.mp found)

theorem tail
    {mark piece rest : Bytes}
    {byte : UInt8}
    (unmarked : Unmarked mark (byte :: piece) rest) :
    Unmarked mark piece rest := by
  intro back isSuffix
  exact unmarked back (isSuffix.trans (List.suffix_cons byte piece))

/-- A piece without the first byte of a mark holds no beginning of it. -/
theorem of_head_not_mem
    {first : UInt8}
    {mark piece : Bytes}
    (absent : first ∉ piece)
    (rest : Bytes) :
    Unmarked (first :: mark) piece rest := by
  rintro (_ | ⟨byte, back⟩) isSuffix nonempty found
  · exact nonempty rfl
  · have same : first = byte := (List.cons_prefix_cons.mp found).1
    exact absent (same ▸ isSuffix.subset (List.mem_cons_self ..))

end Unmarked

/-! ## All occurrences -/

theorem cutAll_skip
    (mark : Bytes)
    (skip : Nat)
    (bytes : Bytes) :
    cutAll mark skip bytes = cutAll mark 0 (bytes.drop skip) := by
  induction bytes generalizing skip with
  | nil => simp [cutAll]
  | cons byte bytes induction =>
      cases skip with
      | zero => rfl
      | succ skip => exact induction skip

/-- A mark at the front ends an empty piece. -/
theorem cutAll_mark
    {mark : Bytes}
    (nonempty : mark ≠ [])
    (rest : Bytes) :
    cutAll mark 0 (mark ++ rest) = [] :: cutAll mark 0 rest := by
  obtain ⟨first, others, rfl⟩ := List.exists_cons_of_ne_nil nonempty
  have found : (first :: others).isPrefixOf (first :: (others ++ rest)) = true :=
    List.isPrefixOf_iff_prefix.mpr (List.prefix_append (first :: others) rest)
  rw [List.cons_append, cutAll, if_pos found, cutAll_skip]
  simp

/-- A piece without a mark goes to the front of what is cut from the rest. -/
theorem cutAll_append
    {mark piece rest next : Bytes}
    {others : List Bytes}
    (unmarked : Unmarked mark piece rest)
    (cut : cutAll mark 0 rest = next :: others) :
    cutAll mark 0 (piece ++ rest) = (piece ++ next) :: others := by
  induction piece with
  | nil => exact cut
  | cons byte piece induction =>
      rw [List.cons_append, cutAll, unmarked.head, induction unmarked.tail]
      rfl

theorem cutAll_unmarked
    {mark piece : Bytes}
    (unmarked : Unmarked mark piece []) :
    cutAll mark 0 piece = [piece] := by
  have nothing : cutAll mark 0 [] = [[]] := rfl
  simpa using cutAll_append unmarked nothing

theorem cutAll_append_mark
    {mark piece rest : Bytes}
    (nonempty : mark ≠ [])
    (unmarked : Unmarked mark piece (mark ++ rest)) :
    cutAll mark 0 (piece ++ (mark ++ rest)) = piece :: cutAll mark 0 rest := by
  simpa using cutAll_append unmarked (cutAll_mark nonempty rest)

/-- Pieces with a mark in front of each are cut apart again. -/
theorem cutAll_flatMap
    {mark : Bytes}
    (nonempty : mark ≠ [])
    {pieces : List Bytes}
    (unmarked :
      ∀ piece ∈ pieces, ∀ rest, rest = [] ∨ mark <+: rest → Unmarked mark piece rest) :
    cutAll mark 0 (pieces.flatMap (mark ++ ·)) = [] :: pieces := by
  induction pieces with
  | nil => rfl
  | cons piece pieces induction =>
      have others := induction fun other member =>
        unmarked other (List.mem_cons_of_mem piece member)
      rw [List.flatMap_cons, List.append_assoc, cutAll_mark nonempty]
      congr 1
      have followed : pieces.flatMap (mark ++ ·) = [] ∨ mark <+: pieces.flatMap (mark ++ ·) := by
        cases pieces with
        | nil => exact .inl rfl
        | cons second pieces =>
            rw [List.flatMap_cons, List.append_assoc]
            exact .inr (List.prefix_append _ _)
      simpa using cutAll_append (unmarked piece (List.mem_cons_self ..) _ followed) others

/-! ## The first occurrence -/

theorem cut?_mark
    {mark : Bytes}
    (nonempty : mark ≠ [])
    (after : Bytes) :
    cut? mark (mark ++ after) = some ([], after) := by
  obtain ⟨first, others, rfl⟩ := List.exists_cons_of_ne_nil nonempty
  have found : (first :: others).isPrefixOf (first :: (others ++ after)) = true :=
    List.isPrefixOf_iff_prefix.mpr (List.prefix_append (first :: others) after)
  simp [cut?]

/-- A piece without a mark goes to the front of what stands before the first mark. -/
theorem cut?_append
    {mark piece rest before after : Bytes}
    (unmarked : Unmarked mark piece rest)
    (cut : cut? mark rest = some (before, after)) :
    cut? mark (piece ++ rest) = some (piece ++ before, after) := by
  induction piece with
  | nil => exact cut
  | cons byte piece induction =>
      rw [List.cons_append, cut?, unmarked.head, induction unmarked.tail]
      rfl

theorem cut?_append_mark
    {mark before after : Bytes}
    (nonempty : mark ≠ [])
    (unmarked : Unmarked mark before (mark ++ after)) :
    cut? mark (before ++ (mark ++ after)) = some (before, after) := by
  simpa using cut?_append unmarked (cut?_mark nonempty after)

@[simp]
theorem dropMark?_append
    (mark rest : Bytes) :
    dropMark? mark (mark ++ rest) = some rest := by
  simp [dropMark?]

@[simp]
theorem dropLineEnd?_append
    (bytes : Bytes) :
    dropLineEnd? (bytes ++ lineEnd) = some bytes := by
  simp [dropLineEnd?]

/-! ## Separators -/

/-- A sequence without the separator occurs on one side of it, if it occurs at all. -/
theorem infix_of_separated
    {sought right : Bytes}
    {separator : UInt8}
    (left : Bytes)
    (absent : separator ∉ sought)
    (found : sought <:+: left ++ separator :: right) :
    sought <:+: left ∨ sought <:+: right := by
  have notAcross : ∀ {front}, front <:+: sought → front <+: separator :: right → front = [] := by
    rintro (_ | ⟨byte, front⟩) within isPrefix
    · rfl
    · have same : byte = separator := (List.cons_prefix_cons.mp isPrefix).1
      exact (absent (same ▸ within.subset (List.mem_cons_self ..))).elim
  rcases List.infix_append_iff.mp found with inLeft | inRight | ⟨front, back, rfl, isSuffix, isPrefix⟩
  · exact .inl inLeft
  · rcases List.infix_cons_iff.mp inRight with isPrefix | inRight
    · rw [notAcross (List.infix_refl _) isPrefix]
      exact .inl List.nil_infix
    · exact .inr inRight
  · rw [notAcross (List.suffix_append front back).isInfix isPrefix, List.append_nil]
    exact .inl isSuffix.isInfix

end QueryGateway.Multipart
