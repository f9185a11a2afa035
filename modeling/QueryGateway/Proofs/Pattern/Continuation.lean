import QueryGateway.Pattern.Reader

/-!
# Reading on

A pattern that stands before a closing parenthesis and a dollar sign is read as
it is alone.  Where a reader stops, the same is left as before with these two
characters behind it.  Only a comment that runs to the end of the pattern
swallows them, and then nothing is left in both cases.
-/

namespace QueryGateway.Pattern.Reader

/-- One text is another one with `)$` behind it, or both are empty. -/
inductive Continues : List Char → List Char → Prop where
  | closed : Continues [] [')', '$']
  | swallowed : Continues [] []
  | cons
      {input longer : List Char}
      (character : Char)
      (continues : Continues input longer) :
      Continues (character :: input) (character :: longer)

variable
    {input longer : List Char}

theorem continues_append
    (input : List Char) :
    Continues input (input ++ [')', '$']) := by
  induction input with
  | nil => exact .closed
  | cons character input induction => exact .cons character induction

/-- A longer text is read to the same value, and what is left is longer in the same way. -/
def ReadsOn {α : Type} (result : Option (α × List Char)) (value : α) (rest : List Char) : Prop :=
  ∃ left, result = some (value, left) ∧ Continues rest left

theorem readsOn_some
    {α : Type}
    {value : α}
    {rest left : List Char}
    (continues : Continues rest left) :
    ReadsOn (some (value, left)) value rest :=
  ⟨left, rfl, continues⟩

/-! ## Blanks -/

theorem Continues.passComments
    (continues : Continues input longer)
    (inside : Bool) :
    Continues (passComments inside input) (passComments inside longer) := by
  induction continues generalizing inside with
  | closed =>
      cases inside with
      | false => exact .closed
      | true => exact .swallowed
  | swallowed => cases inside <;> exact .swallowed
  | cons character _ induction =>
      cases inside with
      | false =>
          rw [Reader.passComments, Reader.passComments]
          split
          · exact induction false
          · split
            · exact induction true
            · exact .cons character ‹_›
      | true => exact induction _

theorem Continues.passBlanks
    (continues : Continues input longer)
    (verbose : Bool) :
    Continues (passBlanks verbose input) (passBlanks verbose longer) := by
  rw [Reader.passBlanks, Reader.passBlanks]
  split
  · exact continues.passComments false
  · exact continues

theorem Continues.dropWhile
    (continues : Continues input longer)
    {condition : Char → Bool}
    (closes : condition ')' = false) :
    Continues (input.dropWhile condition) (longer.dropWhile condition) := by
  induction continues with
  | closed =>
      rw [List.dropWhile_cons_of_neg (by simp [closes])]
      exact .closed
  | swallowed => exact .swallowed
  | cons character continues induction =>
      rw [List.dropWhile_cons, List.dropWhile_cons]
      split
      · exact induction
      · exact .cons character continues

theorem Continues.length_le
    (continues : Continues input longer) :
    input.length ≤ longer.length := by
  induction continues with
  | closed | swallowed => exact Nat.zero_le _
  | cons _ _ induction => exact Nat.succ_le_succ induction

theorem Continues.exists_tail
    {character : Char}
    {rest : List Char}
    (continues : Continues (character :: rest) longer) :
    ∃ left, longer = character :: left ∧ Continues rest left := by
  cases continues with
  | cons _ continues => exact ⟨_, rfl, continues⟩

/-- A character that stands behind blanks stands there in the longer text too. -/
theorem Continues.exists_behind
    (continues : Continues input longer)
    {verbose : Bool}
    {character : Char}
    {rest : List Char}
    (isHere : Reader.passBlanks verbose input = character :: rest) :
    ∃ left, Reader.passBlanks verbose longer = character :: left ∧ Continues rest left := by
  have blanks := continues.passBlanks verbose
  rw [isHere] at blanks
  exact blanks.exists_tail

/-- A text that begins with a character is the longer one of a text that does, or with `)`. -/
theorem Continues.not_headed
    (continues : Continues input longer)
    {character : Char}
    (different : character ≠ ')')
    (notHere : ∀ rest, input = character :: rest → False) :
    ∀ rest, longer = character :: rest → False := by
  cases continues with
  | closed =>
      rintro _ ⟨⟩
      exact different rfl
  | swallowed => nofun
  | cons other =>
      rintro _ ⟨⟩
      exact notHere _ rfl

theorem Continues.not_paired
    (continues : Continues input longer)
    {first second : Char}
    (firstDiffers : first ≠ ')')
    (secondDiffers : second ≠ ')')
    (notHere : ∀ inner, input = first :: second :: inner → False) :
    ∀ inner, longer = first :: second :: inner → False := by
  rintro inner rfl
  cases continues with
  | closed => exact firstDiffers rfl
  | cons _ behind =>
      exact behind.not_headed secondDiffers (fun inner same => notHere inner (congrArg _ same)) _
        rfl

/-- A character begins both texts, or none of them. -/
theorem Continues.headed_or_not
    (continues : Continues input longer)
    {character : Char}
    (different : character ≠ ')') :
    (∃ rest left, input = character :: rest ∧ longer = character :: left ∧ Continues rest left) ∨
      (∀ rest, input = character :: rest → False) ∧ ∀ rest, longer = character :: rest → False := by
  by_cases isHere : ∃ rest, input = character :: rest
  · obtain ⟨rest, rfl⟩ := isHere
    obtain ⟨left, rfl, behind⟩ := continues.exists_tail
    exact .inl ⟨rest, left, rfl, rfl, behind⟩
  · have notHere : ∀ rest, input = character :: rest → False := fun rest same =>
      isHere ⟨rest, same⟩
    exact .inr ⟨notHere, continues.not_headed different notHere⟩

theorem Continues.not_isEmpty
    (continues : Continues input longer)
    (filled : ¬ input.isEmpty) :
    ¬ longer.isEmpty := by
  cases continues with
  | closed | cons => exact Bool.false_ne_true
  | swallowed => exact filled

theorem Continues.head?_eq
    (continues : Continues input longer) :
    longer.head? = input.head? ∨ (input.head? = none ∧ longer.head? = some ')') := by
  cases continues with
  | closed => exact .inr ⟨rfl, rfl⟩
  | swallowed | cons => exact .inl rfl

theorem Continues.takeWhile_eq
    {condition : Char → Bool}
    (continues : Continues input longer)
    (meets : input.dropWhile condition ≠ []) :
    longer.takeWhile condition = input.takeWhile condition := by
  induction continues with
  | closed | swallowed => exact absurd rfl meets
  | cons character _ induction =>
      rw [List.takeWhile_cons, List.takeWhile_cons]
      rw [List.dropWhile_cons] at meets
      split
      case isTrue holds =>
        rw [if_pos holds] at meets
        rw [induction meets]
      case isFalse => rfl

/-- The first mark in the longer text, if there is one, stands in the shorter one already. -/
theorem Continues.dropWhile_mark
    (continues : Continues input longer)
    (mark : Char)
    (passesClosing : (')' != mark) = true)
    (passesEnd : ('$' != mark) = true) :
    (input.dropWhile (· != mark) = [] ∧ longer.dropWhile (· != mark) = []) ∨
      ∃ rest left, input.dropWhile (· != mark) = mark :: rest ∧
        longer.dropWhile (· != mark) = mark :: left ∧ Continues rest left := by
  induction continues with
  | closed =>
      left
      rw [List.dropWhile_cons, if_pos passesClosing, List.dropWhile_cons, if_pos passesEnd]
      exact ⟨rfl, rfl⟩
  | swallowed => exact .inl ⟨rfl, rfl⟩
  | cons character continues induction =>
      rw [List.dropWhile_cons, List.dropWhile_cons]
      split
      case isTrue => exact induction
      case isFalse isMark =>
        obtain rfl : character = mark := by simpa using isMark
        exact .inr ⟨_, _, rfl, rfl, continues⟩

theorem Continues.peekBlanks
    (continues : Continues input longer)
    (verbose : Bool) :
    Reader.peekBlanks verbose longer = Reader.peekBlanks verbose input ∨
      (Reader.peekBlanks verbose input = none ∧ Reader.peekBlanks verbose longer = some ')') := by
  have blanks := continues.dropWhile (show Unicode.isBlank ')' = false by decide)
  cases verbose with
  | false => exact continues.head?_eq
  | true =>
      rw [Reader.peekBlanks, Reader.peekBlanks, if_pos rfl, if_pos rfl]
      generalize input.dropWhile Unicode.isBlank = behind at blanks ⊢
      generalize longer.dropWhile Unicode.isBlank = behindThere at blanks ⊢
      obtain ⟨_, _, rfl, rfl, comment⟩ | ⟨noComment, noCommentThere⟩ :=
        blanks.headed_or_not (show '#' ≠ ')' by decide)
      · exact (comment.dropWhile (by decide)).head?_eq
      · simp only []
        exact blanks.head?_eq

/-- A reader that has a step to go has one in the longer text too. -/
theorem exists_succ_of_lt
    {fuel more : Nat}
    (enough : fuel < more) :
    ∃ less, more = less + 1 ∧ fuel ≤ less := by
  cases more with
  | zero => cases enough
  | succ less => exact ⟨less, rfl, Nat.le_of_lt_succ enough⟩

theorem length_passComments_le
    (inside : Bool)
    (input : List Char) :
    (passComments inside input).length ≤ input.length := by
  fun_induction passComments inside input with
  | case1 => exact Nat.le_refl _
  | case2 | case3 | case4 => exact Nat.le_succ_of_le ‹_›
  | case5 => exact Nat.le_refl _

theorem length_passBlanks_le
    (verbose : Bool)
    (input : List Char) :
    (passBlanks verbose input).length ≤ input.length := by
  rw [passBlanks]
  split
  · exact length_passComments_le false input
  · exact Nat.le_refl _

/-! ## Escapes -/

section

variable
    {verbose : Bool}
    {rest : List Char}

theorem fixedHex_reads_on
    {count code value : Nat}
    (continues : Continues input longer)
    (isRead : fixedHex verbose count code input = some (value, rest)) :
    ReadsOn (fixedHex verbose count code longer) value rest := by
  induction count generalizing code input longer with
  | zero =>
      cases isRead
      exact readsOn_some continues
  | succ count induction =>
      cases continues with
      | closed | swallowed => cases isRead
      | cons digit continues =>
          rw [fixedHex] at isRead ⊢
          obtain ⟨digitValue, isDigit, isRead⟩ := Option.bind_eq_some_iff.mp isRead
          rw [isDigit]
          exact induction (continues.passBlanks verbose) isRead

theorem bracedHex_reads_on
    {fuel more value : Nat}
    {code : Option Nat}
    (continues : Continues input longer)
    (enough : fuel ≤ more)
    (isRead : bracedHex verbose fuel code input = some (value, rest)) :
    ReadsOn (bracedHex verbose more code longer) value rest := by
  fun_induction bracedHex verbose fuel code input generalizing more longer with
  | case1 _ code input inner isHere =>
      obtain ⟨left, isThere, continues⟩ := continues.exists_behind isHere
      obtain ⟨_, rfl, same⟩ := Option.map_eq_some_iff.mp isRead
      cases same
      rw [bracedHex.eq_def, isThere]
      exact readsOn_some (continues.passBlanks verbose)
  | case2 code input fuel digit inner notClosed isHere induction =>
      obtain ⟨more, rfl, fits⟩ := exists_succ_of_lt enough
      obtain ⟨left, isThere, continues⟩ := continues.exists_behind isHere
      obtain ⟨digitValue, isDigit, isRead⟩ := Option.bind_eq_some_iff.mp isRead
      rw [bracedHex.eq_def, isThere]
      simp only [isDigit]
      exact induction digitValue continues fits isRead
  | case3 => cases isRead

theorem bracedName_reads_on
    {fuel more : Nat}
    {name : List Char}
    (continues : Continues input longer)
    (enough : fuel ≤ more)
    (isRead : bracedName verbose fuel input = some (name, rest)) :
    ReadsOn (bracedName verbose more longer) name rest := by
  fun_induction bracedName verbose fuel input generalizing more longer name with
  | case1 _ input inner isHere =>
      obtain ⟨left, isThere, continues⟩ := continues.exists_behind isHere
      cases isRead
      rw [bracedName.eq_def, isThere]
      exact readsOn_some continues
  | case2 input fuel character inner notClosed isHere induction =>
      obtain ⟨more, rfl, fits⟩ := exists_succ_of_lt enough
      obtain ⟨left, isThere, continues⟩ := continues.exists_behind isHere
      obtain ⟨⟨others, _⟩, isInner, same⟩ := Option.map_eq_some_iff.mp isRead
      cases same
      obtain ⟨_, isRead, continues⟩ :=
        induction continues fits isInner
      rw [bracedName.eq_def, isThere]
      simp only [isRead]
      exact readsOn_some continues
  | case3 => cases isRead

theorem boundaryName_reads_on
    {fuel more : Nat}
    {name : List Char}
    (continues : Continues input longer)
    (enough : fuel ≤ more)
    (isRead : boundaryName verbose fuel input = some (name, rest)) :
    ReadsOn (boundaryName verbose more longer) name rest := by
  fun_induction boundaryName verbose fuel input generalizing more longer name with
  | case1 =>
      obtain ⟨left, rfl, tail⟩ := continues.exists_tail
      cases isRead
      rw [boundaryName.eq_def]
      exact readsOn_some tail
  | case2 fuel character inner notClosed isPart induction =>
      obtain ⟨more, rfl, fits⟩ := exists_succ_of_lt enough
      obtain ⟨left, rfl, tail⟩ := continues.exists_tail
      obtain ⟨⟨others, _⟩, isInner, same⟩ := Option.map_eq_some_iff.mp isRead
      cases same
      obtain ⟨_, isRead, continues⟩ :=
        induction (tail.passBlanks verbose) fits isInner
      rw [boundaryName.eq_def]
      simp only [isPart, if_true, isRead]
      exact readsOn_some continues
  | case3 | case4 => cases isRead

theorem hexEscape_reads_on
    {digits : Nat}
    {escaped : Escape}
    (continues : Continues input longer)
    (isRead : hexEscape verbose digits input = some (escaped, rest)) :
    ReadsOn (hexEscape verbose digits longer) escaped rest := by
  have blanks := continues.passBlanks verbose
  rw [hexEscape] at isRead ⊢
  split at isRead
  case h_1 inner isHere =>
    obtain ⟨left, isThere, continues⟩ := continues.exists_behind isHere
    obtain ⟨⟨code, _⟩, isCode, isRead⟩ := Option.bind_eq_some_iff.mp isRead
    obtain ⟨character, isScalar, same⟩ := Option.bind_eq_some_iff.mp isRead
    cases same
    obtain ⟨_, isCode, continues⟩ := bracedHex_reads_on continues continues.length_le isCode
    simp only [isThere, isCode, bind, Option.bind, isScalar]
    exact readsOn_some continues
  case h_2 notBraced =>
    have notBracedThere := blanks.not_headed (by decide) notBraced
    obtain ⟨⟨code, _⟩, isCode, isRead⟩ := Option.bind_eq_some_iff.mp isRead
    obtain ⟨character, isScalar, same⟩ := Option.bind_eq_some_iff.mp isRead
    cases same
    obtain ⟨_, isCode, continues⟩ := fixedHex_reads_on blanks isCode
    split
    case h_1 isThere => exact (notBracedThere _ isThere).elim
    case h_2 =>
      simp only [isCode, bind, Option.bind, isScalar]
      exact readsOn_some continues

theorem propertyEscape_reads_on
    {negated : Bool}
    {escaped : Escape}
    (continues : Continues input longer)
    (isRead : propertyEscape verbose negated input = some (escaped, rest)) :
    ReadsOn (propertyEscape verbose negated longer) escaped rest := by
  have blanks := continues.passBlanks verbose
  rw [propertyEscape] at isRead ⊢
  split at isRead
  case h_1 | h_2 => cases isRead
  case h_3 inner isHere =>
    obtain ⟨left, isThere, continues⟩ := continues.exists_behind isHere
    obtain ⟨⟨name, _⟩, isName, same⟩ := Option.bind_eq_some_iff.mp isRead
    cases same
    obtain ⟨_, isName, continues⟩ := bracedName_reads_on continues continues.length_le isName
    simp only [isThere, isName, bind, Option.bind]
    exact readsOn_some continues
  case h_4 character inner notEscape notBraced isHere =>
    obtain ⟨left, isThere, continues⟩ := continues.exists_behind isHere
    cases isRead
    simp only [isThere]
    exact readsOn_some (continues.passBlanks verbose)

theorem boundaryEscape_reads_on
    {escaped : Escape}
    (continues : Continues input longer)
    (isRead : boundaryEscape verbose input = some (escaped, rest)) :
    ReadsOn (boundaryEscape verbose longer) escaped rest := by
  rw [boundaryEscape.eq_def] at isRead ⊢
  split at isRead
  case h_1 inner =>
    obtain ⟨left, rfl, tail⟩ := continues.exists_tail
    split at isRead
    case h_1 => cases isRead
    case h_2 character more isHere =>
      obtain ⟨left, isThere, behind⟩ := tail.exists_behind isHere
      simp only [isThere]
      split at isRead
      case isTrue isPart =>
        obtain ⟨⟨name, _⟩, isName, isRead⟩ := Option.bind_eq_some_iff.mp isRead
        obtain ⟨_, isName, continues⟩ := boundaryName_reads_on (.cons character behind)
          (Nat.succ_le_succ behind.length_le) isName
        simp only [isPart, if_true, isName, bind, Option.bind] at isRead ⊢
        generalize String.ofList name = kind at isRead ⊢
        split at isRead
        case h_1 | h_2 | h_3 | h_4 =>
          cases isRead
          exact readsOn_some continues
        case h_5 => cases isRead
      case isFalse isPart =>
        cases isRead
        rw [if_neg isPart]
        exact readsOn_some continues
  case h_2 notBraced =>
    have notBracedThere := continues.not_headed (by decide) notBraced
    cases isRead
    split
    case h_1 => exact (notBracedThere _ rfl).elim
    case h_2 => exact readsOn_some continues

theorem escape_reads_on
    {escaped : Escape}
    (continues : Continues input longer)
    (isRead : escape verbose input = some (escaped, rest)) :
    ReadsOn (escape verbose longer) escaped rest := by
  cases continues with
  | closed | swallowed => cases isRead
  | cons character continues =>
      rw [escape.eq_def] at isRead ⊢
      split at isRead
      case h_1 same => cases same
      case h_2 same | h_3 same | h_4 same =>
        cases same
        exact hexEscape_reads_on continues isRead
      case h_5 same | h_6 same =>
        cases same
        exact propertyEscape_reads_on continues isRead
      case h_24 same =>
        cases same
        exact boundaryEscape_reads_on continues isRead
      case h_25 same =>
        cases same
        split at isRead
        case isFalse => cases isRead
        case isTrue isEscapable =>
          cases isRead
          refine ⟨_, ?_, continues⟩
          simp_all
      all_goals
        rename_i same
        cases same
        cases isRead
        exact readsOn_some continues

end

end QueryGateway.Pattern.Reader
