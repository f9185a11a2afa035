import QueryGateway.Proofs.Pattern.Continuation

/-!
# Reading classes on

A class in brackets is read alike where the longer text goes on behind it.  What
follows a bracket is tried as a named class first, so it has to be no such class
in the longer text either if it is none in the shorter one.
-/

namespace QueryGateway.Pattern.Reader

variable
    {input longer rest : List Char}
    {verbose : Bool}

/-- The named class whose name begins behind the colon and, if negated, behind the caret. -/
def namedSet? (negated : Bool) (input : List Char) : Option (SetExpression × List Char) :=
  match input.dropWhile (· != ':') with
  | ':' :: ']' :: after => do
      let name ← asciiClass? (String.ofList (input.takeWhile (· != ':')))
      return (.ascii name negated, after)
  | _ => none

theorem asciiSet?_caret
    (input : List Char) :
    asciiSet? (':' :: '^' :: input) = namedSet? true input :=
  rfl

theorem asciiSet?_colon
    (notNegated : ∀ rest, input = '^' :: rest → False) :
    asciiSet? (':' :: input) = namedSet? false input := by
  rw [asciiSet?]
  · rfl
  · exact notNegated

theorem asciiSet?_of_not_colon
    (notNamed : ∀ rest, input = ':' :: rest → False) :
    asciiSet? input = none := by
  rw [asciiSet?.eq_def]
  split
  case h_1 => exact (notNamed _ rfl).elim
  case h_2 => rfl

/-- Two readings of a text and a longer one give nothing, or the same value and like remainders. -/
def ReadsAlike {α : Type} (result longerResult : Option (α × List Char)) : Prop :=
  (result = none ∧ longerResult = none) ∨
    ∃ value rest left,
      result = some (value, rest) ∧ longerResult = some (value, left) ∧ Continues rest left

theorem namedSet?_reads_alike
    (continues : Continues input longer)
    (negated : Bool) :
    ReadsAlike (namedSet? negated input) (namedSet? negated longer) := by
  obtain ⟨noColon, noColonThere⟩ | ⟨rest, left, isHere, isThere, behind⟩ :=
    continues.dropWhile_mark ':' (by decide) (by decide)
  · left
    simp only [namedSet?, noColon, noColonThere, and_self]
  · have sameName : longer.takeWhile (· != ':') = input.takeWhile (· != ':') :=
      continues.takeWhile_eq (by simp [isHere])
    rw [namedSet?, namedSet?, isHere, isThere, sameName]
    obtain ⟨_, _, rfl, rfl, after⟩ | ⟨notClosed, notClosedThere⟩ :=
      behind.headed_or_not (show ']' ≠ ')' by decide)
    · cases asciiClass? (String.ofList (input.takeWhile (· != ':'))) with
      | none => exact .inl ⟨rfl, rfl⟩
      | some name => exact .inr ⟨_, _, _, rfl, rfl, after⟩
    · left
      constructor
      · split
        case h_1 same => cases same; exact (notClosed _ rfl).elim
        case h_2 => rfl
      · split
        case h_1 same => cases same; exact (notClosedThere _ rfl).elim
        case h_2 => rfl

theorem asciiSet?_reads_alike
    (continues : Continues input longer) :
    ReadsAlike (asciiSet? input) (asciiSet? longer) := by
  obtain ⟨_, _, rfl, rfl, behind⟩ | ⟨notNamed, notNamedThere⟩ :=
    continues.headed_or_not (show ':' ≠ ')' by decide)
  · obtain ⟨_, _, rfl, rfl, name⟩ | ⟨notNegated, notNegatedThere⟩ :=
      behind.headed_or_not (show '^' ≠ ')' by decide)
    · rw [asciiSet?_caret, asciiSet?_caret]
      exact namedSet?_reads_alike name true
    · rw [asciiSet?_colon notNegated, asciiSet?_colon notNegatedThere]
      exact namedSet?_reads_alike behind false
  · exact .inl ⟨asciiSet?_of_not_colon notNamed, asciiSet?_of_not_colon notNamedThere⟩

theorem setItem_reads_on
    {escaped : Escape}
    (continues : Continues input longer)
    (isRead : setItem verbose input = some (escaped, rest)) :
    ReadsOn (setItem verbose longer) escaped rest := by
  rw [setItem.eq_def] at isRead ⊢
  split at isRead
  case h_1 => cases isRead
  case h_2 =>
    obtain ⟨left, rfl, behind⟩ := continues.exists_tail
    exact escape_reads_on behind isRead
  case h_3 character inner notEscape =>
    obtain ⟨left, rfl, behind⟩ := continues.exists_tail
    cases isRead
    split
    case h_1 same => cases same
    case h_2 same => cases same; exact (notEscape rfl).elim
    case h_3 same => cases same; exact readsOn_some behind

/-- The hyphen makes no range in the longer text exactly if it makes none in the shorter. -/
theorem Continues.endsItems_eq
    (continues : Continues input longer) :
    [some ']', some '-'].contains (Reader.peekBlanks verbose longer) =
      [some ']', some '-'].contains (Reader.peekBlanks verbose input) := by
  obtain same | ⟨none, closing⟩ := continues.peekBlanks verbose
  · rw [same]
  · rw [none, closing]
    rfl

theorem setRange_reads_on
    {item : SetExpression}
    (continues : Continues input longer)
    (isRead : setRange verbose input = some (item, rest)) :
    ReadsOn (setRange verbose longer) item rest := by
  rw [setRange] at isRead ⊢
  obtain ⟨⟨first, inner⟩, isFirst, isRead⟩ := Option.bind_eq_some_iff.mp isRead
  obtain ⟨left, isFirst, behind⟩ := setItem_reads_on continues isFirst
  have blanks := behind.passBlanks verbose
  simp only [isFirst, bind, Option.bind] at isRead ⊢
  generalize passBlanks verbose inner = after at blanks isRead
  generalize passBlanks verbose left = afterwards at blanks ⊢
  split at isRead
  case h_1 => cases isRead
  case h_2 more =>
    obtain ⟨moreThere, rfl, continues⟩ := blanks.exists_tail
    simp only [continues.endsItems_eq]
    split at isRead
    case isTrue ends =>
      obtain ⟨alone, isSet, same⟩ := Option.bind_eq_some_iff.mp isRead
      cases same
      simp only [ends, if_true, isSet]
      exact readsOn_some (.cons '-' continues)
    case isFalse ends =>
      obtain ⟨⟨last, _⟩, isLast, isRead⟩ := Option.bind_eq_some_iff.mp isRead
      obtain ⟨_, isLast, continues⟩ := setItem_reads_on (continues.passBlanks verbose) isLast
      rw [if_neg ends]
      simp only [isLast]
      match first, last, isRead with
      | .literal low, .literal high, isRead =>
          obtain ⟨ordered, same⟩ := Option.ite_none_right_eq_some.mp isRead
          cases same
          exact ⟨_, if_pos ordered, continues⟩
      | .literal _, .anchor _, isRead | .literal _, .letter .., isRead
      | .literal _, .property .., isRead | .anchor _, _, isRead | .letter .., _, isRead
      | .property .., _, isRead => cases isRead
  case h_3 notEmpty notHyphen =>
    obtain ⟨alone, isSet, same⟩ := Option.bind_eq_some_iff.mp isRead
    cases same
    have notHyphenThere := blanks.not_headed (by decide) notHyphen
    split
    case h_1 =>
      cases blanks
      exact (notEmpty rfl).elim
    case h_2 => exact (notHyphenThere _ rfl).elim
    case h_3 =>
      simp only [isSet]
      exact readsOn_some blanks

theorem leadingHyphens_reads_on
    {fuel more : Nat}
    (continues : Continues input longer)
    (enough : input.length ≤ fuel)
    (enoughThere : longer.length ≤ more) :
    (leadingHyphens verbose more longer).1 = (leadingHyphens verbose fuel input).1 ∧
      Continues (leadingHyphens verbose fuel input).2 (leadingHyphens verbose more longer).2 := by
  fun_induction leadingHyphens verbose fuel input generalizing longer more with
  | case1 fuel inner others rest isInner induction =>
      obtain ⟨left, rfl, behind⟩ := continues.exists_tail
      obtain ⟨more, rfl, fits⟩ := exists_succ_of_lt enoughThere
      obtain ⟨sameHyphens, continues⟩ :=
        induction (behind.passBlanks verbose)
          (Nat.le_trans (length_passBlanks_le _ _) (Nat.le_of_succ_le_succ enough))
          (Nat.le_trans (length_passBlanks_le _ _) fits)
      rw [isInner] at sameHyphens continues
      rw [leadingHyphens]
      exact ⟨congrArg (SetExpression.literal ⟨'-', false⟩ :: ·) sameHyphens, continues⟩
  | case2 fuel input notHyphen =>
      have notHyphenThere : ∀ inner, longer = '-' :: inner → False := by
        refine continues.not_headed (by decide) fun inner same => ?_
        cases same
        obtain ⟨fuel, rfl, _⟩ := exists_succ_of_lt enough
        exact notHyphen _ _ rfl rfl
      rw [leadingHyphens.eq_2 _ _ _ fun _ inner _ => notHyphenThere inner]
      exact ⟨rfl, continues⟩

/-- The caret that negates a class, if the class begins with it. -/
def negation (verbose : Bool) (input : List Char) : Bool × List Char :=
  match input with
  | '^' :: rest => (true, passBlanks verbose rest)
  | _ => (false, input)

/-- The items a class begins with: hyphens, or else a closing bracket that closes nothing. -/
def firstItems (verbose : Bool) (hyphens : List SetExpression) (input : List Char) :
    List SetExpression × List Char :=
  match hyphens, input with
  | [], ']' :: rest => ([.literal ⟨']', false⟩], passBlanks verbose rest)
  | _, _ => (hyphens, input)

theorem bracketed_succ
    (fuel : Nat)
    (input : List Char) :
    bracketed (fuel + 1) verbose input =
      let (negated, input) := negation verbose (passBlanks verbose input)
      let (hyphens, input) := leadingHyphens verbose input.length input
      let (items, input) := firstItems verbose hyphens input
      if input.isEmpty then
        none
      else
        (setItems fuel verbose none items input).map fun (inner, rest) =>
          (negated, inner, rest) := by
  rw [bracketed]
  rfl

theorem negation_reads_on
    (continues : Continues input longer) :
    (negation verbose longer).1 = (negation verbose input).1 ∧
      Continues (negation verbose input).2 (negation verbose longer).2 := by
  obtain ⟨_, _, rfl, rfl, behind⟩ | ⟨notNegated, notNegatedThere⟩ :=
    continues.headed_or_not (show '^' ≠ ')' by decide)
  · exact ⟨rfl, behind.passBlanks verbose⟩
  · rw [negation.eq_2 _ _ notNegated, negation.eq_2 _ _ notNegatedThere]
    exact ⟨rfl, continues⟩

theorem firstItems_reads_on
    (continues : Continues input longer)
    (hyphens : List SetExpression) :
    (firstItems verbose hyphens longer).1 = (firstItems verbose hyphens input).1 ∧
      Continues (firstItems verbose hyphens input).2 (firstItems verbose hyphens longer).2 := by
  cases hyphens with
  | nil =>
      obtain ⟨_, _, rfl, rfl, behind⟩ | ⟨noBracket, noBracketThere⟩ :=
        continues.headed_or_not (show ']' ≠ ')' by decide)
      · exact ⟨rfl, behind.passBlanks verbose⟩
      · rw [firstItems.eq_2 _ _ _ fun inner _ => noBracket inner,
          firstItems.eq_2 _ _ _ fun inner _ => noBracketThere inner]
        exact ⟨rfl, continues⟩
  | cons => exact ⟨rfl, continues⟩

mutual

theorem bracketed_reads_on
    {input longer rest : List Char}
    {fuel more : Nat}
    {negated : Bool}
    {inner : SetExpression}
    (continues : Continues input longer)
    (enough : fuel ≤ more)
    (isRead : bracketed fuel verbose input = some (negated, inner, rest)) :
    ∃ left, bracketed more verbose longer = some (negated, inner, left) ∧
      Continues rest left := by
  match fuel, more with
  | 0, _ => cases isRead
  | fuel + 1, more + 1 =>
      have enough := Nat.le_of_succ_le_succ enough
      obtain ⟨sameNegated, opened⟩ := negation_reads_on (continues.passBlanks verbose)
      obtain ⟨sameHyphens, headed⟩ :=
        leadingHyphens_reads_on opened (Nat.le_refl _) (Nat.le_refl _)
      obtain ⟨sameItems, begun⟩ := firstItems_reads_on headed _
      rw [bracketed_succ] at isRead ⊢
      dsimp only at isRead ⊢
      rw [sameNegated, sameHyphens, sameItems]
      obtain ⟨filled, isRead⟩ := Option.ite_none_left_eq_some.mp isRead
      obtain ⟨⟨whole, _⟩, isWhole, same⟩ := Option.map_eq_some_iff.mp isRead
      cases same
      obtain ⟨left, isWhole, continues⟩ := setItems_reads_on begun enough isWhole
      refine ⟨left, ?_, continues⟩
      rw [if_neg (begun.not_isEmpty filled), isWhole]
      rfl
  termination_by fuel

theorem setItems_reads_on
    {input longer rest : List Char}
    {fuel more : Nat}
    {pending : Option (SetOperation × SetExpression)}
    {items : List SetExpression}
    {whole : SetExpression}
    (continues : Continues input longer)
    (enough : fuel ≤ more)
    (isRead : setItems fuel verbose pending items input = some (whole, rest)) :
    ReadsOn (setItems more verbose pending items longer) whole rest := by
  match fuel, more with
  | 0, _ => cases isRead
  | fuel + 1, more + 1 =>
      have enough := Nat.le_of_succ_le_succ enough
      have blanks := continues.passBlanks verbose
      rw [setItems] at isRead ⊢
      generalize passBlanks verbose input = here at blanks isRead
      generalize passBlanks verbose longer = there at blanks ⊢
      split at isRead
      case h_1 => cases isRead
      case h_2 =>
        obtain ⟨left, rfl, behind⟩ := blanks.exists_tail
        cases isRead
        exact readsOn_some behind
      case h_3 | h_4 | h_5 =>
        obtain ⟨left, rfl, first⟩ := blanks.exists_tail
        obtain ⟨left, rfl, second⟩ := first.exists_tail
        exact setItems_reads_on second enough isRead
      case h_6 inner =>
        obtain ⟨left, rfl, behind⟩ := blanks.exists_tail
        obtain ⟨notNamed, notNamedThere⟩ | ⟨named, rest, left, isNamed, isNamedThere, continues⟩ :=
          asciiSet?_reads_alike behind
        · simp only [notNamed] at isRead
          simp only [notNamedThere]
          split at isRead
          case h_1 => cases isRead
          case h_2 isClass =>
            obtain ⟨left, isClass, continues⟩ := bracketed_reads_on behind enough isClass
            simp only [isClass]
            exact setItems_reads_on continues enough isRead
        · simp only [isNamed] at isRead
          simp only [isNamedThere]
          exact setItems_reads_on continues enough isRead
      case h_7 notEmpty notClosed notAnd notMinus notTilde notOpen =>
        split at isRead
        case h_1 => cases isRead
        case h_2 isItem =>
          obtain ⟨left, isItem, continues⟩ := setRange_reads_on blanks isItem
          split
          case h_1 =>
            cases blanks
            exact (notEmpty rfl).elim
          case h_2 => exact (blanks.not_headed (by decide) notClosed _ rfl).elim
          case h_3 => exact (blanks.not_paired (by decide) (by decide) notAnd _ rfl).elim
          case h_4 => exact (blanks.not_paired (by decide) (by decide) notMinus _ rfl).elim
          case h_5 => exact (blanks.not_paired (by decide) (by decide) notTilde _ rfl).elim
          case h_6 => exact (blanks.not_headed (by decide) notOpen _ rfl).elim
          case h_7 =>
            simp only [isItem]
            exact setItems_reads_on continues enough isRead
  termination_by fuel

end

end QueryGateway.Pattern.Reader
