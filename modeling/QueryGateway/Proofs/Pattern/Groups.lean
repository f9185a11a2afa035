import QueryGateway.Proofs.Pattern.Continuation

/-!
# Reading groups and counts on

What a group begins with and how often an item is repeated are read alike where
the longer text goes on behind them.
-/

namespace QueryGateway.Pattern.Reader

variable
    {input longer rest : List Char}
    {verbose : Bool}

theorem flagChange_reads_on
    {change whole : FlagChange}
    {negative : Bool}
    (continues : Continues input longer)
    (isRead : flagChange change negative input = some (whole, rest)) :
    ReadsOn (flagChange change negative longer) whole rest := by
  fun_induction flagChange change negative input generalizing longer with
  | case1 | case2 | case4 | case6 | case7 => cases isRead
  | case3 change negative character inner ends complete =>
      obtain ⟨left, rfl, behind⟩ := continues.exists_tail
      cases isRead
      rw [flagChange, if_pos ends, if_neg complete]
      exact readsOn_some (.cons character behind)
  | case5 change negative character inner goesOn isHyphen first induction =>
      obtain ⟨left, rfl, behind⟩ := continues.exists_tail
      rw [flagChange, if_neg goesOn, if_pos isHyphen, if_neg first]
      exact induction behind isRead
  | case8 change character inner goesOn notHyphen flag isFlag isNew induction =>
      obtain ⟨left, rfl, behind⟩ := continues.exists_tail
      rw [flagChange, if_neg goesOn, if_neg notHyphen]
      simp only [isFlag]
      rw [if_neg isNew]
      exact induction behind isRead
  | case9 change negative character inner goesOn notHyphen flag isFlag isNew isPositive induction =>
      obtain ⟨left, rfl, behind⟩ := continues.exists_tail
      rw [flagChange, if_neg goesOn, if_neg notHyphen]
      simp only [isFlag]
      rw [if_neg isNew, if_neg isPositive]
      exact induction behind isRead

theorem groupName_reads_on
    {name : String}
    (continues : Continues input longer)
    (isRead : groupName input = some (name, rest)) :
    ReadsOn (groupName longer) name rest := by
  rw [groupName] at isRead ⊢
  obtain ⟨noAngle, -⟩ | ⟨after, left, isHere, isThere, behind⟩ :=
    continues.dropWhile_mark '>' (by decide) (by decide)
  · rw [noAngle] at isRead
    split at isRead
    case h_1 same => cases same
    case h_2 => cases isRead
  · rw [isThere, continues.takeWhile_eq (by simp [isHere])]
    rw [isHere] at isRead
    split at isRead
    case h_1 isName same =>
      cases same
      obtain ⟨named, same⟩ := Option.ite_none_right_eq_some.mp isRead
      cases same
      rw [isName]
      simp only [named, if_true]
      exact readsOn_some behind
    case h_2 => cases isRead

theorem countDigits_reads_on
    (verbose : Bool)
    {fuel more : Nat}
    (continues : Continues input longer)
    (enough : input.length ≤ fuel)
    (enoughThere : longer.length ≤ more) :
    (countDigits verbose more longer).1 = (countDigits verbose fuel input).1 ∧
      Continues (countDigits verbose fuel input).2 (countDigits verbose more longer).2 := by
  fun_induction countDigits verbose fuel input generalizing longer more with
  | case1 fuel digit inner isDigit others rest isInner induction =>
      obtain ⟨left, rfl, behind⟩ := continues.exists_tail
      obtain ⟨more, rfl, fits⟩ := exists_succ_of_lt enoughThere
      obtain ⟨sameDigits, continues⟩ :=
        induction (behind.passBlanks verbose)
          (Nat.le_trans (length_passBlanks_le _ _) (Nat.le_of_succ_le_succ enough))
          (Nat.le_trans (length_passBlanks_le _ _) fits)
      rw [isInner] at sameDigits continues
      rw [countDigits, if_pos isDigit]
      exact ⟨congrArg (digit :: ·) sameDigits, continues⟩
  | case2 fuel character inner notDigit =>
      obtain ⟨left, rfl, behind⟩ := continues.exists_tail
      obtain ⟨more, rfl, fits⟩ := exists_succ_of_lt enoughThere
      rw [countDigits, if_neg notDigit]
      exact ⟨rfl, continues⟩
  | case3 fuel input noDigit =>
      obtain rfl : input = [] := by
        cases input with
        | nil => rfl
        | cons digit inner =>
            obtain ⟨fuel, rfl, _⟩ := exists_succ_of_lt enough
            exact (noDigit _ _ _ rfl rfl).elim
      have stops : countDigits verbose more longer = ([], longer) := by
        cases continues <;> cases more <;> rfl
      rw [stops]
      exact ⟨rfl, continues⟩

theorem count_reads_on
    {value : Option Nat}
    (continues : Continues input longer)
    (isRead : count verbose input = some (value, rest)) :
    ReadsOn (count verbose longer) value rest := by
  have begun := continues.dropWhile (show Unicode.isBlank ')' = false by decide)
  obtain ⟨sameDigits, behind⟩ :=
    countDigits_reads_on verbose begun (Nat.le_refl _) (Nat.le_refl _)
  have after := (behind.dropWhile (show Unicode.isBlank ')' = false by decide)).passBlanks verbose
  rw [count] at isRead ⊢
  dsimp only at isRead ⊢
  rw [sameDigits]
  split at isRead
  case isTrue none =>
    cases isRead
    rw [if_pos none]
    exact readsOn_some after
  case isFalse some =>
    obtain ⟨bounded, isRead⟩ := Option.ite_none_left_eq_some.mp isRead
    cases isRead
    rw [if_neg some, if_neg bounded]
    exact readsOn_some after

theorem bounds_reads_on
    {least : Nat}
    {most : Option Nat}
    (continues : Continues input longer)
    (isRead : bounds verbose input = some ((least, most), rest)) :
    ReadsOn (bounds verbose longer) (least, most) rest := by
  rw [bounds] at isRead ⊢
  obtain ⟨⟨_, _⟩, isLeast, isRest⟩ := Option.bind_eq_some_iff.mp isRead
  obtain ⟨_, rfl, isRest⟩ := Option.bind_eq_some_iff.mp isRest
  obtain ⟨_, isLeast, behind⟩ := count_reads_on (continues.passBlanks verbose) isLeast
  clear isRead
  simp only [isLeast, bind, Option.bind] at isRest ⊢
  split at isRest
  case h_1 =>
    obtain ⟨left, rfl, after⟩ := behind.exists_tail
    cases isRest
    exact readsOn_some after
  case h_2 =>
    obtain ⟨left, rfl, comma⟩ := behind.exists_tail
    have blanks := comma.passBlanks verbose
    simp only []
    generalize passBlanks verbose _ = here at blanks isRest
    generalize passBlanks verbose _ = there at blanks ⊢
    split at isRest
    case h_1 =>
      obtain ⟨left, rfl, after⟩ := blanks.exists_tail
      cases isRest
      exact readsOn_some after
    case h_2 notClosed =>
      have notClosedThere := blanks.not_headed (by decide) notClosed
      obtain ⟨⟨_, _⟩, isMost, isRest⟩ := Option.bind_eq_some_iff.mp isRest
      obtain ⟨_, rfl, isRest⟩ := Option.bind_eq_some_iff.mp isRest
      obtain ⟨_, isMost, behind⟩ := count_reads_on blanks isMost
      simp only [isMost]
      dsimp only at isRest
      split at isRest
      case h_1 =>
        obtain ⟨left, rfl, after⟩ := behind.exists_tail
        obtain ⟨ordered, same⟩ := Option.ite_none_right_eq_some.mp isRest
        cases same
        simp only [ordered, if_true]
        exact readsOn_some after
      case h_2 => cases isRest
  case h_3 => cases isRest

theorem laziness_reads_on
    (continues : Continues input longer) :
    (laziness longer).1 = (laziness input).1 ∧
      Continues (laziness input).2 (laziness longer).2 := by
  obtain ⟨_, _, rfl, rfl, behind⟩ | ⟨notLazy, notLazyThere⟩ :=
    continues.headed_or_not (show '?' ≠ ')' by decide)
  · exact ⟨rfl, behind⟩
  · rw [laziness.eq_2 _ notLazy, laziness.eq_2 _ notLazyThere]
    exact ⟨rfl, continues⟩

theorem groupStart_reads_on
    {start : GroupStart}
    (continues : Continues input longer)
    (isRead : groupStart verbose input = some (start, rest)) :
    ReadsOn (groupStart verbose longer) start rest := by
  have blanks := continues.passBlanks verbose
  rw [groupStart] at isRead ⊢
  generalize passBlanks verbose input = here at blanks isRead
  generalize passBlanks verbose longer = there at blanks ⊢
  split at isRead
  case h_1 | h_2 | h_3 | h_4 => cases isRead
  case h_5 inner =>
    obtain ⟨_, rfl, mark⟩ := blanks.exists_tail
    obtain ⟨_, rfl, letter⟩ := mark.exists_tail
    obtain ⟨_, rfl, angle⟩ := letter.exists_tail
    obtain ⟨⟨name, _⟩, isName, same⟩ := Option.map_eq_some_iff.mp isRead
    cases same
    obtain ⟨left, isName, behind⟩ := groupName_reads_on angle isName
    simp only [isName]
    exact readsOn_some behind
  case h_6 inner notAhead notBehind =>
    obtain ⟨_, rfl, mark⟩ := blanks.exists_tail
    obtain ⟨_, rfl, angle⟩ := mark.exists_tail
    obtain ⟨⟨name, _⟩, isName, same⟩ := Option.map_eq_some_iff.mp isRead
    cases same
    obtain ⟨left, isName, behind⟩ := groupName_reads_on angle isName
    have notAheadThere := angle.not_headed (by decide) notAhead
    have notBehindThere := angle.not_headed (by decide) notBehind
    simp only [isName]
    exact readsOn_some behind
  case h_7 inner notAhead notAheadNegated notBehind notBehindNegated notNamed notAngle =>
    obtain ⟨there, rfl, mark⟩ := blanks.exists_tail
    have notAheadThere := mark.not_headed (by decide) notAhead
    have notAheadNegatedThere := mark.not_headed (by decide) notAheadNegated
    have notBehindThere := mark.not_paired (by decide) (by decide) notBehind
    have notBehindNegatedThere := mark.not_paired (by decide) (by decide) notBehindNegated
    have notNamedThere := mark.not_paired (by decide) (by decide) notNamed
    have notAngleThere := mark.not_headed (by decide) notAngle
    split at isRead
    case h_1 change _ isChange =>
      obtain ⟨_, isChangeThere, behind⟩ := flagChange_reads_on mark isChange
      obtain ⟨left, rfl, after⟩ := behind.exists_tail
      cases isRead
      simp only [isChangeThere]
      exact readsOn_some after
    case h_2 change _ isChange =>
      obtain ⟨_, isChangeThere, behind⟩ := flagChange_reads_on mark isChange
      obtain ⟨left, rfl, after⟩ := behind.exists_tail
      obtain ⟨filled, same⟩ := Option.ite_none_left_eq_some.mp isRead
      cases same
      simp only [isChangeThere]
      rw [if_neg filled]
      exact readsOn_some after
    case h_3 => cases isRead
  case h_8 notMark =>
    have notMarkThere := blanks.not_headed (by decide) notMark
    cases isRead
    split
    case h_8 => exact readsOn_some blanks
    all_goals exact (notMarkThere _ rfl).elim

end QueryGateway.Pattern.Reader
