import QueryGateway.Proofs.Pattern.Classes
import QueryGateway.Proofs.Pattern.Groups
import QueryGateway.Proofs.Pattern.Search
import QueryGateway.Pattern.Compilation

/-!
# Anchored patterns

To anchor a pattern, a text is put around it: a start mark and the opening of a
group before it, the closing parenthesis and an end mark behind it.  If the
pattern can be read alone, the group that is opened before it holds just what it
is read to.  The anchored pattern then matches a text exactly if the pattern
matches from its first character to its last.

Nothing is said about a pattern that cannot be read alone.  It may close the
group itself.
-/

namespace QueryGateway.Pattern

namespace Reader

/-! ## Expressions -/

mutual

theorem branches_read_on
    {fuel more : Nat}
    {verbose : Bool}
    {groups named : Groups}
    {input longer rest : List Char}
    {alternatives : List Expression}
    (continues : Continues input longer)
    (enough : fuel ≤ more)
    (areRead : branches fuel verbose groups input = some (alternatives, named, rest)) :
    ∃ left, branches more verbose groups longer = some (alternatives, named, left) ∧
      Continues rest left := by
  match fuel, more with
  | 0, _ => cases areRead
  | fuel + 1, more + 1 =>
      have enough := Nat.le_of_succ_le_succ enough
      rw [branches] at areRead ⊢
      obtain ⟨⟨branch, isVerbose, opened, _⟩, isBranch, others⟩ :=
        Option.bind_eq_some_iff.mp areRead
      obtain ⟨_, isBranch, behind⟩ := items_read_on continues enough isBranch
      clear areRead
      simp only [isBranch, bind, Option.bind] at others ⊢
      split at others
      case h_1 =>
        obtain ⟨_, rfl, bar⟩ := behind.exists_tail
        obtain ⟨⟨_, _, _⟩, areOthers, same⟩ := Option.bind_eq_some_iff.mp others
        cases same
        obtain ⟨left, areOthers, after⟩ := branches_read_on bar enough areOthers
        simp only [areOthers]
        exact ⟨left, rfl, after⟩
      case h_2 notBar =>
        have notBarThere := behind.not_headed (by decide) notBar
        cases others
        simp only []
        exact ⟨_, rfl, behind⟩
  termination_by fuel

theorem items_read_on
    {fuel more : Nat}
    {verbose isVerbose : Bool}
    {groups named : Groups}
    {done : List Expression}
    {input longer rest : List Char}
    {whole : Expression}
    (continues : Continues input longer)
    (enough : fuel ≤ more)
    (areRead : items fuel verbose groups done input = some (whole, isVerbose, named, rest)) :
    ∃ left, items more verbose groups done longer = some (whole, isVerbose, named, left) ∧
      Continues rest left := by
  match fuel, more with
  | 0, _ => cases areRead
  | fuel + 1, more + 1 =>
      have enough := Nat.le_of_succ_le_succ enough
      have blanks := continues.passBlanks verbose
      rw [items] at areRead ⊢
      dsimp only at areRead ⊢
      generalize passBlanks verbose input = here at blanks areRead
      generalize passBlanks verbose longer = there at blanks ⊢
      -- One case for each character that has a meaning, in the order of the reader.
      split at areRead
      case h_1 =>
        cases areRead
        cases blanks with
        | closed => exact ⟨_, rfl, .closed⟩
        | swallowed => exact ⟨_, rfl, .swallowed⟩
      case h_2 | h_3 =>
        obtain ⟨left, rfl, _⟩ := blanks.exists_tail
        cases areRead
        exact ⟨_, rfl, blanks⟩
      case h_4 | h_5 | h_6 =>
        obtain ⟨left, rfl, behind⟩ := blanks.exists_tail
        obtain ⟨sameGreed, after⟩ := laziness_reads_on behind
        obtain ⟨_, isRepeated, areRead⟩ := Option.bind_eq_some_iff.mp areRead
        obtain ⟨left, areRead, continues⟩ := items_read_on after enough areRead
        refine ⟨left, ?_, continues⟩
        simp only [sameGreed, bind, Option.bind, isRepeated, areRead]
      case h_7 =>
        obtain ⟨left, rfl, behind⟩ := blanks.exists_tail
        obtain ⟨⟨⟨_, _⟩, _⟩, areBounds, areRead⟩ := Option.bind_eq_some_iff.mp areRead
        obtain ⟨_, areBounds, brace⟩ := bounds_reads_on behind areBounds
        obtain ⟨sameGreed, after⟩ := laziness_reads_on (brace.passBlanks verbose)
        obtain ⟨_, isRepeated, areRead⟩ := Option.bind_eq_some_iff.mp areRead
        obtain ⟨left, areRead, continues⟩ := items_read_on after enough areRead
        refine ⟨left, ?_, continues⟩
        simp only [areBounds, sameGreed, bind, Option.bind, isRepeated, areRead]
      case h_8 =>
        obtain ⟨left, rfl, behind⟩ := blanks.exists_tail
        obtain ⟨⟨start, _⟩, isStart, areRead⟩ := Option.bind_eq_some_iff.mp areRead
        obtain ⟨_, isStart, opened⟩ := groupStart_reads_on behind isStart
        simp only [isStart, bind, Option.bind] at areRead ⊢
        split at areRead
        case h_1 =>
          exact items_read_on opened enough areRead
        case h_2 =>
          obtain ⟨⟨body, _, _⟩, isBody, areRead⟩ := Option.bind_eq_some_iff.mp areRead
          obtain ⟨_, isBody, after⟩ := group_reads_on opened enough isBody
          simp only [isBody]
          exact items_read_on after enough areRead
        case h_3 name =>
          split at areRead
          case isTrue => cases areRead
          case isFalse isNew =>
            obtain ⟨⟨body, _, _⟩, isBody, areRead⟩ := Option.bind_eq_some_iff.mp areRead
            obtain ⟨_, isBody, after⟩ := group_reads_on opened enough isBody
            rw [if_neg isNew]
            simp only [isBody]
            exact items_read_on after enough areRead
      case h_9 =>
        obtain ⟨left, rfl, behind⟩ := blanks.exists_tail
        obtain ⟨⟨negated, inner, _⟩, isClass, areRead⟩ := Option.bind_eq_some_iff.mp areRead
        have room := Nat.add_le_add_right (Nat.mul_le_mul_left 2 behind.length_le) 2
        obtain ⟨_, isClass, after⟩ := bracketed_reads_on behind room isClass
        simp only [isClass, bind, Option.bind]
        exact items_read_on after enough areRead
      case h_10 =>
        obtain ⟨left, rfl, behind⟩ := blanks.exists_tail
        obtain ⟨⟨escaped, _⟩, isEscape, areRead⟩ := Option.bind_eq_some_iff.mp areRead
        obtain ⟨_, isEscape, after⟩ := escape_reads_on behind isEscape
        simp only [isEscape, bind, Option.bind]
        exact items_read_on after enough areRead
      case h_11 | h_12 | h_13 =>
        obtain ⟨left, rfl, behind⟩ := blanks.exists_tail
        exact items_read_on behind enough areRead
      case h_14 =>
        -- The same character stands there, so that none of the other cases applies.
        obtain ⟨left, rfl, behind⟩ := blanks.exists_tail
        obtain ⟨left, areRead, continues⟩ := items_read_on behind enough areRead
        refine ⟨left, ?_, continues⟩
        simp only [areRead]
  termination_by fuel

theorem group_reads_on
    {fuel more : Nat}
    {verbose : Bool}
    {groups named : Groups}
    {input longer rest : List Char}
    {body : Expression}
    (continues : Continues input longer)
    (enough : fuel ≤ more)
    (isRead : group fuel verbose groups input = some (body, named, rest)) :
    ∃ left, group more verbose groups longer = some (body, named, left) ∧
      Continues rest left := by
  match fuel, more with
  | 0, _ => cases isRead
  | fuel + 1, more + 1 =>
      have enough := Nat.le_of_succ_le_succ enough
      rw [group] at isRead ⊢
      obtain ⟨⟨_, _, _⟩, areBranches, isClosed⟩ := Option.bind_eq_some_iff.mp isRead
      obtain ⟨_, areBranches, behind⟩ := branches_read_on continues enough areBranches
      clear isRead
      simp only [areBranches, bind, Option.bind] at isClosed ⊢
      split at isClosed
      case h_1 =>
        obtain ⟨left, rfl, after⟩ := behind.exists_tail
        cases isClosed
        exact ⟨left, rfl, after⟩
      case h_2 => cases isClosed
  termination_by fuel

end

/-! ## The anchored text -/

/-- The text of a pattern between the marks that anchor it. -/
def anchor (text : List Char) : List Char :=
  '^' :: '(' :: '?' :: ':' :: (text ++ [')', '$'])

/-- An expression with the start of the text before it and the end behind it. -/
def anchoredExpression (inner : Expression) : Expression :=
  .sequence [.anchor .lineStart, .group none ⟨[], []⟩ inner, .anchor .lineEnd]

theorem items_anchor
    (fuel : Nat)
    (text : List Char) :
    items (fuel + 4) false [] [] (anchor text) =
      (group (fuel + 2) false [] (text ++ [')', '$'])).bind fun (body, groups, rest) =>
        items (fuel + 2) false groups [.group none ⟨[], []⟩ body, .anchor .lineStart] rest := by
  have start : items (fuel + 4) false [] [] (anchor text) =
      items (fuel + 3) false [] [.anchor .lineStart]
        ('(' :: '?' :: ':' :: (text ++ [')', '$'])) := by
    rw [items]
    rfl
  rw [start, items]
  rfl

theorem items_lineEnd
    (fuel : Nat)
    (groups : Groups)
    (done : List Expression) :
    items (fuel + 2) false groups done ['$'] =
      some (.ofItems (Expression.anchor .lineEnd :: done).reverse, false, groups, []) := by
  have here : items (fuel + 2) false groups done ['$'] =
      items (fuel + 1) false groups (.anchor .lineEnd :: done) [] := by
    rw [items]
    rfl
  rw [here, items]
  rfl

theorem read?_eq_some_iff
    {text : List Char}
    {expression : Expression}
    {groups : Groups} :
    read? text = some (expression, groups) ↔
      ∃ alternatives, branches (4 * text.length + 4) false [] text =
          some (alternatives, groups, []) ∧
        expression = .ofBranches alternatives ∧ expression.height ≤ heightLimit := by
  rw [read?]
  constructor
  · intro isRead
    split at isRead
    case h_1 alternatives _ areRead =>
      obtain ⟨isLow, same⟩ := Option.ite_none_right_eq_some.mp isRead
      cases same
      exact ⟨alternatives, areRead, rfl, isLow⟩
    case h_2 => cases isRead
  · rintro ⟨alternatives, areRead, rfl, isLow⟩
    rw [areRead]
    exact if_pos isLow

theorem read?_anchor
    {text : List Char}
    {expression whole : Expression}
    {groups named : Groups}
    (isRead : read? text = some (expression, groups))
    (isAnchored : read? (anchor text) = some (whole, named)) :
    whole = anchoredExpression expression ∧ named = groups := by
  obtain ⟨alternatives, areRead, rfl, -⟩ := read?_eq_some_iff.mp isRead
  obtain ⟨wholes, wholeRead, rfl, -⟩ := read?_eq_some_iff.mp isAnchored
  have room : 4 * (anchor text).length + 4 = (4 * text.length + 23) + 5 := by
    simp [anchor]
    omega
  obtain ⟨left, areThere, continues⟩ := branches_read_on (continues_append text)
    (show 4 * text.length + 4 ≤ 4 * text.length + 24 by omega) areRead
  rw [room, branches, items_anchor, group, areThere] at wholeRead
  cases continues with
  | closed =>
      -- The parenthesis that closes the group is the one that was put there.
      simp only [bind, Option.bind, items_lineEnd] at wholeRead
      cases wholeRead
      exact ⟨rfl, rfl⟩
  | swallowed =>
      -- A comment runs over it, and the group is never closed.
      cases wholeRead

end Reader

/-! ## What an anchored pattern matches -/

/-- A node between conditions that hold at the start and at the end of a text only. -/
def Node.anchored (inner : Node) : Node :=
  .sequence (.assert .textStart) (.sequence inner (.assert .textEnd))

theorem exists_compile_of_anchored
    {inner : Expression}
    {root : Node}
    {after : Flags}
    (compiles : (Reader.anchoredExpression inner).compile .initial = some (root, after)) :
    ∃ node flags, inner.compile .initial = some (node, flags) ∧ root = node.anchored := by
  have unchanged : Flags.initial.apply ⟨[], []⟩ = .initial := rfl
  simp only [Reader.anchoredExpression, Expression.compile, Expression.compileItems, bind,
    Option.bind, unchanged] at compiles
  cases isInner : inner.compile .initial with
  | none =>
      rw [isInner] at compiles
      cases compiles
  | some compiled =>
      rw [isInner] at compiles
      cases compiles
      exact ⟨compiled.1, compiled.2, rfl, rfl⟩

theorem weight_captured_le
    (node : Node) :
    (captured 0 node).weight ≤ (captured 0 node.anchored).weight := by
  simp only [captured, Node.anchored, Node.weight]
  omega

theorem Regex.ofString?_eq_some_iff
    {text : String}
    {regex : Regex} :
    Regex.ofString? text = some regex ↔
      ∃ expression groups node flags,
        Reader.read? text.toList = some (expression, groups) ∧
        expression.compile .initial = some (node, flags) ∧
        (captured 0 node).weight ≤ weightLimit ∧
        regex = ⟨⟨captured 0 node, 2 * (groups.length + 1)⟩, groups⟩ := by
  rw [Regex.ofString?]
  constructor
  · intro isRegex
    obtain ⟨⟨expression, groups⟩, isRead, rest⟩ := Option.bind_eq_some_iff.mp isRegex
    obtain ⟨⟨node, flags⟩, compiles, rest⟩ := Option.bind_eq_some_iff.mp rest
    obtain ⟨isLight, same⟩ := Option.ite_none_right_eq_some.mp rest
    cases same
    exact ⟨expression, groups, node, flags, isRead, compiles, isLight, rfl⟩
  · rintro ⟨expression, groups, node, flags, isRead, compiles, isLight, rfl⟩
    simp only [isRead, compiles, bind, Option.bind]
    exact if_pos isLight

theorem spans_captured_iff
    {text : List Char}
    {number start stop : Nat}
    {body : Node} :
    (captured number body).Spans text start stop ↔ body.Spans text start stop := by
  constructor
  · intro spans
    cases spans with
    | sequence begins rest =>
        cases begins
        cases rest with
        | sequence inside ends =>
            cases ends
            exact inside
  · exact fun spans => .sequence .mark (.sequence spans .mark)

theorem holds_textStart_iff
    {text : List Char}
    {position : Nat}
    (within : position ≤ text.length) :
    Condition.holds .textStart (placeAt text position) ↔ position = 0 := by
  simp only [Condition.holds, placeAt, Option.isNone_iff_eq_none, List.getLast?_eq_none_iff,
    List.take_eq_nil_iff]
  constructor
  · rintro (rfl | rfl)
    · rfl
    · exact Nat.le_zero.mp within
  · exact .inl

theorem holds_textEnd_iff
    {text : List Char}
    {position : Nat} :
    Condition.holds .textEnd (placeAt text position) ↔ text.length ≤ position := by
  simp [Condition.holds, placeAt]

/-- An anchored node matches whole texts only. -/
theorem spans_anchored_iff
    {text : List Char}
    {inner : Node}
    {start stop : Nat}
    (within : start ≤ text.length) :
    inner.anchored.Spans text start stop ↔
      start = 0 ∧ stop = text.length ∧ inner.Spans text start stop := by
  constructor
  · intro spans
    cases spans with
    | sequence begins rest =>
        cases begins with
        | assert atStart =>
            cases rest with
            | sequence inside ends =>
                cases ends with
                | assert atEnd =>
                    exact ⟨(holds_textStart_iff within).mp atStart,
                      Nat.le_antisymm (inside.le_length within) (holds_textEnd_iff.mp atEnd),
                      inside⟩
  · rintro ⟨rfl, rfl, inside⟩
    exact .sequence (.assert ((holds_textStart_iff within).mpr rfl))
      (.sequence inside (.assert (holds_textEnd_iff.mpr (Nat.le_refl _))))

/-- The pattern matches the text from its first character to its last. -/
def Regex.MatchesWhole (regex : Regex) (text : String) : Prop :=
  regex.program.root.Spans text.toList 0 text.toList.length

theorem search_anchored_iff
    {root : Node}
    {marks : Nat}
    (text : List Char) :
    (Program.search ⟨captured 0 root.anchored, marks⟩ text).isSome ↔
      (captured 0 root).Spans text 0 text.length := by
  rw [search_isSome_iff, spans_captured_iff]
  constructor
  · rintro ⟨start, stop, within, spans⟩
    obtain ⟨rfl, rfl, inside⟩ := (spans_anchored_iff within).mp (spans_captured_iff.mp spans)
    exact inside
  · intro inside
    exact ⟨0, text.length, Nat.zero_le _,
      spans_captured_iff.mpr ((spans_anchored_iff (Nat.zero_le _)).mpr ⟨rfl, rfl, inside⟩)⟩

/-- A pattern that can be read alone is a pattern itself if its anchored text is one. -/
theorem Regex.search_anchor
    {text anchored : String}
    {whole : Regex}
    (isAnchor : anchored.toList = Reader.anchor text.toList)
    (canBeRead : (Reader.read? text.toList).isSome)
    (isWhole : Regex.ofString? anchored = some whole) :
    ∃ own, Regex.ofString? text = some own ∧
      ∀ address, (whole.search address).isSome ↔ own.MatchesWhole address := by
  obtain ⟨⟨expression, groups⟩, isRead⟩ := Option.isSome_iff_exists.mp canBeRead
  obtain ⟨_, _, _, _, isWholeRead, wholeCompiles, isLight, rfl⟩ :=
    Regex.ofString?_eq_some_iff.mp isWhole
  rw [isAnchor] at isWholeRead
  obtain ⟨rfl, rfl⟩ := Reader.read?_anchor isRead isWholeRead
  obtain ⟨node, flags, compiles, rfl⟩ := exists_compile_of_anchored wholeCompiles
  refine ⟨⟨⟨captured 0 node, _⟩, _⟩, Regex.ofString?_eq_some_iff.mpr
    ⟨expression, _, node, flags, isRead, compiles, ?_, rfl⟩, fun address => ?_⟩
  · exact Nat.le_trans (weight_captured_le node) isLight
  · rw [Regex.search, Option.isSome_map]
    exact search_anchored_iff address.toList

end QueryGateway.Pattern
