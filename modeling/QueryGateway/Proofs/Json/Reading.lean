import Mathlib.Data.List.Forall2
import QueryGateway.Proofs.Json.Numerals
import QueryGateway.Proofs.Json.Strings
import QueryGateway.Proofs.Json.Value
import QueryGateway.Proofs.Text.Decoding

/-!
# JSON text is read by the grammar

The reader accepts a text if it is a document of the grammar whose numbers can
be held, and gives the value of its tree.  It accepts no other text.

The reader is bounded in the number of its calls.  Two calls for each character
are enough.
-/

namespace QueryGateway.Json

open Json.Parser

/-! ## The value of a tree -/

mutual

/-- The value that a tree has in memory, unless one of its numbers cannot be held. -/
def Tree.value? : Tree → Option Value
  | .null => some .null
  | .bool value => some (.bool value)
  | .number numeral => numeral.number?.map .number
  | .string value => some (.string value)
  | .array elements => (Tree.values? elements).map .array
  | .object entries =>
      (Tree.entryValues? entries).map fun values => .object (Members.ofEntries values)

def Tree.values? : List Tree → Option (List Value)
  | [] => some []
  | element :: elements =>
      match element.value? with
      | none => none
      | some first => (Tree.values? elements).map (first :: ·)

def Tree.entryValues? : List (String × Tree) → Option (List (String × Value))
  | [] => some []
  | (key, entry) :: entries =>
      match entry.value? with
      | none => none
      | some first => (Tree.entryValues? entries).map ((key, first) :: ·)

end

theorem Tree.values?_cons_eq_some_iff
    {element : Tree}
    {elements : List Tree}
    {values : List Value} :
    Tree.values? (element :: elements) = some values ↔
      ∃ first others, element.value? = some first ∧ Tree.values? elements = some others ∧
        values = first :: others := by
  rw [Tree.values?]
  cases element.value? with
  | none => simp
  | some first => simp [eq_comm]

theorem Tree.entryValues?_cons_eq_some_iff
    {key : String}
    {entry : Tree}
    {entries : List (String × Tree)}
    {values : List (String × Value)} :
    Tree.entryValues? ((key, entry) :: entries) = some values ↔
      ∃ first others, entry.value? = some first ∧ Tree.entryValues? entries = some others ∧
        values = (key, first) :: others := by
  rw [Tree.entryValues?]
  cases entry.value? with
  | none => simp
  | some first => simp [eq_comm]

/-! ## Blanks -/

theorem skipBlanks_append
    {blanks rest : List Char}
    (blank : IsBlank blanks)
    (stops : StopsAt isBlank rest) :
    skipBlanks (blanks ++ rest) = rest :=
  (takeWhile_append_of_stopsAt (List.all_eq_true.mp blank) stops).2

theorem skipBlanks_skipBlanks
    (input : List Char) :
    skipBlanks (skipBlanks input) = skipBlanks input :=
  @skipBlanks_append [] _ rfl (stopsAt_dropWhile isBlank input)

theorem exists_blanks
    (input : List Char) :
    ∃ blanks, IsBlank blanks ∧ input = blanks ++ skipBlanks input :=
  ⟨input.takeWhile isBlank, List.all_takeWhile, List.takeWhile_append_dropWhile.symm⟩

theorem isBlank_append
    {before behind : List Char}
    (blankBefore : IsBlank before)
    (blankBehind : IsBlank behind) :
    IsBlank (before ++ behind) := by
  rw [IsBlank, List.all_append, blankBefore, blankBehind]
  rfl

theorem value_skipBlanks
    (fuel depth : Nat)
    (input : List Char) :
    value fuel depth (skipBlanks input) = value fuel depth input := by
  cases fuel with
  | zero => rfl
  | succ fuel => rw [value, value, skipBlanks_skipBlanks]

theorem elements_skipBlanks
    (fuel depth : Nat)
    (input : List Char) :
    elements fuel depth (skipBlanks input) = elements fuel depth input := by
  cases fuel with
  | zero => rfl
  | succ fuel => rw [elements, elements, value_skipBlanks]

theorem members_skipBlanks
    (fuel depth : Nat)
    (input : List Char) :
    members fuel depth (skipBlanks input) = members fuel depth input := by
  cases fuel with
  | zero => rfl
  | succ fuel => rw [members, members, skipBlanks_skipBlanks]

/-! ## How texts start -/

/-- May a value start with the character? -/
def startsValue (character : Char) : Bool :=
  character.isDigit || ['-', 'n', 't', 'f', '"', '[', '\x7b'].contains character

theorem Numeral.exists_first
    {numeral : Numeral}
    (isProper : numeral.IsProper) :
    ∃ first others, numeral.text = first :: others ∧ (first = '-' ∨ first.isDigit = true) := by
  rcases List.exists_cons_of_ne_nil isProper.nonempty with ⟨first, others, whole⟩
  have isDigit : first.isDigit = true := by
    apply List.all_eq_true.mp isProper.whole
    rw [whole]
    exact List.mem_cons_self
  rw [Numeral.text]
  cases numeral.negative with
  | true => exact ⟨_, _, rfl, .inl rfl⟩
  | false =>
      rw [whole]
      exact ⟨_, _, rfl, .inr isDigit⟩

theorem Spells.exists_first
    {depth : Nat}
    {tree : Tree}
    {text : List Char}
    (spelled : Spells depth tree text) :
    ∃ first others, text = first :: others ∧ startsValue first = true := by
  cases spelled with
  | number _ isProper =>
      rcases Numeral.exists_first isProper with ⟨first, others, same, isFirst⟩
      refine ⟨first, others, same, ?_⟩
      rcases isFirst with rfl | isDigit
      · rfl
      · rw [startsValue, isDigit]
        rfl
  | string _ spelled =>
      cases spelled
      exact ⟨_, _, rfl, rfl⟩
  | null => exact ⟨_, _, rfl, rfl⟩
  | bool _ value => cases value <;> exact ⟨_, _, rfl, rfl⟩
  | emptyArray => exact ⟨_, _, rfl, rfl⟩
  | array => exact ⟨_, _, rfl, rfl⟩
  | emptyObject => exact ⟨_, _, rfl, rfl⟩
  | object => exact ⟨_, _, rfl, rfl⟩

theorem not_isBlank_of_startsValue
    {first : Char}
    (starts : startsValue first = true) :
    isBlank first = false := by
  rw [Bool.eq_false_iff]
  intro blank
  simp only [isBlank, Bool.or_eq_true, beq_iff_eq] at blank
  rcases blank with ((rfl | rfl) | rfl) | rfl <;> cases starts

theorem Spells.stopsAt_blank
    {depth : Nat}
    {tree : Tree}
    {text : List Char}
    (spelled : Spells depth tree text)
    (rest : List Char) :
    StopsAt isBlank (text ++ rest) := by
  rcases spelled.exists_first with ⟨first, others, rfl, starts⟩
  exact stopsAt_cons (not_isBlank_of_startsValue starts) _

theorem SpellsString.stopsAt_blank
    {value : String}
    {text : List Char}
    (spelled : SpellsString value text)
    (rest : List Char) :
    StopsAt isBlank (text ++ rest) := by
  cases spelled
  exact stopsAt_cons rfl _

/-- Blanks do not go on with a number. -/
theorem stopsAt_blanks_append
    {blanks rest : List Char}
    (blank : IsBlank blanks)
    (stops : StopsAt goesOnNumber rest) :
    StopsAt goesOnNumber (blanks ++ rest) := by
  cases blanks with
  | nil => exact stops
  | cons first blanks =>
      apply stopsAt_cons
      have isBlank := List.all_eq_true.mp blank first List.mem_cons_self
      simp only [Parser.isBlank, Bool.or_eq_true, beq_iff_eq] at isBlank
      rcases isBlank with ((rfl | rfl) | rfl) | rfl <;> rfl

/-! ## Documents are read -/

/-- A key is read with its colon. -/
theorem key_append
    {name : String}
    {text gap : List Char}
    (named : SpellsString name text)
    (blankGap : IsBlank gap)
    (rest : List Char) :
    key (text ++ (gap ++ ':' :: rest)) = some (name, rest) := by
  rcases named with ⟨characters⟩
  have colon : skipBlanks (gap ++ ':' :: rest) = ':' :: rest :=
    skipBlanks_append blankGap (stopsAt_cons rfl rest)
  have stringRead := stringRest_of_spells characters (gap ++ ':' :: rest)
  simp only [List.cons_append, List.append_assoc, List.nil_append, key, stringRead, colon,
    String.ofList_toList]

theorem value_of_number
    (fuel depth : Nat)
    {input : List Char}
    {first : Char}
    {others : List Char}
    (skipped : skipBlanks input = first :: others)
    (starts : first = '-' ∨ first.isDigit = true) :
    value (fuel + 1) depth input =
      (number (first :: others)).map fun (read, rest) => (.number read, rest) := by
  rw [value, skipped]
  split
  case h_7 => rfl
  all_goals
    rename_i opened
    cases opened
    rcases starts with isMinus | isDigit
    · cases isMinus
    · cases isDigit

/-- An array that is not empty is read element by element. -/
theorem value_of_elements
    (fuel depth : Nat)
    {input inside : List Char}
    (skipped : skipBlanks input = '[' :: inside)
    (notClosed : (skipBlanks inside).head? ≠ some ']') :
    value (fuel + 1) (depth + 1) input =
      (elements fuel depth inside).map fun (items, rest) => (.array items, rest) := by
  rw [value, skipped]
  simp only
  split
  case h_1 closed =>
    rw [closed] at notClosed
    exact absurd rfl notClosed
  case h_2 => rw [elements_skipBlanks]

theorem value_of_members
    (fuel depth : Nat)
    {input inside : List Char}
    (skipped : skipBlanks input = '\x7b' :: inside)
    (notClosed : (skipBlanks inside).head? ≠ some '\x7d') :
    value (fuel + 1) (depth + 1) input =
      (members fuel depth inside).map fun (entries, rest) =>
        (.object (Members.ofEntries entries), rest) := by
  rw [value, skipped]
  simp only
  split
  case h_1 closed =>
    rw [closed] at notClosed
    exact absurd rfl notClosed
  case h_2 => rw [members_skipBlanks]

theorem SpellsElements.not_ended
    {depth : Nat}
    {elements : List Tree}
    {text : List Char}
    (spelled : SpellsElements depth elements text)
    (rest : List Char) :
    (skipBlanks (text ++ rest)).head? ≠ some ']' := by
  have opensValue : ∀ {tree : Tree} {before text : List Char}, IsBlank before →
      Spells depth tree text → ∀ rest : List Char,
        (skipBlanks (before ++ (text ++ rest))).head? ≠ some ']' := by
    intro tree before text blankBefore spelled rest closed
    rw [skipBlanks_append blankBefore (spelled.stopsAt_blank rest)] at closed
    rcases spelled.exists_first with ⟨first, others, rfl, starts⟩
    cases closed
    cases starts
  cases spelled with
  | last blankBefore _ spelled =>
      simp only [List.append_assoc]
      exact opensValue blankBefore spelled _
  | cons blankBefore _ spelled =>
      simp only [List.append_assoc]
      exact opensValue blankBefore spelled _

theorem SpellsEntries.not_ended
    {depth : Nat}
    {entries : List (String × Tree)}
    {text : List Char}
    (spelled : SpellsEntries depth entries text)
    (rest : List Char) :
    (skipBlanks (text ++ rest)).head? ≠ some '\x7d' := by
  have opensName : ∀ {name : String} {before text : List Char}, IsBlank before →
      SpellsString name text → ∀ rest : List Char,
        (skipBlanks (before ++ (text ++ rest))).head? ≠ some '\x7d' := by
    intro name before text blankBefore named rest closed
    rw [skipBlanks_append blankBefore (named.stopsAt_blank rest)] at closed
    cases named
    cases closed
  cases spelled with
  | last blankOutset _ _ _ named =>
      simp only [List.append_assoc]
      exact opensName blankOutset named _
  | cons blankOutset _ _ _ named =>
      simp only [List.append_assoc]
      exact opensName blankOutset named _

mutual

/-- A text is read to the value of its tree, as far as the text goes. -/
theorem value_append
    {depth : Nat}
    {tree : Tree}
    {text : List Char}
    (spelled : Spells depth tree text)
    {fuel : Nat}
    (enough : 2 * text.length ≤ fuel)
    {before rest : List Char}
    (blankBefore : IsBlank before)
    (stops : StopsAt goesOnNumber rest) :
    value fuel depth (before ++ (text ++ rest)) = tree.value?.map (·, rest) := by
  have skipped := skipBlanks_append blankBefore (spelled.stopsAt_blank rest)
  rcases spelled.exists_first with ⟨first, others, starting, _⟩
  have positive : 0 < text.length := by
    rw [starting]
    exact Nat.succ_pos _
  rcases Nat.exists_eq_add_one_of_ne_zero (show fuel ≠ 0 by omega) with ⟨fuel, rfl⟩
  cases spelled with
  | null =>
      rw [value, skipped]
      rfl
  | bool _ isTrue =>
      rw [value, skipped]
      cases isTrue <;> rfl
  | number _ isProper =>
      rcases Numeral.exists_first isProper with ⟨first, others, starting, starts⟩
      rw [starting, List.cons_append] at skipped
      rw [starting, List.cons_append, value_of_number fuel depth skipped starts,
        ← List.cons_append, ← starting, number_append isProper stops, Tree.value?,
        Option.map_map, Option.map_map]
      rfl
  | string _ named =>
      rcases named with ⟨characters⟩
      rw [value, skipped]
      simp only [List.cons_append, List.append_assoc, List.nil_append,
        stringRest_of_spells characters rest, Option.map_some, String.ofList_toList, Tree.value?]
  | emptyArray _ blank =>
      have closing : skipBlanks (_ ++ ']' :: rest) = ']' :: rest :=
        skipBlanks_append blank (stopsAt_cons rfl rest)
      rw [value, skipped]
      simp only [List.cons_append, List.append_assoc, List.nil_append, closing]
      rfl
  | array spelledElements =>
      rw [List.length_cons] at enough
      have inside := @elements_append _ _ _ spelledElements fuel (by omega) rest
      rw [value_of_elements fuel _ skipped (spelledElements.not_ended rest), List.append_eq,
        inside, Tree.value?, Option.map_map, Option.map_map]
      rfl
  | emptyObject _ blank =>
      have closing : skipBlanks (_ ++ '\x7d' :: rest) = '\x7d' :: rest :=
        skipBlanks_append blank (stopsAt_cons rfl rest)
      rw [value, skipped]
      simp only [List.cons_append, List.append_assoc, List.nil_append, closing]
      rfl
  | object spelledEntries =>
      rw [List.length_cons] at enough
      have inside := @members_append _ _ _ spelledEntries fuel (by omega) rest
      rw [value_of_members fuel _ skipped (spelledEntries.not_ended rest), List.append_eq,
        inside, Tree.value?, Option.map_map, Option.map_map]
      rfl

theorem elements_append
    {depth : Nat}
    {trees : List Tree}
    {text : List Char}
    (spelled : SpellsElements depth trees text)
    {fuel : Nat}
    (enough : 2 * text.length ≤ fuel + 1)
    (rest : List Char) :
    elements fuel depth (text ++ rest) = (Tree.values? trees).map (·, rest) := by
  cases spelled with
  | @last _ tree before text behind blankBefore blankBehind spelled =>
      simp only [List.length_append, List.length_singleton] at enough
      rcases Nat.exists_eq_add_one_of_ne_zero (show fuel ≠ 0 by omega) with ⟨fuel, rfl⟩
      have closing : skipBlanks (behind ++ ']' :: rest) = ']' :: rest :=
        skipBlanks_append blankBehind (stopsAt_cons rfl rest)
      have stops : StopsAt goesOnNumber (behind ++ ']' :: rest) :=
        stopsAt_blanks_append blankBehind (stopsAt_cons rfl rest)
      have first := @value_append _ _ _ spelled fuel (by omega) _ _ blankBefore stops
      simp only [List.append_assoc, List.singleton_append]
      rw [elements, first]
      cases isRead : tree.value? <;> simp [Tree.values?, isRead, closing]
  | @cons _ tree trees before text behind others blankBefore blankBehind spelled more =>
      simp only [List.length_append, List.length_cons] at enough
      rcases Nat.exists_eq_add_one_of_ne_zero (show fuel ≠ 0 by omega) with ⟨fuel, rfl⟩
      have comma : skipBlanks (behind ++ ',' :: (others ++ rest)) = ',' :: (others ++ rest) :=
        skipBlanks_append blankBehind (stopsAt_cons rfl _)
      have stops : StopsAt goesOnNumber (behind ++ ',' :: (others ++ rest)) :=
        stopsAt_blanks_append blankBehind (stopsAt_cons rfl _)
      have first := @value_append _ _ _ spelled fuel (by omega) _ _ blankBefore stops
      have further := @elements_append _ _ _ more fuel (by omega) rest
      simp only [List.append_assoc, List.cons_append]
      rw [elements, first]
      cases isRead : tree.value? with
      | none => simp [Tree.values?, isRead]
      | some element =>
          simp only [Tree.values?, isRead, Option.map_some, comma, further, Option.map_map]
          rfl

theorem members_append
    {depth : Nat}
    {entries : List (String × Tree)}
    {text : List Char}
    (spelled : SpellsEntries depth entries text)
    {fuel : Nat}
    (enough : 2 * text.length ≤ fuel + 1)
    (rest : List Char) :
    members fuel depth (text ++ rest) = (Tree.entryValues? entries).map (·, rest) := by
  cases spelled with
  | @last _ key tree outset name gap before text behind blankOutset blankGap blankBefore
      blankBehind named spelled =>
      simp only [List.length_append, List.length_cons, List.length_nil] at enough
      rcases Nat.exists_eq_add_one_of_ne_zero (show fuel ≠ 0 by omega) with ⟨fuel, rfl⟩
      have closing : skipBlanks (behind ++ '\x7d' :: rest) = '\x7d' :: rest :=
        skipBlanks_append blankBehind (stopsAt_cons rfl rest)
      have stops : StopsAt goesOnNumber (behind ++ '\x7d' :: rest) :=
        stopsAt_blanks_append blankBehind (stopsAt_cons rfl rest)
      have first := @value_append _ _ _ spelled fuel (by omega) _ _ blankBefore stops
      simp only [List.append_assoc, List.cons_append, List.nil_append]
      rw [members, skipBlanks_append blankOutset (named.stopsAt_blank _),
        key_append named blankGap]
      simp only [first]
      cases isRead : tree.value? <;> simp [Tree.entryValues?, isRead, closing]
  | @cons _ key tree entries outset name gap before text behind others blankOutset blankGap
      blankBefore blankBehind named spelled more =>
      simp only [List.length_append, List.length_cons] at enough
      rcases Nat.exists_eq_add_one_of_ne_zero (show fuel ≠ 0 by omega) with ⟨fuel, rfl⟩
      have comma : skipBlanks (behind ++ ',' :: (others ++ rest)) = ',' :: (others ++ rest) :=
        skipBlanks_append blankBehind (stopsAt_cons rfl _)
      have stops : StopsAt goesOnNumber (behind ++ ',' :: (others ++ rest)) :=
        stopsAt_blanks_append blankBehind (stopsAt_cons rfl _)
      have first := @value_append _ _ _ spelled fuel (by omega) _ _ blankBefore stops
      have further := @members_append _ _ _ more fuel (by omega) rest
      simp only [List.append_assoc, List.cons_append]
      rw [members, skipBlanks_append blankOutset (named.stopsAt_blank _),
        key_append named blankGap]
      simp only [first]
      cases isRead : tree.value? with
      | none => simp [Tree.entryValues?, isRead]
      | some entry =>
          simp only [Tree.entryValues?, isRead, Option.map_some, comma, further, Option.map_map]
          rfl

end

/-! ## Nothing else is read -/

theorem exists_name_of_key
    {input rest : List Char}
    {name : String}
    (isRead : key input = some (name, rest)) :
    ∃ text gap, input = text ++ (gap ++ ':' :: rest) ∧ SpellsString name text ∧ IsBlank gap := by
  unfold key at isRead
  split at isRead
  case h_2 => cases isRead
  case h_1 inside =>
    split at isRead
    case h_1 => cases isRead
    case h_2 characters behind stringRead =>
      split at isRead
      case h_2 => cases isRead
      case h_1 skipped =>
        cases isRead
        rcases spells_of_stringRest stringRead with ⟨text, rfl, spelled⟩
        rcases exists_blanks behind with ⟨gap, blankGap, behindText⟩
        rw [skipped] at behindText
        refine ⟨'"' :: (text ++ ['"']), gap, ?_, .quoted ?_, blankGap⟩
        · rw [behindText]
          simp
        · rwa [String.toList_ofList]

theorem SpellsElements.blanks_append
    {depth : Nat}
    {elements : List Tree}
    {blanks text : List Char}
    (blank : IsBlank blanks)
    (spelled : SpellsElements depth elements text) :
    SpellsElements depth elements (blanks ++ text) := by
  cases spelled with
  | last blankBefore blankBehind spelled =>
      rw [← List.append_assoc]
      exact .last (isBlank_append blank blankBefore) blankBehind spelled
  | cons blankBefore blankBehind spelled more =>
      rw [← List.append_assoc]
      exact .cons (isBlank_append blank blankBefore) blankBehind spelled more

theorem SpellsEntries.blanks_append
    {depth : Nat}
    {entries : List (String × Tree)}
    {blanks text : List Char}
    (blank : IsBlank blanks)
    (spelled : SpellsEntries depth entries text) :
    SpellsEntries depth entries (blanks ++ text) := by
  cases spelled with
  | last blankOutset blankGap blankBefore blankBehind named spelled =>
      rw [← List.append_assoc]
      exact .last (isBlank_append blank blankOutset) blankGap blankBefore blankBehind named spelled
  | cons blankOutset blankGap blankBefore blankBehind named spelled more =>
      rw [← List.append_assoc]
      exact .cons (isBlank_append blank blankOutset) blankGap blankBefore blankBehind named spelled
        more

/-- What the reader has read when it gives a value. -/
def ReadsValues (fuel : Nat) : Prop :=
  ∀ {depth : Nat} {input : List Char} {read : Value} {rest : List Char},
    value fuel depth input = some (read, rest) →
      ∃ tree before text, input = before ++ (text ++ rest) ∧ IsBlank before ∧
        Spells depth tree text ∧ tree.value? = some read

def ReadsElements (fuel : Nat) : Prop :=
  ∀ {depth : Nat} {input : List Char} {read : List Value} {rest : List Char},
    elements fuel depth input = some (read, rest) →
      ∃ trees text, input = text ++ rest ∧ SpellsElements depth trees text ∧
        Tree.values? trees = some read

def ReadsMembers (fuel : Nat) : Prop :=
  ∀ {depth : Nat} {input : List Char} {read : List (String × Value)} {rest : List Char},
    members fuel depth input = some (read, rest) →
      ∃ entries text, input = text ++ rest ∧ SpellsEntries depth entries text ∧
        Tree.entryValues? entries = some read

theorem readsElements_succ
    {fuel : Nat}
    (ofValue : ReadsValues fuel)
    (ofElements : ReadsElements fuel) :
    ReadsElements (fuel + 1) := by
  intro depth input read rest isRead
  rw [elements] at isRead
  split at isRead
  case h_1 => cases isRead
  case h_2 first behind valueRead =>
    rcases ofValue valueRead with ⟨tree, before, text, rfl, blankBefore, spelled, isValue⟩
    rcases exists_blanks behind with ⟨gap, blankGap, behindText⟩
    split at isRead
    case h_1 skipped =>
      cases isRead
      rw [skipped] at behindText
      refine ⟨[tree], _, ?_, .last blankBefore blankGap spelled, ?_⟩
      · rw [behindText]
        simp
      · simp [Tree.values?, isValue]
    case h_2 further skipped =>
      rcases Option.map_eq_some_iff.mp isRead with ⟨⟨others, left⟩, othersRead, same⟩
      cases same
      rcases ofElements othersRead with ⟨trees, othersText, rfl, spelledOthers, areValues⟩
      rw [skipped] at behindText
      refine ⟨tree :: trees, _, ?_, .cons blankBefore blankGap spelled spelledOthers, ?_⟩
      · rw [behindText]
        simp
      · simp [Tree.values?, isValue, areValues]
    case h_3 => cases isRead

theorem readsMembers_succ
    {fuel : Nat}
    (ofValue : ReadsValues fuel)
    (ofMembers : ReadsMembers fuel) :
    ReadsMembers (fuel + 1) := by
  intro depth input read rest isRead
  rw [members] at isRead
  split at isRead
  case h_1 => cases isRead
  case h_2 name named keyRead =>
    rcases exists_blanks input with ⟨outset, blankOutset, inputText⟩
    rcases exists_name_of_key keyRead with ⟨nameText, nameGap, keyText, spelledName, blankName⟩
    rw [keyText] at inputText
    split at isRead
    case h_1 => cases isRead
    case h_2 first behind valueRead =>
      rcases ofValue valueRead with ⟨tree, before, text, rfl, blankBefore, spelled, isValue⟩
      rcases exists_blanks behind with ⟨gap, blankGap, behindText⟩
      split at isRead
      case h_1 skipped =>
        cases isRead
        rw [skipped] at behindText
        refine ⟨[(name, tree)], _, ?_,
          .last blankOutset blankName blankBefore blankGap spelledName spelled, ?_⟩
        · rw [inputText, behindText]
          simp
        · simp [Tree.entryValues?, isValue]
      case h_2 further skipped =>
        rcases Option.map_eq_some_iff.mp isRead with ⟨⟨others, left⟩, othersRead, same⟩
        cases same
        rcases ofMembers othersRead with ⟨entries, othersText, rfl, spelledOthers, areValues⟩
        rw [skipped] at behindText
        refine ⟨(name, tree) :: entries, _, ?_,
          .cons blankOutset blankName blankBefore blankGap spelledName spelled spelledOthers, ?_⟩
        · rw [inputText, behindText]
          simp
        · simp [Tree.entryValues?, isValue, areValues]
      case h_3 => cases isRead

theorem readsValues_succ
    {fuel : Nat}
    (ofElements : ReadsElements fuel)
    (ofMembers : ReadsMembers fuel) :
    ReadsValues (fuel + 1) := by
  intro depth input read rest isRead
  rcases exists_blanks input with ⟨before, blankBefore, inputText⟩
  rw [value] at isRead
  split at isRead
  case h_1 skipped =>
    cases isRead
    rw [skipped] at inputText
    exact ⟨_, before, _, inputText, blankBefore, .null depth, rfl⟩
  case h_2 skipped =>
    cases isRead
    rw [skipped] at inputText
    exact ⟨_, before, _, inputText, blankBefore, .bool depth true, rfl⟩
  case h_3 skipped =>
    cases isRead
    rw [skipped] at inputText
    exact ⟨_, before, _, inputText, blankBefore, .bool depth false, rfl⟩
  case h_4 inside skipped =>
    rcases Option.map_eq_some_iff.mp isRead with ⟨⟨characters, left⟩, stringRead, same⟩
    cases same
    rcases spells_of_stringRest stringRead with ⟨text, rfl, spelled⟩
    have named : SpellsString (String.ofList characters) ('"' :: (text ++ ['"'])) := by
      apply SpellsString.quoted
      rwa [String.toList_ofList]
    refine ⟨_, before, _, ?_, blankBefore, .string depth named, rfl⟩
    rw [inputText, skipped]
    simp
  case h_5 inside skipped =>
    rw [skipped] at inputText
    rcases exists_blanks inside with ⟨gap, blankGap, insideText⟩
    split at isRead
    case h_1 => cases isRead
    case h_2 depth =>
      split at isRead
      case h_1 closed =>
        cases isRead
        rw [closed] at insideText
        refine ⟨_, before, _, ?_, blankBefore, .emptyArray depth blankGap, rfl⟩
        rw [inputText, insideText]
        simp
      case h_2 =>
        rcases Option.map_eq_some_iff.mp isRead with ⟨⟨items, left⟩, itemsRead, same⟩
        cases same
        rcases ofElements itemsRead with ⟨trees, text, unread, spelled, areValues⟩
        refine ⟨.array trees, before, _, ?_, blankBefore, .array (spelled.blanks_append blankGap),
          ?_⟩
        · rw [inputText, insideText, unread]
          simp
        · rw [Tree.value?, areValues]
          rfl
  case h_6 inside skipped =>
    rw [skipped] at inputText
    rcases exists_blanks inside with ⟨gap, blankGap, insideText⟩
    split at isRead
    case h_1 => cases isRead
    case h_2 depth =>
      split at isRead
      case h_1 closed =>
        cases isRead
        rw [closed] at insideText
        refine ⟨_, before, _, ?_, blankBefore, .emptyObject depth blankGap, rfl⟩
        rw [inputText, insideText]
        simp
      case h_2 =>
        rcases Option.map_eq_some_iff.mp isRead with ⟨⟨items, left⟩, itemsRead, same⟩
        cases same
        rcases ofMembers itemsRead with ⟨entries, text, unread, spelled, areValues⟩
        refine ⟨.object entries, before, _, ?_, blankBefore,
          .object (spelled.blanks_append blankGap), ?_⟩
        · rw [inputText, insideText, unread]
          simp
        · rw [Tree.value?, areValues]
          rfl
  case h_7 =>
    rcases Option.map_eq_some_iff.mp isRead with ⟨⟨made, left⟩, numberRead, same⟩
    cases same
    rcases exists_numeral_of_number numberRead with ⟨numeral, isProper, unread, isNumber⟩
    refine ⟨.number numeral, before, _, ?_, blankBefore, .number depth isProper, ?_⟩
    · rw [inputText, unread]
    · rw [Tree.value?, isNumber]
      rfl

/-- Whatever the reader reads, the grammar has it. -/
theorem readsValues
    (fuel : Nat) :
    ReadsValues fuel ∧ ReadsElements fuel ∧ ReadsMembers fuel := by
  induction fuel with
  | zero =>
      refine ⟨?_, ?_, ?_⟩
      · intro _ _ _ _ isRead
        cases isRead
      · intro _ _ _ _ isRead
        cases isRead
      · intro _ _ _ _ isRead
        cases isRead
  | succ fuel induction =>
      rcases induction with ⟨ofValue, ofElements, ofMembers⟩
      exact ⟨readsValues_succ ofElements ofMembers, readsElements_succ ofValue ofElements,
        readsMembers_succ ofValue ofMembers⟩

/-- A document is read to the value of its tree. -/
theorem parse?_of_isDocument
    {tree : Tree}
    {text : List Char}
    (isDocument : IsDocument tree text) :
    parse? text = tree.value? := by
  rcases isDocument with ⟨before, bare, behind, rfl, blankBefore, blankBehind, spelled⟩
  have stops : StopsAt goesOnNumber (behind ++ []) :=
    stopsAt_blanks_append blankBehind (stopsAt_nil _)
  rw [List.append_nil] at stops
  have enough : 2 * bare.length ≤ 2 * (before ++ (bare ++ behind)).length + 2 := by
    simp only [List.length_append]
    omega
  have isEmpty : skipBlanks behind = [] := by
    have skipped := skipBlanks_append blankBehind (stopsAt_nil _)
    rwa [List.append_nil] at skipped
  rw [parse?, value_append spelled enough blankBefore stops]
  cases tree.value? with
  | none => rfl
  | some read => simp [isEmpty]

/-- A text is read to a value exactly if it is a document with a tree of that value. -/
theorem parse?_eq_some_iff
    {text : List Char}
    {read : Value} :
    parse? text = some read ↔ ∃ tree, IsDocument tree text ∧ tree.value? = some read := by
  constructor
  · intro parsed
    rw [parse?] at parsed
    split at parsed
    case h_2 => cases parsed
    case h_1 value rest isRead =>
      split at parsed
      case isFalse => cases parsed
      case isTrue isEmpty =>
        cases parsed
        rcases (readsValues _).1 isRead with ⟨tree, before, bare, unread, blankBefore, spelled,
          isValue⟩
        rcases exists_blanks rest with ⟨behind, blankBehind, restText⟩
        rw [List.isEmpty_iff.mp isEmpty, List.append_nil] at restText
        rw [restText] at unread
        exact ⟨tree, ⟨before, bare, behind, unread, blankBefore, blankBehind, spelled⟩, isValue⟩
  · rintro ⟨tree, isDocument, isValue⟩
    rw [parse?_of_isDocument isDocument, isValue]

/-- The bytes are JSON text with the tree: a document in UTF-8. -/
def IsText (tree : Tree) (bytes : Bytes) : Prop :=
  ∃ text, bytes = Utf8.encode text ∧ IsDocument tree text

/-- Bytes are read to a value exactly if they are JSON text with a tree of that value. -/
theorem ofBytes?_eq_some_iff
    {bytes : Bytes}
    {read : Value} :
    ofBytes? bytes = some read ↔ ∃ tree, IsText tree bytes ∧ tree.value? = some read := by
  simp only [ofBytes?, Option.bind_eq_some_iff, Utf8.decode?_eq_some_iff, parse?_eq_some_iff]
  constructor
  · rintro ⟨text, isEncoded, tree, isDocument, isValue⟩
    exact ⟨tree, ⟨text, isEncoded, isDocument⟩, isValue⟩
  · rintro ⟨tree, ⟨text, isEncoded, isDocument⟩, isValue⟩
    exact ⟨text, isEncoded, tree, isDocument, isValue⟩

/-! ## The members of an object -/

/-- The entry of a key; where the key is repeated, its last one counts. -/
def Tree.member? (key : String) (entries : List (String × Tree)) : Option Tree :=
  entries.reverse.lookup key

theorem Members.find?_insert
    {α : Type}
    (key other : String)
    (value : α)
    (members : List (String × α)) :
    Members.find? (Members.insert key value members) other =
      if other = key then some value else Members.find? members other := by
  induction members with
  | nil => rw [Members.insert, Members.find?_cons]
  | cons first members induction =>
      rcases first with ⟨name, old⟩
      rw [Members.insert]
      split
      case isTrue same =>
        subst same
        simp only [Members.find?_cons]
        split <;> rfl
      case isFalse different =>
        simp only [Members.find?_cons, induction]
        by_cases isName : other = name
        · subst isName
          simp [different]
        · simp [isName]

/-- Of the entries of a key, the last one becomes its member. -/
theorem Members.find?_ofEntries
    {α : Type}
    (entries : List (String × α))
    (key : String) :
    Members.find? (Members.ofEntries entries) key = entries.reverse.lookup key := by
  rw [Members.ofEntries, ← List.foldr_reverse]
  induction entries.reverse with
  | nil => rfl
  | cons last entries induction =>
      rw [List.foldr_cons, Members.find?_insert, induction, List.lookup_cons]
      by_cases same : key = last.1
      · simp [same]
      · simp [same, beq_false_of_ne same]

/-- Every entry has its value under the same key. -/
theorem forall₂_of_entryValues?
    {entries : List (String × Tree)}
    {values : List (String × Value)}
    (areValues : Tree.entryValues? entries = some values) :
    List.Forall₂ (fun entry value => entry.1 = value.1 ∧ entry.2.value? = some value.2)
      entries values := by
  induction entries generalizing values with
  | nil =>
      rw [Tree.entryValues?] at areValues
      cases areValues
      exact .nil
  | cons first entries induction =>
      rcases Tree.entryValues?_cons_eq_some_iff.mp areValues with
        ⟨value, others, isValue, areOthers, rfl⟩
      exact .cons ⟨rfl, isValue⟩ (induction areOthers)

/-- The member of a key has the value of the last entry of the key. -/
theorem find?_of_entryValues?
    {entries : List (String × Tree)}
    {values : List (String × Value)}
    (areValues : Tree.entryValues? entries = some values)
    (key : String) :
    Members.find? (Members.ofEntries values) key =
      (Tree.member? key entries).bind Tree.value? := by
  rw [Members.find?_ofEntries, Tree.member?]
  have reversed := List.forall₂_reverse_iff.mpr (forall₂_of_entryValues? areValues)
  generalize entries.reverse = entries at reversed
  generalize values.reverse = values at reversed
  clear areValues
  induction reversed with
  | nil => rfl
  | @cons entry value entries values same _ induction =>
      rcases entry with ⟨name, tree⟩
      rcases value with ⟨otherName, value⟩
      rcases same with ⟨rfl, isValue⟩
      rw [List.lookup_cons, List.lookup_cons, induction]
      by_cases isName : key = name
      · simp [isName, isValue]
      · simp [beq_false_of_ne isName]

end QueryGateway.Json
