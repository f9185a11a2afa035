import QueryGateway.Proofs.Query.RoundTrip

/-!
# What is read from a text

What is read from tokens that can be read can be written again, and nests no
deeper than it may.  So no text has definitions that nest deeper than the
grammar admits, and definitions that have been read from a text are still those
of a text when something that nests no deeper has been put into them.
-/

namespace QueryGateway.Query

/-- From tokens that can be read, only something good is read, and the tokens left can be read. -/
def Yields {α : Type} (good : α → Prop) (reads : List Token → Option (α × List Token)) : Prop :=
  ∀ tokens value rest, AllReadable tokens → reads tokens = some (value, rest) →
    good value ∧ AllReadable rest

theorem allReadable_passCommas
    {tokens : List Token}
    (readable : AllReadable tokens) :
    AllReadable (Grammar.passCommas tokens) :=
  fun token isToken => readable token ((List.dropWhile_sublist _).subset isToken)

theorem allReadable_of_mark?
    {character : Char}
    {tokens rest : List Token}
    (readable : AllReadable tokens)
    (reads : Grammar.mark? character tokens = some rest) :
    AllReadable rest := by
  unfold Grammar.mark? at reads
  split at reads
  case h_2 => cases reads
  case h_1 =>
    obtain ⟨_, isRest⟩ := Option.ite_none_right_eq_some.mp reads
    cases isRest
    exact allReadable_passCommas (allReadable_cons.mp readable).2

theorem yields_name? :
    Yields IsName Grammar.name? := by
  intro tokens name rest readable reads
  unfold Grammar.name? at reads
  split at reads
  case h_2 => cases reads
  case h_1 =>
    cases reads
    obtain ⟨isName, ofRest⟩ := allReadable_cons.mp readable
    exact ⟨isName, allReadable_passCommas ofRest⟩

/-! ## Literals and arguments -/

/-- A literal can be read, and nests no deeper than this. -/
def Literal.Within (depth : Nat) (literal : Literal) : Prop :=
  literal.Readable ∧ literal.nesting ≤ depth

/-- The items of a list can be read, and nest no deeper than this. -/
def ItemsWithin (depth : Nat) (items : List Literal) : Prop :=
  Literal.ReadableItems items ∧ Literal.nestingOfItems items ≤ depth

/-- Entries can be read, and nest no deeper than this. -/
def EntriesWithin (depth : Nat) (entries : List (String × Option Literal)) : Prop :=
  Literal.ReadableEntries entries ∧ Literal.nestingOfEntries entries ≤ depth

theorem Literal.within_ofName
    {name : String}
    (isName : IsName name)
    (depth : Nat) :
    (Literal.ofName name).Within depth := by
  by_cases isTrue : name = "true"
  · simp [Literal.Within, Literal.ofName, isTrue, Literal.Readable, Literal.nesting]
  by_cases isFalse : name = "false"
  · simp [Literal.Within, Literal.ofName, isFalse, Literal.Readable, Literal.nesting]
  by_cases isNull : name = "null"
  · simp [Literal.Within, Literal.ofName, isNull, Literal.Readable, Literal.nesting]
  · have isEnum : Literal.ofName name = .enum name := by
      simp [Literal.ofName, isTrue, isFalse, isNull]
    rw [isEnum]
    exact ⟨by rw [Literal.Readable]; exact ⟨isName, isEnum⟩, by simp [Literal.nesting]⟩

theorem yields_literal_succ
    {fuel : Nat}
    (ofItems : ∀ depth constant, Yields (ItemsWithin depth) (Grammar.items fuel depth constant))
    (ofEntries :
      ∀ depth constant, Yields (EntriesWithin depth) (Grammar.entries fuel depth constant))
    (depth : Nat)
    (constant : Bool) :
    Yields (Literal.Within depth) (Grammar.literal (fuel + 1) depth constant) := by
  intro tokens literal rest readable reads
  unfold Grammar.literal at reads
  split at reads
  case h_1 | h_2 =>
    cases reads
    obtain ⟨ofToken, ofTokens⟩ := allReadable_cons.mp readable
    refine ⟨⟨?_, by simp [Literal.nesting]⟩, allReadable_passCommas ofTokens⟩
    rw [Literal.Readable]
    exact ofToken
  case h_3 =>
    cases reads
    have ofTokens := (allReadable_cons.mp readable).2
    exact ⟨⟨by simp [Literal.Readable], by simp [Literal.nesting]⟩,
      allReadable_passCommas ofTokens⟩
  case h_4 =>
    cases reads
    obtain ⟨isName, ofTokens⟩ := allReadable_cons.mp readable
    exact ⟨Literal.within_ofName isName depth, allReadable_passCommas ofTokens⟩
  case h_5 =>
    have ofTokens := (allReadable_cons.mp readable).2
    obtain ⟨_, reads⟩ := Option.ite_none_left_eq_some.mp reads
    obtain ⟨⟨name, left⟩, ofName, result⟩ := Option.map_eq_some_iff.mp reads
    cases result
    obtain ⟨isName, ofLeft⟩ := yields_name? _ _ _ (allReadable_passCommas ofTokens) ofName
    refine ⟨⟨?_, by simp [Literal.nesting]⟩, ofLeft⟩
    rw [Literal.Readable]
    exact isName
  case h_6 =>
    have ofTokens := (allReadable_cons.mp readable).2
    cases depth with
    | zero => cases reads
    | succ depth =>
        obtain ⟨⟨items, left⟩, areItems, result⟩ := Option.map_eq_some_iff.mp reads
        cases result
        obtain ⟨⟨areReadable, fit⟩, ofLeft⟩ :=
          ofItems depth constant _ _ _ (allReadable_passCommas ofTokens) areItems
        refine ⟨⟨?_, ?_⟩, ofLeft⟩
        · rw [Literal.Readable]
          exact areReadable
        · rw [Literal.nesting]
          exact Nat.succ_le_succ fit
  case h_7 =>
    have ofTokens := (allReadable_cons.mp readable).2
    cases depth with
    | zero => cases reads
    | succ depth =>
        simp only at reads
        split at reads
        case h_1 => cases reads
        case h_2 fields left areFields =>
          obtain ⟨after, closes, result⟩ := Option.map_eq_some_iff.mp reads
          cases result
          obtain ⟨⟨areReadable, fit⟩, ofLeft⟩ :=
            ofEntries depth constant _ _ _ (allReadable_passCommas ofTokens) areFields
          refine ⟨⟨?_, ?_⟩, allReadable_of_mark? ofLeft closes⟩
          · rw [Literal.Readable]
            exact areReadable
          · rw [Literal.nesting]
            exact Nat.succ_le_succ fit
  case h_8 => cases reads

theorem yields_items_succ
    {fuel depth : Nat}
    {constant : Bool}
    (ofLiteral : Yields (Literal.Within depth) (Grammar.literal fuel depth constant))
    (ofItems : Yields (ItemsWithin depth) (Grammar.items fuel depth constant)) :
    Yields (ItemsWithin depth) (Grammar.items (fuel + 1) depth constant) := by
  intro tokens items rest readable reads
  unfold Grammar.items at reads
  split at reads
  case h_1 =>
    cases reads
    have ofTokens := (allReadable_cons.mp readable).2
    exact ⟨⟨by simp [Literal.ReadableItems], by simp [Literal.nestingOfItems]⟩,
      allReadable_passCommas ofTokens⟩
  case h_2 =>
    split at reads
    case h_1 => cases reads
    case h_2 first left isFirst =>
      obtain ⟨⟨others, after⟩, areOthers, result⟩ := Option.map_eq_some_iff.mp reads
      cases result
      obtain ⟨firstWithin, ofLeft⟩ := ofLiteral _ _ _ readable isFirst
      obtain ⟨othersWithin, ofAfter⟩ := ofItems _ _ _ ofLeft areOthers
      refine ⟨⟨?_, ?_⟩, ofAfter⟩
      · rw [Literal.ReadableItems]
        exact ⟨firstWithin.1, othersWithin.1⟩
      · rw [Literal.nestingOfItems]
        exact Nat.max_le.mpr ⟨firstWithin.2, othersWithin.2⟩

theorem yields_entries_succ
    {fuel depth : Nat}
    {constant : Bool}
    (ofLiteral : Yields (Literal.Within depth) (Grammar.literal fuel depth constant))
    (ofEntries : Yields (EntriesWithin depth) (Grammar.entries fuel depth constant)) :
    Yields (EntriesWithin depth) (Grammar.entries (fuel + 1) depth constant) := by
  intro tokens entries rest readable reads
  unfold Grammar.entries at reads
  split at reads
  case h_1 =>
    cases reads
    exact ⟨⟨by simp [Literal.ReadableEntries], by simp [Literal.nestingOfEntries]⟩, readable⟩
  case h_2 name left isName =>
    obtain ⟨ofName, ofLeft⟩ := yields_name? _ _ _ readable isName
    split at reads
    case h_1 =>
      obtain ⟨⟨others, after⟩, areOthers, result⟩ := Option.map_eq_some_iff.mp reads
      cases result
      obtain ⟨othersWithin, ofAfter⟩ := ofEntries _ _ _ ofLeft areOthers
      refine ⟨⟨?_, ?_⟩, ofAfter⟩
      · rw [Literal.ReadableEntries]
        exact ⟨ofName, othersWithin.1⟩
      · rw [Literal.nestingOfEntries]
        exact othersWithin.2
    case h_2 afterColon hasColon =>
      split at reads
      case h_1 => cases reads
      case h_2 value afterValue isValue =>
        obtain ⟨⟨others, after⟩, areOthers, result⟩ := Option.map_eq_some_iff.mp reads
        cases result
        obtain ⟨valueWithin, ofAfterValue⟩ :=
          ofLiteral _ _ _ (allReadable_of_mark? ofLeft hasColon) isValue
        obtain ⟨othersWithin, ofAfter⟩ := ofEntries _ _ _ ofAfterValue areOthers
        refine ⟨⟨?_, ?_⟩, ofAfter⟩
        · rw [Literal.ReadableEntries]
          exact ⟨ofName, valueWithin.1, othersWithin.1⟩
        · rw [Literal.nestingOfEntries]
          exact Nat.max_le.mpr ⟨valueWithin.2, othersWithin.2⟩

theorem yields_none
    {α : Type}
    {good : α → Prop}
    {reads : List Token → Option (α × List Token)}
    (never : ∀ tokens, reads tokens = none) :
    Yields good reads := by
  intro tokens value rest _ isRead
  cases (never tokens).symm.trans isRead

/-- The three readers call each other, each time with less fuel. -/
theorem yields_literals
    (fuel : Nat) :
    ∀ depth constant,
      Yields (Literal.Within depth) (Grammar.literal fuel depth constant) ∧
        Yields (ItemsWithin depth) (Grammar.items fuel depth constant) ∧
        Yields (EntriesWithin depth) (Grammar.entries fuel depth constant) := by
  induction fuel with
  | zero =>
      intro depth constant
      exact ⟨yields_none fun _ => by rw [Grammar.literal],
        yields_none fun _ => by rw [Grammar.items],
        yields_none fun _ => by rw [Grammar.entries]⟩
  | succ fuel induction =>
      intro depth constant
      obtain ⟨ofLiteral, ofItems, ofEntries⟩ := induction depth constant
      exact ⟨yields_literal_succ (fun depth constant => (induction depth constant).2.1)
          (fun depth constant => (induction depth constant).2.2) depth constant,
        yields_items_succ ofLiteral ofItems, yields_entries_succ ofLiteral ofEntries⟩

theorem yields_arguments
    (fuel depth : Nat)
    (constant : Bool) :
    Yields (EntriesWithin depth) (Grammar.arguments fuel depth constant) := by
  intro tokens arguments rest readable reads
  unfold Grammar.arguments at reads
  split at reads
  case h_1 =>
    cases reads
    exact ⟨⟨by simp [Literal.ReadableEntries], by simp [Literal.nestingOfEntries]⟩, readable⟩
  case h_2 inside isOpen =>
    simp only [Option.bind_eq_bind, Option.bind_eq_some_iff, Prod.exists] at reads
    obtain ⟨entries, left, areEntries, after, closes, result⟩ := reads
    obtain ⟨_, result⟩ := Option.ite_none_left_eq_some.mp result
    cases result
    obtain ⟨within, ofLeft⟩ :=
      (yields_literals fuel depth constant).2.2 _ _ _ (allReadable_of_mark? readable isOpen)
        areEntries
    exact ⟨within, allReadable_of_mark? ofLeft closes⟩

/-- Directives can be read, and nest no deeper than this. -/
def DirectivesWithin (depth : Nat) (directives : List (Directive WrittenArgument)) : Prop :=
  ReadableDirectives directives ∧ nestingOfDirectives directives ≤ depth

theorem yields_directives
    (fuel depth : Nat)
    (constant : Bool) :
    Yields (DirectivesWithin depth) (Grammar.directives fuel depth constant) := by
  induction fuel with
  | zero => exact yields_none fun _ => by rw [Grammar.directives]
  | succ fuel induction =>
      intro tokens directives rest readable reads
      unfold Grammar.directives at reads
      split at reads
      case h_1 =>
        cases reads
        exact ⟨⟨List.forall_mem_nil _, Nat.zero_le depth⟩, readable⟩
      case h_2 afterMark isMarked =>
        simp only [Option.bind_eq_bind, Option.bind_eq_some_iff, Prod.exists] at reads
        obtain ⟨name, afterName, isName, arguments, afterArguments, areArguments, others, after,
          areOthers, result⟩ := reads
        cases result
        obtain ⟨ofName, ofAfterName⟩ :=
          yields_name? _ _ _ (allReadable_of_mark? readable isMarked) isName
        obtain ⟨argumentsWithin, ofAfterArguments⟩ :=
          yields_arguments fuel depth constant _ _ _ ofAfterName areArguments
        obtain ⟨othersWithin, ofAfter⟩ := induction _ _ _ ofAfterArguments areOthers
        refine ⟨⟨?_, ?_⟩, ofAfter⟩
        · exact List.forall_mem_cons.mpr ⟨⟨ofName, argumentsWithin.1⟩, othersWithin.1⟩
        · exact Nat.max_le.mpr ⟨argumentsWithin.2, othersWithin.2⟩

/-! ## Selections -/

/-- A selection can be read, and nests no deeper than this. -/
def Selection.Within (depth : Nat) (selection : Selection WrittenArgument) : Prop :=
  selection.Readable ∧ selection.nesting ≤ depth

/-- Selections can be read, and nest no deeper than this. -/
def SelectionsWithin (depth : Nat) (selections : List (Selection WrittenArgument)) : Prop :=
  Selection.ReadableAll selections ∧ Selection.nestingOf selections ≤ depth

/-- Selections can be read in braces, and nest no deeper than this with them. -/
def SetWithin (depth : Nat) (selections : List (Selection WrittenArgument)) : Prop :=
  selections ≠ [] ∧ Selection.ReadableAll selections ∧ Selection.nestingOf selections + 1 ≤ depth

theorem allReadable_alternative
    {tokens : List Token}
    (readable : AllReadable tokens) :
    (∀ own, (Grammar.alternative tokens).1 = some own → IsName own) ∧
      AllReadable (Grammar.alternative tokens).2 := by
  unfold Grammar.alternative
  split
  case h_1 =>
    obtain ⟨isName, ofTokens⟩ := allReadable_cons.mp readable
    refine ⟨?_, allReadable_passCommas (allReadable_cons.mp ofTokens).2⟩
    rintro _ ⟨⟩
    exact isName
  case h_2 => exact ⟨nofun, readable⟩

theorem yields_typeCondition? :
    Yields IsName Grammar.typeCondition? := by
  intro tokens condition rest readable reads
  obtain ⟨left, isOn, isName⟩ := Option.bind_eq_some_iff.mp reads
  refine yields_name? _ _ _ ?_ isName
  unfold Grammar.keyword? at isOn
  split at isOn
  case h_2 => cases isOn
  case h_1 =>
    obtain ⟨_, isLeft⟩ := Option.ite_none_right_eq_some.mp isOn
    cases isLeft
    exact allReadable_passCommas (allReadable_cons.mp readable).2

theorem yields_selectionSet_succ
    {fuel : Nat}
    (ofSelections : ∀ depth, Yields (SelectionsWithin depth) (Grammar.selections fuel depth))
    (depth : Nat) :
    Yields (SetWithin depth) (Grammar.selectionSet (fuel + 1) depth) := by
  intro tokens selections rest readable reads
  cases depth with
  | zero => simp [Grammar.selectionSet] at reads
  | succ depth =>
      simp only [Grammar.selectionSet, Option.bind_eq_bind, Option.bind_eq_some_iff,
        Prod.exists] at reads
      obtain ⟨inside, isOpen, read, left, isRead, after, closes, result⟩ := reads
      obtain ⟨nonempty, result⟩ := Option.ite_none_left_eq_some.mp result
      cases result
      obtain ⟨⟨areReadable, fit⟩, ofLeft⟩ :=
        ofSelections depth _ _ _ (allReadable_of_mark? readable isOpen) isRead
      refine ⟨⟨?_, areReadable, Nat.succ_le_succ fit⟩, allReadable_of_mark? ofLeft closes⟩
      rintro rfl
      exact nonempty rfl

theorem yields_field_succ
    {fuel depth : Nat}
    (ofSet : Yields (SetWithin depth) (Grammar.selectionSet fuel depth)) :
    Yields (Selection.Within depth) (Grammar.field (fuel + 1) depth) := by
  intro tokens selection rest readable reads
  obtain ⟨areNames, ofFront⟩ := allReadable_alternative readable
  simp only [Grammar.field, Option.bind_eq_bind, Option.bind_eq_some_iff, Prod.exists] at reads
  obtain ⟨name, afterName, isName, arguments, afterArguments, areArguments, directives,
    afterDirectives, areDirectives, reads⟩ := reads
  obtain ⟨ofName, ofAfterName⟩ := yields_name? _ _ _ ofFront isName
  obtain ⟨⟨readableArguments, fitArguments⟩, ofAfterArguments⟩ :=
    yields_arguments fuel depth false _ _ _ ofAfterName areArguments
  obtain ⟨⟨readableDirectives, fitDirectives⟩, ofAfterDirectives⟩ :=
    yields_directives fuel depth false _ _ _ ofAfterArguments areDirectives
  split at reads
  case h_1 =>
    cases reads
    refine ⟨⟨?_, ?_⟩, ofAfterDirectives⟩
    · rw [Selection.Readable]
      exact ⟨areNames, ofName, readableArguments, readableDirectives⟩
    · rw [Selection.nesting]
      exact Nat.max_le.mpr ⟨fitArguments, fitDirectives⟩
  case h_2 =>
    simp only [Option.bind_eq_some_iff, Prod.exists] at reads
    obtain ⟨selections, after, areSelections, result⟩ := reads
    cases result
    obtain ⟨⟨nonempty, readableAll, fitSet⟩, ofAfter⟩ :=
      ofSet _ _ _ ofAfterDirectives areSelections
    refine ⟨⟨?_, ?_⟩, ofAfter⟩
    · rw [Selection.Readable]
      exact ⟨areNames, ofName, readableArguments, readableDirectives, nonempty, readableAll⟩
    · rw [Selection.nesting]
      exact Nat.max_le.mpr ⟨Nat.max_le.mpr ⟨fitArguments, fitDirectives⟩, fitSet⟩

/-- What is written in place is read after the condition that it may have. -/
theorem yields_inline_rest
    {fuel depth : Nat}
    (ofSet : Yields (SetWithin depth) (Grammar.selectionSet fuel depth))
    {condition : Option String}
    (areNames : ∀ type, condition = some type → IsName type) :
    Yields (Selection.Within depth) (fun tokens => do
      let (directives, rest) ← Grammar.directives fuel depth false tokens
      let (selections, rest) ← Grammar.selectionSet fuel depth rest
      some (.inline condition directives selections, rest)) := by
  intro tokens selection rest readable reads
  simp only [Option.bind_eq_bind, Option.bind_eq_some_iff, Prod.exists] at reads
  obtain ⟨directives, left, areDirectives, selections, after, areSelections, result⟩ := reads
  cases result
  obtain ⟨⟨readableDirectives, fitDirectives⟩, ofLeft⟩ :=
    yields_directives fuel depth false _ _ _ readable areDirectives
  obtain ⟨⟨nonempty, readableAll, fitSet⟩, ofAfter⟩ := ofSet _ _ _ ofLeft areSelections
  refine ⟨⟨?_, ?_⟩, ofAfter⟩
  · rw [Selection.Readable]
    exact ⟨areNames, readableDirectives, nonempty, readableAll⟩
  · rw [Selection.nesting]
    exact Nat.max_le.mpr ⟨fitDirectives, fitSet⟩

theorem yields_inline_succ
    {fuel depth : Nat}
    (ofSet : Yields (SetWithin depth) (Grammar.selectionSet fuel depth)) :
    Yields (Selection.Within depth) (Grammar.inline (fuel + 1) depth) := by
  intro tokens selection rest readable reads
  unfold Grammar.inline at reads
  split at reads
  case h_1 =>
    obtain ⟨_, isCondition, reads⟩ := Option.bind_eq_some_iff.mp reads
    obtain ⟨⟨type, left⟩, isType, result⟩ := Option.map_eq_some_iff.mp isCondition
    cases result
    obtain ⟨isName, ofLeft⟩ := yields_typeCondition? _ _ _ readable isType
    refine yields_inline_rest ofSet ?_ _ _ _ ofLeft reads
    rintro _ ⟨⟩
    exact isName
  case h_2 =>
    have noNames : ∀ type, (none : Option String) = some type → IsName type := by
      rintro _ ⟨⟩
    exact yields_inline_rest ofSet noNames _ _ _ readable reads

theorem SelectionsWithin.cons
    {depth : Nat}
    {selection : Selection WrittenArgument}
    {selections : List (Selection WrittenArgument)}
    (first : selection.Within depth)
    (others : SelectionsWithin depth selections) :
    SelectionsWithin depth (selection :: selections) := by
  constructor
  · rw [Selection.ReadableAll]
    exact ⟨first.1, others.1⟩
  · rw [Selection.nestingOf]
    exact Nat.max_le.mpr ⟨first.2, others.2⟩

theorem yields_selections_succ
    {fuel depth : Nat}
    (ofField : Yields (Selection.Within depth) (Grammar.field fuel depth))
    (ofInline : Yields (Selection.Within depth) (Grammar.inline fuel depth))
    (ofSelections : Yields (SelectionsWithin depth) (Grammar.selections fuel depth)) :
    Yields (SelectionsWithin depth) (Grammar.selections (fuel + 1) depth) := by
  intro tokens selections rest readable reads
  unfold Grammar.selections at reads
  split at reads
  case h_1 =>
    simp only [Option.bind_eq_bind, Option.bind_eq_some_iff, Prod.exists] at reads
    obtain ⟨first, left, isFirst, others, after, areOthers, result⟩ := reads
    cases result
    obtain ⟨firstWithin, ofLeft⟩ := ofField _ _ _ readable isFirst
    obtain ⟨othersWithin, ofAfter⟩ := ofSelections _ _ _ ofLeft areOthers
    exact ⟨.cons firstWithin othersWithin, ofAfter⟩
  case h_2 name tokens =>
    obtain ⟨isName, ofTokens⟩ := allReadable_cons.mp (allReadable_cons.mp readable).2
    split at reads
    case isTrue =>
      simp only [Option.bind_eq_bind, Option.bind_eq_some_iff, Prod.exists] at reads
      obtain ⟨first, left, isFirst, others, after, areOthers, result⟩ := reads
      cases result
      obtain ⟨firstWithin, ofLeft⟩ :=
        ofInline _ _ _ (allReadable_cons.mpr ⟨isName, ofTokens⟩) isFirst
      obtain ⟨othersWithin, ofAfter⟩ := ofSelections _ _ _ ofLeft areOthers
      exact ⟨.cons firstWithin othersWithin, ofAfter⟩
    case isFalse notOn =>
      simp only [Option.bind_eq_bind, Option.bind_eq_some_iff, Option.map_eq_some_iff,
        Prod.exists] at reads
      obtain ⟨_, left, ⟨directives, _, areDirectives, isFirst⟩, others, after, areOthers,
        result⟩ := reads
      cases isFirst
      cases result
      obtain ⟨⟨readableDirectives, fitDirectives⟩, ofLeft⟩ :=
        yields_directives fuel depth false _ _ _ (allReadable_passCommas ofTokens) areDirectives
      obtain ⟨othersWithin, ofAfter⟩ := ofSelections _ _ _ ofLeft areOthers
      refine ⟨.cons ⟨?_, ?_⟩ othersWithin, ofAfter⟩
      · rw [Selection.Readable]
        exact ⟨isName, notOn, readableDirectives⟩
      · rw [Selection.nesting]
        exact fitDirectives
  case h_3 =>
    simp only [Option.bind_eq_bind, Option.bind_eq_some_iff, Prod.exists] at reads
    obtain ⟨first, left, isFirst, others, after, areOthers, result⟩ := reads
    cases result
    obtain ⟨firstWithin, ofLeft⟩ := ofInline _ _ _ (allReadable_cons.mp readable).2 isFirst
    obtain ⟨othersWithin, ofAfter⟩ := ofSelections _ _ _ ofLeft areOthers
    exact ⟨.cons firstWithin othersWithin, ofAfter⟩
  case h_4 =>
    cases reads
    exact ⟨⟨by simp [Selection.ReadableAll], by simp [Selection.nestingOf]⟩, readable⟩

/-- The readers of selections call each other, each time with less fuel. -/
theorem yields_selections
    (fuel : Nat) :
    ∀ depth,
      Yields (SetWithin depth) (Grammar.selectionSet fuel depth) ∧
        Yields (SelectionsWithin depth) (Grammar.selections fuel depth) ∧
        Yields (Selection.Within depth) (Grammar.field fuel depth) ∧
        Yields (Selection.Within depth) (Grammar.inline fuel depth) := by
  induction fuel with
  | zero =>
      intro depth
      exact ⟨yields_none fun _ => by simp [Grammar.selectionSet],
        yields_none fun _ => by rw [Grammar.selections],
        yields_none fun _ => by rw [Grammar.field],
        yields_none fun _ => by rw [Grammar.inline]⟩
  | succ fuel induction =>
      intro depth
      obtain ⟨ofSet, ofSelections, ofField, ofInline⟩ := induction depth
      exact ⟨yields_selectionSet_succ (fun depth => (induction depth).2.1) depth,
        yields_selections_succ ofField ofInline ofSelections, yields_field_succ ofSet,
        yields_inline_succ ofSet⟩

end QueryGateway.Query
