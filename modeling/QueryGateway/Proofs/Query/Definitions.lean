import QueryGateway.Proofs.Query.Reading

/-!
# Definitions that are read from a text

Whatever is passed over in a text, the tokens after it can still be read.  So all
definitions of a text can be written again, and nest no deeper than the grammar
admits.
-/

namespace QueryGateway.Query

/-- The tokens after what is passed over can be read. -/
def Keeps (passes : List Token → Option (List Token)) : Prop :=
  ∀ tokens rest, AllReadable tokens → passes tokens = some rest → AllReadable rest

namespace Keeps

variable
    {first second : List Token → Option (List Token)}

theorem bind
    (keeps : Keeps first)
    (keepsSecond : Keeps second) :
    Keeps fun tokens => (first tokens).bind second := by
  intro tokens rest readable passes
  obtain ⟨left, passesFirst, passesSecond⟩ := Option.bind_eq_some_iff.mp passes
  exact keepsSecond _ _ (keeps _ _ readable passesFirst) passesSecond

theorem mark
    (character : Char) :
    Keeps (Grammar.mark? character) :=
  fun _ _ => allReadable_of_mark?

/-- What is read may be left aside. -/
theorem of_yields
    {α : Type}
    {good : α → Prop}
    {reads : List Token → Option (α × List Token)}
    (yields : Yields good reads) :
    Keeps fun tokens => (reads tokens).map (·.2) := by
  intro tokens rest readable passes
  obtain ⟨⟨value, _⟩, isRead, rfl⟩ := Option.map_eq_some_iff.mp passes
  exact (yields _ _ _ readable isRead).2

/-- What goes on after something that is read may depend on it. -/
theorem after
    {α : Type}
    {good : α → Prop}
    {reads : List Token → Option (α × List Token)}
    (yields : Yields good reads)
    {further : α → List Token → Option (List Token)}
    (keeps : ∀ value, Keeps (further value)) :
    Keeps fun tokens => (reads tokens).bind fun (value, rest) => further value rest := by
  intro tokens rest readable passes
  obtain ⟨⟨value, left⟩, isRead, passes⟩ := Option.bind_eq_some_iff.mp passes
  exact keeps value _ _ (yields _ _ _ readable isRead).2 passes

theorem never :
    Keeps fun _ => none :=
  fun _ _ _ passes => nomatch passes

/-- What a mark introduces may be missing. -/
theorem marked
    (character : Char)
    (keeps : Keeps first) :
    Keeps (TypeSystem.marked character first) := by
  intro tokens rest readable passes
  unfold TypeSystem.marked at passes
  split at passes
  case h_1 =>
    cases passes
    exact readable
  case h_2 isMarked => exact keeps _ _ (allReadable_of_mark? readable isMarked) passes

theorem keyword
    (word : String) :
    Keeps (Grammar.keyword? word) := by
  intro tokens rest readable passes
  unfold Grammar.keyword? at passes
  split at passes
  case h_2 => cases passes
  case h_1 =>
    obtain ⟨_, isRest⟩ := Option.ite_none_right_eq_some.mp passes
    cases isRest
    exact allReadable_passCommas (allReadable_cons.mp readable).2

theorem introduced
    (word : String)
    (keeps : Keeps first) :
    Keeps (TypeSystem.introduced word first) := by
  intro tokens rest readable passes
  unfold TypeSystem.introduced at passes
  split at passes
  case h_1 =>
    cases passes
    exact readable
  case h_2 isWord => exact keeps _ _ (keyword word _ _ readable isWord) passes

end Keeps

/-! ## Types, variables and directives -/

theorem keeps_passName :
    Keeps fun tokens => (Grammar.name? tokens).map (·.2) :=
  .of_yields yields_name?

theorem keeps_passType
    (fuel : Nat) :
    Keeps (Grammar.passType fuel) := by
  induction fuel with
  | zero => exact fun _ _ _ passes => nomatch passes
  | succ fuel induction =>
      intro tokens rest readable passes
      have ofInner : ∃ inner, AllReadable inner ∧
          some ((Grammar.mark? '!' inner).getD inner) = some rest := by
        unfold Grammar.passType at passes
        split at passes
        case h_1 =>
          obtain ⟨inner, isInner, result⟩ := Option.bind_eq_some_iff.mp passes
          exact ⟨inner, keeps_passName _ _ readable isInner, result⟩
        case h_2 inside isOpen =>
          obtain ⟨inner, isInner, result⟩ := Option.bind_eq_some_iff.mp passes
          have ofInside := allReadable_of_mark? readable isOpen
          exact ⟨inner, (induction.bind (.mark ']')) _ _ ofInside isInner, result⟩
      obtain ⟨inner, ofInner, result⟩ := ofInner
      cases result
      cases closes : Grammar.mark? '!' inner with
      | none => exact ofInner
      | some left => exact allReadable_of_mark? ofInner closes

theorem keeps_passDefault
    (fuel depth : Nat) :
    Keeps (Grammar.passDefault fuel depth) :=
  Keeps.marked '=' (.of_yields (yields_literals fuel depth true).1)

theorem keeps_passDirectives
    (fuel depth : Nat) :
    Keeps (Grammar.passDirectives fuel depth) :=
  .of_yields (yields_directives fuel depth true)

theorem keeps_passVariables
    (fuel depth : Nat) :
    Keeps (Grammar.passVariables fuel depth) := by
  induction fuel with
  | zero => exact fun _ _ _ passes => nomatch passes
  | succ fuel induction =>
      exact .marked '$' (.after yields_name? fun _ => .bind (.mark ':')
        (.bind (keeps_passType fuel) (.bind (keeps_passDefault fuel depth)
          (.bind (keeps_passDirectives fuel depth) induction))))

theorem keeps_passVariableList
    (fuel depth : Nat) :
    Keeps (Grammar.passVariableList fuel depth) := by
  refine .marked '(' ?_
  intro tokens rest readable passes
  obtain ⟨_, _, passes⟩ := Option.bind_eq_some_iff.mp passes
  exact (Keeps.bind (keeps_passVariables fuel depth) (.mark ')')) _ _ readable passes

/-! ## Definitions of types -/

theorem allReadable_description
    {tokens : List Token}
    (readable : AllReadable tokens) :
    AllReadable (TypeSystem.description tokens) := by
  unfold TypeSystem.description
  split
  case h_1 => exact allReadable_passCommas (allReadable_cons.mp readable).2
  case h_2 => exact readable

theorem keeps_furtherParts
    {part : List Token → Option (List Token)}
    (keeps : Keeps part)
    (fuel : Nat)
    (separator : Char) :
    Keeps (TypeSystem.furtherParts fuel separator part) := by
  induction fuel with
  | zero => exact .never
  | succ fuel induction => exact .marked separator (.bind keeps induction)

theorem keeps_separated
    {part : List Token → Option (List Token)}
    (keeps : Keeps part)
    (fuel : Nat)
    (separator : Char) :
    Keeps (TypeSystem.separated fuel separator part) := by
  intro tokens rest readable passes
  refine (keeps.bind (keeps_furtherParts keeps fuel separator)) _ _ ?_ passes
  cases isMarked : Grammar.mark? separator tokens with
  | none => exact readable
  | some left => exact allReadable_of_mark? readable isMarked

theorem keeps_namesBy
    (fuel : Nat)
    (separator : Char) :
    Keeps (TypeSystem.namesBy fuel separator) :=
  keeps_separated keeps_passName fuel separator

theorem keeps_entries
    {entry : List Token → Option (List Token)}
    (keeps : Keeps entry)
    (fuel : Nat) :
    Keeps (TypeSystem.entries fuel entry) := by
  induction fuel with
  | zero => exact .never
  | succ fuel induction =>
      intro tokens rest readable passes
      obtain ⟨left, isEntry, passes⟩ := Option.bind_eq_some_iff.mp passes
      have ofLeft := keeps _ _ readable isEntry
      split at passes
      case isTrue => exact induction _ _ ofLeft passes
      case isFalse =>
        cases passes
        exact ofLeft

theorem keeps_described
    {passes : List Token → Option (List Token)}
    (keeps : Keeps passes) :
    Keeps fun tokens => passes (TypeSystem.description tokens) :=
  fun _ _ readable => keeps _ _ (allReadable_description readable)

theorem keeps_inputValue
    (fuel depth : Nat) :
    Keeps (TypeSystem.inputValue fuel depth) :=
  keeps_described (.after yields_name? fun _ => .bind (.mark ':') (.bind (keeps_passType fuel)
    (.bind (keeps_passDefault fuel depth) (keeps_passDirectives fuel depth))))

theorem keeps_argumentDefinitions
    (fuel depth : Nat) :
    Keeps (TypeSystem.argumentDefinitions fuel depth) :=
  .marked '(' (.bind (keeps_entries (keeps_inputValue fuel depth) fuel) (.mark ')'))

theorem keeps_fieldDefinition
    (fuel depth : Nat) :
    Keeps (TypeSystem.fieldDefinition fuel depth) :=
  keeps_described (.after yields_name? fun _ => .bind (keeps_argumentDefinitions fuel depth)
    (.bind (.mark ':') (.bind (keeps_passType fuel) (keeps_passDirectives fuel depth))))

theorem keeps_enumValue
    (fuel depth : Nat) :
    Keeps (TypeSystem.enumValue fuel depth) := by
  intro tokens rest readable passes
  obtain ⟨⟨name, left⟩, isName, passes⟩ := Option.bind_eq_some_iff.mp passes
  have ofLeft := (yields_name? _ _ _ (allReadable_description readable) isName).2
  obtain ⟨_, passes⟩ := Option.ite_none_left_eq_some.mp passes
  exact keeps_passDirectives _ _ _ _ ofLeft passes

theorem keeps_rootOperation :
    Keeps TypeSystem.rootOperation := by
  intro tokens rest readable passes
  obtain ⟨⟨name, left⟩, isName, passes⟩ := Option.bind_eq_some_iff.mp passes
  have ofLeft := (yields_name? _ _ _ readable isName).2
  obtain ⟨_, passes⟩ := Option.ite_none_left_eq_some.mp passes
  exact (Keeps.bind (.mark ':') keeps_passName) _ _ ofLeft passes

theorem keeps_braced
    {entry : List Token → Option (List Token)}
    (keeps : Keeps entry)
    (fuel : Nat) :
    Keeps (TypeSystem.braced fuel entry) :=
  .marked '{' (.bind (keeps_entries keeps fuel) (.mark '}'))

theorem keeps_location :
    Keeps TypeSystem.location := by
  intro tokens rest readable passes
  obtain ⟨⟨name, left⟩, isName, passes⟩ := Option.bind_eq_some_iff.mp passes
  obtain ⟨_, isRest⟩ := Option.ite_none_right_eq_some.mp passes
  cases isRest
  exact (yields_name? _ _ _ readable isName).2

theorem keeps_directiveBody
    (fuel depth : Nat) :
    Keeps (TypeSystem.directiveBody fuel depth) := by
  intro tokens rest readable passes
  obtain ⟨left, areArguments, passes⟩ := Option.bind_eq_some_iff.mp passes
  have ofLeft := keeps_argumentDefinitions _ _ _ _ readable areArguments
  refine (Keeps.bind (.keyword "on") (keeps_separated keeps_location fuel '|')) _ _ ?_ passes
  cases isWord : Grammar.keyword? "repeatable" left with
  | none => exact ofLeft
  | some after => exact Keeps.keyword _ _ _ ofLeft isWord

theorem keeps_typeBody?
    {fuel depth : Nat}
    {word : String}
    {body : List Token → Option (List Token)}
    (isBody : TypeSystem.typeBody? fuel depth word = some body) :
    Keeps body := by
  have directives := keeps_passDirectives fuel depth
  unfold TypeSystem.typeBody? at isBody
  simp only at isBody
  split at isBody
  case h_1 =>
    cases isBody
    exact directives
  case h_2 | h_3 =>
    cases isBody
    exact .bind (.introduced "implements" (keeps_namesBy fuel '&'))
      (.bind directives (keeps_braced (keeps_fieldDefinition fuel depth) fuel))
  case h_4 =>
    cases isBody
    exact .bind directives (.marked '=' (keeps_namesBy fuel '|'))
  case h_5 =>
    cases isBody
    exact .bind directives (keeps_braced (keeps_enumValue fuel depth) fuel)
  case h_6 =>
    cases isBody
    exact .bind directives (keeps_braced (keeps_inputValue fuel depth) fuel)
  case h_7 => cases isBody

theorem keeps_typeDefinition
    (fuel depth : Nat)
    (extending : Bool) :
    Keeps (TypeSystem.definition fuel depth extending) := by
  intro tokens rest readable passes
  obtain ⟨⟨word, left⟩, isWord, passes⟩ := Option.bind_eq_some_iff.mp passes
  have ofLeft := (yields_name? _ _ _ readable isWord).2
  simp only at passes
  split at passes
  case h_1 =>
    obtain ⟨parts, areParts, passes⟩ := Option.bind_eq_some_iff.mp passes
    obtain ⟨after, isAfter, passes⟩ := Option.bind_eq_some_iff.mp passes
    obtain ⟨_, isRest⟩ := Option.ite_none_left_eq_some.mp passes
    cases isRest
    exact ((keeps_passDirectives fuel depth).bind (keeps_braced keeps_rootOperation fuel)) _ _
      ofLeft (Option.bind_eq_some_iff.mpr ⟨parts, areParts, isAfter⟩)
  case h_2 =>
    obtain ⟨_, passes⟩ := Option.ite_none_left_eq_some.mp passes
    exact (Keeps.bind (.mark '@') (.after yields_name? fun _ => keeps_directiveBody fuel depth)) _ _
      ofLeft passes
  case h_3 =>
    obtain ⟨body, isBody, passes⟩ := Option.bind_eq_some_iff.mp passes
    obtain ⟨⟨name, afterName⟩, isName, passes⟩ := Option.bind_eq_some_iff.mp passes
    obtain ⟨after, isAfter, passes⟩ := Option.bind_eq_some_iff.mp passes
    obtain ⟨_, isRest⟩ := Option.ite_none_left_eq_some.mp passes
    cases isRest
    exact keeps_typeBody? isBody _ _ (yields_name? _ _ _ ofLeft isName).2 isAfter

/-! ## Operations and fragments -/

/-- A definition can be read, and nests no deeper than this. -/
def Definition.Within (depth : Nat) (definition : Definition WrittenArgument) : Prop :=
  definition.Readable ∧ definition.nesting ≤ depth

/-- An operation is read after the name that it may have. -/
theorem yields_operation_rest
    (fuel depth : Nat)
    (kind : OperationKind)
    {name : Option String}
    (areNames : ∀ own, name = some own → IsName own) :
    Yields (fun own => (Definition.operation own).Within depth) (fun tokens => do
      let rest ← Grammar.passVariableList fuel depth tokens
      let (directives, rest) ← Grammar.directives fuel depth false rest
      let (selections, rest) ← Grammar.selectionSet fuel depth rest
      some (⟨kind, name, directives, selections⟩, rest)) := by
  intro tokens own rest readable reads
  simp only [Option.bind_eq_bind, Option.bind_eq_some_iff, Prod.exists] at reads
  obtain ⟨afterVariables, areVariables, directives, afterDirectives, areDirectives, selections,
    after, areSelections, result⟩ := reads
  cases result
  have ofVariables := keeps_passVariableList _ _ _ _ readable areVariables
  obtain ⟨⟨readableDirectives, fitDirectives⟩, ofDirectives⟩ :=
    yields_directives fuel depth false _ _ _ ofVariables areDirectives
  obtain ⟨⟨nonempty, readableAll, fitSet⟩, ofAfter⟩ :=
    (yields_selections fuel depth).1 _ _ _ ofDirectives areSelections
  exact ⟨⟨⟨areNames, readableDirectives, nonempty, readableAll⟩,
    Nat.max_le.mpr ⟨fitDirectives, fitSet⟩⟩, ofAfter⟩

theorem yields_operation
    (fuel depth : Nat)
    (kind : OperationKind) :
    Yields (fun own => (Definition.operation own).Within depth)
      (Grammar.operation fuel depth kind) := by
  intro tokens own rest readable reads
  unfold Grammar.operation at reads
  cases isName : Grammar.name? tokens with
  | none =>
      rw [isName] at reads
      have noNames : ∀ own, (none : Option String) = some own → IsName own := by
        rintro _ ⟨⟩
      exact yields_operation_rest fuel depth kind noNames _ _ _ readable reads
  | some result =>
      rw [isName] at reads
      obtain ⟨ofName, ofLeft⟩ := yields_name? _ _ _ readable isName
      refine yields_operation_rest fuel depth kind ?_ _ _ _ ofLeft reads
      rintro _ ⟨⟩
      exact ofName

theorem yields_fragment
    (fuel depth : Nat) :
    Yields (fun own => (Definition.fragment own).Within depth)
      (Grammar.fragment fuel depth) := by
  intro tokens own rest readable reads
  obtain ⟨⟨name, left⟩, isName, reads⟩ := Option.bind_eq_some_iff.mp reads
  obtain ⟨ofName, ofLeft⟩ := yields_name? _ _ _ readable isName
  obtain ⟨notOn, reads⟩ := Option.ite_none_left_eq_some.mp reads
  simp only [Option.bind_eq_bind, Option.bind_eq_some_iff, Prod.exists] at reads
  obtain ⟨condition, afterCondition, isCondition, directives, afterDirectives, areDirectives,
    selections, after, areSelections, result⟩ := reads
  cases result
  obtain ⟨ofCondition, ofAfterCondition⟩ := yields_typeCondition? _ _ _ ofLeft isCondition
  obtain ⟨⟨readableDirectives, fitDirectives⟩, ofDirectives⟩ :=
    yields_directives fuel depth false _ _ _ ofAfterCondition areDirectives
  obtain ⟨⟨nonempty, readableAll, fitSet⟩, ofAfter⟩ :=
    (yields_selections fuel depth).1 _ _ _ ofDirectives areSelections
  exact ⟨⟨⟨ofName, notOn, ofCondition, readableDirectives, nonempty, readableAll⟩,
    Nat.max_le.mpr ⟨fitDirectives, fitSet⟩⟩, ofAfter⟩

/-- A definition may yield nothing. -/
def AtMost (good : Definition WrittenArgument → Prop)
    (found : Option (Definition WrittenArgument)) : Prop :=
  ∀ definition ∈ found, good definition

theorem yields_definition_of_keeps
    {good : Definition WrittenArgument → Prop}
    {passes : List Token → Option (List Token)}
    (keeps : Keeps passes) :
    Yields (AtMost good) fun tokens => (passes tokens).map (none, ·) := by
  intro tokens found rest readable reads
  obtain ⟨left, passed, result⟩ := Option.map_eq_some_iff.mp reads
  cases result
  exact ⟨nofun, keeps _ _ readable passed⟩

theorem yields_definition_of_yields
    {α : Type}
    {good : Definition WrittenArgument → Prop}
    {definition : α → Definition WrittenArgument}
    {reads : List Token → Option (α × List Token)}
    (yields : Yields (fun own => good (definition own)) reads) :
    Yields (AtMost good) fun tokens =>
      (reads tokens).map fun (own, rest) => (some (definition own), rest) := by
  intro tokens found rest readable isRead
  obtain ⟨⟨own, left⟩, isOwn, result⟩ := Option.map_eq_some_iff.mp isRead
  cases result
  obtain ⟨ofOwn, ofLeft⟩ := yields _ _ _ readable isOwn
  refine ⟨?_, ofLeft⟩
  rintro _ ⟨⟩
  exact ofOwn

/-- A set on its own is a query. -/
theorem yields_query
    (fuel depth : Nat) :
    Yields (fun selections => (Definition.operation ⟨.query, none, [], selections⟩).Within depth)
      (Grammar.selectionSet fuel depth) := by
  intro tokens selections rest readable reads
  obtain ⟨⟨nonempty, readableAll, fitSet⟩, ofRest⟩ :=
    (yields_selections fuel depth).1 _ _ _ readable reads
  exact ⟨⟨⟨nofun, List.forall_mem_nil _, nonempty, readableAll⟩,
    Nat.max_le.mpr ⟨Nat.zero_le depth, fitSet⟩⟩, ofRest⟩

theorem yields_definition
    (fuel depth : Nat) :
    Yields (AtMost (Definition.Within depth)) (Grammar.definition fuel depth) := by
  have named := fun kind => yields_definition_of_yields (yields_operation fuel depth kind)
  have passed : ∀ extending, Yields (AtMost (Definition.Within depth)) fun tokens =>
      (TypeSystem.definition fuel depth extending tokens).map (none, ·) :=
    fun extending => yields_definition_of_keeps (keeps_typeDefinition fuel depth extending)
  intro tokens found rest readable reads
  unfold Grammar.definition at reads
  split at reads
  case h_1 => exact yields_definition_of_yields (yields_query fuel depth) _ _ _ readable reads
  case h_2 => exact passed _ _ _ _ (allReadable_cons.mp readable).2 reads
  case h_3 => exact passed _ _ _ _ (allReadable_cons.mp readable).2 reads
  case h_4 =>
    exact yields_definition_of_yields (yields_fragment fuel depth) _ _ _
      (allReadable_passCommas (allReadable_cons.mp readable).2) reads
  case h_5 | h_6 | h_7 =>
    exact named _ _ _ _ (allReadable_passCommas (allReadable_cons.mp readable).2) reads
  case h_8 => exact passed _ _ _ _ readable reads
  case h_9 => cases reads

theorem within_of_definitions
    {count fuel depth : Nat}
    {tokens : List Token}
    (readable : AllReadable tokens)
    {definitions : List (Definition WrittenArgument)}
    (reads : Grammar.definitions count fuel depth tokens = some definitions) :
    ∀ definition ∈ definitions, definition.Within depth := by
  induction count generalizing tokens definitions with
  | zero =>
      cases tokens with
      | nil =>
          cases reads
          exact List.forall_mem_nil _
      | cons => cases reads
  | succ count induction =>
      cases tokens with
      | nil =>
          cases reads
          exact List.forall_mem_nil _
      | cons token tokens =>
          obtain ⟨⟨first, rest⟩, isFirst, reads⟩ := Option.bind_eq_some_iff.mp reads
          obtain ⟨others, areOthers, result⟩ := Option.bind_eq_some_iff.mp reads
          cases result
          obtain ⟨ofFirst, ofRest⟩ := yields_definition _ _ _ _ _ readable isFirst
          refine List.forall_mem_append.mpr ⟨?_, induction ofRest areOthers⟩
          intro definition isMember
          exact ofFirst definition (by simpa using isMember)

/-- The definitions of a text can be written again, and nest no deeper than the grammar admits. -/
theorem within_of_writtenDefinitions?
    {text : String}
    {definitions : List (Definition WrittenArgument)}
    (written : writtenDefinitions? text = some definitions) :
    ∀ definition ∈ definitions, definition.Within Grammar.nestingLimit := by
  obtain ⟨tokens, areTokens, reads⟩ := Option.bind_eq_some_iff.mp written
  have readable := allReadable_passCommas (Token.readable_of_list? areTokens)
  unfold Grammar.definitions? at reads
  split at reads
  case h_1 => cases reads
  case h_2 => exact within_of_definitions readable reads

/-! ## Definitions in which something is replaced -/

theorem readableAll_append
    {selections others : List (Selection WrittenArgument)}
    (readable : Selection.ReadableAll selections)
    (readableOthers : Selection.ReadableAll others) :
    Selection.ReadableAll (selections ++ others) := by
  induction selections with
  | nil => exact readableOthers
  | cons selection selections induction =>
      rw [List.cons_append, Selection.ReadableAll]
      rw [Selection.ReadableAll] at readable
      exact ⟨readable.1, induction readable.2⟩

/-- What can be read can still be read, and no selection set has become empty. -/
theorem Inlining.readableAll
    {fragments : List (Fragment WrittenArgument)}
    (readableFragments : ∀ own ∈ fragments, (Definition.fragment own).Readable)
    {selections others : List (Selection WrittenArgument)}
    (inlining : Inlining fragments selections others)
    (readable : Selection.ReadableAll selections) :
    Selection.ReadableAll others ∧ (selections ≠ [] → others ≠ []) := by
  induction inlining with
  | nil => exact ⟨readable, id⟩
  | leaf _ induction =>
      rw [Selection.ReadableAll] at readable ⊢
      exact ⟨⟨readable.1, (induction readable.2).1⟩, fun _ => List.cons_ne_nil _ _⟩
  | field _ _ insideInduction induction =>
      simp only [Selection.ReadableAll, Selection.Readable] at readable ⊢
      obtain ⟨⟨areNames, isName, ofArguments, ofDirectives, nonempty, ofOwn⟩, ofRest⟩ := readable
      obtain ⟨ofInlined, staysNonempty⟩ := insideInduction ofOwn
      exact ⟨⟨⟨areNames, isName, ofArguments, ofDirectives, staysNonempty nonempty, ofInlined⟩,
        (induction ofRest).1⟩, fun _ => List.cons_ne_nil _ _⟩
  | spread _ induction =>
      rw [Selection.ReadableAll] at readable ⊢
      exact ⟨⟨readable.1, (induction readable.2).1⟩, fun _ => List.cons_ne_nil _ _⟩
  | @replaced _ directives kept _ _ _ isOnly keeps _ _ insideInduction induction =>
      simp only [Selection.ReadableAll, Selection.Readable] at readable ⊢
      obtain ⟨⟨_, _, ofDirectives⟩, ofRest⟩ := readable
      obtain ⟨_, _, isCondition, _, nonempty, ofOwn⟩ :=
        readableFragments _ (mem_of_isOnly isOnly)
      obtain ⟨ofInlined, staysNonempty⟩ := insideInduction ofOwn
      have ofKept : ReadableDirectives kept := by
        rcases keeps with rfl | rfl
        · exact List.forall_mem_nil _
        · exact ofDirectives
      refine ⟨⟨⟨?_, ofKept, staysNonempty nonempty, ofInlined⟩, (induction ofRest).1⟩,
        fun _ => List.cons_ne_nil _ _⟩
      rintro _ ⟨⟩
      exact isCondition
  | inline _ _ insideInduction induction =>
      simp only [Selection.ReadableAll, Selection.Readable] at readable ⊢
      obtain ⟨⟨areNames, ofDirectives, nonempty, ofOwn⟩, ofRest⟩ := readable
      obtain ⟨ofInlined, staysNonempty⟩ := insideInduction ofOwn
      exact ⟨⟨⟨areNames, ofDirectives, staysNonempty nonempty, ofInlined⟩, (induction ofRest).1⟩,
        fun _ => List.cons_ne_nil _ _⟩
  | dissolved _ _ insideInduction induction =>
      simp only [Selection.ReadableAll, Selection.Readable] at readable
      obtain ⟨⟨_, _, nonempty, ofOwn⟩, ofRest⟩ := readable
      obtain ⟨ofInlined, staysNonempty⟩ := insideInduction ofOwn
      exact ⟨readableAll_append ofInlined (induction ofRest).1,
        fun _ => List.append_ne_nil_of_left_ne_nil (staysNonempty nonempty) _⟩

theorem Definition.Inlines.readable
    {fragments : List (Fragment WrittenArgument)}
    (readableFragments : ∀ own ∈ fragments, (Definition.fragment own).Readable)
    {definition other : Definition WrittenArgument}
    (inlines : definition.Inlines fragments other)
    (readable : definition.Readable) :
    other.Readable := by
  cases inlines with
  | operation inlines =>
      obtain ⟨_, inlining, rfl⟩ := inlines
      obtain ⟨areNames, ofDirectives, nonempty, ofSelections⟩ := readable
      obtain ⟨ofInlined, staysNonempty⟩ := inlining.readableAll readableFragments ofSelections
      exact ⟨areNames, ofDirectives, staysNonempty nonempty, ofInlined⟩
  | fragment inlines =>
      obtain ⟨_, inlining, rfl⟩ := inlines
      obtain ⟨isName, notOn, isCondition, ofDirectives, nonempty, ofSelections⟩ := readable
      obtain ⟨ofInlined, staysNonempty⟩ := inlining.readableAll readableFragments ofSelections
      exact ⟨isName, notOn, isCondition, ofDirectives, staysNonempty nonempty, ofInlined⟩

theorem readable_of_inlines
    {fragments : List (Fragment WrittenArgument)}
    (readableFragments : ∀ own ∈ fragments, (Definition.fragment own).Readable)
    {definitions others : List (Definition WrittenArgument)}
    (inlines : List.Forall₂ (Definition.Inlines fragments) definitions others)
    (readable : ∀ definition ∈ definitions, definition.Readable) :
    ∀ definition ∈ others, definition.Readable := by
  induction inlines with
  | nil => exact readable
  | cons first _ induction =>
      obtain ⟨ofFirst, ofRest⟩ := List.forall_mem_cons.mp readable
      exact List.forall_mem_cons.mpr ⟨first.readable readableFragments ofFirst, induction ofRest⟩

/--
When spreads and inline fragments have been replaced in the definitions of a
text, the result is that of a text unless it nests too deep, and only then.
-/
theorem exists_text_iff
    {text : String}
    {definitions others : List (Definition WrittenArgument)}
    (written : writtenDefinitions? text = some definitions)
    (inlines : InlinesAll definitions others) :
    (∃ otherText, writtenDefinitions? otherText = some others) ↔
      ∀ definition ∈ others, definition.nesting ≤ Grammar.nestingLimit := by
  constructor
  · rintro ⟨otherText, otherWritten⟩ definition isDefinition
    exact (within_of_writtenDefinitions? otherWritten definition isDefinition).2
  · intro fits
    cases isEmpty : others with
    | nil =>
        -- The text has definitions of types only.
        rw [isEmpty] at inlines
        cases inlines
        exact ⟨text, written⟩
    | cons first rest =>
        have within := within_of_writtenDefinitions? written
        have readableFragments : ∀ own ∈ definitions.filterMap (·.fragment?),
            (Definition.fragment own).Readable := by
          intro own isOwn
          obtain ⟨definition, isDefinition, isFragment⟩ := List.mem_filterMap.mp isOwn
          cases definition with
          | operation => cases isFragment
          | fragment =>
              cases isFragment
              exact (within _ isDefinition).1
        have readable := readable_of_inlines readableFragments inlines
          fun definition isDefinition => (within definition isDefinition).1
        rw [← isEmpty]
        exact ⟨writtenText others,
          writtenDefinitions?_writtenText (by simp [isEmpty]) readable fits⟩

end QueryGateway.Query
