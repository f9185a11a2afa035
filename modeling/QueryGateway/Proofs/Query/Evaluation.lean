import QueryGateway.Proofs.Number.Overflow
import QueryGateway.Proofs.Query.Writing
import QueryGateway.Proofs.Result
import QueryGateway.Query.Evaluation

/-!
# Arguments that have a value

Definitions can be evaluated if and only if nothing is wrong with any argument
that stands in them: the arguments of fields, and those of the directives of
fields, spreads, inline fragments, operations and fragments, however deep.

What can be wrong is stated about what is written, with no mention of the order
in which it is evaluated: `AreSound` collects it.  Each function of the
evaluation then decides the part of this condition that is its own.
-/

namespace QueryGateway.Query

/-! ## Sound arguments -/

/-- A literal is a part of another one, at any depth, or it is that one. -/
inductive Literal.IsPart (part : Literal) : Literal → Prop where
  | itself : IsPart part part
  | item
      {item : Literal}
      {items : List Literal}
      (isItem : item ∈ items)
      (inside : IsPart part item) :
      IsPart part (.list items)
  | field
      {name : String}
      {value : Literal}
      {fields : List (String × Option Literal)}
      (isField : (name, some value) ∈ fields)
      (inside : IsPart part value) :
      IsPart part (.object fields)

/-- The integer that is written. -/
def writtenInteger (text : String) : Int :=
  match text.toList with
  | '-' :: digits => -(Digits.natural digits : Int)
  | digits => Digits.natural digits

/-- The integer that is written fits the signed 64-bit range. -/
def FitsInteger (text : String) : Prop :=
  -2 ^ 63 ≤ writtenInteger text ∧ writtenInteger text < 2 ^ 63

instance (text : String) : Decidable (FitsInteger text) :=
  inferInstanceAs (Decidable (_ ∧ _))

/-- The number that is written is rounded to a finite double. -/
def FitsDouble (text : String) : Prop :=
  Binary64.writtenMagnitude text.toList < Binary64.overflow

section

variable
    {α : Type}

/-- The arguments of a selection itself. -/
def Selection.arguments : Selection α → List α
  | .field _ _ arguments _ _ => arguments
  | .spread _ _ => []
  | .inline _ _ _ => []

/-- The directives of a selection itself. -/
def Selection.directives : Selection α → List (Directive α)
  | .field _ _ _ directives _ => directives
  | .spread _ directives => directives
  | .inline _ directives _ => directives

/-- The selections below a selection. -/
def Selection.inside : Selection α → List (Selection α)
  | .field _ _ _ _ none => []
  | .field _ _ _ _ (some selections) => selections
  | .spread _ _ => []
  | .inline _ _ selections => selections

/-- An argument of a field or of a directive stands in a selection set, at any depth. -/
inductive ArgumentIn (argument : α) : List (Selection α) → Prop where
  | own
      {selection : Selection α}
      {selections : List (Selection α)}
      (isSelection : selection ∈ selections)
      (isArgument : argument ∈ selection.arguments) :
      ArgumentIn argument selections
  | ofDirective
      {selection : Selection α}
      {selections : List (Selection α)}
      {directive : Directive α}
      (isSelection : selection ∈ selections)
      (isDirective : directive ∈ selection.directives)
      (isArgument : argument ∈ directive.arguments) :
      ArgumentIn argument selections
  | deeper
      {selection : Selection α}
      {selections : List (Selection α)}
      (isSelection : selection ∈ selections)
      (inside : ArgumentIn argument selection.inside) :
      ArgumentIn argument selections

/-- The directives of a definition itself. -/
def Definition.directives : Definition α → List (Directive α)
  | .operation own => own.directives
  | .fragment own => own.directives

/-- The selection set of a definition. -/
def Definition.selections : Definition α → List (Selection α)
  | .operation own => own.selections
  | .fragment own => own.selections

/-- An argument stands in a definition: in one of its directives or in its selection set. -/
def Definition.HasArgument (definition : Definition α) (argument : α) : Prop :=
  (∃ directive ∈ definition.directives, argument ∈ directive.arguments) ∨
    ArgumentIn argument definition.selections

end

/-- Nothing is wrong with the arguments that stand in definitions. -/
structure AreSound (definitions : List (Definition WrittenArgument)) : Prop where
  /-- Every argument has a value. -/
  argumentsHaveValues : ∀ definition ∈ definitions, ∀ argument,
    definition.HasArgument argument → argument.2 ≠ none
  /-- Every field of an object has a value. -/
  fieldsHaveValues : ∀ definition ∈ definitions, ∀ name value fields,
    definition.HasArgument (name, some value) → Literal.IsPart (.object fields) value →
      ∀ field ∈ fields, field.2 ≠ none
  /-- A variable is the whole value of its argument. -/
  variablesAreWhole : ∀ definition ∈ definitions, ∀ name value unbound,
    definition.HasArgument (name, some value) → Literal.IsPart (.variable unbound) value →
      value = .variable unbound
  /-- A number without fraction and exponent is an integer, or else a double. -/
  integersFit : ∀ definition ∈ definitions, ∀ name value text,
    definition.HasArgument (name, some value) → Literal.IsPart (.int text) value →
      FitsInteger text ∨ FitsDouble text
  /-- Any other number is a double. -/
  doublesFit : ∀ definition ∈ definitions, ∀ name value text,
    definition.HasArgument (name, some value) → Literal.IsPart (.float text) value →
      FitsDouble text

/-! ## What a computation decides -/

/-- An error is about an argument. -/
inductive QueryError.IsOfArgument : QueryError → Prop where
  | incomplete (missing : String) : IsOfArgument (.incomplete missing)
  | nestedVariable (name : String) : IsOfArgument (.nestedVariable name)
  | invalidNumber (text : String) : IsOfArgument (.invalidNumber text)

/-- A computation succeeds if and only if a condition holds; else its error is about an argument. -/
structure Decides {α : Type} (condition : Prop) (computation : Except QueryError α) : Prop where
  succeeds : (∃ result, computation = .ok result) ↔ condition
  fails : ∀ error, computation = .error error → error.IsOfArgument

namespace Decides

variable
    {α β : Type}
    {condition other : Prop}

theorem ok
    (result : α) :
    Decides True (.ok result : Except QueryError α) where
  succeeds := iff_of_true ⟨result, rfl⟩ trivial
  fails := nofun

theorem error
    {error : QueryError}
    (notHolds : ¬ condition)
    (isOfArgument : error.IsOfArgument) :
    Decides condition (.error error : Except QueryError α) where
  succeeds := iff_of_false nofun notHolds
  fails := by
    rintro _ ⟨⟩
    exact isOfArgument

theorem of_iff
    {computation : Except QueryError α}
    (same : other ↔ condition)
    (decides : Decides condition computation) :
    Decides other computation where
  succeeds := decides.succeeds.trans same.symm
  fails := decides.fails

theorem bind
    {first : Except QueryError α}
    {next : α → Except QueryError β}
    (ofFirst : Decides condition first)
    (ofNext : ∀ value, Decides other (next value)) :
    Decides (condition ∧ other) (first >>= next) := by
  cases first with
  | error error =>
      refine .error (fun holds => ?_) (ofFirst.fails error rfl)
      obtain ⟨_, isOk⟩ := ofFirst.succeeds.mpr holds.1
      cases isOk
  | ok value =>
      have holds : condition := ofFirst.succeeds.mp ⟨value, rfl⟩
      exact (ofNext value).of_iff (and_iff_right holds)

theorem map
    {first : Except QueryError α}
    (ofFirst : Decides condition first)
    (result : α → β) :
    Decides condition (do return result (← first)) :=
  .of_iff (iff_of_eq (and_true _).symm) (ofFirst.bind fun value => .ok (result value))

theorem mapM
    {evaluate : α → Except QueryError β}
    {holds : α → Prop}
    (each : ∀ element, Decides (holds element) (evaluate element))
    (elements : List α) :
    Decides (∀ element ∈ elements, holds element) (elements.mapM evaluate) := by
  induction elements with
  | nil => exact .of_iff (by simp) (ok [])
  | cons element elements induction =>
      rw [List.mapM_cons]
      exact .of_iff List.forall_mem_cons
        ((each element).bind fun first => induction.map (first :: ·))

end Decides

/-! ## Literals -/

/-- Nothing is wrong with a literal inside of an argument, whatever its parts are. -/
def Literal.IsAdmissible : Literal → Prop
  | .variable _ => False
  | .int text => FitsInteger text ∨ FitsDouble text
  | .float text => FitsDouble text
  | .string _ => True
  | .boolean _ => True
  | .null => True
  | .enum _ => True
  | .list _ => True
  | .object fields => ∀ field ∈ fields, field.2 ≠ none

/-- Nothing is wrong with any part of a literal. -/
def Literal.IsConstant (literal : Literal) : Prop :=
  ∀ part : Literal, part.IsPart literal → part.IsAdmissible

theorem Literal.isConstant_list_iff
    {items : List Literal} :
    (Literal.list items).IsConstant ↔ ∀ item ∈ items, item.IsConstant := by
  constructor
  · intro isConstant item isItem part isPart
    exact isConstant part (.item isItem isPart)
  · intro each part isPart
    cases isPart with
    | itself => trivial
    | item isItem inside => exact each _ isItem part inside

theorem Literal.isConstant_object_iff
    {fields : List (String × Option Literal)} :
    (Literal.object fields).IsConstant ↔
      ∀ field ∈ fields, ∃ value, field.2 = some value ∧ value.IsConstant := by
  constructor
  · intro isConstant field isField
    obtain ⟨value, isValue⟩ := Option.ne_none_iff_exists'.mp
      (isConstant (.object fields) .itself field isField)
    refine ⟨value, isValue, fun part isPart => isConstant part ?_⟩
    have isMember : (field.1, some value) ∈ fields := by
      rwa [← isValue]
    exact .field isMember isPart
  · intro each part isPart
    cases isPart with
    | itself =>
        intro field isField
        obtain ⟨value, isValue, _⟩ := each field isField
        simp [isValue]
    | field isField inside =>
        obtain ⟨value, isValue, isConstant⟩ := each _ isField
        cases isValue
        exact isConstant part inside

theorem Literal.floatValue_decides
    (text : String) :
    Decides (FitsDouble text) (Literal.floatValue text) := by
  have isFinite := Binary64.exists_ofWritten?_iff text.toList
  rw [Literal.floatValue]
  cases written : Binary64.ofWritten? text.toList with
  | none =>
      rw [written] at isFinite
      exact .error (fun fits => nomatch isFinite.mpr fits) (.invalidNumber text)
  | some value =>
      exact .of_iff (iff_of_true (isFinite.mp ⟨value, written⟩) trivial) (.ok _)

theorem Literal.integerValue_eq
    (text : String) :
    Literal.integerValue text =
      if FitsInteger text then
        .ok (.number (.integer (writtenInteger text)))
      else
        Literal.floatValue text :=
  rfl

theorem Literal.integerValue_decides
    (text : String) :
    Decides (FitsInteger text ∨ FitsDouble text) (Literal.integerValue text) := by
  rw [Literal.integerValue_eq]
  split
  case isTrue fits => exact .of_iff (iff_of_true (.inl fits) trivial) (.ok _)
  case isFalse tooLarge => exact .of_iff (or_iff_right tooLarge) (Literal.floatValue_decides text)

/-- The range is not symmetric. -/
example : FitsInteger "-9223372036854775808" ∧ ¬ FitsInteger "9223372036854775808" := by
  decide

/-- For a literal that has no parts but itself. -/
theorem Literal.isConstant_iff
    {literal : Literal}
    (noParts : ∀ part : Literal, part.IsPart literal → part = literal) :
    literal.IsConstant ↔ literal.IsAdmissible := by
  constructor
  · intro isConstant
    exact isConstant literal .itself
  · intro isAdmissible part isPart
    rw [noParts part isPart]
    exact isAdmissible

mutual

theorem Literal.value_decides :
    ∀ literal : Literal, Decides literal.IsConstant literal.value
  | .variable name => by
      refine .error (fun isConstant => ?_) (.nestedVariable name)
      exact isConstant (.variable name) .itself
  | .int text =>
      .of_iff (Literal.isConstant_iff (by rintro _ ⟨⟩; rfl)) (Literal.integerValue_decides text)
  | .float text =>
      .of_iff (Literal.isConstant_iff (by rintro _ ⟨⟩; rfl)) (Literal.floatValue_decides text)
  | .string _ => .of_iff (Literal.isConstant_iff (by rintro _ ⟨⟩; rfl)) (.ok _)
  | .boolean _ => .of_iff (Literal.isConstant_iff (by rintro _ ⟨⟩; rfl)) (.ok _)
  | .null => .of_iff (Literal.isConstant_iff (by rintro _ ⟨⟩; rfl)) (.ok _)
  | .enum _ => .of_iff (Literal.isConstant_iff (by rintro _ ⟨⟩; rfl)) (.ok _)
  | .list items => .of_iff Literal.isConstant_list_iff ((values_decide items).map _)
  | .object fields => .of_iff Literal.isConstant_object_iff ((fieldValues_decide fields).map _)

theorem values_decide :
    ∀ items : List Literal, Decides (∀ item ∈ items, item.IsConstant) (Literal.values items)
  | [] => .of_iff (iff_of_true (List.forall_mem_nil _) trivial) (.ok [])
  | item :: items =>
      .of_iff List.forall_mem_cons
        ((Literal.value_decides item).bind fun first => (values_decide items).map (first :: ·))

theorem fieldValues_decide :
    ∀ fields : List (String × Option Literal),
      Decides (∀ field ∈ fields, ∃ value, field.2 = some value ∧ value.IsConstant)
        (Literal.fieldValues fields)
  | [] => .of_iff (iff_of_true (List.forall_mem_nil _) trivial) (.ok [])
  | (name, none) :: fields => by
      refine .error (fun each => ?_) (.incomplete _)
      obtain ⟨_, isNone, _⟩ := each (name, none) List.mem_cons_self
      cases isNone
  | (name, some value) :: fields => by
      refine .of_iff ?_ ((Literal.value_decides value).bind fun first =>
        (fieldValues_decide fields).map ((name, first) :: ·))
      simp

end

/-! ## Arguments and selections -/

/-- Nothing is wrong with an argument: it is a variable, or a literal without variables. -/
def ArgumentIsSound (argument : WrittenArgument) : Prop :=
  ∃ value, argument.2 = some value ∧
    ((∃ unbound, value = .variable unbound) ∨ value.IsConstant)

theorem evaluateArgument_of_ne_variable
    {value : Literal}
    (notVariable : ∀ unbound, value ≠ .variable unbound)
    (name : String) :
    evaluateArgument (name, some value) = (do return ⟨name, .literal (← value.value)⟩) := by
  cases value with
  | «variable» unbound => exact (notVariable unbound rfl).elim
  | _ => rfl

theorem evaluateArgument_decides :
    ∀ argument : WrittenArgument, Decides (ArgumentIsSound argument) (evaluateArgument argument)
  | (_, none) => by
      refine .error (fun isSound => ?_) (.incomplete _)
      obtain ⟨_, isNone, _⟩ := isSound
      cases isNone
  | (name, some value) => by
      by_cases isVariable : ∃ unbound, value = .variable unbound
      · obtain ⟨unbound, rfl⟩ := isVariable
        exact .of_iff (iff_of_true ⟨_, rfl, .inl ⟨unbound, rfl⟩⟩ trivial) (.ok _)
      · rw [evaluateArgument_of_ne_variable (not_exists.mp isVariable)]
        refine .of_iff ?_ ((Literal.value_decides value).map _)
        simp [ArgumentIsSound, isVariable]

/-- Nothing is wrong with the arguments of directives. -/
def DirectivesAreSound (directives : List (Directive WrittenArgument)) : Prop :=
  ∀ directive ∈ directives, ∀ argument ∈ directive.arguments, ArgumentIsSound argument

theorem evaluateDirective_decides
    (directive : Directive WrittenArgument) :
    Decides (∀ argument ∈ directive.arguments, ArgumentIsSound argument)
      (evaluateDirective directive) :=
  Decides.map (.mapM evaluateArgument_decides directive.arguments) _

theorem evaluateDirectives_decide
    (directives : List (Directive WrittenArgument)) :
    Decides (DirectivesAreSound directives) (directives.mapM evaluateDirective) :=
  .mapM evaluateDirective_decides directives

/-- Nothing is wrong with the arguments that stand in a selection set. -/
def SelectionsAreSound (selections : List (Selection WrittenArgument)) : Prop :=
  ∀ argument, ArgumentIn argument selections → ArgumentIsSound argument

/-- Nothing is wrong with a selection's own arguments, its directives and what is inside. -/
def SelectionIsSound (selection : Selection WrittenArgument) : Prop :=
  (∀ argument ∈ selection.arguments, ArgumentIsSound argument) ∧
    DirectivesAreSound selection.directives ∧ SelectionsAreSound selection.inside

theorem selectionsAreSound_iff
    {selections : List (Selection WrittenArgument)} :
    SelectionsAreSound selections ↔ ∀ selection ∈ selections, SelectionIsSound selection := by
  constructor
  · intro areSound selection isSelection
    refine ⟨?_, ?_, ?_⟩
    · intro argument isArgument
      exact areSound argument (.own isSelection isArgument)
    · intro directive isDirective argument isArgument
      exact areSound argument (.ofDirective isSelection isDirective isArgument)
    · intro argument inside
      exact areSound argument (.deeper isSelection inside)
  · intro each argument isIn
    cases isIn with
    | own isSelection isArgument => exact (each _ isSelection).1 argument isArgument
    | ofDirective isSelection isDirective isArgument =>
        exact (each _ isSelection).2.1 _ isDirective argument isArgument
    | deeper isSelection inside => exact (each _ isSelection).2.2 argument inside

theorem selectionsAreSound_nil :
    SelectionsAreSound [] :=
  selectionsAreSound_iff.mpr (List.forall_mem_nil _)

mutual

theorem evaluateSelection_decides :
    ∀ selection : Selection WrittenArgument,
      Decides (SelectionIsSound selection) (evaluateSelection selection)
  | .field alternative name arguments directives none => by
      refine .of_iff ?_ (Decides.bind (.mapM evaluateArgument_decides arguments)
        fun _ => (evaluateDirectives_decide directives).map _)
      exact ⟨fun sound => ⟨sound.1, sound.2.1⟩,
        fun sound => ⟨sound.1, sound.2, selectionsAreSound_nil⟩⟩
  | .field alternative name arguments directives (some selections) => by
      -- The selections are evaluated first.
      refine .of_iff ?_ ((evaluateSelections_decide selections).bind fun _ =>
        Decides.bind (.mapM evaluateArgument_decides arguments)
          fun _ => (evaluateDirectives_decide directives).map _)
      exact and_rotate.symm
  | .spread name directives => by
      refine .of_iff ?_ ((evaluateDirectives_decide directives).map _)
      exact ⟨fun sound => sound.2.1,
        fun sound => ⟨List.forall_mem_nil _, sound, selectionsAreSound_nil⟩⟩
  | .inline condition directives selections => by
      refine .of_iff ?_ ((evaluateDirectives_decide directives).bind fun _ =>
        (evaluateSelections_decide selections).map _)
      exact ⟨fun sound => sound.2, fun sound => ⟨List.forall_mem_nil _, sound⟩⟩

theorem evaluateSelections_decide :
    ∀ selections : List (Selection WrittenArgument),
      Decides (SelectionsAreSound selections) (evaluateSelections selections)
  | [] => .of_iff (iff_of_true selectionsAreSound_nil trivial) (.ok [])
  | selection :: selections => by
      refine .of_iff ?_ ((evaluateSelection_decides selection).bind fun _ =>
        (evaluateSelections_decide selections).map _)
      rw [selectionsAreSound_iff, selectionsAreSound_iff, List.forall_mem_cons]

end

/-! ## Definitions -/

/-- Nothing is wrong with the arguments that stand in a definition. -/
def DefinitionIsSound (definition : Definition WrittenArgument) : Prop :=
  ∀ argument, definition.HasArgument argument → ArgumentIsSound argument

theorem definitionIsSound_iff
    {definition : Definition WrittenArgument} :
    DefinitionIsSound definition ↔
      DirectivesAreSound definition.directives ∧ SelectionsAreSound definition.selections := by
  constructor
  · intro isSound
    constructor
    · intro directive isDirective argument isArgument
      exact isSound argument (.inl ⟨directive, isDirective, isArgument⟩)
    · intro argument isIn
      exact isSound argument (.inr isIn)
  · rintro ⟨ofDirectives, ofSelections⟩ argument (⟨directive, isDirective, isArgument⟩ | isIn)
    · exact ofDirectives directive isDirective argument isArgument
    · exact ofSelections argument isIn

theorem evaluateOperation_decides
    (operation : Operation WrittenArgument) :
    Decides (DefinitionIsSound (.operation operation)) (evaluateOperation operation) :=
  .of_iff definitionIsSound_iff ((evaluateDirectives_decide operation.directives).bind fun _ =>
    (evaluateSelections_decide operation.selections).map _)

theorem evaluateFragment_decides
    (fragment : Fragment WrittenArgument) :
    Decides (DefinitionIsSound (.fragment fragment)) (evaluateFragment fragment) :=
  .of_iff definitionIsSound_iff ((evaluateDirectives_decide fragment.directives).bind fun _ =>
    (evaluateSelections_decide fragment.selections).map _)

theorem areSound_iff
    {definitions : List (Definition WrittenArgument)} :
    AreSound definitions ↔ ∀ definition ∈ definitions, DefinitionIsSound definition := by
  constructor
  · rintro areSound definition isDefinition ⟨name, value⟩ isArgument
    obtain ⟨value, rfl⟩ := Option.ne_none_iff_exists'.mp
      (areSound.argumentsHaveValues definition isDefinition _ isArgument)
    refine ⟨value, rfl, or_iff_not_imp_left.mpr fun notVariable part isPart => ?_⟩
    cases part with
    | «variable» unbound =>
        exact notVariable ⟨unbound,
          areSound.variablesAreWhole definition isDefinition name value unbound isArgument isPart⟩
    | int text =>
        exact areSound.integersFit definition isDefinition name value text isArgument isPart
    | float text =>
        exact areSound.doublesFit definition isDefinition name value text isArgument isPart
    | object fields =>
        exact areSound.fieldsHaveValues definition isDefinition name value fields isArgument isPart
    | string => trivial
    | boolean => trivial
    | null => trivial
    | enum => trivial
    | list => trivial
  · intro each
    -- A variable has no other part, and what is no variable has only admissible parts.
    have admissible : ∀ definition ∈ definitions, ∀ name value,
        definition.HasArgument (name, some value) → ∀ part : Literal, part.IsPart value →
          (∃ unbound, value = .variable unbound ∧ part = .variable unbound) ∨
            part.IsAdmissible := by
      intro definition isDefinition name value isArgument part isPart
      obtain ⟨_, isValue, sound⟩ := each definition isDefinition _ isArgument
      cases isValue
      rcases sound with ⟨unbound, rfl⟩ | isConstant
      · cases isPart
        exact .inl ⟨unbound, rfl, rfl⟩
      · exact .inr (isConstant part isPart)
    constructor
    case argumentsHaveValues =>
      intro definition isDefinition argument isArgument
      obtain ⟨value, isValue, _⟩ := each definition isDefinition argument isArgument
      simp [isValue]
    case fieldsHaveValues =>
      intro definition isDefinition name value fields isArgument isPart
      obtain ⟨_, _, isOther⟩ | isAdmissible :=
        admissible definition isDefinition name value isArgument _ isPart
      · cases isOther
      · exact isAdmissible
    case variablesAreWhole =>
      intro definition isDefinition name value unbound isArgument isPart
      obtain ⟨_, isVariable, isSame⟩ | isAdmissible :=
        admissible definition isDefinition name value isArgument _ isPart
      · cases isSame
        exact isVariable
      · exact isAdmissible.elim
    case integersFit =>
      intro definition isDefinition name value text isArgument isPart
      obtain ⟨_, _, isOther⟩ | isAdmissible :=
        admissible definition isDefinition name value isArgument _ isPart
      · cases isOther
      · exact isAdmissible
    case doublesFit =>
      intro definition isDefinition name value text isArgument isPart
      obtain ⟨_, _, isOther⟩ | isAdmissible :=
        admissible definition isDefinition name value isArgument _ isPart
      · cases isOther
      · exact isAdmissible

/-- Definitions can be evaluated if and only if nothing is wrong with their arguments. -/
theorem evaluateDefinitions_decides
    (definitions : List (Definition WrittenArgument)) :
    Decides (AreSound definitions) (evaluateDefinitions definitions) := by
  refine .of_iff areSound_iff ?_
  induction definitions with
  | nil => exact .of_iff (iff_of_true (List.forall_mem_nil _) trivial) (.ok _)
  | cons definition definitions induction =>
      rw [List.forall_mem_cons]
      cases definition with
      | operation operation =>
          exact (evaluateOperation_decides operation).bind fun result => induction.map _
      | fragment fragment =>
          exact (evaluateFragment_decides fragment).bind fun result => induction.map _

end QueryGateway.Query
