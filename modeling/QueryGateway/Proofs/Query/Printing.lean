import Mathlib
import QueryGateway.Json.Printer
import QueryGateway.Proofs.Json.RoundTrip
import QueryGateway.Proofs.Query.Cycles
import QueryGateway.Proofs.Query.Evaluation
import QueryGateway.Proofs.Query.RoundTrip
import QueryGateway.Proofs.Text.Digits

/-!
# Documents as texts

A document is written as the definitions that it could have been evaluated from:
its operations, and behind them its fragments.  A value becomes the literal that
denotes it; what an enumeration has been is a string.

`Document.IsWritable` says which documents can be written: the names are names
of the grammar, no selection set is empty, and nothing nests too deep or leads
back to itself.  The text of such a document is read as the document itself, and
so is every other text with the same tokens.
-/

namespace QueryGateway.Query

/-! ## How a document is written -/

mutual

/-- A value as a literal. -/
def Literal.ofValue : Json.Value → Literal
  | .null => .null
  | .bool value => .boolean value
  | .number (.integer value) => .int (String.ofList (Json.Number.integer value).text)
  | .number (.double value) => .float (String.ofList (Json.Number.double value).text)
  | .string value => .string value
  | .array elements => .list (Literal.ofElements elements)
  | .object members => .object (Literal.ofMembers members)

/-- The elements of an array as literals. -/
def Literal.ofElements : List Json.Value → List Literal
  | [] => []
  | element :: elements => Literal.ofValue element :: Literal.ofElements elements

/-- The members of an object as literals. -/
def Literal.ofMembers : List (String × Json.Value) → List (String × Option Literal)
  | [] => []
  | (key, value) :: members => (key, some (Literal.ofValue value)) :: Literal.ofMembers members

end

/-- The value of an argument as a literal. -/
def Literal.ofArgument : ArgumentValue → Literal
  | .literal value => Literal.ofValue value
  | .variable name => .variable name

def Argument.written (argument : Argument) : WrittenArgument :=
  (argument.name, some (Literal.ofArgument argument.value))

def Directive.written (directive : Directive Argument) : Directive WrittenArgument :=
  ⟨directive.name, directive.arguments.map Argument.written⟩

mutual

/-- A selection with its arguments as they are written. -/
def Selection.written : Selection Argument → Selection WrittenArgument
  | .field alternative name arguments directives none =>
      .field alternative name (arguments.map Argument.written) (directives.map Directive.written)
        none
  | .field alternative name arguments directives (some selections) =>
      .field alternative name (arguments.map Argument.written) (directives.map Directive.written)
        (some (Selection.writtenAll selections))
  | .spread name directives => .spread name (directives.map Directive.written)
  | .inline condition directives selections =>
      .inline condition (directives.map Directive.written) (Selection.writtenAll selections)

/-- Selections with their arguments as they are written. -/
def Selection.writtenAll : List (Selection Argument) → List (Selection WrittenArgument)
  | [] => []
  | selection :: selections => selection.written :: Selection.writtenAll selections

end

def Operation.written (operation : Operation Argument) : Operation WrittenArgument :=
  ⟨operation.kind, operation.name, operation.directives.map Directive.written,
    Selection.writtenAll operation.selections⟩

def Fragment.written (fragment : Fragment Argument) : Fragment WrittenArgument :=
  ⟨fragment.name, fragment.condition, fragment.directives.map Directive.written,
    Selection.writtenAll fragment.selections⟩

/-- The operations of a document, and behind them its fragments. -/
def Document.definitions (document : Document) : List (Definition WrittenArgument) :=
  document.operations.map (.operation ·.written) ++ document.fragments.map (.fragment ·.written)

/-- A document as a text. -/
def Document.text (document : Document) : String :=
  writtenText document.definitions

/-! ## Documents that can be written -/

/-- A name of the grammar: letters, digits and underscores, with no digit in front. -/
def IsProperName (name : String) : Prop :=
  name.toList.head?.any Token.isNameStart = true ∧ name.toList.tail.all Token.isNamePart = true

instance (name : String) : Decidable (IsProperName name) :=
  inferInstanceAs (Decidable (_ ∧ _))

/-- A value without doubles, in whose objects the keys are distinct names. -/
inductive IsPlain : Json.Value → Prop where
  | null : IsPlain .null
  | bool (value : Bool) : IsPlain (.bool value)
  | integer
      {value : Int}
      (lower : -2 ^ 63 ≤ value)
      (upper : value < 2 ^ 63) :
      IsPlain (.number (.integer value))
  | string (value : String) : IsPlain (.string value)
  | array
      {elements : List Json.Value}
      (each : ∀ element ∈ elements, IsPlain element) :
      IsPlain (.array elements)
  | object
      {members : List (String × Json.Value)}
      (areNames : ∀ member ∈ members, IsProperName member.1)
      (distinct : (members.map (·.1)).Nodup)
      (each : ∀ member ∈ members, IsPlain member.2) :
      IsPlain (.object members)

/-- The value of an argument is a variable or a plain value. -/
inductive ArgumentValue.IsWritable : ArgumentValue → Prop where
  | literal
      {value : Json.Value}
      (isPlain : IsPlain value) :
      IsWritable (.literal value)
  | variable
      {name : String}
      (isName : IsProperName name) :
      IsWritable (.variable name)

structure Argument.IsWritable (argument : Argument) : Prop where
  name : IsProperName argument.name
  value : argument.value.IsWritable

structure Directive.IsWritable (directive : Directive Argument) : Prop where
  name : IsProperName directive.name
  arguments : ∀ argument ∈ directive.arguments, argument.IsWritable

/-- A selection with proper names, in which no selection set is empty. -/
inductive Selection.IsWritable : Selection Argument → Prop where
  | leaf
      {alternative : Option String}
      {name : String}
      {arguments : List Argument}
      {directives : List (Directive Argument)}
      (isAlias : ∀ own, alternative = some own → IsProperName own)
      (isName : IsProperName name)
      (ofArguments : ∀ argument ∈ arguments, argument.IsWritable)
      (ofDirectives : ∀ directive ∈ directives, directive.IsWritable) :
      IsWritable (.field alternative name arguments directives none)
  | field
      {alternative : Option String}
      {name : String}
      {arguments : List Argument}
      {directives : List (Directive Argument)}
      {selections : List (Selection Argument)}
      (isAlias : ∀ own, alternative = some own → IsProperName own)
      (isName : IsProperName name)
      (ofArguments : ∀ argument ∈ arguments, argument.IsWritable)
      (ofDirectives : ∀ directive ∈ directives, directive.IsWritable)
      (nonempty : selections ≠ [])
      (each : ∀ selection ∈ selections, selection.IsWritable) :
      IsWritable (.field alternative name arguments directives (some selections))
  | spread
      {name : String}
      {directives : List (Directive Argument)}
      (isName : IsProperName name)
      (notOn : name ≠ "on")
      (ofDirectives : ∀ directive ∈ directives, directive.IsWritable) :
      IsWritable (.spread name directives)
  | inline
      {condition : Option String}
      {directives : List (Directive Argument)}
      {selections : List (Selection Argument)}
      (isType : ∀ type, condition = some type → IsProperName type)
      (ofDirectives : ∀ directive ∈ directives, directive.IsWritable)
      (nonempty : selections ≠ [])
      (each : ∀ selection ∈ selections, selection.IsWritable) :
      IsWritable (.inline condition directives selections)

structure Operation.IsWritable (operation : Operation Argument) : Prop where
  name : ∀ name, operation.name = some name → IsProperName name
  directives : ∀ directive ∈ operation.directives, directive.IsWritable
  nonempty : operation.selections ≠ []
  selections : ∀ selection ∈ operation.selections, selection.IsWritable

structure Fragment.IsWritable (fragment : Fragment Argument) : Prop where
  name : IsProperName fragment.name
  notOn : fragment.name ≠ "on"
  condition : IsProperName fragment.condition
  directives : ∀ directive ∈ fragment.directives, directive.IsWritable
  nonempty : fragment.selections ≠ []
  selections : ∀ selection ∈ fragment.selections, selection.IsWritable

/-- A document with proper names that the grammar and the search for cycles admit. -/
structure Document.IsWritable (document : Document) : Prop where
  nonempty : document.operations ≠ [] ∨ document.fragments ≠ []
  operations : ∀ operation ∈ document.operations, operation.IsWritable
  fragments : ∀ fragment ∈ document.fragments, fragment.IsWritable
  nesting : ∀ definition ∈ document.definitions, definition.nesting ≤ Grammar.nestingLimit
  noCycle : ∀ name, ¬ SpreadGraph.LeadsBack document.fragments name

theorem IsProperName.isName
    {name : String}
    (isProper : IsProperName name) :
    IsName name := by
  obtain ⟨starts, continues⟩ := isProper
  cases written : name.toList with
  | nil =>
      rw [written] at starts
      cases starts
  | cons first others =>
      rw [written] at starts continues
      rw [← String.ofList_toList (s := name), written]
      exact Token.readable_name starts continues

/-! ## Integers -/

theorem not_isAlpha_of_isDigit
    {digit : Char}
    (isDigit : digit.isDigit = true) :
    digit.isAlpha = false := by
  have bounds : 48 ≤ digit.toNat ∧ digit.toNat ≤ 57 := by
    simpa [Char.isDigit, UInt32.le_iff_toNat_le] using isDigit
  simp [Char.isAlpha, Char.isUpper, Char.isLower, UInt32.le_iff_toNat_le]
  omega

/-- A digit starts a number, and no other token. -/
theorem next?_of_isDigit
    {digit : Char}
    (isDigit : digit.isDigit = true)
    (rest : List Char) :
    Token.isBlank digit = false ∧ digit ≠ '#' ∧
      Token.next? digit rest = Token.number? (digit :: rest) := by
  have differs : ∀ {other : Char}, other.isDigit = false → digit ≠ other := by
    rintro other notDigit rfl
    rw [isDigit] at notDigit
    cases notDigit
  have notBlank : Token.isBlank digit = false := by
    simp [Token.isBlank, Token.isLineEnd, @differs ' ' rfl, @differs '\t' rfl, @differs '\n' rfl,
      @differs '\r' rfl, @differs '\uFEFF' rfl]
  have notStart : Token.isNameStart digit = false := by
    simp [Token.isNameStart, not_isAlpha_of_isDigit isDigit, @differs '_' rfl]
  have notMark : Token.isMark digit = false := by
    rw [Token.isMark, Bool.eq_false_iff]
    intro isMark
    have noDigits : ['!', '$', '&', '(', ')', ':', '=', '@', '[', ']', '{', '|', '}'].all
        (!·.isDigit) = true := by
      decide
    have notDigit := List.all_eq_true.mp noDigits digit (List.contains_iff_mem.mp isMark)
    simp [isDigit] at notDigit
  refine ⟨notBlank, differs rfl, ?_⟩
  simp [Token.next?, notStart, notMark, isDigit, @differs ',' rfl, @differs '"' rfl,
    @differs '.' rfl]

theorem wholeDigits?_toDigits
    (number : Nat) :
    Token.wholeDigits? (Nat.toDigits 10 number) = some (Nat.toDigits 10 number, []) := by
  unfold Token.wholeDigits?
  split
  case h_1 rest isWritten =>
    have startsWithZero : (Nat.toDigits 10 number).head? = some '0' := by
      rw [isWritten]
      rfl
    have isZero := Digits.toDigits_of_head_zero startsWithZero
    rw [isWritten] at isZero
    cases isZero
    rw [isWritten]
  case h_2 =>
    have allDigits := List.all_eq_true.mp (Digits.all_isDigit_toDigits number)
    have taken := takeWhile_append_of_stopsAt allDigits (stopsAt_nil _)
    rw [List.append_nil] at taken
    rw [Token.digits?, taken.1, taken.2, if_neg (by simp [Nat.toDigits_ne_nil])]

/-- The text of an integer: perhaps a sign, and digits of which the first one is known. -/
theorem exists_text_integer
    (value : Int) :
    ∃ first others, Nat.toDigits 10 value.natAbs = first :: others ∧ first.isDigit = true ∧
      (Json.Number.integer value).text =
        if value < 0 then '-' :: first :: others else first :: others := by
  obtain ⟨first, others, isWritten⟩ :=
    List.exists_cons_of_ne_nil (Nat.toDigits_ne_nil (b := 10) (n := value.natAbs))
  have isDigit : first.isDigit = true :=
    List.all_eq_true.mp (Digits.all_isDigit_toDigits value.natAbs) first
      (by rw [isWritten]; exact List.mem_cons_self)
  exact ⟨first, others, isWritten, isDigit, by rw [Json.Number.text, isWritten]⟩

theorem number?_text_integer
    (value : Int) :
    Token.number? (Json.Number.integer value).text =
      some (.int (String.ofList (Json.Number.integer value).text), []) := by
  obtain ⟨first, others, isWritten, isDigit, isText⟩ := exists_text_integer value
  have isWhole := wholeDigits?_toDigits value.natAbs
  rw [isWritten] at isWhole
  have unsigned : Token.numberSign (first :: others) = ([], first :: others) :=
    Token.numberSign_append isDigit [] others
  rw [isText]
  refine Token.number?_eq_some_iff.mpr
    ⟨first :: others, [], ?_, [], [], rfl, [], rfl, stopsAt_nil _, ?_⟩
  · split
    case isTrue => exact isWhole
    case isFalse =>
      rw [unsigned]
      exact isWhole
  · split
    case isTrue => simp [Token.ofNumber, Token.numberSign]
    case isFalse => simp [Token.ofNumber, unsigned]

theorem readable_integer
    (value : Int) :
    (Token.int (String.ofList (Json.Number.integer value).text)).Readable := by
  obtain ⟨first, others, _, isDigit, isText⟩ := exists_text_integer value
  have reads := number?_text_integer value
  by_cases negative : value < 0
  · rw [isText, if_pos negative] at reads ⊢
    have isNumber : Token.next? '-' (first :: others) = Token.number? ('-' :: first :: others) :=
      rfl
    exact Token.readable_of_next? (by decide) (by decide) (isNumber.trans reads)
  · rw [isText, if_neg negative] at reads ⊢
    obtain ⟨notBlank, notHash, isNumber⟩ := next?_of_isDigit isDigit others
    exact Token.readable_of_next? notBlank notHash (isNumber.trans reads)

theorem writtenInteger_text
    (value : Int) :
    writtenInteger (String.ofList (Json.Number.integer value).text) = value := by
  obtain ⟨first, others, isWritten, isDigit, isText⟩ := exists_text_integer value
  have isNatural := Digits.natural_toDigits value.natAbs
  rw [isWritten] at isNatural
  rw [writtenInteger, String.toList_ofList, isText]
  by_cases negative : value < 0
  · rw [if_pos negative]
    simp only [isNatural]
    omega
  · rw [if_neg negative]
    split
    case h_1 isMinus =>
      cases isMinus
      cases isDigit
    case h_2 =>
      rw [isNatural]
      omega

/-- An integer of 64 bits is evaluated to itself. -/
theorem integerValue_text
    {value : Int}
    (lower : -2 ^ 63 ≤ value)
    (upper : value < 2 ^ 63) :
    Literal.integerValue (String.ofList (Json.Number.integer value).text) =
      .ok (.number (.integer value)) := by
  have isSame := writtenInteger_text value
  have fits : FitsInteger (String.ofList (Json.Number.integer value).text) := by
    rw [FitsInteger, isSame]
    exact ⟨lower, upper⟩
  rw [Literal.integerValue_eq, if_pos fits, isSame]

/-! ## Values -/

theorem readableItems_ofElements
    {elements : List Json.Value}
    (each : ∀ element ∈ elements, (Literal.ofValue element).Readable) :
    Literal.ReadableItems (Literal.ofElements elements) := by
  induction elements with
  | nil => trivial
  | cons element elements induction =>
      obtain ⟨ofFirst, ofOthers⟩ := List.forall_mem_cons.mp each
      exact ⟨ofFirst, induction ofOthers⟩

theorem readableEntries_ofMembers
    {members : List (String × Json.Value)}
    (areNames : ∀ member ∈ members, IsProperName member.1)
    (each : ∀ member ∈ members, (Literal.ofValue member.2).Readable) :
    Literal.ReadableEntries (Literal.ofMembers members) := by
  induction members with
  | nil => trivial
  | cons member members induction =>
      obtain ⟨isName, areOthers⟩ := List.forall_mem_cons.mp areNames
      obtain ⟨ofFirst, ofOthers⟩ := List.forall_mem_cons.mp each
      exact ⟨isName.isName, ofFirst, induction areOthers ofOthers⟩

theorem IsPlain.readable
    {value : Json.Value}
    (isPlain : IsPlain value) :
    (Literal.ofValue value).Readable := by
  induction isPlain with
  | null => trivial
  | bool => trivial
  | integer => exact readable_integer _
  | string => trivial
  | array _ induction => exact readableItems_ofElements induction
  | object areNames _ _ induction => exact readableEntries_ofMembers areNames induction

theorem values_ofElements
    {elements : List Json.Value}
    (each : ∀ element ∈ elements, (Literal.ofValue element).value = .ok element) :
    Literal.values (Literal.ofElements elements) = .ok elements := by
  induction elements with
  | nil => rfl
  | cons element elements induction =>
      obtain ⟨ofFirst, ofOthers⟩ := List.forall_mem_cons.mp each
      rw [Literal.ofElements, Literal.values, ofFirst, induction ofOthers]
      rfl

theorem fieldValues_ofMembers
    {members : List (String × Json.Value)}
    (each : ∀ member ∈ members, (Literal.ofValue member.2).value = .ok member.2) :
    Literal.fieldValues (Literal.ofMembers members) = .ok members := by
  induction members with
  | nil => rfl
  | cons member members induction =>
      obtain ⟨ofFirst, ofOthers⟩ := List.forall_mem_cons.mp each
      rw [Literal.ofMembers, Literal.fieldValues, ofFirst, induction ofOthers]
      rfl

/-- The literal of a value denotes it. -/
theorem IsPlain.value_ofValue
    {value : Json.Value}
    (isPlain : IsPlain value) :
    (Literal.ofValue value).value = .ok value := by
  induction isPlain with
  | null => rfl
  | bool => rfl
  | integer lower upper => exact integerValue_text lower upper
  | string => rfl
  | array _ induction =>
      rw [Literal.ofValue, Literal.value, values_ofElements induction]
      rfl
  | object _ distinct _ induction =>
      have distinctMembers := Json.Members.ofEntries_of_nodup distinct
      rw [Literal.ofValue, Literal.value, fieldValues_ofMembers induction]
      simp [bind, Except.bind, pure, Except.pure, distinctMembers]

/-! ## Arguments and directives -/

theorem ofValue_ne_variable
    (value : Json.Value)
    (name : String) :
    Literal.ofValue value ≠ .variable name := by
  cases value with
  | number number => cases number <;> nofun
  | _ => nofun

theorem ArgumentValue.IsWritable.readable
    {value : ArgumentValue}
    (isWritable : value.IsWritable) :
    (Literal.ofArgument value).Readable := by
  cases isWritable with
  | literal isPlain => exact isPlain.readable
  | «variable» isName => exact isName.isName

theorem Argument.IsWritable.evaluateArgument_written
    {argument : Argument}
    (isWritable : argument.IsWritable) :
    evaluateArgument argument.written = .ok argument := by
  obtain ⟨name, value⟩ := argument
  cases isWritable.value with
  | @literal value isPlain =>
      have evaluates := evaluateArgument_of_ne_variable (ofValue_ne_variable value) name
      rw [isPlain.value_ofValue] at evaluates
      exact evaluates
  | «variable» => rfl

theorem readableEntries_arguments
    {arguments : List Argument}
    (areWritable : ∀ argument ∈ arguments, argument.IsWritable) :
    Literal.ReadableEntries (arguments.map Argument.written) := by
  induction arguments with
  | nil => trivial
  | cons argument arguments induction =>
      obtain ⟨ofFirst, ofOthers⟩ := List.forall_mem_cons.mp areWritable
      exact ⟨ofFirst.name.isName, ofFirst.value.readable, induction ofOthers⟩

/-- Reading one by one undoes writing one by one. -/
theorem mapM_map_of_undoes
    {α β : Type}
    {write : α → β}
    {read : β → Except QueryError α}
    {elements : List α}
    (undoes : ∀ element ∈ elements, read (write element) = .ok element) :
    (elements.map write).mapM read = .ok elements := by
  induction elements with
  | nil => rfl
  | cons element elements induction =>
      obtain ⟨ofFirst, ofOthers⟩ := List.forall_mem_cons.mp undoes
      rw [List.map_cons, List.mapM_cons, ofFirst, induction ofOthers]
      rfl

theorem evaluateArguments_written
    {arguments : List Argument}
    (areWritable : ∀ argument ∈ arguments, argument.IsWritable) :
    (arguments.map Argument.written).mapM evaluateArgument = .ok arguments :=
  mapM_map_of_undoes fun argument isArgument =>
    (areWritable argument isArgument).evaluateArgument_written

theorem Directive.IsWritable.evaluateDirective_written
    {directive : Directive Argument}
    (isWritable : directive.IsWritable) :
    evaluateDirective directive.written = .ok directive := by
  rw [evaluateDirective, Directive.written, evaluateArguments_written isWritable.arguments]
  rfl

theorem evaluateDirectives_written
    {directives : List (Directive Argument)}
    (areWritable : ∀ directive ∈ directives, directive.IsWritable) :
    (directives.map Directive.written).mapM evaluateDirective = .ok directives :=
  mapM_map_of_undoes fun directive isDirective =>
    (areWritable directive isDirective).evaluateDirective_written

theorem readableDirectives_written
    {directives : List (Directive Argument)}
    (areWritable : ∀ directive ∈ directives, directive.IsWritable) :
    ReadableDirectives (directives.map Directive.written) := by
  refine List.forall_mem_map.mpr fun directive isDirective => ?_
  obtain ⟨isName, ofArguments⟩ := areWritable directive isDirective
  exact ⟨isName.isName, readableEntries_arguments ofArguments⟩

/-! ## Selections -/

theorem Selection.writtenAll_ne_nil
    {selections : List (Selection Argument)}
    (nonempty : selections ≠ []) :
    Selection.writtenAll selections ≠ [] := by
  cases selections with
  | nil => exact (nonempty rfl).elim
  | cons => nofun

theorem Selection.readableAll_writtenAll
    {selections : List (Selection Argument)}
    (each : ∀ selection ∈ selections, selection.written.Readable) :
    Selection.ReadableAll (Selection.writtenAll selections) := by
  induction selections with
  | nil => trivial
  | cons selection selections induction =>
      obtain ⟨ofFirst, ofOthers⟩ := List.forall_mem_cons.mp each
      exact ⟨ofFirst, induction ofOthers⟩

theorem Selection.IsWritable.readable
    {selection : Selection Argument}
    (isWritable : selection.IsWritable) :
    selection.written.Readable := by
  induction isWritable with
  | leaf isAlias isName ofArguments ofDirectives =>
      exact ⟨fun own isOwn => (isAlias own isOwn).isName, isName.isName,
        readableEntries_arguments ofArguments, readableDirectives_written ofDirectives⟩
  | field isAlias isName ofArguments ofDirectives nonempty _ induction =>
      exact ⟨fun own isOwn => (isAlias own isOwn).isName, isName.isName,
        readableEntries_arguments ofArguments, readableDirectives_written ofDirectives,
        Selection.writtenAll_ne_nil nonempty, Selection.readableAll_writtenAll induction⟩
  | spread isName notOn ofDirectives =>
      exact ⟨isName.isName, notOn, readableDirectives_written ofDirectives⟩
  | inline isType ofDirectives nonempty _ induction =>
      exact ⟨fun type isCondition => (isType type isCondition).isName,
        readableDirectives_written ofDirectives, Selection.writtenAll_ne_nil nonempty,
        Selection.readableAll_writtenAll induction⟩

theorem evaluateSelections_writtenAll
    {selections : List (Selection Argument)}
    (each : ∀ selection ∈ selections, evaluateSelection selection.written = .ok selection) :
    evaluateSelections (Selection.writtenAll selections) = .ok selections := by
  induction selections with
  | nil => rfl
  | cons selection selections induction =>
      obtain ⟨ofFirst, ofOthers⟩ := List.forall_mem_cons.mp each
      exact evaluateSelections_cons_eq_ok_iff.mpr
        ⟨selection, selections, ofFirst, induction ofOthers, rfl⟩

theorem Selection.IsWritable.evaluateSelection_written
    {selection : Selection Argument}
    (isWritable : selection.IsWritable) :
    evaluateSelection selection.written = .ok selection := by
  induction isWritable with
  | leaf _ _ ofArguments ofDirectives =>
      rw [Selection.written, evaluateSelection, evaluateArguments_written ofArguments,
        evaluateDirectives_written ofDirectives]
      rfl
  | field _ _ ofArguments ofDirectives _ _ induction =>
      exact evaluateSelection_field_eq_ok_iff.mpr
        ⟨_, evaluateSelections_writtenAll induction, _, evaluateArguments_written ofArguments, _,
          evaluateDirectives_written ofDirectives, rfl⟩
  | spread _ _ ofDirectives =>
      exact evaluateSelection_spread_eq_ok_iff.mpr
        ⟨_, evaluateDirectives_written ofDirectives, rfl⟩
  | inline _ ofDirectives _ _ induction =>
      exact evaluateSelection_inline_eq_ok_iff.mpr
        ⟨_, evaluateDirectives_written ofDirectives, _, evaluateSelections_writtenAll induction,
          rfl⟩

theorem evaluateSelections_of_areWritable
    {selections : List (Selection Argument)}
    (areWritable : ∀ selection ∈ selections, selection.IsWritable) :
    evaluateSelections (Selection.writtenAll selections) = .ok selections :=
  evaluateSelections_writtenAll fun selection isSelection =>
    (areWritable selection isSelection).evaluateSelection_written

theorem readableAll_of_areWritable
    {selections : List (Selection Argument)}
    (areWritable : ∀ selection ∈ selections, selection.IsWritable) :
    Selection.ReadableAll (Selection.writtenAll selections) :=
  Selection.readableAll_writtenAll fun selection isSelection =>
    (areWritable selection isSelection).readable

/-! ## Documents -/

theorem Operation.IsWritable.readable
    {operation : Operation Argument}
    (isWritable : operation.IsWritable) :
    (Definition.operation operation.written).Readable :=
  ⟨fun name isNamed => (isWritable.name name isNamed).isName,
    readableDirectives_written isWritable.directives,
    Selection.writtenAll_ne_nil isWritable.nonempty,
    readableAll_of_areWritable isWritable.selections⟩

theorem Fragment.IsWritable.readable
    {fragment : Fragment Argument}
    (isWritable : fragment.IsWritable) :
    (Definition.fragment fragment.written).Readable :=
  ⟨isWritable.name.isName, isWritable.notOn, isWritable.condition.isName,
    readableDirectives_written isWritable.directives,
    Selection.writtenAll_ne_nil isWritable.nonempty,
    readableAll_of_areWritable isWritable.selections⟩

theorem Operation.IsWritable.evaluateOperation_written
    {operation : Operation Argument}
    (isWritable : operation.IsWritable) :
    evaluateOperation operation.written = .ok operation := by
  rw [evaluateOperation, Operation.written, evaluateDirectives_written isWritable.directives,
    evaluateSelections_of_areWritable isWritable.selections]
  rfl

theorem Fragment.IsWritable.evaluates_written
    {fragment : Fragment Argument}
    (isWritable : fragment.IsWritable) :
    Evaluates fragment.written fragment :=
  evaluates_iff.mpr ⟨_, evaluateDirectives_written isWritable.directives, _,
    evaluateSelections_of_areWritable isWritable.selections, rfl⟩

theorem evaluateDefinitions_fragments
    {fragments : List (Fragment Argument)}
    (areWritable : ∀ fragment ∈ fragments, fragment.IsWritable) :
    evaluateDefinitions (fragments.map (.fragment ·.written)) = .ok ⟨[], fragments⟩ := by
  induction fragments with
  | nil => rfl
  | cons fragment fragments induction =>
      obtain ⟨ofFirst, ofOthers⟩ := List.forall_mem_cons.mp areWritable
      exact evaluateDefinitions_fragment_eq_ok_iff.mpr
        ⟨fragment, ofFirst.evaluates_written, _, induction ofOthers, rfl⟩

theorem evaluateDefinitions_operations
    {operations : List (Operation Argument)}
    (areWritable : ∀ operation ∈ operations, operation.IsWritable)
    {definitions : List (Definition WrittenArgument)}
    {fragments : List (Fragment Argument)}
    (evaluates : evaluateDefinitions definitions = .ok ⟨[], fragments⟩) :
    evaluateDefinitions (operations.map (.operation ·.written) ++ definitions) =
      .ok ⟨operations, fragments⟩ := by
  induction operations with
  | nil => exact evaluates
  | cons operation operations induction =>
      obtain ⟨ofFirst, ofOthers⟩ := List.forall_mem_cons.mp areWritable
      exact evaluateDefinitions_operation_eq_ok_iff.mpr
        ⟨operation, ofFirst.evaluateOperation_written, _, induction ofOthers, rfl⟩

namespace Document.IsWritable

variable
    {document : Document}
    (isWritable : document.IsWritable)

include isWritable

theorem readable :
    ∀ definition ∈ document.definitions, definition.Readable := by
  intro definition isDefinition
  rcases List.mem_append.mp isDefinition with isOperation | isFragment
  · obtain ⟨operation, isMember, rfl⟩ := List.mem_map.mp isOperation
    exact (isWritable.operations operation isMember).readable
  · obtain ⟨fragment, isMember, rfl⟩ := List.mem_map.mp isFragment
    exact (isWritable.fragments fragment isMember).readable

theorem definitions_ne_nil :
    document.definitions ≠ [] := by
  rw [Document.definitions, Ne, List.append_eq_nil_iff, List.map_eq_nil_iff, List.map_eq_nil_iff,
    not_and_or]
  exact isWritable.nonempty

/-- The definitions that are written are evaluated to the document. -/
theorem evaluateDefinitions_definitions :
    evaluateDefinitions document.definitions = .ok document :=
  evaluateDefinitions_operations isWritable.operations
    (evaluateDefinitions_fragments isWritable.fragments)

theorem list?_text :
    Token.list? document.text.toList = some (definitionTokens document.definitions) :=
  list?_writtenText isWritable.readable

/-- A text with the tokens of the document is read as the document. -/
theorem ofString_eq
    {text : String}
    (sameTokens : Token.list? text.toList = some (definitionTokens document.definitions)) :
    Document.ofString text = .ok document := by
  have written : writtenDefinitions? text = some document.definitions := by
    rw [writtenDefinitions?, sameTokens, Option.bind_some,
      definitions?_definitionTokens isWritable.definitions_ne_nil isWritable.readable
        isWritable.nesting]
  refine (Document.ofString_eq_ok_iff written).mpr
    ⟨isWritable.evaluateDefinitions_definitions, ?_⟩
  exact SpreadGraph.check_eq_ok_iff.mpr fun name _ => isWritable.noCycle name

end Document.IsWritable

/--
The text of a document that can be written is read as this very document, and so
is every text with the same tokens, whatever stands between them and however its
strings are escaped.
-/
theorem Document.ofString_undoes_text
    {document : Document}
    (isWritable : document.IsWritable) :
    Document.ofString document.text = .ok document ∧
      ∀ text, Token.list? text.toList = Token.list? document.text.toList →
        Document.ofString text = .ok document := by
  refine ⟨isWritable.ofString_eq isWritable.list?_text, fun text sameTokens => ?_⟩
  exact isWritable.ofString_eq (sameTokens.trans isWritable.list?_text)

namespace Renaming

def name : Selection Argument :=
  .field none "name" [] [] none

/-- A mutation with a fragment, with most of what can stand in a document. -/
def document : Document :=
  ⟨[⟨.mutation, some "Rename", [⟨"cached", []⟩],
      [.field (some "old") "pets"
        [⟨"first", .variable "n"⟩,
          ⟨"in", .literal (.array
            [.object [("age", .number (.integer (-3))), ("name", .string "a \"b\"\n")], .null])⟩]
        [⟨"include", [⟨"if", .literal (.bool true)⟩]⟩]
        (some [.spread "Pet" [], .inline (some "Dog") [⟨"on", []⟩] [name]])]⟩],
    [⟨"Pet", "Animal", [], [name]⟩]⟩

theorem isWritable_name :
    name.IsWritable :=
  .leaf nofun (by decide) (List.forall_mem_nil _) (List.forall_mem_nil _)

theorem isPlain :
    IsPlain (.array
      [.object [("age", .number (.integer (-3))), ("name", .string "a \"b\"\n")], .null]) := by
  refine .array (List.forall_mem_cons.mpr ⟨.object (by decide) (by decide) ?_,
    List.forall_mem_singleton.mpr .null⟩)
  exact List.forall_mem_cons.mpr ⟨.integer (by decide) (by decide),
    List.forall_mem_singleton.mpr (.string _)⟩

theorem isWritable :
    document.IsWritable where
  nonempty := .inl (List.cons_ne_nil _ _)
  operations := by
    refine List.forall_mem_singleton.mpr ⟨?_, ?_, List.cons_ne_nil _ _, ?_⟩
    · rintro _ ⟨⟩
      decide
    · exact List.forall_mem_singleton.mpr ⟨by decide, List.forall_mem_nil _⟩
    · refine List.forall_mem_singleton.mpr
        (.field ?_ (by decide) ?_ ?_ (List.cons_ne_nil _ _) ?_)
      · rintro _ ⟨⟩
        decide
      · exact List.forall_mem_cons.mpr ⟨⟨by decide, .variable (by decide)⟩,
          List.forall_mem_singleton.mpr ⟨by decide, .literal isPlain⟩⟩
      · exact List.forall_mem_singleton.mpr
          ⟨by decide, List.forall_mem_singleton.mpr ⟨by decide, .literal (.bool true)⟩⟩
      · refine List.forall_mem_cons.mpr ⟨.spread (by decide) (by decide) (List.forall_mem_nil _),
          List.forall_mem_singleton.mpr (.inline ?_ ?_ (List.cons_ne_nil _ _) ?_)⟩
        · rintro _ ⟨⟩
          decide
        · exact List.forall_mem_singleton.mpr ⟨by decide, List.forall_mem_nil _⟩
        · exact List.forall_mem_singleton.mpr isWritable_name
  fragments :=
    List.forall_mem_singleton.mpr ⟨by decide, by decide, by decide, List.forall_mem_nil _,
      List.cons_ne_nil _ _, List.forall_mem_singleton.mpr isWritable_name⟩
  nesting := by decide
  noCycle := by
    have accepted : SpreadGraph.check document.fragments = .ok () := rfl
    intro name leadsBack
    exact SpreadGraph.check_eq_ok_iff.mp accepted name leadsBack.mem_names leadsBack

/-- The document as it might be written by hand. -/
def byHand : String :=
  "mutation Rename @cached \x7b # renames\n" ++
    "old:pets(first:$n in:[\x7bage:-3 name:\"a \\u0022b\\\"\\n\"\x7d null])" ++
    "@include(if:true)\x7b...Pet ... on Dog@on\x7bname\x7d\x7d\x7d\n\n" ++
    "fragment Pet on Animal\x7bname\x7d"

/-- The document is read again from its own text, and from what is written by hand. -/
theorem document_is_read_again :
    document.IsWritable ∧ Document.ofString document.text = .ok document ∧
      Document.ofString byHand = .ok document := by
  obtain ⟨ofText, ofSameTokens⟩ := Document.ofString_undoes_text isWritable
  exact ⟨isWritable, ofText, ofSameTokens byHand (by decide +kernel)⟩

end Renaming

end QueryGateway.Query
