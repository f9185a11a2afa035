import QueryGateway.Proofs.Query.Lexing
import QueryGateway.Query.Text

/-!
# How definitions are written

Definitions are written as tokens.  There are no commas among them, which
separate nothing, and an operation is written with the word for its kind even
where it could do without.

All of the tokens can be read if the names and the numbers in the definitions
can be.  How deep a definition nests counts selection sets, lists and objects
together.
-/

namespace QueryGateway.Query

/-! ## Tokens -/

mutual

/-- The tokens of a literal. -/
def Literal.tokens : Literal → List Token
  | .variable name => [.mark '$', .name name]
  | .int text => [.int text]
  | .float text => [.float text]
  | .string value => [.string value]
  | .boolean value => [.name (if value then "true" else "false")]
  | .null => [.name "null"]
  | .enum name => [.name name]
  | .list items => .mark '[' :: (Literal.itemTokens items ++ [.mark ']'])
  | .object fields => .mark '{' :: (Literal.entryTokens fields ++ [.mark '}'])

/-- The tokens of the items of a list. -/
def Literal.itemTokens : List Literal → List Token
  | [] => []
  | item :: items => item.tokens ++ Literal.itemTokens items

/-- The tokens of the fields of an object, or of arguments. -/
def Literal.entryTokens : List (String × Option Literal) → List Token
  | [] => []
  | (name, none) :: entries => .name name :: Literal.entryTokens entries
  | (name, some literal) :: entries =>
      .name name :: .mark ':' :: (literal.tokens ++ Literal.entryTokens entries)

end

/-- The tokens of arguments. -/
def argumentTokens (arguments : List WrittenArgument) : List Token :=
  if arguments.isEmpty then []
  else .mark '(' :: (Literal.entryTokens arguments ++ [.mark ')'])

/-- The tokens of directives. -/
def directiveTokens : List (Directive WrittenArgument) → List Token
  | [] => []
  | directive :: directives =>
      .mark '@' :: .name directive.name ::
        (argumentTokens directive.arguments ++ directiveTokens directives)

/-- The tokens of an alias with its colon. -/
def aliasTokens (alternative : Option String) : List Token :=
  alternative.elim [] fun name => [.name name, .mark ':']

/-- The tokens of a type condition. -/
def conditionTokens (condition : Option String) : List Token :=
  condition.elim [] fun name => [.name "on", .name name]

mutual

/-- The tokens of a selection. -/
def Selection.tokens : Selection WrittenArgument → List Token
  | .field alternative name arguments directives none =>
      aliasTokens alternative ++
        .name name :: (argumentTokens arguments ++ directiveTokens directives)
  | .field alternative name arguments directives (some selections) =>
      aliasTokens alternative ++
        .name name :: (argumentTokens arguments ++ (directiveTokens directives ++
          .mark '{' :: (Selection.tokensOf selections ++ [.mark '}'])))
  | .spread name directives => .spread :: .name name :: directiveTokens directives
  | .inline condition directives selections =>
      .spread :: (conditionTokens condition ++ (directiveTokens directives ++
        .mark '{' :: (Selection.tokensOf selections ++ [.mark '}'])))

/-- The tokens of selections. -/
def Selection.tokensOf : List (Selection WrittenArgument) → List Token
  | [] => []
  | selection :: selections => selection.tokens ++ Selection.tokensOf selections

end

/-- The tokens of a selection set with its braces. -/
def setTokens (selections : List (Selection WrittenArgument)) : List Token :=
  .mark '{' :: (Selection.tokensOf selections ++ [.mark '}'])

/-- The word for a kind of operations. -/
def OperationKind.word : OperationKind → String
  | .query => "query"
  | .mutation => "mutation"
  | .subscription => "subscription"

/-- The tokens of a definition. -/
def Definition.tokens : Definition WrittenArgument → List Token
  | .operation own =>
      .name own.kind.word :: ((own.name.map Token.name).toList ++
        (directiveTokens own.directives ++ setTokens own.selections))
  | .fragment own =>
      .name "fragment" :: .name own.name :: .name "on" :: .name own.condition ::
        (directiveTokens own.directives ++ setTokens own.selections)

/-- The tokens of definitions. -/
def definitionTokens (definitions : List (Definition WrittenArgument)) : List Token :=
  definitions.flatMap (·.tokens)

/-! ## Nesting -/

mutual

/-- How deep lists and objects nest in a literal. -/
def Literal.nesting : Literal → Nat
  | .list items => Literal.nestingOfItems items + 1
  | .object fields => Literal.nestingOfEntries fields + 1
  | _ => 0

/-- How deep lists and objects nest in the items of a list. -/
def Literal.nestingOfItems : List Literal → Nat
  | [] => 0
  | item :: items => max item.nesting (Literal.nestingOfItems items)

/-- How deep lists and objects nest in the fields of an object, or in arguments. -/
def Literal.nestingOfEntries : List (String × Option Literal) → Nat
  | [] => 0
  | (_, none) :: entries => Literal.nestingOfEntries entries
  | (_, some literal) :: entries => max literal.nesting (Literal.nestingOfEntries entries)

end

/-- How deep lists and objects nest in directives. -/
def nestingOfDirectives : List (Directive WrittenArgument) → Nat
  | [] => 0
  | directive :: directives =>
      max (Literal.nestingOfEntries directive.arguments) (nestingOfDirectives directives)

mutual

/-- How deep selection sets, lists and objects nest in a selection. -/
def Selection.nesting : Selection WrittenArgument → Nat
  | .field _ _ arguments directives none =>
      max (Literal.nestingOfEntries arguments) (nestingOfDirectives directives)
  | .field _ _ arguments directives (some selections) =>
      max (max (Literal.nestingOfEntries arguments) (nestingOfDirectives directives))
        (Selection.nestingOf selections + 1)
  | .spread _ directives => nestingOfDirectives directives
  | .inline _ directives selections =>
      max (nestingOfDirectives directives) (Selection.nestingOf selections + 1)

/-- How deep selection sets, lists and objects nest in selections. -/
def Selection.nestingOf : List (Selection WrittenArgument) → Nat
  | [] => 0
  | selection :: selections => max selection.nesting (Selection.nestingOf selections)

end

/-- How deep selection sets, lists and objects nest in a definition. -/
def Definition.nesting : Definition WrittenArgument → Nat
  | .operation own =>
      max (nestingOfDirectives own.directives)
        (Selection.nestingOf own.selections + 1)
  | .fragment own =>
      max (nestingOfDirectives own.directives) (Selection.nestingOf own.selections + 1)

/-! ## Definitions that can be read -/

/-- A name that can be read. -/
def IsName (name : String) : Prop :=
  (Token.name name).Readable

mutual

/-- A literal that can be read. -/
def Literal.Readable : Literal → Prop
  | .variable name => IsName name
  | .int text => (Token.int text).Readable
  | .float text => (Token.float text).Readable
  | .enum name => IsName name ∧ Literal.ofName name = .enum name
  | .list items => Literal.ReadableItems items
  | .object fields => Literal.ReadableEntries fields
  | .string _ | .boolean _ | .null => True

/-- The items of a list that can be read. -/
def Literal.ReadableItems : List Literal → Prop
  | [] => True
  | item :: items => item.Readable ∧ Literal.ReadableItems items

/-- The fields of an object, or arguments, that can be read. -/
def Literal.ReadableEntries : List (String × Option Literal) → Prop
  | [] => True
  | (name, none) :: entries => IsName name ∧ Literal.ReadableEntries entries
  | (name, some literal) :: entries =>
      IsName name ∧ literal.Readable ∧ Literal.ReadableEntries entries

end

/-- Directives that can be read. -/
def ReadableDirectives (directives : List (Directive WrittenArgument)) : Prop :=
  ∀ directive ∈ directives,
    IsName directive.name ∧ Literal.ReadableEntries directive.arguments

mutual

/-- A selection that can be read; a selection set may not be empty. -/
def Selection.Readable : Selection WrittenArgument → Prop
  | .field alternative name arguments directives none =>
      (∀ own, alternative = some own → IsName own) ∧ IsName name ∧
        Literal.ReadableEntries arguments ∧ ReadableDirectives directives
  | .field alternative name arguments directives (some selections) =>
      (∀ own, alternative = some own → IsName own) ∧ IsName name ∧
        Literal.ReadableEntries arguments ∧ ReadableDirectives directives ∧
        selections ≠ [] ∧ Selection.ReadableAll selections
  | .spread name directives => IsName name ∧ name ≠ "on" ∧ ReadableDirectives directives
  | .inline condition directives selections =>
      (∀ type, condition = some type → IsName type) ∧ ReadableDirectives directives ∧
        selections ≠ [] ∧ Selection.ReadableAll selections

/-- Selections that can be read. -/
def Selection.ReadableAll : List (Selection WrittenArgument) → Prop
  | [] => True
  | selection :: selections => selection.Readable ∧ Selection.ReadableAll selections

end

/-- A definition that can be read. -/
def Definition.Readable : Definition WrittenArgument → Prop
  | .operation own =>
      (∀ name, own.name = some name → IsName name) ∧
        ReadableDirectives own.directives ∧
        own.selections ≠ [] ∧ Selection.ReadableAll own.selections
  | .fragment own =>
      IsName own.name ∧ own.name ≠ "on" ∧ IsName own.condition ∧
        ReadableDirectives own.directives ∧
        own.selections ≠ [] ∧ Selection.ReadableAll own.selections

/-! ## What the tokens start with -/

/-- The tokens start with neither a comma nor one of the marks. -/
def Avoids (marks : List Char) (tokens : List Token) : Prop :=
  tokens.head? ≠ some .comma ∧ ∀ mark ∈ marks, tokens.head? ≠ some (.mark mark)

namespace Avoids

variable
    {marks : List Char}
    {tokens others : List Token}

theorem cons
    {token : Token}
    (notComma : token ≠ .comma)
    (notMark : ∀ mark ∈ marks, token ≠ .mark mark)
    (tokens : List Token) :
    Avoids marks (token :: tokens) :=
  ⟨by simpa using notComma, fun mark isMark => by simpa using notMark mark isMark⟩

theorem name
    (name : String)
    (tokens : List Token) :
    Avoids marks (.name name :: tokens) :=
  cons (by simp) (by simp) tokens

theorem mark
    {character : Char}
    (notMember : character ∉ marks)
    (tokens : List Token) :
    Avoids marks (.mark character :: tokens) := by
  refine cons (by simp) ?_ tokens
  rintro _ isMark ⟨⟩
  exact notMember isMark

theorem append
    (avoids : Avoids marks tokens)
    (othersAvoid : Avoids marks others) :
    Avoids marks (tokens ++ others) := by
  cases tokens with
  | nil => exact othersAvoid
  | cons token tokens => exact avoids

theorem weaken
    (avoids : Avoids marks tokens)
    {fewer : List Char}
    (subset : fewer ⊆ marks) :
    Avoids fewer tokens :=
  ⟨avoids.1, fun mark isMark => avoids.2 mark (subset isMark)⟩

theorem passCommas_eq
    (avoids : Avoids marks tokens) :
    Grammar.passCommas tokens = tokens := by
  cases tokens with
  | nil => rfl
  | cons token tokens =>
      have notComma : token ≠ .comma := by simpa using avoids.1
      simp [Grammar.passCommas, notComma]

theorem mark?_eq_none
    (avoids : Avoids marks tokens)
    {character : Char}
    (isMark : character ∈ marks) :
    Grammar.mark? character tokens = none := by
  unfold Grammar.mark?
  split
  case h_2 => rfl
  case h_1 other _ =>
    have notMark : other ≠ character := by simpa using avoids.2 character isMark
    exact if_neg notMark

end Avoids

@[simp]
theorem mark?_cons
    (character : Char)
    (rest : List Token) :
    Grammar.mark? character (.mark character :: rest) = some (Grammar.passCommas rest) :=
  if_pos rfl

@[simp]
theorem passCommas_name
    (name : String)
    (tokens : List Token) :
    Grammar.passCommas (.name name :: tokens) = .name name :: tokens :=
  (Avoids.name name tokens : Avoids [] _).passCommas_eq

@[simp]
theorem passCommas_mark
    (character : Char)
    (tokens : List Token) :
    Grammar.passCommas (.mark character :: tokens) = .mark character :: tokens :=
  (Avoids.mark List.not_mem_nil tokens).passCommas_eq

/-- A literal starts with a token that closes no list. -/
theorem Literal.avoids_tokens
    (literal : Literal) :
    Avoids [']'] literal.tokens := by
  cases literal <;> rw [Literal.tokens] <;> exact .cons (by simp) (by simp) _

theorem Literal.tokens_ne_nil
    (literal : Literal) :
    literal.tokens ≠ [] := by
  cases literal <;> simp [Literal.tokens]

theorem avoids_itemTokens
    (items : List Literal) :
    Avoids [] (Literal.itemTokens items) := by
  cases items with
  | nil => simp [Avoids, Literal.itemTokens]
  | cons item items =>
      obtain ⟨first, others, isFirst⟩ := List.exists_cons_of_ne_nil item.tokens_ne_nil
      have avoids := item.avoids_tokens.weaken (List.nil_subset _)
      rw [isFirst] at avoids
      rw [Literal.itemTokens, isFirst]
      exact avoids

theorem avoids_entryTokens
    (marks : List Char)
    (entries : List (String × Option Literal)) :
    Avoids marks (Literal.entryTokens entries) := by
  match entries with
  | [] => simp [Avoids, Literal.entryTokens]
  | (name, none) :: _ => exact .name name _
  | (name, some _) :: _ => exact .name name _

theorem avoids_argumentTokens
    {marks : List Char}
    (notMember : '(' ∉ marks)
    (arguments : List WrittenArgument) :
    Avoids marks (argumentTokens arguments) := by
  unfold argumentTokens
  split
  · simp [Avoids]
  · exact .mark notMember _

theorem avoids_directiveTokens
    {marks : List Char}
    (notMember : '@' ∉ marks)
    (directives : List (Directive WrittenArgument)) :
    Avoids marks (directiveTokens directives) := by
  cases directives with
  | nil => simp [Avoids, directiveTokens]
  | cons directive directives => exact .mark notMember _

theorem Selection.tokens_eq_cons
    (selection : Selection WrittenArgument) :
    ∃ first others, selection.tokens = first :: others ∧
      (first = .spread ∨ ∃ name, first = .name name) := by
  cases selection with
  | field alternative name arguments directives selections =>
      cases alternative <;> cases selections <;>
        exact ⟨_, _, by rw [Selection.tokens]; rfl, .inr ⟨_, rfl⟩⟩
  | spread => exact ⟨_, _, by rw [Selection.tokens], .inl rfl⟩
  | inline => exact ⟨_, _, by rw [Selection.tokens], .inl rfl⟩

/-- No mark stands in front of a selection. -/
theorem avoids_tokensOf
    (marks : List Char)
    (selections : List (Selection WrittenArgument)) :
    Avoids marks (Selection.tokensOf selections) := by
  cases selections with
  | nil => simp [Avoids, Selection.tokensOf]
  | cons selection selections =>
      obtain ⟨first, others, isFirst, starts⟩ := selection.tokens_eq_cons
      rw [Selection.tokensOf, isFirst]
      refine .cons ?_ ?_ _
      · rintro rfl
        simp at starts
      · rintro mark _ rfl
        simp at starts

theorem Definition.tokens_eq_cons
    (definition : Definition WrittenArgument) :
    ∃ word tokens, definition.tokens = .name word :: tokens := by
  cases definition <;> exact ⟨_, _, rfl⟩

theorem avoids_definitionTokens
    (definitions : List (Definition WrittenArgument)) :
    Avoids [] (definitionTokens definitions) := by
  cases definitions with
  | nil => simp [Avoids, definitionTokens]
  | cons definition definitions =>
      obtain ⟨word, tokens, starts⟩ := definition.tokens_eq_cons
      rw [definitionTokens, List.flatMap_cons, starts]
      exact .name word _

/-! ## All tokens can be read -/

/-- All of the tokens can be read. -/
def AllReadable (tokens : List Token) : Prop :=
  ∀ token ∈ tokens, token.Readable

@[simp]
theorem allReadable_nil :
    AllReadable [] :=
  List.forall_mem_nil _

@[simp]
theorem allReadable_cons
    {token : Token}
    {tokens : List Token} :
    AllReadable (token :: tokens) ↔ token.Readable ∧ AllReadable tokens :=
  List.forall_mem_cons

@[simp]
theorem allReadable_append
    {tokens others : List Token} :
    AllReadable (tokens ++ others) ↔ AllReadable tokens ∧ AllReadable others :=
  List.forall_mem_append

theorem isName_word
    {name : String}
    (isWord : name ∈ ["true", "false", "null", "on", "query", "mutation", "subscription",
      "fragment"]) :
    IsName name := by
  simp only [List.mem_cons, List.not_mem_nil, or_false] at isWord
  rcases isWord with rfl | rfl | rfl | rfl | rfl | rfl | rfl | rfl <;>
    exact Token.readable_name (by decide) (by decide)

theorem readable_mark
    {character : Char}
    (isMark : character ∈ ['$', '(', ')', ':', '@', '[', ']', '{', '}']) :
    (Token.mark character).Readable := by
  have areMarks : ['$', '(', ')', ':', '@', '[', ']', '{', '}'].all Token.isMark = true := by
    decide
  exact Token.readable_mark (List.all_eq_true.mp areMarks character isMark)

mutual

theorem Literal.allReadable_tokens :
    ∀ {literal : Literal}, literal.Readable → AllReadable literal.tokens
  | .variable _, readable => by
      rw [Literal.Readable] at readable
      rw [Literal.tokens]
      simpa using ⟨readable_mark (by decide), readable⟩
  | .int _, readable | .float _, readable => by
      rw [Literal.Readable] at readable
      rw [Literal.tokens]
      simpa using readable
  | .string value, _ => by
      rw [Literal.tokens]
      simpa using Token.readable_string value
  | .boolean value, _ => by
      have isName : IsName (if value then "true" else "false") := by
        cases value <;> exact isName_word (by decide)
      rw [Literal.tokens, allReadable_cons]
      exact ⟨isName, allReadable_nil⟩
  | .null, _ => by
      have isName : IsName "null" := isName_word (by decide)
      rw [Literal.tokens, allReadable_cons]
      exact ⟨isName, allReadable_nil⟩
  | .enum _, readable => by
      rw [Literal.Readable] at readable
      rw [Literal.tokens, allReadable_cons]
      exact ⟨readable.1, allReadable_nil⟩
  | .list items, readable => by
      rw [Literal.Readable] at readable
      have ofItems := allReadable_itemTokens readable
      rw [Literal.tokens]
      simpa using ⟨readable_mark (by decide), ofItems, readable_mark (by decide)⟩
  | .object fields, readable => by
      rw [Literal.Readable] at readable
      have ofFields := allReadable_entryTokens readable
      rw [Literal.tokens]
      simpa using ⟨readable_mark (by decide), ofFields, readable_mark (by decide)⟩

theorem allReadable_itemTokens :
    ∀ {items : List Literal}, Literal.ReadableItems items → AllReadable (Literal.itemTokens items)
  | [], _ => by simp [Literal.itemTokens]
  | item :: items, readable => by
      rw [Literal.ReadableItems] at readable
      rw [Literal.itemTokens, allReadable_append]
      exact ⟨Literal.allReadable_tokens readable.1, allReadable_itemTokens readable.2⟩

theorem allReadable_entryTokens :
    ∀ {entries : List (String × Option Literal)},
      Literal.ReadableEntries entries → AllReadable (Literal.entryTokens entries)
  | [], _ => by simp [Literal.entryTokens]
  | (_, none) :: entries, readable => by
      rw [Literal.ReadableEntries] at readable
      rw [Literal.entryTokens, allReadable_cons]
      exact ⟨readable.1, allReadable_entryTokens readable.2⟩
  | (_, some literal) :: entries, readable => by
      rw [Literal.ReadableEntries] at readable
      rw [Literal.entryTokens, allReadable_cons, allReadable_cons, allReadable_append]
      exact ⟨readable.1, readable_mark (by decide), Literal.allReadable_tokens readable.2.1,
        allReadable_entryTokens readable.2.2⟩

end

theorem allReadable_argumentTokens
    {arguments : List WrittenArgument}
    (readable : Literal.ReadableEntries arguments) :
    AllReadable (argumentTokens arguments) := by
  unfold argumentTokens
  split
  · simp
  · have ofEntries := allReadable_entryTokens readable
    simpa using ⟨readable_mark (by decide), ofEntries, readable_mark (by decide)⟩

theorem allReadable_directiveTokens
    {directives : List (Directive WrittenArgument)}
    (readable : ReadableDirectives directives) :
    AllReadable (directiveTokens directives) := by
  induction directives with
  | nil => simp [directiveTokens]
  | cons directive directives induction =>
      obtain ⟨⟨isName, ofArguments⟩, ofOthers⟩ := List.forall_mem_cons.mp readable
      rw [directiveTokens, allReadable_cons, allReadable_cons, allReadable_append]
      exact ⟨readable_mark (by decide), isName, allReadable_argumentTokens ofArguments,
        induction ofOthers⟩

theorem allReadable_aliasTokens
    {alternative : Option String}
    (areNames : ∀ own, alternative = some own → IsName own) :
    AllReadable (aliasTokens alternative) := by
  cases alternative with
  | none => simp [aliasTokens]
  | some own => simpa [aliasTokens] using ⟨areNames own rfl, readable_mark (by decide)⟩

theorem allReadable_conditionTokens
    {condition : Option String}
    (areNames : ∀ type, condition = some type → IsName type) :
    AllReadable (conditionTokens condition) := by
  have isOn : IsName "on" := isName_word (by decide)
  cases condition with
  | none => simp [conditionTokens]
  | some type => simpa [conditionTokens] using ⟨isOn, areNames type rfl⟩

mutual

theorem Selection.allReadable_tokens :
    ∀ {selection : Selection WrittenArgument}, selection.Readable → AllReadable selection.tokens
  | .field _ _ _ _ none, readable => by
      rw [Selection.Readable] at readable
      obtain ⟨areNames, isName, ofArguments, ofDirectives⟩ := readable
      simp only [Selection.tokens, allReadable_append, allReadable_cons]
      exact ⟨allReadable_aliasTokens areNames, isName, allReadable_argumentTokens ofArguments,
        allReadable_directiveTokens ofDirectives⟩
  | .field _ _ _ _ (some selections), readable => by
      rw [Selection.Readable] at readable
      obtain ⟨areNames, isName, ofArguments, ofDirectives, _, ofSelections⟩ := readable
      simp only [Selection.tokens, allReadable_append, allReadable_cons]
      exact ⟨allReadable_aliasTokens areNames, isName, allReadable_argumentTokens ofArguments,
        allReadable_directiveTokens ofDirectives, readable_mark (by decide),
        allReadable_tokensOf ofSelections, readable_mark (by decide), allReadable_nil⟩
  | .spread _ _, readable => by
      rw [Selection.Readable] at readable
      obtain ⟨isName, _, ofDirectives⟩ := readable
      simp only [Selection.tokens, allReadable_cons]
      exact ⟨Token.readable_spread, isName, allReadable_directiveTokens ofDirectives⟩
  | .inline _ _ selections, readable => by
      rw [Selection.Readable] at readable
      obtain ⟨areNames, ofDirectives, _, ofSelections⟩ := readable
      simp only [Selection.tokens, allReadable_append, allReadable_cons]
      exact ⟨Token.readable_spread, allReadable_conditionTokens areNames,
        allReadable_directiveTokens ofDirectives, readable_mark (by decide),
        allReadable_tokensOf ofSelections, readable_mark (by decide), allReadable_nil⟩

theorem allReadable_tokensOf :
    ∀ {selections : List (Selection WrittenArgument)},
      Selection.ReadableAll selections → AllReadable (Selection.tokensOf selections)
  | [], _ => by simp [Selection.tokensOf]
  | selection :: selections, readable => by
      rw [Selection.ReadableAll] at readable
      rw [Selection.tokensOf, allReadable_append]
      exact ⟨Selection.allReadable_tokens readable.1, allReadable_tokensOf readable.2⟩

end

theorem allReadable_setTokens
    {selections : List (Selection WrittenArgument)}
    (readable : Selection.ReadableAll selections) :
    AllReadable (setTokens selections) := by
  have ofSelections := allReadable_tokensOf readable
  simpa [setTokens] using ⟨readable_mark (by decide), ofSelections, readable_mark (by decide)⟩

theorem Definition.allReadable_tokens
    {definition : Definition WrittenArgument}
    (readable : definition.Readable) :
    AllReadable definition.tokens := by
  cases definition with
  | operation own =>
      obtain ⟨areNames, ofDirectives, _, ofSelections⟩ := readable
      have isWord : IsName own.kind.word := by
        cases own.kind <;> exact isName_word (by decide)
      have ofName : AllReadable (own.name.map Token.name).toList := by
        cases isName : own.name with
        | none => simp
        | some name => exact allReadable_cons.mpr ⟨areNames name isName, allReadable_nil⟩
      simp only [Definition.tokens, allReadable_cons, allReadable_append]
      exact ⟨isWord, ofName, allReadable_directiveTokens ofDirectives,
        allReadable_setTokens ofSelections⟩
  | fragment own =>
      obtain ⟨isName, _, isCondition, ofDirectives, _, ofSelections⟩ := readable
      have isWord : IsName "fragment" := isName_word (by decide)
      have isOn : IsName "on" := isName_word (by decide)
      simp only [Definition.tokens, allReadable_cons, allReadable_append]
      exact ⟨isWord, isName, isOn, isCondition, allReadable_directiveTokens ofDirectives,
        allReadable_setTokens ofSelections⟩

end QueryGateway.Query
