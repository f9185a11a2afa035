import QueryGateway.Proofs.Query.Inlining
import QueryGateway.Proofs.Query.Writing

/-!
# Texts that are written for definitions

Definitions that can be read, and that do not nest deeper than the grammar
admits, are the definitions of a text: their tokens, written one after another,
are read back as they are.

The fuel of a reader counts two for each token that it has in front of it.  That
is enough for the reader of one thing, and one that goes on for as long as
something follows needs one more, to find out that nothing does.
-/

namespace QueryGateway.Query

/-! ## Literals are read -/

theorem exists_succ
    {count fuel : Nat}
    (enough : count + 1 ≤ fuel) :
    ∃ left, fuel = left + 1 ∧ count ≤ left :=
  ⟨fuel - 1, by omega, by omega⟩

mutual

theorem read_literal
    (literal : Literal)
    (readable : literal.Readable)
    {fuel depth : Nat}
    (fits : literal.nesting ≤ depth)
    (enough : 2 * literal.tokens.length ≤ fuel)
    {rest : List Token}
    (avoids : Avoids [] rest) :
    Grammar.literal fuel depth false (literal.tokens ++ rest) = some (literal, rest) := by
  match literal with
  | .variable name =>
      rw [Literal.tokens] at enough ⊢
      obtain ⟨left, rfl, _⟩ := exists_succ (Nat.le_of_succ_le enough)
      simp [Grammar.literal, Grammar.name?, avoids.passCommas_eq]
  | .int text | .float text | .string value =>
      rw [Literal.tokens] at enough ⊢
      obtain ⟨left, rfl, _⟩ := exists_succ (Nat.le_of_succ_le enough)
      simp [Grammar.literal, avoids.passCommas_eq]
  | .boolean value =>
      rw [Literal.tokens] at enough ⊢
      obtain ⟨left, rfl, _⟩ := exists_succ (Nat.le_of_succ_le enough)
      cases value <;> simp [Grammar.literal, Literal.ofName, avoids.passCommas_eq]
  | .null =>
      rw [Literal.tokens] at enough ⊢
      obtain ⟨left, rfl, _⟩ := exists_succ (Nat.le_of_succ_le enough)
      simp [Grammar.literal, Literal.ofName, avoids.passCommas_eq]
  | .enum name =>
      rw [Literal.Readable] at readable
      rw [Literal.tokens] at enough ⊢
      obtain ⟨left, rfl, _⟩ := exists_succ (Nat.le_of_succ_le enough)
      simp [Grammar.literal, readable.2, avoids.passCommas_eq]
  | .list items =>
      rw [Literal.Readable] at readable
      rw [Literal.nesting] at fits
      rw [Literal.tokens, List.length_cons, List.length_append, List.length_singleton] at enough
      obtain ⟨inner, rfl, inside⟩ := exists_succ fits
      obtain ⟨left, rfl, _⟩ := exists_succ (Nat.le_of_succ_le enough)
      have enoughInside : 2 * (Literal.itemTokens items).length < left := by omega
      have ofItems := read_items items readable inside enoughInside avoids
      have start : Avoids [] (Literal.itemTokens items ++ .mark ']' :: rest) :=
        (avoids_itemTokens items).append (.mark List.not_mem_nil rest)
      rw [Literal.tokens, List.cons_append, List.append_assoc, List.singleton_append]
      simp [Grammar.literal, start.passCommas_eq, ofItems]
  | .object fields =>
      rw [Literal.Readable] at readable
      rw [Literal.nesting] at fits
      rw [Literal.tokens, List.length_cons, List.length_append, List.length_singleton] at enough
      obtain ⟨inner, rfl, inside⟩ := exists_succ fits
      obtain ⟨left, rfl, _⟩ := exists_succ (Nat.le_of_succ_le enough)
      have enoughInside : 2 * (Literal.entryTokens fields).length < left := by omega
      have ofFields := read_entries fields readable inside enoughInside '}' (by decide) rest
      have start : Avoids [] (Literal.entryTokens fields ++ .mark '}' :: rest) :=
        (avoids_entryTokens [] fields).append (.mark List.not_mem_nil rest)
      rw [Literal.tokens, List.cons_append, List.append_assoc, List.singleton_append]
      simp [Grammar.literal, start.passCommas_eq, ofFields, avoids.passCommas_eq]

theorem read_items
    (items : List Literal)
    (readable : Literal.ReadableItems items)
    {fuel depth : Nat}
    (fits : Literal.nestingOfItems items ≤ depth)
    (enough : 2 * (Literal.itemTokens items).length < fuel)
    {rest : List Token}
    (avoids : Avoids [] rest) :
    Grammar.items fuel depth false (Literal.itemTokens items ++ .mark ']' :: rest) =
      some (items, rest) := by
  obtain ⟨left, rfl, _⟩ := exists_succ enough
  match items with
  | [] => simp [Literal.itemTokens, Grammar.items, avoids.passCommas_eq]
  | item :: items =>
      rw [Literal.ReadableItems] at readable
      rw [Literal.nestingOfItems] at fits
      rw [Literal.itemTokens, List.length_append] at enough
      obtain ⟨fitsItem, fitsItems⟩ := Nat.max_le.mp fits
      obtain ⟨first, others, isFirst⟩ := List.exists_cons_of_ne_nil item.tokens_ne_nil
      have nonempty : 0 < item.tokens.length := by simp [isFirst]
      have enoughForItem : 2 * item.tokens.length ≤ left := by omega
      have enoughForItems : 2 * (Literal.itemTokens items).length < left := by omega
      have start : Avoids [] (Literal.itemTokens items ++ .mark ']' :: rest) :=
        (avoids_itemTokens items).append (.mark List.not_mem_nil rest)
      have ofItem := read_literal item readable.1 fitsItem enoughForItem start
      have ofItems := read_items items readable.2 fitsItems enoughForItems avoids
      have notClosing := item.avoids_tokens
      rw [Literal.itemTokens, List.append_assoc]
      rw [isFirst] at ofItem notClosing ⊢
      rw [List.cons_append] at ofItem ⊢
      rw [Grammar.items]
      · simp [ofItem, ofItems]
      · rintro _ ⟨⟩
        exact notClosing.2 ']' List.mem_cons_self rfl

theorem read_entries
    (entries : List (String × Option Literal))
    (readable : Literal.ReadableEntries entries)
    {fuel depth : Nat}
    (fits : Literal.nestingOfEntries entries ≤ depth)
    (enough : 2 * (Literal.entryTokens entries).length < fuel)
    (close : Char)
    (notColon : close ≠ ':')
    (rest : List Token) :
    Grammar.entries fuel depth false (Literal.entryTokens entries ++ .mark close :: rest) =
      some (entries, .mark close :: rest) := by
  obtain ⟨left, rfl, _⟩ := exists_succ enough
  match entries with
  | [] => simp [Literal.entryTokens, Grammar.entries, Grammar.name?]
  | (name, none) :: entries =>
      rw [Literal.ReadableEntries] at readable
      rw [Literal.nestingOfEntries] at fits
      rw [Literal.entryTokens, List.length_cons] at enough
      have enoughForEntries : 2 * (Literal.entryTokens entries).length < left := by omega
      have ofEntries :=
        read_entries entries readable.2 fits enoughForEntries close notColon rest
      have start : Avoids [':'] (Literal.entryTokens entries ++ .mark close :: rest) :=
        (avoids_entryTokens [':'] entries).append (.mark (by simpa using notColon) rest)
      rw [Literal.entryTokens, List.cons_append]
      simp [Grammar.entries, Grammar.name?, start.passCommas_eq,
        start.mark?_eq_none List.mem_cons_self, ofEntries]
  | (name, some value) :: entries =>
      rw [Literal.ReadableEntries] at readable
      rw [Literal.nestingOfEntries] at fits
      rw [Literal.entryTokens, List.length_cons, List.length_cons, List.length_append] at enough
      obtain ⟨fitsValue, fitsEntries⟩ := Nat.max_le.mp fits
      have enoughForValue : 2 * value.tokens.length ≤ left := by omega
      have enoughForEntries : 2 * (Literal.entryTokens entries).length < left := by omega
      have start : Avoids [] (Literal.entryTokens entries ++ .mark close :: rest) :=
        (avoids_entryTokens [] entries).append (.mark List.not_mem_nil rest)
      have ofValue := read_literal value readable.2.1 fitsValue enoughForValue start
      have ofEntries :=
        read_entries entries readable.2.2 fitsEntries enoughForEntries close notColon rest
      have startValue := (value.avoids_tokens.weaken (List.nil_subset _)).append start
      rw [Literal.entryTokens, List.cons_append, List.cons_append, List.append_assoc]
      simp [Grammar.entries, Grammar.name?, startValue.passCommas_eq, ofValue, ofEntries]

end

/-! ## Arguments and directives -/

theorem read_arguments
    (arguments : List WrittenArgument)
    (readable : Literal.ReadableEntries arguments)
    {fuel depth : Nat}
    (fits : Literal.nestingOfEntries arguments ≤ depth)
    (enough : 2 * (argumentTokens arguments).length ≤ fuel)
    {rest : List Token}
    (avoids : Avoids ['('] rest) :
    Grammar.arguments fuel depth false (argumentTokens arguments ++ rest) =
      some (arguments, rest) := by
  cases arguments with
  | nil =>
      have noMark := avoids.mark?_eq_none List.mem_cons_self
      simp [argumentTokens, Grammar.arguments, noMark]
  | cons argument arguments =>
      have isWritten : argumentTokens (argument :: arguments) =
          .mark '(' :: (Literal.entryTokens (argument :: arguments) ++ [.mark ')']) := rfl
      rw [isWritten, List.length_cons, List.length_append] at enough
      have enoughInside : 2 * (Literal.entryTokens (argument :: arguments)).length < fuel := by
        omega
      have ofEntries := read_entries _ readable fits enoughInside ')' (by decide) rest
      have start : Avoids [] (Literal.entryTokens (argument :: arguments) ++ .mark ')' :: rest) :=
        (avoids_entryTokens [] _).append (.mark List.not_mem_nil rest)
      rw [isWritten, List.cons_append, List.append_assoc, List.singleton_append]
      simp [Grammar.arguments, start.passCommas_eq, ofEntries, avoids.passCommas_eq]

theorem read_directives
    (directives : List (Directive WrittenArgument))
    (readable : ReadableDirectives directives)
    {fuel depth : Nat}
    (fits : nestingOfDirectives directives ≤ depth)
    (enough : 2 * (directiveTokens directives).length < fuel)
    {rest : List Token}
    (avoids : Avoids ['(', '@'] rest) :
    Grammar.directives fuel depth false (directiveTokens directives ++ rest) =
      some (directives, rest) := by
  induction directives generalizing fuel with
  | nil =>
      obtain ⟨left, rfl, _⟩ := exists_succ enough
      have noMark : Grammar.mark? '@' rest = none := avoids.mark?_eq_none (by decide)
      simp [directiveTokens, Grammar.directives, noMark]
  | cons directive directives induction =>
      obtain ⟨⟨isName, ofArguments⟩, ofOthers⟩ := List.forall_mem_cons.mp readable
      obtain ⟨fitsArguments, fitsOthers⟩ := Nat.max_le.mp fits
      obtain ⟨left, rfl, _⟩ := exists_succ enough
      simp only [directiveTokens, List.length_cons, List.length_append] at enough
      have enoughForArguments : 2 * (argumentTokens directive.arguments).length ≤ left := by
        omega
      have enoughForOthers : 2 * (directiveTokens directives).length < left := by
        omega
      have startOthers : Avoids ['('] (directiveTokens directives ++ rest) :=
        (avoids_directiveTokens (by decide) directives).append (avoids.weaken (by decide))
      have start : Avoids []
          (argumentTokens directive.arguments ++ (directiveTokens directives ++ rest)) :=
        (avoids_argumentTokens (by decide) directive.arguments).append
          (startOthers.weaken (by decide))
      have readArguments :=
        read_arguments directive.arguments ofArguments fitsArguments enoughForArguments startOthers
      have readOthers := induction ofOthers fitsOthers enoughForOthers
      rw [directiveTokens, List.cons_append, List.cons_append, List.append_assoc]
      simp [Grammar.directives, Grammar.name?, start.passCommas_eq, readArguments, readOthers]

/-! ## Selections -/

/-- The tokens of selections are read back, in front of what closes their set. -/
def ReadsBack (selections : List (Selection WrittenArgument)) : Prop :=
  ∀ fuel depth rest, Selection.nestingOf selections ≤ depth →
    2 * (Selection.tokensOf selections).length < fuel →
      Grammar.selections fuel depth (Selection.tokensOf selections ++ .mark '}' :: rest) =
        some (selections, .mark '}' :: rest)

theorem read_set
    {selections : List (Selection WrittenArgument)}
    (nonempty : selections ≠ [])
    (back : ReadsBack selections)
    {fuel depth : Nat}
    (fits : Selection.nestingOf selections + 1 ≤ depth)
    (enough : 2 * (setTokens selections).length ≤ fuel)
    {rest : List Token}
    (avoids : Avoids [] rest) :
    Grammar.selectionSet fuel depth (setTokens selections ++ rest) = some (selections, rest) := by
  rw [setTokens, List.length_cons, List.length_append] at enough
  obtain ⟨inner, rfl, inside⟩ := exists_succ fits
  obtain ⟨left, rfl, _⟩ := exists_succ (Nat.le_of_succ_le enough)
  have enoughInside : 2 * (Selection.tokensOf selections).length < left := by omega
  have ofSelections := back _ _ rest inside enoughInside
  have startInside : Avoids [] (Selection.tokensOf selections ++ .mark '}' :: rest) :=
    (avoids_tokensOf [] selections).append (.mark List.not_mem_nil rest)
  rw [setTokens, List.cons_append, List.append_assoc, List.singleton_append]
  simp [Grammar.selectionSet, startInside.passCommas_eq, ofSelections, avoids.passCommas_eq,
    nonempty]

/-- No name stands in front of directives and a selection set. -/
theorem directiveTokens_ne_name
    (directives : List (Directive WrittenArgument))
    (selections : List (Selection WrittenArgument))
    (rest : List Token)
    (name : String)
    (others : List Token) :
    directiveTokens directives ++ (setTokens selections ++ rest) ≠ .name name :: others := by
  cases directives <;> simp [directiveTokens, setTokens]

/-- Directives are read back in front of a selection set, and so is the set. -/
theorem read_directives_and_set
    {directives : List (Directive WrittenArgument)}
    {selections : List (Selection WrittenArgument)}
    (readable : ReadableDirectives directives)
    (nonempty : selections ≠ [])
    (back : ReadsBack selections)
    {fuel depth : Nat}
    (fits : max (nestingOfDirectives directives) (Selection.nestingOf selections + 1) ≤ depth)
    (enough : 2 * ((directiveTokens directives).length + (setTokens selections).length) ≤ fuel)
    {rest : List Token}
    (avoids : Avoids [] rest) :
    Avoids ['('] (directiveTokens directives ++ (setTokens selections ++ rest)) ∧
      Grammar.directives fuel depth false
          (directiveTokens directives ++ (setTokens selections ++ rest)) =
        some (directives, setTokens selections ++ rest) ∧
      Grammar.selectionSet fuel depth (setTokens selections ++ rest) = some (selections, rest) := by
  obtain ⟨fitsDirectives, fitsSet⟩ := Nat.max_le.mp fits
  have notEmpty : 2 ≤ (setTokens selections).length := by
    simp [setTokens]
  have enoughForDirectives : 2 * (directiveTokens directives).length < fuel := by
    omega
  have enoughForSet : 2 * (setTokens selections).length ≤ fuel := by
    omega
  have afterDirectives : Avoids ['(', '@'] (setTokens selections ++ rest) :=
    .mark (by decide) _
  exact ⟨(avoids_directiveTokens (by decide) directives).append (afterDirectives.weaken (by decide)),
    read_directives directives readable fitsDirectives enoughForDirectives afterDirectives,
    read_set nonempty back fitsSet enoughForSet avoids⟩

theorem alternative_aliasTokens
    (alternative : Option String)
    (name : String)
    {rest : List Token}
    (avoids : Avoids [':'] rest) :
    Grammar.alternative (aliasTokens alternative ++ .name name :: rest) =
      (alternative, .name name :: rest) := by
  cases alternative with
  | some own => simp [aliasTokens, Grammar.alternative]
  | none =>
      unfold Grammar.alternative
      split
      case h_2 => rfl
      case h_1 isColon =>
        cases isColon
        exact (avoids.2 ':' List.mem_cons_self rfl).elim

/-- A field is read up to the selection set that it may have. -/
theorem read_field_front
    {alternative : Option String}
    {name : String}
    {arguments : List WrittenArgument}
    {directives : List (Directive WrittenArgument)}
    (readableArguments : Literal.ReadableEntries arguments)
    (readableDirectives : ReadableDirectives directives)
    {fuel depth : Nat}
    (fitsArguments : Literal.nestingOfEntries arguments ≤ depth)
    (fitsDirectives : nestingOfDirectives directives ≤ depth)
    (enoughForArguments : 2 * (argumentTokens arguments).length ≤ fuel)
    (enoughForDirectives : 2 * (directiveTokens directives).length < fuel)
    {rest : List Token}
    (avoids : Avoids ['(', '@', ':'] rest) :
    Grammar.field (fuel + 1) depth (aliasTokens alternative ++
        .name name :: (argumentTokens arguments ++ (directiveTokens directives ++ rest))) =
      match Grammar.mark? '{' rest with
      | none => some (.field alternative name arguments directives none, rest)
      | some _ => (Grammar.selectionSet fuel depth rest).map fun (selections, rest) =>
          (.field alternative name arguments directives (some selections), rest) := by
  have afterArguments : Avoids ['(', ':'] (directiveTokens directives ++ rest) :=
    (avoids_directiveTokens (by decide) directives).append (avoids.weaken (by decide))
  have afterName : Avoids [':']
      (argumentTokens arguments ++ (directiveTokens directives ++ rest)) :=
    (avoids_argumentTokens (by decide) arguments).append (afterArguments.weaken (by decide))
  have ofArguments := read_arguments arguments readableArguments fitsArguments
    enoughForArguments (afterArguments.weaken (by decide))
  have ofDirectives := read_directives directives readableDirectives fitsDirectives
    enoughForDirectives (avoids.weaken (by decide))
  simp only [Grammar.field, alternative_aliasTokens alternative name afterName, Grammar.name?,
    afterName.passCommas_eq, Option.bind_eq_bind, Option.bind_some, ofArguments, ofDirectives]
  cases Grammar.mark? '{' rest with
  | none => rfl
  | some _ => exact Option.map_eq_bind.symm

theorem read_leaf
    {alternative : Option String}
    {name : String}
    {arguments : List WrittenArgument}
    {directives : List (Directive WrittenArgument)}
    (readableArguments : Literal.ReadableEntries arguments)
    (readableDirectives : ReadableDirectives directives)
    {fuel depth : Nat}
    (fits : (Selection.field alternative name arguments directives none).nesting ≤ depth)
    (enough : 2 * (Selection.field alternative name arguments directives none).tokens.length ≤
      fuel)
    {rest : List Token}
    (avoids : Avoids ['(', '@', ':', '{'] rest) :
    Grammar.field fuel depth
        ((Selection.field alternative name arguments directives none).tokens ++ rest) =
      some (.field alternative name arguments directives none, rest) := by
  obtain ⟨fitsArguments, fitsDirectives⟩ := Nat.max_le.mp fits
  simp only [Selection.tokens, List.length_append, List.length_cons] at enough
  obtain ⟨left, rfl, _⟩ : ∃ left, fuel = left + 1 ∧ 1 ≤ left := ⟨fuel - 1, by omega, by omega⟩
  rw [Selection.tokens, List.append_assoc, List.cons_append, List.append_assoc,
    read_field_front readableArguments readableDirectives fitsArguments fitsDirectives (by omega)
      (by omega) (avoids.weaken (by decide)),
    avoids.mark?_eq_none (by decide)]

theorem read_field
    {alternative : Option String}
    {name : String}
    {arguments : List WrittenArgument}
    {directives : List (Directive WrittenArgument)}
    {selections : List (Selection WrittenArgument)}
    (readableArguments : Literal.ReadableEntries arguments)
    (readableDirectives : ReadableDirectives directives)
    (nonempty : selections ≠ [])
    (back : ReadsBack selections)
    {fuel depth : Nat}
    (fits : (Selection.field alternative name arguments directives (some selections)).nesting ≤
      depth)
    (enough : 2 * (Selection.field alternative name arguments directives
      (some selections)).tokens.length ≤ fuel)
    {rest : List Token}
    (avoids : Avoids [] rest) :
    Grammar.field fuel depth
        ((Selection.field alternative name arguments directives (some selections)).tokens ++
          rest) =
      some (.field alternative name arguments directives (some selections), rest) := by
  obtain ⟨fitsFront, fitsSet⟩ := Nat.max_le.mp fits
  obtain ⟨fitsArguments, fitsDirectives⟩ := Nat.max_le.mp fitsFront
  have isWritten : (Selection.field alternative name arguments directives
      (some selections)).tokens = aliasTokens alternative ++
        .name name :: (argumentTokens arguments ++
          (directiveTokens directives ++ setTokens selections)) := by
    rw [Selection.tokens, setTokens]
  simp only [isWritten, List.length_append, List.length_cons] at enough
  obtain ⟨left, rfl, _⟩ : ∃ left, fuel = left + 1 ∧ 1 ≤ left := ⟨fuel - 1, by omega, by omega⟩
  have ofSet := read_set nonempty back fitsSet
    (show 2 * (setTokens selections).length ≤ left by omega) avoids
  have afterFront : Avoids ['(', '@', ':'] (setTokens selections ++ rest) :=
    .mark (by decide) _
  have isSet : Grammar.mark? '{' (setTokens selections ++ rest) ≠ none := by
    simp [setTokens]
  rw [isWritten, List.append_assoc, List.cons_append, List.append_assoc, List.append_assoc,
    read_field_front readableArguments readableDirectives fitsArguments fitsDirectives (by omega)
      (by omega) afterFront]
  obtain ⟨inside, isInside⟩ := Option.ne_none_iff_exists'.mp isSet
  rw [isInside, ofSet]
  rfl

/-- Selections that are written in place are read after their three dots. -/
theorem read_inline
    {condition : Option String}
    {directives : List (Directive WrittenArgument)}
    {selections : List (Selection WrittenArgument)}
    (readableDirectives : ReadableDirectives directives)
    (nonempty : selections ≠ [])
    (back : ReadsBack selections)
    {fuel depth : Nat}
    (fits : (Selection.inline condition directives selections).nesting ≤ depth)
    (enough : 2 * (Selection.inline condition directives selections).tokens.length ≤ fuel)
    {rest : List Token}
    (avoids : Avoids [] rest) :
    Grammar.inline fuel depth (conditionTokens condition ++
        (directiveTokens directives ++ (setTokens selections ++ rest))) =
      some (.inline condition directives selections, rest) := by
  have isWritten : (Selection.inline condition directives selections).tokens =
      .spread :: (conditionTokens condition ++
        (directiveTokens directives ++ setTokens selections)) := by
    rw [Selection.tokens, setTokens]
  simp only [isWritten, List.length_append, List.length_cons] at enough
  obtain ⟨left, rfl, enoughInside⟩ : ∃ left, fuel = left + 1 ∧
      2 * ((directiveTokens directives).length + (setTokens selections).length) ≤ left :=
    ⟨fuel - 1, by omega, by omega⟩
  obtain ⟨afterCondition, ofDirectives, ofSet⟩ :=
    read_directives_and_set readableDirectives nonempty back fits enoughInside avoids
  cases condition with
  | some type =>
      simp [conditionTokens, Grammar.inline, Grammar.typeCondition?, Grammar.keyword?,
        Grammar.name?, afterCondition.passCommas_eq, ofDirectives, ofSet]
  | none =>
      rw [conditionTokens, Option.elim_none, List.nil_append, Grammar.inline]
      · simp [ofDirectives, ofSet]
      · exact directiveTokens_ne_name directives selections rest

/-! ## Selection sets -/

/-- The tokens of a selection are read back, in front of the other selections. -/
def Selection.ReadsOn (selection : Selection WrittenArgument) : Prop :=
  ∀ fuel depth rest others last, selection.nesting ≤ depth →
    2 * selection.tokens.length ≤ fuel → Avoids ['(', '@', ':', '{'] rest →
      Grammar.selections fuel depth rest = some (last, others) →
        Grammar.selections (fuel + 1) depth (selection.tokens ++ rest) =
          some (selection :: last, others)

theorem Selection.readsOn_of_field
    {selection : Selection WrittenArgument}
    {name : String}
    {tokens : List Token}
    (starts : selection.tokens = .name name :: tokens)
    (reads : ∀ fuel depth rest, selection.nesting ≤ depth →
      2 * selection.tokens.length ≤ fuel → Avoids ['(', '@', ':', '{'] rest →
        Grammar.field fuel depth (selection.tokens ++ rest) = some (selection, rest)) :
    selection.ReadsOn := by
  intro fuel depth rest others last fits enough avoids ofLast
  have ofFirst := reads fuel depth rest fits enough avoids
  rw [starts, List.cons_append] at ofFirst ⊢
  simp [Grammar.selections, ofFirst, ofLast]

theorem Selection.field_tokens_eq_cons
    (alternative : Option String)
    (name : String)
    (arguments : List WrittenArgument)
    (directives : List (Directive WrittenArgument))
    (selections : Option (List (Selection WrittenArgument))) :
    ∃ first tokens, (Selection.field alternative name arguments directives selections).tokens =
      .name first :: tokens := by
  cases alternative <;> cases selections <;>
    exact ⟨_, _, by rw [Selection.tokens]; rfl⟩

theorem Selection.readsOn_spread
    {name : String}
    {directives : List (Directive WrittenArgument)}
    (notOn : name ≠ "on")
    (readable : ReadableDirectives directives) :
    (Selection.spread name directives).ReadsOn := by
  intro fuel depth rest others last fits enough avoids ofLast
  simp only [Selection.tokens, List.length_cons] at enough
  have ofDirectives := read_directives directives readable fits
    (show 2 * (directiveTokens directives).length < fuel by omega) (avoids.weaken (by decide))
  have start : Avoids [] (directiveTokens directives ++ rest) :=
    (avoids_directiveTokens (by decide) directives).append (avoids.weaken (by decide))
  rw [Selection.tokens, List.cons_append, List.cons_append]
  simp [Grammar.selections, notOn, start.passCommas_eq, ofDirectives, ofLast]

theorem Selection.readsOn_inline
    {condition : Option String}
    {directives : List (Directive WrittenArgument)}
    {selections : List (Selection WrittenArgument)}
    (readable : ReadableDirectives directives)
    (nonempty : selections ≠ [])
    (back : ReadsBack selections) :
    (Selection.inline condition directives selections).ReadsOn := by
  intro fuel depth rest others last fits enough avoids ofLast
  have ofFirst := read_inline readable nonempty back fits enough (avoids.weaken (by decide))
  have isWritten : (Selection.inline condition directives selections).tokens ++ rest =
      .spread :: (conditionTokens condition ++
        (directiveTokens directives ++ (setTokens selections ++ rest))) := by
    rw [Selection.tokens, ← setTokens, List.cons_append, List.append_assoc, List.append_assoc]
  rw [isWritten]
  cases condition with
  | some type =>
      rw [conditionTokens, Option.elim_some, List.cons_append, List.singleton_append] at ofFirst ⊢
      simp [Grammar.selections, ofFirst, ofLast]
  | none =>
      rw [conditionTokens, Option.elim_none, List.nil_append] at ofFirst ⊢
      rw [Grammar.selections]
      · simp [ofFirst, ofLast]
      · exact directiveTokens_ne_name directives selections rest

theorem readsBack_nil :
    ReadsBack [] := by
  intro fuel depth rest _ enough
  obtain ⟨left, rfl, _⟩ := exists_succ enough
  simp [Selection.tokensOf, Grammar.selections]

theorem ReadsBack.cons
    {selection : Selection WrittenArgument}
    {selections : List (Selection WrittenArgument)}
    (readsOn : selection.ReadsOn)
    (back : ReadsBack selections) :
    ReadsBack (selection :: selections) := by
  intro fuel depth rest fits enough
  obtain ⟨fitsFirst, fitsOthers⟩ := Nat.max_le.mp fits
  rw [Selection.tokensOf, List.length_append] at enough
  obtain ⟨_, _, isFirst, _⟩ := selection.tokens_eq_cons
  have nonempty : 0 < selection.tokens.length := by simp [isFirst]
  obtain ⟨left, rfl, _⟩ := exists_succ enough
  have enoughForFirst : 2 * selection.tokens.length ≤ left := by omega
  have enoughForOthers : 2 * (Selection.tokensOf selections).length < left := by omega
  rw [Selection.tokensOf, List.append_assoc]
  exact readsOn left depth _ _ _ fitsFirst enoughForFirst
    ((avoids_tokensOf _ selections).append (.mark (by decide) rest))
    (back left depth rest fitsOthers enoughForOthers)

mutual

theorem Selection.readsOn_of_readable :
    ∀ {selection : Selection WrittenArgument}, selection.Readable → selection.ReadsOn
  | .field _ _ _ _ none, readable => by
      rw [Selection.Readable] at readable
      obtain ⟨_, _, ofArguments, ofDirectives⟩ := readable
      obtain ⟨_, _, starts⟩ := Selection.field_tokens_eq_cons _ _ _ _ none
      refine Selection.readsOn_of_field starts ?_
      intro fuel depth rest fits enough avoids
      exact read_leaf ofArguments ofDirectives fits enough avoids
  | .field _ _ _ _ (some selections), readable => by
      rw [Selection.Readable] at readable
      obtain ⟨_, _, ofArguments, ofDirectives, nonempty, ofSelections⟩ := readable
      obtain ⟨_, _, starts⟩ := Selection.field_tokens_eq_cons _ _ _ _ (some selections)
      refine Selection.readsOn_of_field starts ?_
      intro fuel depth rest fits enough avoids
      exact read_field ofArguments ofDirectives nonempty (readsBack_of_readableAll ofSelections)
        fits enough (avoids.weaken (by decide))
  | .spread _ _, readable => by
      rw [Selection.Readable] at readable
      exact Selection.readsOn_spread readable.2.1 readable.2.2
  | .inline _ _ selections, readable => by
      rw [Selection.Readable] at readable
      obtain ⟨_, ofDirectives, nonempty, ofSelections⟩ := readable
      exact Selection.readsOn_inline ofDirectives nonempty (readsBack_of_readableAll ofSelections)

theorem readsBack_of_readableAll :
    ∀ {selections : List (Selection WrittenArgument)},
      Selection.ReadableAll selections → ReadsBack selections
  | [], _ => readsBack_nil
  | _ :: _, readable => by
      rw [Selection.ReadableAll] at readable
      exact ReadsBack.cons (Selection.readsOn_of_readable readable.1)
        (readsBack_of_readableAll readable.2)

end

/-! ## Definitions -/

theorem read_operation
    (own : Operation WrittenArgument)
    (readable : (Definition.operation own).Readable)
    {fuel depth : Nat}
    (fits : (Definition.operation own).nesting ≤ depth)
    (enough : 2 * (Definition.operation own).tokens.length ≤ fuel)
    {rest : List Token}
    (avoids : Avoids [] rest) :
    Grammar.operation fuel depth own.kind ((own.name.map Token.name).toList ++
        (directiveTokens own.directives ++ (setTokens own.selections ++ rest))) =
      some (own, rest) := by
  obtain ⟨kind, name, directives, selections⟩ := own
  obtain ⟨_, ofDirectives, nonempty, ofSelections⟩ := readable
  simp only [Definition.tokens, List.length_cons, List.length_append] at enough
  have enoughAfterName :
      2 * ((directiveTokens directives).length + (setTokens selections).length) ≤ fuel := by
    omega
  obtain ⟨afterName, readDirectives, readSet⟩ := read_directives_and_set ofDirectives nonempty
    (readsBack_of_readableAll ofSelections) fits enoughAfterName avoids
  have noVariables := afterName.mark?_eq_none List.mem_cons_self
  cases name with
  | none =>
      have notName :
          Grammar.name? (directiveTokens directives ++ (setTokens selections ++ rest)) = none := by
        cases directives <;> rfl
      simp [Grammar.operation, notName, Grammar.passVariableList, noVariables, readDirectives,
        readSet]
  | some name =>
      simp [Grammar.operation, Grammar.name?, afterName.passCommas_eq, Grammar.passVariableList,
        noVariables, readDirectives, readSet]

theorem read_fragment
    (own : Fragment WrittenArgument)
    (readable : (Definition.fragment own).Readable)
    {fuel depth : Nat}
    (fits : (Definition.fragment own).nesting ≤ depth)
    (enough : 2 * (Definition.fragment own).tokens.length ≤ fuel)
    {rest : List Token}
    (avoids : Avoids [] rest) :
    Grammar.fragment fuel depth (.name own.name :: .name "on" :: .name own.condition ::
        (directiveTokens own.directives ++ (setTokens own.selections ++ rest))) =
      some (own, rest) := by
  obtain ⟨_, notOn, _, ofDirectives, nonempty, ofSelections⟩ := readable
  simp only [Definition.tokens, List.length_cons, List.length_append] at enough
  have enoughAfterCondition :
      2 * ((directiveTokens own.directives).length + (setTokens own.selections).length) ≤ fuel := by
    omega
  obtain ⟨afterCondition, readDirectives, readSet⟩ := read_directives_and_set ofDirectives
    nonempty (readsBack_of_readableAll ofSelections) fits enoughAfterCondition avoids
  simp [Grammar.fragment, Grammar.name?, Grammar.typeCondition?, Grammar.keyword?, notOn,
    afterCondition.passCommas_eq, readDirectives, readSet]

theorem read_definition
    (definition : Definition WrittenArgument)
    (readable : definition.Readable)
    {fuel depth : Nat}
    (fits : definition.nesting ≤ depth)
    (enough : 2 * definition.tokens.length ≤ fuel)
    {rest : List Token}
    (avoids : Avoids [] rest) :
    Grammar.definition fuel depth (definition.tokens ++ rest) = some (some definition, rest) := by
  cases definition with
  | operation own =>
      have ofOperation := read_operation own readable fits enough avoids
      have start : Avoids [] ((own.name.map Token.name).toList ++
          (directiveTokens own.directives ++ (setTokens own.selections ++ rest))) := by
        refine .append ?_ ((avoids_directiveTokens List.not_mem_nil own.directives).append
          (.mark List.not_mem_nil _))
        cases own.name with
        | none => simp [Avoids]
        | some name => exact .name name []
      rw [Definition.tokens, List.cons_append, List.append_assoc, List.append_assoc]
      cases isKind : own.kind <;>
        simp [OperationKind.word, Grammar.definition, Grammar.definition.named,
          start.passCommas_eq, ← isKind, ofOperation]
  | fragment own =>
      have ofFragment := read_fragment own readable fits enough avoids
      rw [Definition.tokens]
      simp [Grammar.definition, ofFragment]

theorem read_definitions
    {definitions : List (Definition WrittenArgument)}
    (readable : ∀ definition ∈ definitions, definition.Readable)
    {depth : Nat}
    (fits : ∀ definition ∈ definitions, definition.nesting ≤ depth)
    {fuel : Nat}
    (enough : 2 * (definitionTokens definitions).length ≤ fuel)
    {count : Nat}
    (counts : (definitionTokens definitions).length ≤ count) :
    Grammar.definitions count fuel depth (definitionTokens definitions) = some definitions := by
  induction definitions generalizing count with
  | nil => cases count <;> rfl
  | cons definition definitions induction =>
      obtain ⟨ofFirst, ofOthers⟩ := List.forall_mem_cons.mp readable
      obtain ⟨fitsFirst, fitsOthers⟩ := List.forall_mem_cons.mp fits
      obtain ⟨word, tokens, starts⟩ := definition.tokens_eq_cons
      have isWritten : definitionTokens (definition :: definitions) =
          definition.tokens ++ definitionTokens definitions := List.flatMap_cons
      rw [isWritten, List.length_append] at enough counts
      have nonempty : 0 < definition.tokens.length := by simp [starts]
      obtain ⟨left, rfl, _⟩ : ∃ left, count = left + 1 ∧ 0 ≤ left :=
        ⟨count - 1, by omega, by omega⟩
      have readFirst := read_definition definition ofFirst fitsFirst
        (show 2 * definition.tokens.length ≤ fuel by omega) (avoids_definitionTokens definitions)
      have readOthers := induction ofOthers fitsOthers (by omega)
        (show (definitionTokens definitions).length ≤ left by omega)
      rw [isWritten]
      rw [starts, List.cons_append] at readFirst ⊢
      simp [Grammar.definitions, readFirst, readOthers]

/-! ## Texts -/

/-- Definitions as a text. -/
def writtenText (definitions : List (Definition WrittenArgument)) : String :=
  String.ofList (Token.written (definitionTokens definitions))

/-- The tokens of definitions are read as these definitions, unless they nest too deep. -/
theorem definitions?_definitionTokens
    {definitions : List (Definition WrittenArgument)}
    (nonempty : definitions ≠ [])
    (readable : ∀ definition ∈ definitions, definition.Readable)
    (fits : ∀ definition ∈ definitions, definition.nesting ≤ Grammar.nestingLimit) :
    Grammar.definitions? (definitionTokens definitions) = some definitions := by
  have readBack := read_definitions readable fits
    (Nat.le_add_right (2 * (definitionTokens definitions).length) 2) (Nat.le_refl _)
  rw [Grammar.definitions?, (avoids_definitionTokens definitions).passCommas_eq]
  obtain ⟨first, others, rfl⟩ := List.exists_cons_of_ne_nil nonempty
  obtain ⟨word, tokens, starts⟩ := first.tokens_eq_cons
  have isWritten : definitionTokens (first :: others) =
      .name word :: (tokens ++ definitionTokens others) := by
    rw [definitionTokens, List.flatMap_cons, starts]
    rfl
  rw [isWritten] at readBack ⊢
  exact readBack

theorem list?_writtenText
    {definitions : List (Definition WrittenArgument)}
    (readable : ∀ definition ∈ definitions, definition.Readable) :
    Token.list? (writtenText definitions).toList = some (definitionTokens definitions) := by
  rw [writtenText, String.toList_ofList]
  refine Token.list?_written fun token isToken => ?_
  obtain ⟨definition, isDefinition, isToken⟩ := List.mem_flatMap.mp isToken
  exact Definition.allReadable_tokens (readable definition isDefinition) token isToken

/-- The text of definitions is read as these definitions, unless they nest too deep. -/
theorem writtenDefinitions?_writtenText
    {definitions : List (Definition WrittenArgument)}
    (nonempty : definitions ≠ [])
    (readable : ∀ definition ∈ definitions, definition.Readable)
    (fits : ∀ definition ∈ definitions, definition.nesting ≤ Grammar.nestingLimit) :
    writtenDefinitions? (writtenText definitions) = some definitions := by
  rw [writtenDefinitions?, list?_writtenText readable, Option.bind_some,
    definitions?_definitionTokens nonempty readable fits]

end QueryGateway.Query
