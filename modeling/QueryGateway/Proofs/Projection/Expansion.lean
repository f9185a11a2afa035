import Mathlib.Data.List.Forall2
import QueryGateway.Projection.Template
import QueryGateway.Proofs.Result
import QueryGateway.Proofs.Text.Runs

/-!
# How templates are expanded

Reading a template from the left, there is a placeholder wherever one is written
in front of what is left, and a literal character everywhere else.  `Splits` says
so without telling how placeholders are found, and there is one way to split a
template, whatever braces and dollar signs stand in it.

A template is expanded if and only if every placeholder of its split names a
scalar.  The pieces are then put together, the literal ones as they are; what is
put in is not split again.
-/

namespace QueryGateway.Projection.Template

/-! ## The split of a template -/

/-- A key holds some text, and no braces. -/
def IsKey (key : List Char) : Prop :=
  key ≠ [] ∧ '{' ∉ key ∧ '}' ∉ key

/-- A placeholder as it is written: its key in braces, perhaps behind a dollar sign. -/
inductive Writes (key : List Char) : List Char → Prop where
  | plain : Writes key ('{' :: (key ++ ['}']))
  | dollar : Writes key ('$' :: '{' :: (key ++ ['}']))

/-- A text and the literal characters and placeholders that it consists of, from the left. -/
inductive Splits : List Char → List Piece → Prop where
  | nil : Splits [] []
  | placeholder
      {key written text : List Char}
      {pieces : List Piece}
      (isKey : IsKey key)
      (writes : Writes key written)
      (rest : Splits text pieces) :
      Splits (written ++ text) (.placeholder key :: pieces)
  | literal
      {character : Char}
      {text : List Char}
      {pieces : List Piece}
      (noPlaceholder :
        ∀ key written left, IsKey key → Writes key written → character :: text ≠ written ++ left)
      (rest : Splits text pieces) :
      Splits (character :: text) (.literal character :: pieces)

theorem isKey_iff
    {key : List Char} :
    IsKey key ↔ key ≠ [] ∧ ∀ character ∈ key, (!isBrace character) = true := by
  refine and_congr_right fun _ => ?_
  simp only [isBrace, Bool.not_eq_true', Bool.or_eq_false_iff, beq_eq_false_iff_ne, ne_eq]
  constructor
  · rintro ⟨noOpening, noClosing⟩ character isMember
    constructor
    · rintro rfl
      exact noOpening isMember
    · rintro rfl
      exact noClosing isMember
  · intro noBraces
    exact ⟨fun isMember => (noBraces _ isMember).1 rfl, fun isMember => (noBraces _ isMember).2 rfl⟩

/-- A key in braces is split off where one is written. -/
theorem bracedKey?_eq_some_iff
    {text key rest : List Char} :
    bracedKey? text = some (key, rest) ↔ IsKey key ∧ text = '{' :: (key ++ '}' :: rest) := by
  rw [isKey_iff]
  constructor
  · intro split
    unfold bracedKey? at split
    split at split
    case h_2 => cases split
    case h_1 inside =>
      simp only at split
      split at split
      case h_2 => cases split
      case h_1 first others left isKey isLeft =>
        cases split
        refine ⟨⟨by simp [isKey], fun _ => List.mem_takeWhile_imp⟩, ?_⟩
        rw [← isLeft, List.takeWhile_append_dropWhile]
  · rintro ⟨⟨nonempty, noBraces⟩, rfl⟩
    have stops : StopsAt (!isBrace ·) ('}' :: rest) := stopsAt_cons (by decide) rest
    obtain ⟨taken, left⟩ := takeWhile_append_of_stopsAt noBraces stops
    obtain ⟨first, others, rfl⟩ := List.exists_cons_of_ne_nil nonempty
    simp only [bracedKey?, taken, left]

/-- A placeholder is split off where one is written. -/
theorem placeholder?_eq_some_iff
    {text key rest : List Char} :
    placeholder? text = some (key, rest) ↔
      IsKey key ∧ ∃ written, Writes key written ∧ text = written ++ rest := by
  constructor
  · intro split
    unfold placeholder? at split
    split at split
    · obtain ⟨isKey, rfl⟩ := bracedKey?_eq_some_iff.mp split
      exact ⟨isKey, _, .dollar, by simp⟩
    · obtain ⟨isKey, rfl⟩ := bracedKey?_eq_some_iff.mp split
      exact ⟨isKey, _, .plain, by simp⟩
  · rintro ⟨isKey, written, writes, rfl⟩
    have ofBraces : bracedKey? ('{' :: (key ++ '}' :: rest)) = some (key, rest) :=
      bracedKey?_eq_some_iff.mpr ⟨isKey, rfl⟩
    cases writes with
    | plain => simpa [placeholder?] using ofBraces
    | dollar => simpa [placeholder?] using ofBraces

theorem placeholder?_eq_none_iff
    {text : List Char} :
    placeholder? text = none ↔
      ∀ key written left, IsKey key → Writes key written → text ≠ written ++ left := by
  rw [Option.eq_none_iff_forall_ne_some]
  constructor
  · intro never key written left isKey writes isWritten
    exact never (key, left) (placeholder?_eq_some_iff.mpr ⟨isKey, written, writes, isWritten⟩)
  · rintro never ⟨key, left⟩ found
    obtain ⟨isKey, written, writes, isWritten⟩ := placeholder?_eq_some_iff.mp found
    exact never key written left isKey writes isWritten

theorem splits_piecesFrom
    {fuel : Nat}
    {text : List Char}
    (enough : text.length ≤ fuel) :
    Splits text (piecesFrom fuel text) := by
  induction fuel generalizing text with
  | zero =>
      cases List.length_eq_zero_iff.mp (Nat.le_zero.mp enough)
      exact .nil
  | succ fuel induction =>
      cases text with
      | nil => exact .nil
      | cons character text =>
          rw [piecesFrom]
          cases found : placeholder? (character :: text) with
          | none =>
              exact .literal (placeholder?_eq_none_iff.mp found)
                (induction (Nat.le_of_succ_le_succ enough))
          | some split =>
              obtain ⟨key, rest⟩ := split
              obtain ⟨isKey, written, writes, isWritten⟩ := placeholder?_eq_some_iff.mp found
              have shorter : rest.length ≤ fuel := by
                have nonempty : 0 < written.length := by cases writes <;> simp
                rw [isWritten, List.length_append] at enough
                omega
              rw [isWritten]
              exact .placeholder isKey writes (induction shorter)

/-- The pieces of a template split it. -/
theorem splits_pieces
    (template : List Char) :
    Splits template (pieces template) :=
  splits_piecesFrom (Nat.le_refl _)

/-- There is one way to split a text. -/
theorem Splits.unique
    {text : List Char}
    {pieces others : List Piece}
    (splits : Splits text pieces)
    (alsoSplits : Splits text others) :
    pieces = others := by
  induction splits generalizing others with
  | nil =>
      generalize isEmpty : ([] : List Char) = text at alsoSplits
      cases alsoSplits with
      | nil => rfl
      | placeholder _ writes => cases writes <;> simp at isEmpty
      | literal => simp at isEmpty
  | @placeholder key written text _ isKey writes _ induction =>
      generalize isWritten : written ++ text = whole at alsoSplits
      cases alsoSplits with
      | nil => cases writes <;> simp at isWritten
      | literal noPlaceholder => exact (noPlaceholder _ _ _ isKey writes isWritten.symm).elim
      | @placeholder otherKey _ otherText _ isOtherKey writesOther rest =>
          have found : placeholder? (written ++ text) = some (key, text) :=
            placeholder?_eq_some_iff.mpr ⟨isKey, written, writes, rfl⟩
          have alsoFound := placeholder?_eq_some_iff.mpr ⟨isOtherKey, _, writesOther, isWritten⟩
          cases found.symm.trans alsoFound
          rw [induction rest]
  | @literal character text _ noPlaceholder _ induction =>
      generalize isWritten : character :: text = whole at alsoSplits
      cases alsoSplits with
      | nil => cases isWritten
      | placeholder isKey writes => exact (noPlaceholder _ _ _ isKey writes isWritten).elim
      | literal _ rest =>
          cases isWritten
          rw [induction rest]

/-! ## Filling pieces in -/

/-- A scalar and its text: a string stands for itself, any other scalar as it is in JSON. -/
inductive HasText : Json.Value → String → Prop where
  | string (text : String) : HasText (.string text) text
  | number (number : Json.Number) : HasText (.number number) (String.ofList number.text)
  | yes : HasText (.bool true) "true"
  | no : HasText (.bool false) "false"
  | null : HasText .null "null"

/-- What a piece becomes: a literal stays, a placeholder is replaced by the text of a member. -/
inductive Fills (members : List (String × Json.Value)) : Piece → List Char → Prop where
  | literal (character : Char) : Fills members (.literal character) [character]
  | placeholder
      {key : List Char}
      {value : Json.Value}
      {text : String}
      (isMember : Json.Members.find? members (String.ofList key) = some value)
      (hasText : HasText value text) :
      Fills members (.placeholder key) text.toList

/-- Something can be put in for a piece. -/
def IsFillable (members : List (String × Json.Value)) (piece : Piece) : Prop :=
  ∃ text, Fills members piece text

theorem hasText_iff
    {value : Json.Value}
    {text : String} :
    HasText value text ↔ value.scalarText? = some text := by
  constructor
  · intro hasText
    cases hasText <;> rfl
  · intro isText
    cases value with
    | null =>
        cases isText
        exact .null
    | bool value =>
        cases value with
        | true =>
            cases isText
            exact .yes
        | false =>
            cases isText
            exact .no
    | number number =>
        cases isText
        exact .number number
    | string value =>
        cases isText
        exact .string text
    | array elements => cases isText
    | object members => cases isText

section

variable
    {members : List (String × Json.Value)}
    {pieces : List Piece}

theorem fill_cons_of_fills
    {piece : Piece}
    {text : List Char}
    (fills : Fills members piece text)
    (pieces : List Piece) :
    fill members (piece :: pieces) = fill members pieces >>= fun rest => .ok (text ++ rest) := by
  cases fills with
  | literal character => rfl
  | placeholder isMember hasText =>
      simp only [fill, isMember, Option.bind_some, hasText_iff.mp hasText]
      rfl

/-- A piece that cannot be filled in is a placeholder, and its key is the error. -/
theorem fill_cons_of_not_isFillable
    {piece : Piece}
    (notFillable : ¬ IsFillable members piece)
    (pieces : List Piece) :
    ∃ key, piece = .placeholder key ∧
      fill members (piece :: pieces) = .error (String.ofList key) := by
  cases piece with
  | literal character => exact (notFillable ⟨_, .literal character⟩).elim
  | placeholder key =>
      refine ⟨key, rfl, ?_⟩
      have noText : (Json.Members.find? members (String.ofList key)).bind (·.scalarText?) = none := by
        rw [Option.eq_none_iff_forall_ne_some]
        intro text isText
        obtain ⟨value, isMember, isText⟩ := Option.bind_eq_some_iff.mp isText
        exact notFillable ⟨_, .placeholder isMember (hasText_iff.mpr isText)⟩
      simp only [fill, noText]

theorem Fills.unique
    {piece : Piece}
    {text other : List Char}
    (fills : Fills members piece text)
    (alsoFills : Fills members piece other) :
    text = other := by
  cases fills with
  | literal =>
      cases alsoFills
      rfl
  | placeholder isMember hasText =>
      cases alsoFills with
      | placeholder alsoMember alsoHasText =>
          cases isMember.symm.trans alsoMember
          cases (hasText_iff.mp hasText).symm.trans (hasText_iff.mp alsoHasText)
          rfl

theorem isFillable_of_forall₂
    {texts : List (List Char)}
    (fillAll : List.Forall₂ (Fills members) pieces texts) :
    ∀ piece ∈ pieces, IsFillable members piece := by
  induction fillAll with
  | nil => exact List.forall_mem_nil _
  | cons fills _ induction => exact List.forall_mem_cons.mpr ⟨⟨_, fills⟩, induction⟩

/-- The result is what the pieces become, one behind the other. -/
theorem fill_eq_ok_iff
    {characters : List Char} :
    fill members pieces = .ok characters ↔
      ∃ texts, List.Forall₂ (Fills members) pieces texts ∧ characters = texts.flatten := by
  induction pieces generalizing characters with
  | nil => simp [fill, eq_comm]
  | cons piece pieces induction =>
      by_cases isFillable : IsFillable members piece
      · obtain ⟨text, fills⟩ := isFillable
        rw [fill_cons_of_fills fills, bind_eq_ok]
        constructor
        · rintro ⟨rest, isRest, result⟩
          cases result
          obtain ⟨texts, fillRest, rfl⟩ := induction.mp isRest
          exact ⟨text :: texts, .cons fills fillRest, rfl⟩
        · rintro ⟨_, fillAll, rfl⟩
          cases fillAll with
          | cons alsoFills fillRest =>
              cases fills.unique alsoFills
              exact ⟨_, induction.mpr ⟨_, fillRest, rfl⟩, rfl⟩
      · obtain ⟨key, rfl, isError⟩ := fill_cons_of_not_isFillable isFillable pieces
        rw [isError]
        constructor
        · rintro ⟨⟩
        · rintro ⟨_, fillAll, _⟩
          cases fillAll with
          | cons fills _ => exact (isFillable ⟨_, fills⟩).elim

/-- The error is the key of the first piece that cannot be filled in. -/
theorem fill_eq_error_iff
    {name : String} :
    fill members pieces = .error name ↔
      ∃ before after, pieces = before ++ .placeholder name.toList :: after ∧
        (∀ piece ∈ before, IsFillable members piece) ∧
          ¬ IsFillable members (.placeholder name.toList) := by
  induction pieces with
  | nil => simp [fill]
  | cons piece pieces induction =>
      by_cases isFillable : IsFillable members piece
      · obtain ⟨text, fills⟩ := isFillable
        rw [fill_cons_of_fills fills]
        have passesOn : (fill members pieces >>= fun rest => .ok (text ++ rest)) = .error name ↔
            fill members pieces = .error name := by
          cases fill members pieces with
          | ok rest => simp [bind, Except.bind]
          | error other => simp [bind, Except.bind]
        rw [passesOn, induction]
        constructor
        · rintro ⟨before, after, rfl, fillable, notFillable⟩
          exact ⟨piece :: before, after, rfl, List.forall_mem_cons.mpr ⟨⟨text, fills⟩, fillable⟩,
            notFillable⟩
        · rintro ⟨before, after, split, fillable, notFillable⟩
          cases before with
          | nil =>
              cases split
              exact (notFillable ⟨text, fills⟩).elim
          | cons first before =>
              cases split
              exact ⟨before, after, rfl, (List.forall_mem_cons.mp fillable).2, notFillable⟩
      · obtain ⟨key, rfl, isError⟩ := fill_cons_of_not_isFillable isFillable pieces
        rw [isError, Except.error.injEq]
        constructor
        · rintro rfl
          exact ⟨[], pieces, by simp, List.forall_mem_nil _, by simpa using isFillable⟩
        · rintro ⟨before, after, split, fillable, _⟩
          cases before with
          | nil =>
              cases split
              simp
          | cons first before =>
              cases split
              exact (isFillable (List.forall_mem_cons.mp fillable).1).elim

theorem expand_eq_ok_iff
    {template text : String} :
    expand template members = .ok text ↔
      ∃ texts, List.Forall₂ (Fills members) (Template.pieces template.toList) texts ∧
        text = String.ofList texts.flatten := by
  rw [expand, bind_eq_ok]
  constructor
  · rintro ⟨characters, filled, result⟩
    cases result
    obtain ⟨texts, fillAll, rfl⟩ := fill_eq_ok_iff.mp filled
    exact ⟨texts, fillAll, rfl⟩
  · rintro ⟨texts, fillAll, rfl⟩
    exact ⟨_, fill_eq_ok_iff.mpr ⟨texts, fillAll, rfl⟩, rfl⟩

theorem expand_eq_error_iff
    {template name : String} :
    expand template members = .error name ↔
      fill members (Template.pieces template.toList) = .error name := by
  rw [expand]
  cases fill members (Template.pieces template.toList) with
  | ok characters => simp [bind, Except.bind, pure, Except.pure]
  | error other => simp [bind, Except.bind]

/-- Something is put in for all pieces if and only if every placeholder names a scalar. -/
theorem exists_fills_iff :
    (∃ texts, List.Forall₂ (Fills members) pieces texts) ↔
      ∀ key, .placeholder key ∈ pieces →
        ∃ value text, Json.Members.find? members (String.ofList key) = some value ∧
          HasText value text := by
  induction pieces with
  | nil => exact ⟨fun _ _ isPiece => (nomatch isPiece), fun _ => ⟨[], .nil⟩⟩
  | cons piece pieces induction =>
      constructor
      · rintro ⟨_, fillAll⟩ key isPiece
        cases fillAll with
        | cons fills fillRest =>
            rcases List.mem_cons.mp isPiece with rfl | isLater
            · cases fills with
              | placeholder isMember hasText => exact ⟨_, _, isMember, hasText⟩
            · exact induction.mp ⟨_, fillRest⟩ key isLater
      · intro scalars
        obtain ⟨texts, fillRest⟩ := induction.mpr
          fun key isPiece => scalars key (List.mem_cons_of_mem piece isPiece)
        cases piece with
        | literal character => exact ⟨_, .cons (.literal character) fillRest⟩
        | placeholder key =>
            obtain ⟨value, text, isMember, hasText⟩ := scalars key List.mem_cons_self
            exact ⟨_, .cons (.placeholder isMember hasText) fillRest⟩

/-- Literal pieces are the text that they split. -/
theorem Splits.fills_of_literal
    {text : List Char}
    (splits : Splits text pieces)
    (literal : ∀ key, .placeholder key ∉ pieces) :
    ∃ texts, List.Forall₂ (Fills members) pieces texts ∧ texts.flatten = text := by
  induction splits with
  | nil => exact ⟨[], .nil, rfl⟩
  | placeholder => exact (literal _ List.mem_cons_self).elim
  | @literal character _ _ _ _ induction =>
      obtain ⟨texts, fillRest, rfl⟩ := induction
        fun key isPiece => literal key (List.mem_cons_of_mem _ isPiece)
      exact ⟨[character] :: texts, .cons (.literal character) fillRest, rfl⟩

end

/-! ## Expansion -/

/--
A template has one split into literal characters and placeholders.  It is
expanded if and only if every placeholder names a scalar member; the result is
then made of its pieces in their order, a literal character as it is and a
placeholder as the text of its scalar.  Otherwise the error is the key of the
first placeholder that names none.  Without placeholders nothing changes.
-/
theorem expand_fills_split
    (template : String)
    (members : List (String × Json.Value)) :
    (∃! pieces, Splits template.toList pieces) ∧
      ∀ pieces, Splits template.toList pieces →
        ((∃ text, expand template members = .ok text) ↔
          ∀ key, .placeholder key ∈ pieces →
            ∃ value text, Json.Members.find? members (String.ofList key) = some value ∧
              HasText value text) ∧
        (∀ text, expand template members = .ok text ↔
          ∃ texts, List.Forall₂ (Fills members) pieces texts ∧
            text = String.ofList texts.flatten) ∧
        (∀ key, expand template members = .error key ↔
          ∃ before after, pieces = before ++ .placeholder key.toList :: after ∧
            (∀ piece ∈ before, IsFillable members piece) ∧
              ¬ IsFillable members (.placeholder key.toList)) ∧
        ((∀ key, .placeholder key ∉ pieces) → expand template members = .ok template) := by
  have splits := splits_pieces template.toList
  refine ⟨⟨_, splits, fun _ alsoSplits => alsoSplits.unique splits⟩, ?_⟩
  intro pieces alsoSplits
  cases alsoSplits.unique splits
  refine ⟨?_, fun text => expand_eq_ok_iff, fun key => ?_, fun literal => ?_⟩
  · rw [← exists_fills_iff]
    constructor
    · rintro ⟨text, expands⟩
      obtain ⟨texts, fillAll, _⟩ := expand_eq_ok_iff.mp expands
      exact ⟨texts, fillAll⟩
    · rintro ⟨texts, fillAll⟩
      exact ⟨_, expand_eq_ok_iff.mpr ⟨texts, fillAll, rfl⟩⟩
  · rw [expand_eq_error_iff, fill_eq_error_iff]
  · obtain ⟨texts, fillAll, isTemplate⟩ := splits.fills_of_literal literal
    exact expand_eq_ok_iff.mpr ⟨texts, fillAll, by rw [isTemplate, String.ofList_toList]⟩

/-- Braces that enclose no key, or another brace, are literal; a key may hold anything else. -/
example :
    pieces ['$', '{', '}', '{', 'a', '{', 'b', '.', 'c', '}', '}', '$'] =
      [.literal '$', .literal '{', .literal '}', .literal '{', .literal 'a',
        .placeholder ['b', '.', 'c'], .literal '}', .literal '$'] := by
  decide

namespace Crowded

/-- Two placeholders among dollar signs and braces that belong to none. -/
def template : String := "$$\x7bid\x7d/\x7b\x7d\x7ba\x7bb c\x7d$"

/-- The members of a node, one of which holds what looks like a placeholder. -/
def members : List (String × Json.Value) :=
  [("id", .string "\x7bid\x7d"), ("b c", .null)]

/-- The pieces of the template in front of its second placeholder. -/
def before : List Piece :=
  [.literal '$', .placeholder ['i', 'd'], .literal '/', .literal '{', .literal '}', .literal '{',
    .literal 'a']

/-- What these pieces become. -/
def texts : List (List Char) :=
  [['$'], "\x7bid\x7d".toList, ['/'], ['{'], ['}'], ['{'], ['a']]

theorem splits :
    Splits template.toList (before ++ [.placeholder "b c".toList, .literal '$']) :=
  splits_pieces template.toList

theorem fillBefore
    (value : Json.Value) :
    List.Forall₂ (Fills [("id", .string "\x7bid\x7d"), ("b c", value)]) before texts :=
  .cons (.literal '$') (.cons (.placeholder rfl (.string "\x7bid\x7d")) (.cons (.literal '/')
    (.cons (.literal '{') (.cons (.literal '}') (.cons (.literal '{')
      (.cons (.literal 'a') .nil))))))

/-- What is put in is not replaced again; an array is no scalar; stray braces stay. -/
theorem only_placeholders_are_replaced :
    expand template members = .ok "$\x7bid\x7d/\x7b\x7d\x7banull$" ∧
      expand template [("id", .string "\x7bid\x7d"), ("b c", .array [])] = .error "b c" ∧
      expand "\x7b\x7d$\x7b\x7be" members = .ok "\x7b\x7d$\x7b\x7be" := by
  refine ⟨?_, ?_, ?_⟩
  · have fillAll : List.Forall₂ (Fills members)
        (before ++ [.placeholder "b c".toList, .literal '$'])
        (texts ++ ["null".toList, ['$']]) :=
      List.rel_append (fillBefore .null) (.cons (.placeholder rfl .null) (.cons (.literal '$') .nil))
    exact (((expand_fills_split template members).2 _ splits).2.1 _).mpr ⟨_, fillAll, by decide⟩
  · refine (((expand_fills_split template _).2 _ splits).2.2.1 "b c").mpr
      ⟨before, [.literal '$'], rfl, ?_, ?_⟩
    · exact isFillable_of_forall₂ (fillBefore (.array []))
    · rintro ⟨text, fills⟩
      cases fills with
      | placeholder isMember hasText =>
          cases isMember
          cases hasText
  · have isLiteral : Splits "\x7b\x7d$\x7b\x7be".toList
        [.literal '{', .literal '}', .literal '$', .literal '{', .literal '{', .literal 'e'] :=
      splits_pieces _
    exact ((expand_fills_split _ members).2 _ isLiteral).2.2.2 (by simp)

end Crowded

end QueryGateway.Projection.Template
