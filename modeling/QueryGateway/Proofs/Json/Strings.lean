import QueryGateway.Json.Printer
import QueryGateway.Proofs.Json.Grammar

/-!
# Strings are read and written by the grammar

The reader of strings reads exactly the texts that the grammar allows, and the
printer writes one of them.
-/

namespace QueryGateway.Json

/-! ## Reading -/

theorem Parser.stringRest_of_spells
    {characters text : List Char}
    (spelled : SpellsCharacters characters text)
    (rest : List Char) :
    stringRest (text ++ '"' :: rest) = some (characters, rest) := by
  induction spelled with
  | nil => rfl
  | @plain character characters text notControl notQuote notBackslash _ induction =>
      rw [List.cons_append, stringRest.eq_def]
      split
      case h_1 isNil => cases isNil
      case h_2 isCons => exact absurd (List.cons.inj isCons).1 notQuote
      case h_3 isCons => exact absurd (List.cons.inj isCons).1 notBackslash
      case h_4 isCons => exact absurd (List.cons.inj isCons).1 notBackslash
      case h_5 isCons =>
        cases isCons
        have isPlain : ¬ (decide (character.toNat < 0x20) || character == '\\') = true := by
          simp [notControl, notBackslash]
        rw [if_neg isPlain, induction]
        rfl
  | @short letter character _ _ escape _ induction =>
      have notUnit : letter ≠ 'u' := by
        rintro rfl
        cases escape
      rw [List.cons_append, List.cons_append, stringRest.eq_def]
      split
      case h_1 isNil => cases isNil
      case h_2 isCons => cases isCons
      case h_3 isCons => exact absurd (List.cons.inj (List.cons.inj isCons).2).1 notUnit
      case h_4 isCons =>
        cases isCons
        simp only [escape, induction, Option.map_some]
      case h_5 noEscape isCons =>
        cases isCons
        exact absurd rfl (noEscape _ _ rfl)
  | unit escape notHigh notLow _ induction =>
      simp only [List.cons_append, stringRest, escape, notHigh, notLow, induction,
        Bool.false_eq_true, if_false, Option.map_some]
  | pair first second isHigh isLow _ induction =>
      simp only [List.cons_append, stringRest, first, second, isHigh, isLow, induction, if_true,
        Option.map_some]

/-- What is read in front of a string that is read. -/
theorem exists_of_prepended
    {read : Option (List Char × List Char)}
    {character : Char}
    {characters rest : List Char}
    (prepended :
      (read.map fun (text, rest) => (character :: text, rest)) = some (characters, rest)) :
    ∃ others, characters = character :: others ∧ read = some (others, rest) := by
  rcases Option.map_eq_some_iff.mp prepended with ⟨⟨others, behind⟩, isRead, same⟩
  cases same
  exact ⟨others, rfl, isRead⟩

theorem Parser.spells_of_stringRest
    {input characters rest : List Char}
    (read : stringRest input = some (characters, rest)) :
    ∃ text, input = text ++ '"' :: rest ∧ SpellsCharacters characters text := by
  fun_induction stringRest input generalizing characters rest with
  | case1 => cases read
  | case2 =>
      cases read
      exact ⟨[], rfl, .nil⟩
  | case3 => cases read
  | case4 => cases read
  | case5 _ _ _ _ _ first isHigh _ _ _ _ _ _ second isLow induction =>
      rcases exists_of_prepended read with ⟨others, rfl, readOthers⟩
      rcases induction readOthers with ⟨text, rfl, spelled⟩
      exact ⟨_, rfl, .pair first second isHigh isLow spelled⟩
  | case6 => cases read
  | case7 => cases read
  | case8 => cases read
  | case9 _ _ _ _ _ _ escape notHigh notLow induction =>
      rcases exists_of_prepended read with ⟨others, rfl, readOthers⟩
      rcases induction readOthers with ⟨text, rfl, spelled⟩
      exact ⟨_, rfl, .unit escape (by simpa using notHigh) (by simpa using notLow) spelled⟩
  | case10 => cases read
  | case11 _ _ _ _ escape induction =>
      rcases exists_of_prepended read with ⟨others, rfl, readOthers⟩
      rcases induction readOthers with ⟨text, rfl, spelled⟩
      exact ⟨_, rfl, .short escape spelled⟩
  | case12 => cases read
  | case13 character _ notQuote _ _ isPlain induction =>
      rcases exists_of_prepended read with ⟨others, rfl, readOthers⟩
      rcases induction readOthers with ⟨text, rfl, spelled⟩
      simp only [Bool.or_eq_true, decide_eq_true_eq, beq_iff_eq, not_or, not_lt] at isPlain
      exact ⟨_, rfl, .plain isPlain.1 notQuote isPlain.2 spelled⟩

/-! ## Writing -/

theorem hexValue?_hexDigit
    {value : Nat}
    (small : value < 16) :
    Digits.hexValue? (hexDigit value) = some value := by
  have all : ∀ value < 16, Digits.hexValue? (hexDigit value) = some value := by decide
  exact all value small

theorem spells_escapeChar
    {character : Char}
    {characters text : List Char}
    (spelled : SpellsCharacters characters text) :
    SpellsCharacters (character :: characters) (escapeChar character ++ text) := by
  unfold escapeChar
  split_ifs with isQuote isBackslash isBackspace isFeed isLine isReturn isTab isControl
  case pos =>
    subst isQuote
    exact .short rfl spelled
  case pos =>
    subst isBackslash
    exact .short rfl spelled
  case pos =>
    subst isBackspace
    exact .short rfl spelled
  case pos =>
    subst isFeed
    exact .short rfl spelled
  case pos =>
    subst isLine
    exact .short rfl spelled
  case pos =>
    subst isReturn
    exact .short rfl spelled
  case pos =>
    subst isTab
    exact .short rfl spelled
  case pos =>
    have zero : Digits.hexValue? '0' = some 0 := rfl
    have upper := hexValue?_hexDigit (show character.toNat / 16 < 16 by omega)
    have lower := hexValue?_hexDigit (show character.toNat % 16 < 16 by omega)
    have code : character.toNat / 16 * 16 + character.toNat % 16 = character.toNat := by
      omega
    have isUnit : Parser.hexUnit? '0' '0' (hexDigit (character.toNat / 16))
        (hexDigit (character.toNat % 16)) = some character.toNat := by
      simp [Parser.hexUnit?, zero, upper, lower, code]
    have notHigh : Parser.isHighSurrogate character.toNat = false := by
      simp [Parser.isHighSurrogate]
      omega
    have notLow : Parser.isLowSurrogate character.toNat = false := by
      simp [Parser.isLowSurrogate]
      omega
    have escaped := SpellsCharacters.unit isUnit notHigh notLow spelled
    rwa [Char.ofNat_toNat] at escaped
  case neg => exact .plain (Nat.not_lt.mp isControl) isQuote isBackslash spelled

/-- The printer writes strings by the grammar. -/
theorem spells_stringText
    (value : String) :
    SpellsString value (stringText value) := by
  have escaped : ∀ characters : List Char,
      SpellsCharacters characters (characters.flatMap escapeChar) := by
    intro characters
    induction characters with
    | nil => exact .nil
    | cons character characters induction => exact spells_escapeChar induction
  exact .quoted (escaped value.toList)

end QueryGateway.Json
