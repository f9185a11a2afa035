import QueryGateway.Proofs.Json.Reading

/-!
# A text has one tree

What a JSON text says is determined: no text spells two trees.  The first
character tells the kind of a value, and a value ends where its text ends,
whatever comes behind it.
-/

namespace QueryGateway.Json

open Json.Parser

/-! ## Blanks and marks -/

/-- Behind blanks, texts that do not start with a blank are the same if the whole texts are. -/
theorem blanks_cancel
    {blanks others text otherText : List Char}
    (blank : IsBlank blanks)
    (otherBlank : IsBlank others)
    (stops : StopsAt isBlank text)
    (otherStops : StopsAt isBlank otherText)
    (same : blanks ++ text = others ++ otherText) :
    text = otherText := by
  rw [← skipBlanks_append blank stops, same, skipBlanks_append otherBlank otherStops]

/-- The mark behind blanks is determined, and so is what follows it. -/
theorem mark_cancel
    {blanks others rest otherRest : List Char}
    {mark otherMark : Char}
    (blank : IsBlank blanks)
    (otherBlank : IsBlank others)
    (isMark : isBlank mark = false)
    (isOtherMark : isBlank otherMark = false)
    (same : blanks ++ mark :: rest = others ++ otherMark :: otherRest) :
    mark = otherMark ∧ rest = otherRest :=
  List.cons.inj (blanks_cancel blank otherBlank (stopsAt_cons isMark rest)
    (stopsAt_cons isOtherMark otherRest) same)

/-! ## Strings -/

theorem SpellsString.unique
    {value other : String}
    {text otherText rest otherRest : List Char}
    (spelled : SpellsString value text)
    (otherSpelled : SpellsString other otherText)
    (same : text ++ rest = otherText ++ otherRest) :
    value = other ∧ rest = otherRest := by
  rcases spelled with ⟨characters⟩
  rcases otherSpelled with ⟨otherCharacters⟩
  simp only [List.cons_append, List.append_assoc, List.nil_append] at same
  have isRead := stringRest_of_spells characters rest
  rw [(List.cons.inj same).2, stringRest_of_spells otherCharacters otherRest] at isRead
  simp only [Option.some.injEq, Prod.mk.injEq] at isRead
  exact ⟨(String.toList_inj.mp isRead.1).symm, isRead.2.symm⟩

/-! ## Numerals -/

/-- Runs of characters of a kind are the same if what stops them is in the same text. -/
theorem runs_cancel
    {kind : Char → Bool}
    {run otherRun rest otherRest : List Char}
    (all : run.all kind = true)
    (otherAll : otherRun.all kind = true)
    (stops : StopsAt kind rest)
    (otherStops : StopsAt kind otherRest)
    (same : run ++ rest = otherRun ++ otherRest) :
    run = otherRun ∧ rest = otherRest := by
  rcases takeWhile_append_of_stopsAt (List.all_eq_true.mp all) stops with ⟨taken, left⟩
  rcases takeWhile_append_of_stopsAt (List.all_eq_true.mp otherAll) otherStops with
    ⟨otherTaken, otherLeft⟩
  rw [same] at taken left
  exact ⟨taken.symm.trans otherTaken, left.symm.trans otherLeft⟩

theorem Exponent.unique
    {exponent other : Exponent}
    {rest otherRest : List Char}
    (isProper : exponent.IsProper)
    (isOtherProper : other.IsProper)
    (stops : StopsAt Char.isDigit rest)
    (otherStops : StopsAt Char.isDigit otherRest)
    (same : exponent.text ++ rest = other.text ++ otherRest) :
    exponent = other ∧ rest = otherRest := by
  rcases exponent with ⟨letter, sign, digits⟩
  rcases other with ⟨otherLetter, otherSign, otherDigits⟩
  rcases isProper with ⟨_, isSign, nonempty, areDigits⟩
  rcases isOtherProper with ⟨_, isOtherSign, otherNonempty, areOtherDigits⟩
  rcases List.exists_cons_of_ne_nil nonempty with ⟨first, more, rfl⟩
  rcases List.exists_cons_of_ne_nil otherNonempty with ⟨otherFirst, otherMore, rfl⟩
  have isDigit := List.all_eq_true.mp areDigits first List.mem_cons_self
  have isOtherDigit := List.all_eq_true.mp areOtherDigits otherFirst List.mem_cons_self
  simp only [Exponent.text, List.cons_append, List.append_assoc] at same
  rcases List.cons.inj same with ⟨rfl, behindLetter⟩
  have signed := exponentSign_append isSign isDigit (more ++ rest)
  rw [behindLetter, exponentSign_append isOtherSign isOtherDigit] at signed
  simp only [Prod.mk.injEq] at signed
  rcases signed with ⟨rfl, behindSign⟩
  simp only [← List.cons_append] at behindSign
  rcases runs_cancel areDigits areOtherDigits stops otherStops behindSign.symm with ⟨digits, left⟩
  exact ⟨congrArg (Exponent.mk letter otherSign) digits, left⟩

theorem stopsAt_point
    {rest : List Char}
    (stops : StopsAt goesOnNumber rest) :
    StopsAt (· == '.') rest := by
  intro character first
  have notOn := stops character first
  simp only [goesOnNumber, Bool.or_eq_false_iff] at notOn
  exact notOn.1.1.2

theorem stopsAt_fractionText
    {numeral : Numeral}
    {rest : List Char}
    (stops : StopsAt Char.isDigit rest) :
    StopsAt Char.isDigit (numeral.fractionText ++ rest) := by
  rw [Numeral.fractionText]
  split
  case isTrue => exact stops
  case isFalse => exact stopsAt_cons rfl _

section

variable
    {numeral other : Numeral}
    (isProper : numeral.IsProper)
    (isOtherProper : other.IsProper)
    {rest otherRest : List Char}
    (stops : StopsAt goesOnNumber rest)
    (otherStops : StopsAt goesOnNumber otherRest)

include isProper isOtherProper stops otherStops

theorem exponentText_cancel
    (same : numeral.exponentText ++ rest = other.exponentText ++ otherRest) :
    numeral.exponent = other.exponent ∧ rest = otherRest := by
  -- What stops a number does not start with the letter of an exponent.
  have notLetter : ∀ {exponent : Exponent}, exponent.IsProper → ∀ {before behind : List Char},
      StopsAt goesOnNumber before → exponent.text ++ behind ≠ before := by
    rintro exponent isProper before behind stops rfl
    have notOn := stops exponent.letter rfl
    rcases isProper.letter with isLetter | isLetter
    · rw [isLetter] at notOn
      cases notOn
    · rw [isLetter] at notOn
      cases notOn
  simp only [Numeral.exponentText] at same
  cases written : numeral.exponent with
  | none =>
      cases otherWritten : other.exponent with
      | none =>
          rw [written, otherWritten] at same
          exact ⟨rfl, same⟩
      | some exponent =>
          rw [written, otherWritten] at same
          exact absurd same.symm (notLetter (isOtherProper.exponent exponent otherWritten) stops)
  | some exponent =>
      cases otherWritten : other.exponent with
      | none =>
          rw [written, otherWritten] at same
          exact absurd same (notLetter (isProper.exponent exponent written) otherStops)
      | some otherExponent =>
          rw [written, otherWritten] at same
          rcases Exponent.unique (isProper.exponent exponent written)
            (isOtherProper.exponent otherExponent otherWritten) (stopsAt_digit stops)
            (stopsAt_digit otherStops) same with ⟨rfl, left⟩
          exact ⟨rfl, left⟩

theorem fractionText_cancel
    (same : numeral.fractionText ++ (numeral.exponentText ++ rest) =
      other.fractionText ++ (other.exponentText ++ otherRest)) :
    numeral.decimals = other.decimals ∧
      numeral.exponentText ++ rest = other.exponentText ++ otherRest := by
  have noPoint := stopsAt_exponentText isProper rfl rfl (stopsAt_point stops)
  have otherNoPoint := stopsAt_exponentText isOtherProper rfl rfl (stopsAt_point otherStops)
  simp only [Numeral.fractionText] at same
  split at same
  case isTrue noDecimals =>
    split at same
    case isTrue otherNoDecimals => exact ⟨noDecimals.trans otherNoDecimals.symm, same⟩
    case isFalse =>
      rw [List.nil_append] at same
      have isPoint := noPoint '.' (by rw [same]; rfl)
      cases isPoint
  case isFalse =>
    split at same
    case isTrue =>
      rw [List.nil_append] at same
      have isPoint := otherNoPoint '.' (by rw [← same]; rfl)
      cases isPoint
    case isFalse =>
      exact runs_cancel isProper.decimals isOtherProper.decimals
        (stopsAt_exponentText isProper rfl rfl (stopsAt_digit stops))
        (stopsAt_exponentText isOtherProper rfl rfl (stopsAt_digit otherStops))
        (List.cons.inj same).2

omit stops otherStops in
/-- A numeral is negative if its text starts with a minus sign. -/
theorem sign_cancel
    (same : numeral.text ++ rest = other.text ++ otherRest) :
    numeral.negative = other.negative ∧
      numeral.whole ++ (numeral.fractionText ++ (numeral.exponentText ++ rest)) =
        other.whole ++ (other.fractionText ++ (other.exponentText ++ otherRest)) := by
  rcases List.exists_cons_of_ne_nil isProper.nonempty with ⟨first, more, whole⟩
  rcases List.exists_cons_of_ne_nil isOtherProper.nonempty with
    ⟨otherFirst, otherMore, otherWhole⟩
  have isDigit := List.all_eq_true.mp isProper.whole first (by simp [whole])
  have isOtherDigit := List.all_eq_true.mp isOtherProper.whole otherFirst (by simp [otherWhole])
  simp only [Numeral.text, List.append_assoc] at same
  cases isNegative : numeral.negative with
  | true =>
      cases isOtherNegative : other.negative with
      | true =>
          rw [isNegative, isOtherNegative] at same
          exact ⟨rfl, (List.cons.inj same).2⟩
      | false =>
          rw [isNegative, isOtherNegative, otherWhole] at same
          cases (List.cons.inj same).1
          cases isOtherDigit
  | false =>
      cases isOtherNegative : other.negative with
      | true =>
          rw [isNegative, isOtherNegative, whole] at same
          cases (List.cons.inj same).1
          cases isDigit
      | false =>
          rw [isNegative, isOtherNegative] at same
          exact ⟨rfl, same⟩

/-- A numeral is determined by its text, whatever ends it. -/
theorem Numeral.unique
    (same : numeral.text ++ rest = other.text ++ otherRest) :
    numeral = other ∧ rest = otherRest := by
  rcases sign_cancel isProper isOtherProper same with ⟨negative, behindSign⟩
  rcases runs_cancel isProper.whole isOtherProper.whole
    (stopsAt_fractionText (stopsAt_exponentText isProper rfl rfl (stopsAt_digit stops)))
    (stopsAt_fractionText (stopsAt_exponentText isOtherProper rfl rfl (stopsAt_digit otherStops)))
    behindSign with ⟨whole, behindWhole⟩
  rcases fractionText_cancel isProper isOtherProper stops otherStops behindWhole with
    ⟨decimals, behindFraction⟩
  rcases exponentText_cancel isProper isOtherProper stops otherStops behindFraction with
    ⟨exponent, left⟩
  rcases numeral with ⟨_, _, _, _⟩
  rcases other with ⟨_, _, _, _⟩
  cases negative
  cases whole
  cases decimals
  cases exponent
  exact ⟨rfl, left⟩

end

/-! ## Kinds of values -/

/-- The kinds of values that are told apart by their first character. -/
inductive Kind where
  | null
  | bool (value : Bool)
  | number
  | string
  | array
  | object

def Tree.kind : Tree → Kind
  | .null => .null
  | .bool value => .bool value
  | .number _ => .number
  | .string _ => .string
  | .array _ => .array
  | .object _ => .object

/-- The kind of a value that starts with a character. -/
def kindOf (first : Char) : Kind :=
  if first = 'n' then .null
  else if first = 't' then .bool true
  else if first = 'f' then .bool false
  else if first = '"' then .string
  else if first = '[' then .array
  else if first = '\x7b' then .object
  else .number

theorem kindOf_of_isDigit
    {first : Char}
    (isDigit : first.isDigit = true) :
    kindOf first = .number := by
  have differs : ∀ {other : Char}, other.isDigit = false → first ≠ other := by
    rintro other notDigit rfl
    rw [isDigit] at notDigit
    cases notDigit
  simp [kindOf, @differs 'n' rfl, @differs 't' rfl, @differs 'f' rfl, @differs '"' rfl,
    @differs '[' rfl, @differs '\x7b' rfl]

theorem Spells.exists_kind
    {depth : Nat}
    {tree : Tree}
    {text : List Char}
    (spelled : Spells depth tree text) :
    ∃ first others, text = first :: others ∧ kindOf first = tree.kind := by
  cases spelled with
  | number _ isProper =>
      rcases Numeral.exists_first isProper with ⟨first, others, same, isFirst⟩
      refine ⟨first, others, same, ?_⟩
      rcases isFirst with rfl | isDigit
      · rfl
      · exact kindOf_of_isDigit isDigit
  | string _ spelled =>
      cases spelled
      exact ⟨_, _, rfl, rfl⟩
  | null => exact ⟨_, _, rfl, rfl⟩
  | bool _ value => cases value <;> exact ⟨_, _, rfl, rfl⟩
  | emptyArray => exact ⟨_, _, rfl, rfl⟩
  | array => exact ⟨_, _, rfl, rfl⟩
  | emptyObject => exact ⟨_, _, rfl, rfl⟩
  | object => exact ⟨_, _, rfl, rfl⟩

/-- Values that start the same text are of one kind. -/
theorem Spells.kind_eq
    {depth otherDepth : Nat}
    {tree other : Tree}
    {text otherText rest otherRest : List Char}
    (spelled : Spells depth tree text)
    (otherSpelled : Spells otherDepth other otherText)
    (same : text ++ rest = otherText ++ otherRest) :
    tree.kind = other.kind := by
  rcases spelled.exists_kind with ⟨first, others, rfl, isKind⟩
  rcases otherSpelled.exists_kind with ⟨otherFirst, _, rfl, isOtherKind⟩
  cases (List.cons.inj same).1
  exact isKind.symm.trans isOtherKind

/-! ## Containers -/

/-- What is in an array does not start like the end of an empty one. -/
theorem SpellsElements.ne_ended
    {depth : Nat}
    {elements : List Tree}
    {text blanks : List Char}
    (spelled : SpellsElements depth elements text)
    (blank : IsBlank blanks)
    (rest otherRest : List Char) :
    text ++ rest ≠ blanks ++ ']' :: otherRest := by
  intro same
  apply spelled.not_ended rest
  rw [same, skipBlanks_append blank (stopsAt_cons rfl _)]
  rfl

theorem SpellsEntries.ne_ended
    {depth : Nat}
    {entries : List (String × Tree)}
    {text blanks : List Char}
    (spelled : SpellsEntries depth entries text)
    (blank : IsBlank blanks)
    (rest otherRest : List Char) :
    text ++ rest ≠ blanks ++ '\x7d' :: otherRest := by
  intro same
  apply spelled.not_ended rest
  rw [same, skipBlanks_append blank (stopsAt_cons rfl _)]
  rfl

/-- Does the character end a value in a container? -/
def IsMark (mark : Char) : Prop :=
  isBlank mark = false ∧ goesOnNumber mark = false

section

variable
    {depth otherDepth : Nat}
    {tree other : Tree}
    {before text behind rest otherBefore otherText otherBehind otherRest : List Char}
    {mark otherMark : Char}
    (spelled : Spells depth tree text)
    (otherSpelled : Spells otherDepth other otherText)
    (isUnique : ∀ {rest otherRest : List Char}, StopsAt goesOnNumber rest →
      StopsAt goesOnNumber otherRest → text ++ rest = otherText ++ otherRest →
        tree = other ∧ rest = otherRest)
    (isMark : IsMark mark)
    (isOtherMark : IsMark otherMark)
    (blankBefore : IsBlank before)
    (blankBehind : IsBlank behind)
    (blankOtherBefore : IsBlank otherBefore)
    (blankOtherBehind : IsBlank otherBehind)

include spelled otherSpelled isUnique isMark isOtherMark blankBefore blankBehind blankOtherBefore
  blankOtherBehind

/-- If a value is determined by its text, so are its element of an array and what ends it. -/
theorem element_cancel
    (same : before ++ (text ++ (behind ++ mark :: rest)) =
      otherBefore ++ (otherText ++ (otherBehind ++ otherMark :: otherRest))) :
    tree = other ∧ mark = otherMark ∧ rest = otherRest := by
  have behindBlanks := blanks_cancel blankBefore blankOtherBefore (spelled.stopsAt_blank _)
    (otherSpelled.stopsAt_blank _) same
  rcases isUnique (stopsAt_blanks_append blankBehind (stopsAt_cons isMark.2 rest))
    (stopsAt_blanks_append blankOtherBehind (stopsAt_cons isOtherMark.2 otherRest))
    behindBlanks with ⟨sameTree, behindTree⟩
  exact ⟨sameTree, mark_cancel blankBehind blankOtherBehind isMark.1 isOtherMark.1 behindTree⟩

theorem entry_cancel
    {key otherKey : String}
    {outset name gap otherOutset otherName otherGap : List Char}
    (named : SpellsString key name)
    (otherNamed : SpellsString otherKey otherName)
    (blankOutset : IsBlank outset)
    (blankGap : IsBlank gap)
    (blankOtherOutset : IsBlank otherOutset)
    (blankOtherGap : IsBlank otherGap)
    (same : outset ++ (name ++ (gap ++ ':' :: (before ++ (text ++ (behind ++ mark :: rest))))) =
      otherOutset ++ (otherName ++ (otherGap ++ ':' ::
        (otherBefore ++ (otherText ++ (otherBehind ++ otherMark :: otherRest)))))) :
    key = otherKey ∧ tree = other ∧ mark = otherMark ∧ rest = otherRest := by
  have behindBlanks := blanks_cancel blankOutset blankOtherOutset (named.stopsAt_blank _)
    (otherNamed.stopsAt_blank _) same
  rcases named.unique otherNamed behindBlanks with ⟨sameKey, behindName⟩
  have behindColon := (mark_cancel blankGap blankOtherGap rfl rfl behindName).2
  exact ⟨sameKey, element_cancel spelled otherSpelled isUnique isMark isOtherMark blankBefore
    blankBehind blankOtherBefore blankOtherBehind behindColon⟩

end

/-! ## Trees -/

mutual

/-- A tree is determined by its text, whatever stands behind it. -/
theorem Spells.unique
    {depth otherDepth : Nat}
    {tree other : Tree}
    {text otherText rest otherRest : List Char}
    (spelled : Spells depth tree text)
    (otherSpelled : Spells otherDepth other otherText)
    (stops : StopsAt goesOnNumber rest)
    (otherStops : StopsAt goesOnNumber otherRest)
    (same : text ++ rest = otherText ++ otherRest) :
    tree = other ∧ rest = otherRest := by
  have isKind := spelled.kind_eq otherSpelled same
  cases spelled with
  | null =>
      cases otherSpelled with
      | null => exact ⟨rfl, List.append_cancel_left same⟩
      | _ => cases isKind
  | bool _ value =>
      cases otherSpelled with
      | bool =>
          cases isKind
          exact ⟨rfl, List.append_cancel_left same⟩
      | _ => cases isKind
  | number _ isProper =>
      cases otherSpelled with
      | number _ isOtherProper =>
          rcases Numeral.unique isProper isOtherProper stops otherStops same with ⟨rfl, left⟩
          exact ⟨rfl, left⟩
      | _ => cases isKind
  | string _ named =>
      cases otherSpelled with
      | string _ otherNamed =>
          rcases named.unique otherNamed same with ⟨rfl, left⟩
          exact ⟨rfl, left⟩
      | _ => cases isKind
  | emptyArray _ blank =>
      cases otherSpelled with
      | emptyArray _ otherBlank =>
          simp only [List.cons_append, List.append_assoc, List.nil_append] at same
          exact ⟨rfl, (mark_cancel blank otherBlank rfl rfl (List.cons.inj same).2).2⟩
      | array otherElements =>
          simp only [List.cons_append, List.append_assoc, List.nil_append] at same
          exact absurd (List.cons.inj same).2.symm (otherElements.ne_ended blank _ _)
      | _ => cases isKind
  | array elements =>
      cases otherSpelled with
      | emptyArray _ otherBlank =>
          simp only [List.cons_append, List.append_assoc, List.nil_append] at same
          exact absurd (List.cons.inj same).2 (elements.ne_ended otherBlank _ _)
      | array otherElements =>
          rcases elements.unique otherElements (List.cons.inj same).2 with ⟨rfl, left⟩
          exact ⟨rfl, left⟩
      | _ => cases isKind
  | emptyObject _ blank =>
      cases otherSpelled with
      | emptyObject _ otherBlank =>
          simp only [List.cons_append, List.append_assoc, List.nil_append] at same
          exact ⟨rfl, (mark_cancel blank otherBlank rfl rfl (List.cons.inj same).2).2⟩
      | object otherEntries =>
          simp only [List.cons_append, List.append_assoc, List.nil_append] at same
          exact absurd (List.cons.inj same).2.symm (otherEntries.ne_ended blank _ _)
      | _ => cases isKind
  | object entries =>
      cases otherSpelled with
      | emptyObject _ otherBlank =>
          simp only [List.cons_append, List.append_assoc, List.nil_append] at same
          exact absurd (List.cons.inj same).2 (entries.ne_ended otherBlank _ _)
      | object otherEntries =>
          rcases entries.unique otherEntries (List.cons.inj same).2 with ⟨rfl, left⟩
          exact ⟨rfl, left⟩
      | _ => cases isKind

theorem SpellsElements.unique
    {depth otherDepth : Nat}
    {elements others : List Tree}
    {text otherText rest otherRest : List Char}
    (spelled : SpellsElements depth elements text)
    (otherSpelled : SpellsElements otherDepth others otherText)
    (same : text ++ rest = otherText ++ otherRest) :
    elements = others ∧ rest = otherRest := by
  cases spelled with
  | last blankBefore blankBehind spelled =>
      cases otherSpelled with
      | last blankOtherBefore blankOtherBehind otherSpelled =>
          simp only [List.append_assoc, List.cons_append, List.nil_append] at same
          rcases element_cancel spelled otherSpelled (spelled.unique otherSpelled) ⟨rfl, rfl⟩
            ⟨rfl, rfl⟩ blankBefore blankBehind blankOtherBefore blankOtherBehind same with
            ⟨rfl, _, left⟩
          exact ⟨rfl, left⟩
      | cons blankOtherBefore blankOtherBehind otherSpelled =>
          simp only [List.append_assoc, List.cons_append, List.nil_append] at same
          rcases element_cancel spelled otherSpelled (spelled.unique otherSpelled) ⟨rfl, rfl⟩
            ⟨rfl, rfl⟩ blankBefore blankBehind blankOtherBefore blankOtherBehind same with
            ⟨_, isMark, _⟩
          cases isMark
  | cons blankBefore blankBehind spelled more =>
      cases otherSpelled with
      | last blankOtherBefore blankOtherBehind otherSpelled =>
          simp only [List.append_assoc, List.cons_append, List.nil_append] at same
          rcases element_cancel spelled otherSpelled (spelled.unique otherSpelled) ⟨rfl, rfl⟩
            ⟨rfl, rfl⟩ blankBefore blankBehind blankOtherBefore blankOtherBehind same with
            ⟨_, isMark, _⟩
          cases isMark
      | cons blankOtherBefore blankOtherBehind otherSpelled otherMore =>
          simp only [List.append_assoc, List.cons_append] at same
          rcases element_cancel spelled otherSpelled (spelled.unique otherSpelled) ⟨rfl, rfl⟩
            ⟨rfl, rfl⟩ blankBefore blankBehind blankOtherBefore blankOtherBehind same with
            ⟨rfl, _, behind⟩
          rcases more.unique otherMore behind with ⟨rfl, left⟩
          exact ⟨rfl, left⟩

theorem SpellsEntries.unique
    {depth otherDepth : Nat}
    {entries others : List (String × Tree)}
    {text otherText rest otherRest : List Char}
    (spelled : SpellsEntries depth entries text)
    (otherSpelled : SpellsEntries otherDepth others otherText)
    (same : text ++ rest = otherText ++ otherRest) :
    entries = others ∧ rest = otherRest := by
  cases spelled with
  | last blankOutset blankGap blankBefore blankBehind named spelled =>
      cases otherSpelled with
      | last blankOtherOutset blankOtherGap blankOtherBefore blankOtherBehind otherNamed
          otherSpelled =>
          simp only [List.append_assoc, List.cons_append, List.nil_append] at same
          rcases entry_cancel spelled otherSpelled (spelled.unique otherSpelled) ⟨rfl, rfl⟩
            ⟨rfl, rfl⟩ blankBefore blankBehind blankOtherBefore blankOtherBehind named otherNamed
            blankOutset blankGap blankOtherOutset blankOtherGap same with ⟨rfl, rfl, _, left⟩
          exact ⟨rfl, left⟩
      | cons blankOtherOutset blankOtherGap blankOtherBefore blankOtherBehind otherNamed
          otherSpelled =>
          simp only [List.append_assoc, List.cons_append, List.nil_append] at same
          rcases entry_cancel spelled otherSpelled (spelled.unique otherSpelled) ⟨rfl, rfl⟩
            ⟨rfl, rfl⟩ blankBefore blankBehind blankOtherBefore blankOtherBehind named otherNamed
            blankOutset blankGap blankOtherOutset blankOtherGap same with ⟨_, _, isMark, _⟩
          cases isMark
  | cons blankOutset blankGap blankBefore blankBehind named spelled more =>
      cases otherSpelled with
      | last blankOtherOutset blankOtherGap blankOtherBefore blankOtherBehind otherNamed
          otherSpelled =>
          simp only [List.append_assoc, List.cons_append, List.nil_append] at same
          rcases entry_cancel spelled otherSpelled (spelled.unique otherSpelled) ⟨rfl, rfl⟩
            ⟨rfl, rfl⟩ blankBefore blankBehind blankOtherBefore blankOtherBehind named otherNamed
            blankOutset blankGap blankOtherOutset blankOtherGap same with ⟨_, _, isMark, _⟩
          cases isMark
      | cons blankOtherOutset blankOtherGap blankOtherBefore blankOtherBehind otherNamed
          otherSpelled otherMore =>
          simp only [List.append_assoc, List.cons_append] at same
          rcases entry_cancel spelled otherSpelled (spelled.unique otherSpelled) ⟨rfl, rfl⟩
            ⟨rfl, rfl⟩ blankBefore blankBehind blankOtherBefore blankOtherBehind named otherNamed
            blankOutset blankGap blankOtherOutset blankOtherGap same with ⟨rfl, rfl, _, behind⟩
          rcases more.unique otherMore behind with ⟨rfl, left⟩
          exact ⟨rfl, left⟩

end

theorem IsDocument.unique
    {tree other : Tree}
    {text : List Char}
    (isDocument : IsDocument tree text)
    (isOther : IsDocument other text) :
    tree = other := by
  rcases isDocument with ⟨before, bare, behind, rfl, blankBefore, blankBehind, spelled⟩
  rcases isOther with ⟨otherBefore, otherBare, otherBehind, same, blankOtherBefore,
    blankOtherBehind, otherSpelled⟩
  have bareText := blanks_cancel blankBefore blankOtherBefore (spelled.stopsAt_blank _)
    (otherSpelled.stopsAt_blank _) same
  have stops : ∀ {blanks : List Char}, IsBlank blanks → StopsAt goesOnNumber blanks := by
    intro blanks blank
    rw [← List.append_nil blanks]
    exact stopsAt_blanks_append blank (stopsAt_nil _)
  exact (spelled.unique otherSpelled (stops blankBehind) (stops blankOtherBehind) bareText).1

/-- Bytes have at most one tree. -/
theorem IsText.unique
    {tree other : Tree}
    {bytes : Bytes}
    (isText : IsText tree bytes)
    (isOther : IsText other bytes) :
    tree = other := by
  rcases isText with ⟨text, isEncoded, isDocument⟩
  rcases isOther with ⟨otherText, isOtherEncoded, isOtherDocument⟩
  have decoded := Utf8.decode?_eq_some_iff.mpr isEncoded
  rw [Utf8.decode?_eq_some_iff.mpr isOtherEncoded] at decoded
  cases decoded
  exact isDocument.unique isOtherDocument

end QueryGateway.Json
