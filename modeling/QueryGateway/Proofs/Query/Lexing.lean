import QueryGateway.Proofs.Text.Runs
import QueryGateway.Query.Token

/-!
# Tokens that are written again

Every token of a text can be written with a blank behind it, and is then read
back, whatever follows.  Names, numbers and marks are written as they were; the
value of a string is written between quotes, with the characters escaped that
may not stand there.
-/

namespace QueryGateway.Query.Token

/-- A character as it stands between quotes. -/
def escaped (character : Char) : List Char :=
  match character with
  | '"' => ['\\', '"']
  | '\\' => ['\\', '\\']
  | '\n' => ['\\', 'n']
  | '\r' => ['\\', 'r']
  | other => [other]

/-- A token as it is written. -/
def characters : Token → List Char
  | .name text | .int text | .float text => text.toList
  | .string value => '"' :: (value.toList.flatMap escaped ++ ['"'])
  | .spread => ['.', '.', '.']
  | .comma => [',']
  | .mark character => [character]

/-- Tokens as they are written, each with a blank behind it. -/
def written (tokens : List Token) : List Char :=
  tokens.flatMap fun token => token.characters ++ [' ']

/-- A token that is read back from what is written. -/
def Readable (token : Token) : Prop :=
  ∃ first others, token.characters = first :: others ∧ isBlank first = false ∧ first ≠ '#' ∧
    ∀ rest, next? first (others ++ ' ' :: rest) = some (token, ' ' :: rest)

/-! ## Names, marks and strings -/

theorem stopsAt_blank
    {kind : Char → Bool}
    (notBlank : kind ' ' = false)
    (rest : List Char) :
    StopsAt kind (' ' :: rest) := by
  rintro _ ⟨⟩
  exact notBlank

theorem not_isNameStart_of_isBlank
    {character : Char}
    (blank : isBlank character = true) :
    isNameStart character = false := by
  simp only [isBlank, isLineEnd, Bool.or_eq_true, beq_iff_eq] at blank
  rcases blank with ((rfl | rfl) | (rfl | rfl)) | rfl <;> decide

theorem readable_name
    {first : Char}
    {others : List Char}
    (starts : isNameStart first = true)
    (continues : others.all isNamePart = true) :
    (Token.name (String.ofList (first :: others))).Readable := by
  have notBlank : isBlank first = false := by
    rw [Bool.eq_false_iff]
    intro blank
    cases starts.symm.trans (not_isNameStart_of_isBlank blank)
  have notHash : first ≠ '#' := by
    rintro rfl
    cases starts
  refine ⟨first, others, by simp [characters], notBlank, notHash, ?_⟩
  intro rest
  obtain ⟨taken, left⟩ :=
    takeWhile_append_of_stopsAt (List.all_eq_true.mp continues)
      (stopsAt_blank (by decide) rest)
  unfold next?
  rw [if_pos starts, taken, left]

theorem readable_mark
    {character : Char}
    (isMark : isMark character = true) :
    (Token.mark character).Readable := by
  have marksAreApart : ['!', '$', '&', '(', ')', ':', '=', '@', '[', ']', '{', '|', '}'].all
      (fun mark => !isBlank mark && mark != '#' && !isNameStart mark && mark != ',') = true := by
    decide
  have isApart := List.all_eq_true.mp marksAreApart character (List.contains_iff_mem.mp isMark)
  simp only [Bool.and_eq_true, Bool.not_eq_true', bne_iff_ne, ne_eq] at isApart
  obtain ⟨⟨⟨notBlank, notHash⟩, notName⟩, notComma⟩ := isApart
  refine ⟨character, [], rfl, notBlank, notHash, ?_⟩
  intro rest
  simp [next?, notName, notComma, isMark]

theorem readable_spread :
    Token.spread.Readable :=
  ⟨'.', ['.', '.'], rfl, by decide, by decide, fun _ => rfl⟩

theorem quotedRest_plain
    {character : Char}
    (notQuote : character ≠ '"')
    (notSlash : character ≠ '\\')
    (notEnd : isLineEnd character = false)
    (rest : List Char) :
    quotedRest (character :: rest) =
      (quotedRest rest).map fun (text, rest) => (character :: text, rest) := by
  have notRefused : (isLineEnd character || character == '\\') = false := by
    simp [notEnd, notSlash]
  rw [quotedRest]
  · rw [notRefused]
    rfl
  all_goals
    intros
    simp_all

theorem quotedRest_escaped
    (character : Char)
    (rest : List Char) :
    quotedRest (escaped character ++ rest) =
      (quotedRest rest).map fun (text, rest) => (character :: text, rest) := by
  unfold escaped
  split
  · simp [quotedRest, Json.Parser.shortEscape?]
  · simp [quotedRest, Json.Parser.shortEscape?]
  · simp [quotedRest, Json.Parser.shortEscape?]
  · simp [quotedRest, Json.Parser.shortEscape?]
  case _ notQuote notSlash notFeed notReturn =>
    refine quotedRest_plain notQuote notSlash ?_ rest
    simp [isLineEnd]
    exact ⟨notFeed, notReturn⟩

theorem quotedRest_written
    (text rest : List Char) :
    quotedRest (text.flatMap escaped ++ '"' :: rest) = some (text, rest) := by
  induction text with
  | nil => simp [quotedRest]
  | cons character text induction =>
      rw [List.flatMap_cons, List.append_assoc, quotedRest_escaped, induction]
      rfl

theorem escaped_eq_cons
    (character : Char) :
    ∃ first others, escaped character = first :: others ∧ first ≠ '"' := by
  unfold escaped
  split
  iterate 4 exact ⟨'\\', _, rfl, by decide⟩
  case _ notQuote _ _ _ => exact ⟨character, [], rfl, notQuote⟩

/-- A string that is written so does not look like a block string. -/
theorem written_ne_block
    (text rest others : List Char) :
    text.flatMap escaped ++ '"' :: ' ' :: rest ≠ '"' :: '"' :: others := by
  cases text with
  | nil => simp
  | cons character text =>
      obtain ⟨first, _, isEscaped, notQuote⟩ := escaped_eq_cons character
      simp [isEscaped, notQuote]

/-- Whatever it holds, a string can be written between quotes. -/
theorem readable_string
    (value : String) :
    (Token.string value).Readable := by
  refine ⟨'"', value.toList.flatMap escaped ++ ['"'], rfl, by decide, by decide, ?_⟩
  intro rest
  have quoted := quotedRest_written value.toList (' ' :: rest)
  rw [List.append_assoc, List.singleton_append]
  have isString : string? (value.toList.flatMap escaped ++ '"' :: ' ' :: rest) =
      some (.string value, ' ' :: rest) := by
    rw [string?]
    · rw [quoted]
      simp
    · exact written_ne_block value.toList rest
  simp [next?, isString, isNameStart, isMark]

/-! ## Numbers -/

theorem digits?_reads
    {input digits rest : List Char}
    (reads : digits? input = some (digits, rest)) :
    (∃ first others, digits = first :: others ∧ first.isDigit = true ∧ input.head? = some first) ∧
      ∀ other, StopsAt Char.isDigit other → digits? (digits ++ other) = some (digits, other) := by
  rw [digits?] at reads
  split at reads
  case isTrue => cases reads
  case isFalse notEmpty =>
    cases reads
    constructor
    · cases input with
      | nil => exact (notEmpty rfl).elim
      | cons first others =>
          cases isDigit : first.isDigit with
          | false => exact (notEmpty (by simp [isDigit])).elim
          | true =>
              refine ⟨first, others.takeWhile Char.isDigit, ?_, isDigit, rfl⟩
              rw [List.takeWhile_cons_of_pos isDigit]
    · intro other stops
      obtain ⟨taken, left⟩ :=
        takeWhile_append_of_stopsAt (fun digit => List.mem_takeWhile_imp) stops
      rw [digits?, taken, left, if_neg notEmpty]

theorem wholeDigits?_reads
    {input whole rest : List Char}
    (reads : wholeDigits? input = some (whole, rest)) :
    (∃ first others, whole = first :: others ∧ first.isDigit = true ∧ input.head? = some first) ∧
      ∀ other, StopsAt Char.isDigit other →
        wholeDigits? (whole ++ other) = some (whole, other) := by
  unfold wholeDigits? at reads
  split at reads
  · cases reads
    exact ⟨⟨'0', [], rfl, rfl, rfl⟩, fun _ _ => rfl⟩
  case _ notZero =>
    obtain ⟨⟨first, others, rfl, isDigit, isFirst⟩, readsOn⟩ := digits?_reads reads
    refine ⟨⟨first, others, rfl, isDigit, isFirst⟩, ?_⟩
    intro other stops
    rw [List.cons_append, wholeDigits?]
    · exact readsOn other stops
    · rintro _ ⟨⟩
      obtain ⟨tail, rfl⟩ := List.head?_eq_some_iff.mp isFirst
      exact notZero tail rfl

theorem fraction?_reads
    {input fraction rest : List Char}
    (reads : fraction? input = some (fraction, rest)) :
    (fraction = [] ∨ ∃ others, fraction = '.' :: others) ∧
      ∀ other, StopsAt Char.isDigit other → StopsAt (· == '.') other →
        fraction? (fraction ++ other) = some (fraction, other) := by
  unfold fraction? at reads
  split at reads
  · obtain ⟨⟨digits, _⟩, read, result⟩ := Option.map_eq_some_iff.mp reads
    cases result
    refine ⟨.inr ⟨digits, rfl⟩, ?_⟩
    intro other stops _
    rw [List.cons_append, fraction?, (digits?_reads read).2 other stops]
    rfl
  · cases reads
    refine ⟨.inl rfl, ?_⟩
    intro other _ stops
    rw [List.nil_append, fraction?]
    rintro _ rfl
    cases stops '.' rfl

/-- Does the character start an exponent? -/
def startsExponent (character : Char) : Bool :=
  character == 'e' || character == 'E'

/-- Split off the sign of an exponent, if there is one. -/
def exponentSign (input : List Char) : List Char × List Char :=
  match input with
  | '+' :: rest => (['+'], rest)
  | '-' :: rest => (['-'], rest)
  | _ => ([], input)

theorem exponent?_of_starts
    {letter : Char}
    (starts : startsExponent letter = true)
    (input : List Char) :
    exponent? (letter :: input) =
      (digits? (exponentSign input).2).map fun (digits, rest) =>
        (letter :: ((exponentSign input).1 ++ digits), rest) := by
  rw [startsExponent] at starts
  unfold exponent?
  simp only [starts, if_true]
  rfl

theorem exponent?_of_stopsAt
    {input : List Char}
    (stops : StopsAt startsExponent input) :
    exponent? input = some ([], input) := by
  cases input with
  | nil => rfl
  | cons character input =>
      have notStarts : (character == 'e' || character == 'E') = false := stops character rfl
      simp [exponent?, notStarts]

theorem exponentSign_append
    {first : Char}
    (isDigit : first.isDigit = true)
    (input others : List Char) :
    exponentSign ((exponentSign input).1 ++ first :: others) =
      ((exponentSign input).1, first :: others) := by
  have notSigned : exponentSign (first :: others) = ([], first :: others) := by
    unfold exponentSign
    split
    case h_1 isPlus =>
      cases isPlus
      cases isDigit
    case h_2 isMinus =>
      cases isMinus
      cases isDigit
    case h_3 => rfl
  have signs : (exponentSign input).1 = ['+'] ∨ (exponentSign input).1 = ['-'] ∨
      (exponentSign input).1 = [] := by
    unfold exponentSign
    split <;> simp
  rcases signs with isSign | isSign | isSign
  · rw [isSign]
    rfl
  · rw [isSign]
    rfl
  · rw [isSign]
    exact notSigned

theorem exponent?_reads
    {input exponent rest : List Char}
    (reads : exponent? input = some (exponent, rest)) :
    (exponent = [] ∨ ∃ letter others, exponent = letter :: others ∧ startsExponent letter = true) ∧
      ∀ other, StopsAt Char.isDigit other → StopsAt startsExponent other →
        exponent? (exponent ++ other) = some (exponent, other) := by
  by_cases stops : StopsAt startsExponent input
  · cases (exponent?_of_stopsAt stops).symm.trans reads
    exact ⟨.inl rfl, fun _ _ stops => exponent?_of_stopsAt stops⟩
  · cases input with
    | nil => exact (stops nofun).elim
    | cons letter tail =>
        have starts : startsExponent letter = true := by
          rw [← Bool.not_eq_false]
          rintro notStarts
          refine stops ?_
          rintro _ ⟨⟩
          exact notStarts
        rw [exponent?_of_starts starts] at reads
        obtain ⟨⟨digits, _⟩, read, result⟩ := Option.map_eq_some_iff.mp reads
        obtain ⟨⟨first, others, rfl, isDigit, _⟩, readsOn⟩ := digits?_reads read
        cases result
        refine ⟨.inr ⟨letter, _, rfl, starts⟩, ?_⟩
        intro other stopsDigits _
        have readOn := readsOn other stopsDigits
        rw [List.cons_append, exponent?_of_starts starts, List.append_assoc, List.cons_append,
          exponentSign_append isDigit, ← List.cons_append, readOn]
        rfl

/-- Split off the sign of a number, if there is one. -/
def numberSign (input : List Char) : List Char × List Char :=
  match input with
  | '-' :: rest => (['-'], rest)
  | _ => ([], input)

theorem numberSign_append
    {first : Char}
    (isDigit : first.isDigit = true)
    (input others : List Char) :
    numberSign ((numberSign input).1 ++ first :: others) =
      ((numberSign input).1, first :: others) := by
  have notSigned : numberSign (first :: others) = ([], first :: others) := by
    unfold numberSign
    split
    case h_1 isMinus =>
      cases isMinus
      cases isDigit
    case h_2 => rfl
  have signs : (numberSign input).1 = ['-'] ∨ (numberSign input).1 = [] := by
    unfold numberSign
    split <;> simp
  rcases signs with isSign | isSign
  · rw [isSign]
    rfl
  · rw [isSign]
    exact notSigned

/-- The token of a number that has been read. -/
def ofNumber (text fraction exponent : List Char) : Token :=
  if fraction.isEmpty && exponent.isEmpty then .int (String.ofList text)
  else .float (String.ofList text)

theorem stopsAt_iff
    {kind : Char → Bool}
    {rest : List Char} :
    StopsAt kind rest ↔ (rest.head?.map kind).getD false = false := by
  cases rest <;> simp [StopsAt]

theorem number?_eq_bind
    (input : List Char) :
    number? input =
      (wholeDigits? (numberSign input).2).bind fun (whole, rest) =>
        (fraction? rest).bind fun (fraction, rest) =>
          (exponent? rest).bind fun (exponent, rest) =>
            if (rest.head?.map extendsNumber).getD false then none
            else some (ofNumber ((numberSign input).1 ++ whole ++ fraction ++ exponent) fraction
              exponent, rest) := by
  unfold number? ofNumber
  refine Option.bind_congr fun whole _ => ?_
  refine Option.bind_congr fun fraction _ => ?_
  refine Option.bind_congr ?_
  rintro ⟨exponent, rest⟩ _
  simp only
  split
  · rfl
  · split <;> rfl

theorem number?_eq_some_iff
    {input rest : List Char}
    {token : Token} :
    number? input = some (token, rest) ↔
      ∃ whole afterWhole, wholeDigits? (numberSign input).2 = some (whole, afterWhole) ∧
        ∃ fraction afterFraction, fraction? afterWhole = some (fraction, afterFraction) ∧
          ∃ exponent, exponent? afterFraction = some (exponent, rest) ∧
            StopsAt extendsNumber rest ∧
            ofNumber ((numberSign input).1 ++ whole ++ fraction ++ exponent) fraction exponent =
              token := by
  rw [number?_eq_bind]
  simp only [Option.bind_eq_some_iff, Prod.exists, stopsAt_iff]
  constructor
  · rintro ⟨whole, afterWhole, isWhole, fraction, afterFraction, isFraction, exponent, _,
      isExponent, result⟩
    split at result
    case isTrue => cases result
    case isFalse stops =>
      cases result
      exact ⟨whole, afterWhole, isWhole, fraction, afterFraction, isFraction, exponent,
        isExponent, by simpa using stops, rfl⟩
  · rintro ⟨whole, afterWhole, isWhole, fraction, afterFraction, isFraction, exponent,
      isExponent, stops, rfl⟩
    exact ⟨whole, afterWhole, isWhole, fraction, afterFraction, isFraction, exponent, rest,
      isExponent, by rw [stops]; rfl⟩

theorem characters_ofNumber
    (text fraction exponent : List Char) :
    (ofNumber text fraction exponent).characters = text := by
  unfold ofNumber
  split <;> simp [characters]

theorem numberSign_cases
    (input : List Char) :
    (∃ rest, input = '-' :: rest ∧ numberSign input = (['-'], rest)) ∨
      numberSign input = ([], input) := by
  unfold numberSign
  split
  · exact .inl ⟨_, rfl, rfl⟩
  · exact .inr rfl

/-- A number is written with the character that it started with. -/
theorem head?_of_number?
    {input rest : List Char}
    {token : Token}
    (reads : number? input = some (token, rest)) :
    token.characters.head? = input.head? := by
  obtain ⟨whole, _, isWhole, _, _, _, _, _, _, rfl⟩ := number?_eq_some_iff.mp reads
  obtain ⟨⟨first, others, rfl, _, isFirst⟩, _⟩ := wholeDigits?_reads isWhole
  rw [characters_ofNumber]
  rcases numberSign_cases input with ⟨tail, rfl, isSign⟩ | isSign
  · rw [isSign]
    rfl
  · rw [isSign] at isFirst ⊢
    rw [isFirst]
    rfl

/-- A number is read again where a blank follows. -/
theorem number?_characters
    {input rest : List Char}
    {token : Token}
    (reads : number? input = some (token, rest))
    (other : List Char) :
    number? (token.characters ++ ' ' :: other) = some (token, ' ' :: other) := by
  obtain ⟨whole, afterWhole, isWhole, fraction, afterFraction, isFraction, exponent, isExponent,
    _, rfl⟩ := number?_eq_some_iff.mp reads
  obtain ⟨⟨first, others, rfl, isDigit, _⟩, readsWhole⟩ := wholeDigits?_reads isWhole
  obtain ⟨startsFraction, readsFraction⟩ := fraction?_reads isFraction
  obtain ⟨startsExponent, readsExponent⟩ := exponent?_reads isExponent
  have afterExponent : ∀ kind : Char → Bool, kind ' ' = false →
      (∀ letter, Token.startsExponent letter = true → kind letter = false) →
        StopsAt kind (exponent ++ ' ' :: other) := by
    intro kind notBlank notLetter
    rcases startsExponent with rfl | ⟨letter, _, rfl, starts⟩
    · exact stopsAt_blank notBlank other
    · rintro _ ⟨⟩
      exact notLetter letter starts
  have notOther : ∀ kind : Char → Bool, kind 'e' = false → kind 'E' = false →
      ∀ letter, Token.startsExponent letter = true → kind letter = false := by
    intro kind notSmall notBig letter starts
    rcases Bool.or_eq_true_iff.mp starts with isLetter | isLetter
    · rw [beq_iff_eq.mp isLetter, notSmall]
    · rw [beq_iff_eq.mp isLetter, notBig]
  have digitsStop : StopsAt Char.isDigit (exponent ++ ' ' :: other) :=
    afterExponent _ (by decide) (notOther _ (by decide) (by decide))
  have digitsStopBefore : StopsAt Char.isDigit (fraction ++ (exponent ++ ' ' :: other)) := by
    rcases startsFraction with rfl | ⟨_, rfl⟩
    · exact digitsStop
    · rintro _ ⟨⟩
      rfl
  rw [characters_ofNumber, List.append_assoc, List.append_assoc, List.append_assoc,
    List.cons_append]
  refine number?_eq_some_iff.mpr ⟨first :: others, fraction ++ (exponent ++ ' ' :: other), ?_,
    fraction, exponent ++ ' ' :: other, ?_, exponent, ?_, ?_, ?_⟩
  · rw [numberSign_append isDigit]
    exact readsWhole _ digitsStopBefore
  · exact readsFraction _ digitsStop
      (afterExponent _ (by decide) (notOther _ (by decide) (by decide)))
  · exact readsExponent _ (stopsAt_blank (by decide) other) (stopsAt_blank (by decide) other)
  · exact stopsAt_blank (by decide) other
  · rw [numberSign_append isDigit]

/-! ## Texts -/

theorem readable_of_string?
    {input rest : List Char}
    {token : Token}
    (reads : string? input = some (token, rest)) :
    token.Readable := by
  unfold string? at reads
  split at reads
  · obtain ⟨_, _, result⟩ := Option.map_eq_some_iff.mp reads
    cases result
    exact readable_string _
  · obtain ⟨_, _, result⟩ := Option.map_eq_some_iff.mp reads
    cases result
    exact readable_string _

/-- What is read from a text can be written again. -/
theorem readable_of_next?
    {first : Char}
    {rest left : List Char}
    {token : Token}
    (notBlank : isBlank first = false)
    (notHash : first ≠ '#')
    (reads : next? first rest = some (token, left)) :
    token.Readable := by
  unfold next? at reads
  split at reads
  case isTrue starts =>
    cases reads
    exact readable_name starts
      (List.all_eq_true.mpr fun character isPart => List.mem_takeWhile_imp isPart)
  split at reads
  case isTrue isComma =>
    cases reads
    refine ⟨',', [], rfl, by decide, by decide, fun rest => rfl⟩
  split at reads
  case isTrue isMark =>
    cases reads
    exact readable_mark isMark
  split at reads
  case isTrue isQuote => exact readable_of_string? reads
  split at reads
  case isTrue isPoint =>
    split at reads
    · cases reads
      exact readable_spread
    · cases reads
  split at reads
  case isFalse => cases reads
  case isTrue notName notComma notMark notQuote notPoint startsNumber =>
    obtain ⟨others, written⟩ := List.head?_eq_some_iff.mp (head?_of_number? reads)
    refine ⟨first, others, written, notBlank, notHash, ?_⟩
    intro rest
    unfold next?
    rw [if_neg notName, if_neg notComma, if_neg notMark, if_neg notQuote, if_neg notPoint,
      if_pos startsNumber, ← List.cons_append, ← written]
    exact number?_characters reads rest

theorem readable_of_listFrom
    {fuel : Nat}
    {input : List Char}
    {tokens : List Token}
    (reads : listFrom fuel input = some tokens) :
    ∀ token ∈ tokens, token.Readable := by
  induction fuel generalizing input tokens with
  | zero =>
      cases input with
      | nil =>
          cases reads
          simp
      | cons => cases reads
  | succ fuel induction =>
      cases input with
      | nil =>
          cases reads
          simp
      | cons first rest =>
          rw [listFrom] at reads
          split at reads
          · exact induction reads
          case isFalse notBlank =>
            split at reads
            · exact induction reads
            case isFalse notHash =>
              split at reads
              · cases reads
              case h_2 token left read =>
                obtain ⟨others, ofOthers, rfl⟩ := Option.map_eq_some_iff.mp reads
                refine List.forall_mem_cons.mpr ⟨?_, induction ofOthers⟩
                exact readable_of_next? (by simpa using notBlank) (by simpa using notHash) read

theorem listFrom_written
    {tokens : List Token}
    (readable : ∀ token ∈ tokens, token.Readable)
    {fuel : Nat}
    (enough : (written tokens).length ≤ fuel) :
    listFrom fuel (written tokens) = some tokens := by
  induction tokens generalizing fuel with
  | nil => cases fuel <;> rfl
  | cons token tokens induction =>
      obtain ⟨ofToken, ofOthers⟩ := List.forall_mem_cons.mp readable
      obtain ⟨first, others, isWritten, notBlank, notHash, reads⟩ := ofToken
      have split : written (token :: tokens) = first :: (others ++ ' ' :: written tokens) := by
        rw [written, List.flatMap_cons, isWritten]
        simp [written]
      rw [split] at enough ⊢
      simp only [List.length_cons, List.length_append] at enough
      -- One step reads the token, and another one passes the blank.
      obtain ⟨fuel, rfl⟩ : ∃ left, fuel = left + 2 := ⟨fuel - 2, by omega⟩
      have fewer : (written tokens).length ≤ fuel := by
        omega
      have ofRest := induction ofOthers fewer
      have afterBlank : listFrom (fuel + 1) (' ' :: written tokens) = some tokens := by
        rw [listFrom, if_pos (by decide)]
        exact ofRest
      rw [listFrom, if_neg (by simp [notBlank]), if_neg (by simpa using notHash), reads]
      simp [afterBlank]

theorem readable_of_list?
    {input : List Char}
    {tokens : List Token}
    (reads : list? input = some tokens) :
    ∀ token ∈ tokens, token.Readable :=
  readable_of_listFrom reads

/-- Tokens that can be read are read back from where they are written. -/
theorem list?_written
    {tokens : List Token}
    (readable : ∀ token ∈ tokens, token.Readable) :
    list? (written tokens) = some tokens :=
  listFrom_written readable (Nat.le_refl _)

end QueryGateway.Query.Token
