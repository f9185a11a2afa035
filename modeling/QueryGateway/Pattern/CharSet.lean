import QueryGateway.Pattern.Expression
import QueryGateway.Unicode.Folding
import QueryGateway.Unicode.Property

/-!
# Sets of characters

What a class of a pattern stands for, as a term that can be compared and whose
members can be told.  The classes of letters are those of all scripts, unless
Unicode is turned off.

The properties that a class can name are the general categories, and being
alphabetic, upper case, lower case or white space.  There are no tables of
scripts and their extensions, of ages, of the breaks between graphemes, words
and sentences, and of the other properties that a character has or has not; a
pattern that names one of these is refused.  The category of surrogates is
refused as well, since no character is a surrogate.

`weight` estimates how much room the set takes up in a table of transitions
over bytes; it serves to bound the size of patterns.  The exact size is that of
an automaton, which is not built here, so a pattern whose size is close to the
bound may be taken for one on the other side of it.
-/

namespace QueryGateway.Pattern

/-- A set of characters. -/
inductive CharSet where
  | empty
  | range (low high : Char)
  | digit
  | space
  | word
  | alphabetic
  | uppercase
  | lowercase
  /-- The characters of one general category. -/
  | category (category : Unicode.Category)
  /-- All characters that are equal, up to case, to one in the set. -/
  | folded (unicode : Bool) (set : CharSet)
  | complement (set : CharSet)
  | union (left right : CharSet)
  | intersection (left right : CharSet)
deriving DecidableEq, Repr

namespace CharSet

/-- The set of one character. -/
def single (character : Char) : CharSet :=
  .range character character

/-- All characters. -/
def full : CharSet :=
  .complement .empty

/-- The union of some sets. -/
def unions (sets : List CharSet) : CharSet :=
  sets.foldr .union .empty

/-- The ASCII characters that are equal to a character up to case, itself included. -/
def asciiVariants (character : Char) : List Char :=
  if character.isUpper then [character, Char.ofNat (character.toNat + 32)]
  else if character.isLower then [character, Char.ofNat (character.toNat - 32)]
  else [character]

/-- Is the character in the set? -/
def contains : CharSet → Char → Bool
  | .empty, _ => false
  | .range low high, character => low ≤ character && character ≤ high
  | .digit, character => Unicode.isDigit character
  | .space, character => Unicode.isBlank character
  | .word, character => Unicode.isWord character
  | .alphabetic, character => Unicode.isAlphabetic character
  | .uppercase, character => Unicode.isUppercase character
  | .lowercase, character => Unicode.isLowercase character
  | .category kind, character => Unicode.Category.ofChar character == kind
  | .folded unicode set, character =>
      (if unicode then Unicode.caseVariants character else asciiVariants character).any set.contains
  | .complement set, character => !set.contains character
  | .union left right, character => left.contains character || right.contains character
  | .intersection left right, character => left.contains character && right.contains character

/-- Are all members ASCII, as far as single bytes are concerned? -/
def isAscii (set : CharSet) : Bool :=
  (List.range 128).all fun code => !set.contains (Char.ofNat (128 + code))

/-- An estimate of the bytes that a table of the set takes up. -/
def weight : CharSet → Nat
  | .empty => 32
  | .range low high => if high.toNat < 0x80 then 32 else if low = high then 96 else 320
  | .digit => 3200
  | .space => 640
  | .word => 48000
  | .alphabetic => 44000
  | .uppercase => 20000
  | .lowercase => 20000
  | .category _ => 12000
  | .folded _ set => 2 * set.weight
  | .complement set => set.weight + 320
  | .union left right => left.weight + right.weight
  | .intersection left right => max left.weight right.weight

/-- The class of a letter, over ASCII. -/
def ofAsciiLetter : LetterClass → CharSet
  | .digit => .range '0' '9'
  | .space => .union (.range '\t' '\r') (.single ' ')
  | .word => unions [.range '0' '9', .range 'A' 'Z', .single '_', .range 'a' 'z']

/-- The class of a letter. -/
def ofLetter (unicode : Bool) (name : LetterClass) : CharSet :=
  if unicode then
    match name with
    | .digit => .digit
    | .space => .space
    | .word => .word
  else
    ofAsciiLetter name

/-- The named class of ASCII characters. -/
def ofAsciiClass : AsciiClass → CharSet
  | .alnum => unions [.range '0' '9', .range 'A' 'Z', .range 'a' 'z']
  | .alpha => .union (.range 'A' 'Z') (.range 'a' 'z')
  | .ascii => .range '\x00' '\x7f'
  | .blank => .union (.single '\t') (.single ' ')
  | .cntrl => .union (.range '\x00' '\x1f') (.single '\x7f')
  | .digit => .range '0' '9'
  | .graph => .range '!' '~'
  | .lower => .range 'a' 'z'
  | .print => .range ' ' '~'
  | .punct => unions [.range '!' '/', .range ':' '@', .range '[' '\x60', .range '\x7b' '~']
  | .space => .union (.range '\t' '\r') (.single ' ')
  | .upper => .range 'A' 'Z'
  | .word => unions [.range '0' '9', .range 'A' 'Z', .single '_', .range 'a' 'z']
  | .xdigit => unions [.range '0' '9', .range 'A' 'F', .range 'a' 'f']

/-! ## Properties -/

/-- A name of a property or a value, in the form in which names are compared. -/
def looseName (name : String) : String :=
  let kept := (name.toList.filter fun character =>
    character != ' ' && character != '_' && character != '-' && character.toNat < 0x80).map
      Char.toLower
  match kept with
  | ['i', 's', 'c'] => "isc"
  | 'i' :: 's' :: rest => String.ofList rest
  | _ => String.ofList kept

/-- The set of some general categories. -/
def categories (names : List Unicode.Category) : CharSet :=
  unions (names.map .category)

open Unicode.Category in
/-- The general categories, and groups of them, of a name. -/
def ofCategoryName? (name : String) : Option CharSet :=
  match name with
  | "any" => some full
  | "ascii" => some (.range '\x00' '\x7f')
  | "assigned" => some (.complement (.category unassigned))
  | "l" | "letter" =>
      some (categories
        [uppercaseLetter, lowercaseLetter, titlecaseLetter, modifierLetter, otherLetter])
  | "lc" | "casedletter" => some (categories [uppercaseLetter, lowercaseLetter, titlecaseLetter])
  | "lu" | "uppercaseletter" => some (.category uppercaseLetter)
  | "ll" | "lowercaseletter" => some (.category lowercaseLetter)
  | "lt" | "titlecaseletter" => some (.category titlecaseLetter)
  | "lm" | "modifierletter" => some (.category modifierLetter)
  | "lo" | "otherletter" => some (.category otherLetter)
  | "m" | "mark" | "combiningmark" =>
      some (categories [nonspacingMark, spacingMark, enclosingMark])
  | "mn" | "nonspacingmark" => some (.category nonspacingMark)
  | "mc" | "spacingmark" => some (.category spacingMark)
  | "me" | "enclosingmark" => some (.category enclosingMark)
  | "n" | "number" => some (categories [decimalNumber, letterNumber, otherNumber])
  | "nd" | "decimalnumber" | "digit" => some (.category decimalNumber)
  | "nl" | "letternumber" => some (.category letterNumber)
  | "no" | "othernumber" => some (.category otherNumber)
  | "p" | "punctuation" | "punct" =>
      some (categories
        [connectorPunctuation, dashPunctuation, openPunctuation, closePunctuation,
         initialPunctuation, finalPunctuation, otherPunctuation])
  | "pc" | "connectorpunctuation" => some (.category connectorPunctuation)
  | "pd" | "dashpunctuation" => some (.category dashPunctuation)
  | "ps" | "openpunctuation" => some (.category openPunctuation)
  | "pe" | "closepunctuation" => some (.category closePunctuation)
  | "pi" | "initialpunctuation" => some (.category initialPunctuation)
  | "pf" | "finalpunctuation" => some (.category finalPunctuation)
  | "po" | "otherpunctuation" => some (.category otherPunctuation)
  | "s" | "symbol" => some (categories [mathSymbol, currencySymbol, modifierSymbol, otherSymbol])
  | "sm" | "mathsymbol" => some (.category mathSymbol)
  | "sc" | "currencysymbol" => some (.category currencySymbol)
  | "sk" | "modifiersymbol" => some (.category modifierSymbol)
  | "so" | "othersymbol" => some (.category otherSymbol)
  | "z" | "separator" => some (categories [spaceSeparator, lineSeparator, paragraphSeparator])
  | "zs" | "spaceseparator" => some (.category spaceSeparator)
  | "zl" | "lineseparator" => some (.category lineSeparator)
  | "zp" | "paragraphseparator" => some (.category paragraphSeparator)
  | "c" | "other" =>
      some (categories [control, Unicode.Category.format, surrogate, privateUse, unassigned])
  | "cc" | "control" | "cntrl" => some (.category control)
  | "cf" | "format" => some (.category Unicode.Category.format)
  | "co" | "privateuse" => some (.category privateUse)
  | "cn" | "unassigned" => some (.category unassigned)
  | _ => none

/-- The set of a property that a character has or has not. -/
def ofPropertyName? (name : String) : Option CharSet :=
  match name with
  | "alphabetic" | "alpha" => some .alphabetic
  | "uppercase" | "upper" => some .uppercase
  | "lowercase" | "lower" => some .lowercase
  | "whitespace" | "wspace" | "space" => some .space
  | _ => ofCategoryName? name

/-- The set that a query asks for. -/
def ofQuery? : PropertyQuery → Option CharSet
  | .named name => ofPropertyName? (looseName name)
  | .valued name value negated =>
      if ["gc", "generalcategory"].contains (looseName name) then
        (ofCategoryName? (looseName value)).map fun set =>
          if negated then .complement set else set
      else
        none

end CharSet

end QueryGateway.Pattern
