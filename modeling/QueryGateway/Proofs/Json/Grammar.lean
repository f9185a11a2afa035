import Mathlib.Data.Rat.Defs
import Mathlib.Algebra.Order.Field.Rat
import QueryGateway.Json.Parser

/-!
# The grammar of JSON text

`Spells` says which text is JSON, and what it says, without regard to any
reader.  A text spells a tree.  Strings in a tree are what their escapes stand
for; numbers are numerals, which have an exact value; and an object has every
member that is written, also where a key is repeated.

The number that goes with `Spells` bounds how deep containers nest.
-/

namespace QueryGateway.Json

/-! ## Numerals -/

/-- The exponent of a numeral: a letter, a sign or none, and digits. -/
structure Exponent where
  letter : Char
  sign : Option Char
  digits : List Char
deriving DecidableEq

/-- A number as it is written.  Where there are no decimals, there is no point. -/
structure Numeral where
  negative : Bool
  whole : List Char
  decimals : List Char
  exponent : Option Exponent
deriving DecidableEq

def Exponent.text (exponent : Exponent) : List Char :=
  exponent.letter :: (exponent.sign.toList ++ exponent.digits)

/-- The exponent as a number. -/
def Exponent.value (exponent : Exponent) : Int :=
  if exponent.sign = some '-' then -(Digits.natural exponent.digits : Int)
  else Digits.natural exponent.digits

structure Exponent.IsProper (exponent : Exponent) : Prop where
  letter : exponent.letter = 'e' ∨ exponent.letter = 'E'
  sign : exponent.sign = none ∨ exponent.sign = some '+' ∨ exponent.sign = some '-'
  nonempty : exponent.digits ≠ []
  digits : exponent.digits.all Char.isDigit = true

namespace Numeral

/-- The point and the decimals behind it. -/
def fractionText (numeral : Numeral) : List Char :=
  if numeral.decimals = [] then [] else '.' :: numeral.decimals

def exponentText (numeral : Numeral) : List Char :=
  (numeral.exponent.map Exponent.text).getD []

def text (numeral : Numeral) : List Char :=
  (if numeral.negative then ['-'] else []) ++
    (numeral.whole ++ (numeral.fractionText ++ numeral.exponentText))

/-- All digits in front of the exponent as one natural number. -/
def significand (numeral : Numeral) : Nat :=
  Digits.natural (numeral.whole ++ numeral.decimals)

/-- The power of ten that the last of these digits counts. -/
def scale (numeral : Numeral) : Int :=
  (numeral.exponent.map Exponent.value).getD 0 - numeral.decimals.length

/-- The exact value of a numeral. -/
def value (numeral : Numeral) : Rat :=
  (if numeral.negative then -1 else 1) * (numeral.significand * 10 ^ numeral.scale)

/-- There are digits, and no zero stands in front of others. -/
structure IsProper (numeral : Numeral) : Prop where
  nonempty : numeral.whole ≠ []
  whole : numeral.whole.all Char.isDigit = true
  noZero : numeral.whole.head? = some '0' → numeral.whole = ['0']
  decimals : numeral.decimals.all Char.isDigit = true
  exponent : ∀ exponent, numeral.exponent = some exponent → exponent.IsProper

end Numeral

/-! ## Trees -/

/-- A JSON document as it is written. -/
inductive Tree where
  | null
  | bool (value : Bool)
  | number (numeral : Numeral)
  | string (value : String)
  | array (elements : List Tree)
  | object (entries : List (String × Tree))

/-- The characters that a text between quotes stands for. -/
inductive SpellsCharacters : List Char → List Char → Prop where
  | nil : SpellsCharacters [] []
  | plain
      {character : Char}
      {characters text : List Char}
      (notControl : 0x20 ≤ character.toNat)
      (notQuote : character ≠ '"')
      (notBackslash : character ≠ '\\')
      (more : SpellsCharacters characters text) :
      SpellsCharacters (character :: characters) (character :: text)
  | short
      {letter character : Char}
      {characters text : List Char}
      (escape : Parser.shortEscape? letter = some character)
      (more : SpellsCharacters characters text) :
      SpellsCharacters (character :: characters) ('\\' :: letter :: text)
  | unit
      {a b c d : Char}
      {unit : Nat}
      {characters text : List Char}
      (escape : Parser.hexUnit? a b c d = some unit)
      (notHigh : Parser.isHighSurrogate unit = false)
      (notLow : Parser.isLowSurrogate unit = false)
      (more : SpellsCharacters characters text) :
      SpellsCharacters (Char.ofNat unit :: characters) ('\\' :: 'u' :: a :: b :: c :: d :: text)
  | pair
      {a b c d e f g h : Char}
      {high low : Nat}
      {characters text : List Char}
      (first : Parser.hexUnit? a b c d = some high)
      (second : Parser.hexUnit? e f g h = some low)
      (isHigh : Parser.isHighSurrogate high = true)
      (isLow : Parser.isLowSurrogate low = true)
      (more : SpellsCharacters characters text) :
      SpellsCharacters (Parser.joinSurrogates high low :: characters)
        ('\\' :: 'u' :: a :: b :: c :: d :: '\\' :: 'u' :: e :: f :: g :: h :: text)

/-- A string with its quotes. -/
inductive SpellsString (value : String) : List Char → Prop where
  | quoted
      {text : List Char}
      (characters : SpellsCharacters value.toList text) :
      SpellsString value ('"' :: (text ++ ['"']))

/-- Is there nothing but blanks? -/
def IsBlank (text : List Char) : Prop :=
  text.all Parser.isBlank = true

mutual

/-- The text spells the tree, which has no more containers in one another than `depth`. -/
inductive Spells : Nat → Tree → List Char → Prop where
  | null (depth : Nat) : Spells depth .null ['n', 'u', 'l', 'l']
  | bool
      (depth : Nat)
      (value : Bool) :
      Spells depth (.bool value)
        (if value then ['t', 'r', 'u', 'e'] else ['f', 'a', 'l', 's', 'e'])
  | number
      {numeral : Numeral}
      (depth : Nat)
      (isProper : numeral.IsProper) :
      Spells depth (.number numeral) numeral.text
  | string
      {value : String}
      {text : List Char}
      (depth : Nat)
      (spelled : SpellsString value text) :
      Spells depth (.string value) text
  | emptyArray
      {blanks : List Char}
      (depth : Nat)
      (isBlank : IsBlank blanks) :
      Spells (depth + 1) (.array []) ('[' :: (blanks ++ [']']))
  | array
      {depth : Nat}
      {elements : List Tree}
      {text : List Char}
      (spelled : SpellsElements depth elements text) :
      Spells (depth + 1) (.array elements) ('[' :: text)
  | emptyObject
      {blanks : List Char}
      (depth : Nat)
      (isBlank : IsBlank blanks) :
      Spells (depth + 1) (.object []) ('\x7b' :: (blanks ++ ['\x7d']))
  | object
      {depth : Nat}
      {entries : List (String × Tree)}
      {text : List Char}
      (spelled : SpellsEntries depth entries text) :
      Spells (depth + 1) (.object entries) ('\x7b' :: text)

/-- The text spells the elements of an array, up to the closing bracket. -/
inductive SpellsElements : Nat → List Tree → List Char → Prop where
  | last
      {depth : Nat}
      {element : Tree}
      {before text behind : List Char}
      (blankBefore : IsBlank before)
      (blankBehind : IsBlank behind)
      (spelled : Spells depth element text) :
      SpellsElements depth [element] (before ++ (text ++ (behind ++ [']'])))
  | cons
      {depth : Nat}
      {element : Tree}
      {elements : List Tree}
      {before text behind others : List Char}
      (blankBefore : IsBlank before)
      (blankBehind : IsBlank behind)
      (spelled : Spells depth element text)
      (more : SpellsElements depth elements others) :
      SpellsElements depth (element :: elements) (before ++ (text ++ (behind ++ ',' :: others)))

/-- The text spells the members of an object, up to the closing brace. -/
inductive SpellsEntries : Nat → List (String × Tree) → List Char → Prop where
  | last
      {depth : Nat}
      {key : String}
      {entry : Tree}
      {outset name gap before text behind : List Char}
      (blankOutset : IsBlank outset)
      (blankGap : IsBlank gap)
      (blankBefore : IsBlank before)
      (blankBehind : IsBlank behind)
      (named : SpellsString key name)
      (spelled : Spells depth entry text) :
      SpellsEntries depth [(key, entry)]
        (outset ++ (name ++ (gap ++ ':' :: (before ++ (text ++ (behind ++ ['\x7d']))))))
  | cons
      {depth : Nat}
      {key : String}
      {entry : Tree}
      {entries : List (String × Tree)}
      {outset name gap before text behind others : List Char}
      (blankOutset : IsBlank outset)
      (blankGap : IsBlank gap)
      (blankBefore : IsBlank before)
      (blankBehind : IsBlank behind)
      (named : SpellsString key name)
      (spelled : Spells depth entry text)
      (more : SpellsEntries depth entries others) :
      SpellsEntries depth ((key, entry) :: entries)
        (outset ++ (name ++ (gap ++ ':' :: (before ++ (text ++ (behind ++ ',' :: others))))))

end

/-- The text is a document with the tree: blanks may stand around it, and its depth is bounded. -/
def IsDocument (tree : Tree) (text : List Char) : Prop :=
  ∃ before bare behind, text = before ++ (bare ++ behind) ∧ IsBlank before ∧ IsBlank behind ∧
    Spells nestingLimit tree bare

end QueryGateway.Json
