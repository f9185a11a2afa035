import QueryGateway.Unicode.Category

/-!
# Properties of characters

Whether a character is alphabetic, upper or lower case, blank, or part of a
word.  The first three consist of whole categories and of further characters,
which are listed here as runs.  These are the properties that classes of letters
are made of; scripts, ages and the like are left out.
-/

namespace QueryGateway.Unicode

/-- The alphabetic characters that are neither letters nor letter numbers. -/
def otherAlphabetic : String :=
  String.join [
    "837 1 618 14 1 1 1 2 1 2 1 1 72 11 48 13 1 7 16 1 101 7 4 4 2 2 4 1 35 1 30 16 102 11 101 ",
    "2 3 9 1 3 1 4 167 12 3 7 6 20 54 2 2 15 1 2 5 3 10 2 29 3 58 7 2 2 2 2 10 1 10 2 29 3 58 5 ",
    "4 2 2 2 4 1 30 2 3 1 11 3 58 8 1 3 1 2 21 2 22 3 4 3 58 7 2 2 2 2 9 2 10 2 30 1 59 5 3 3 1 ",
    "3 10 1 40 5 57 7 1 3 1 3 8 2 11 2 29 3 58 7 1 3 1 3 8 2 11 2 15 1 12 4 58 7 1 3 1 3 10 1 ",
    "10 2 29 3 75 6 1 1 1 8 18 2 61 1 2 7 18 1 99 1 2 6 1 2 16 1 163 19 9 11 1 36 110 12 1 1 2 ",
    "4 23 4 4 3 1 3 2 7 3 4 13 12 1 1 10 4 1652 2 30 2 30 2 30 2 66 19 188 2 34 1 118 12 4 9 ",
    "222 5 57 10 2 20 74 2 11 3 49 5 48 15 60 3 30 9 2 2 57 11 50 19 432 14 1729 52 2294 32 ",
    "30836 8 34 2 354 1 8 1 23 5 88 2 50 16 1 1 57 1 38 5 28 12 45 4 48 12 37 1 67 14 12 1 8 2 ",
    "45 3 50 1 1 3 2 2 5 1 44 5 5 1 237 8 20275 1 2135 5 1670 3 1 2 5 4 788 4 387 2 339 3 53 14 ",
    "45 2 11 3 45 9 9 1 61 3 36 12 18 2 57 3 48 13 14 2 92 9 2 1 6 1 2 1 157 10 23 4 58 7 2 2 2 ",
    "2 10 1 10 2 209 13 1 3 106 18 237 7 2 7 29 2 82 15 1 1 106 11 103 14 257 13 247 6 1 2 2 2 ",
    "3 1 1 1 142 7 2 6 4 1 28 10 42 5 1 4 18 11 46 14 407 8 1 7 83 22 1 14 122 6 3 1 1 2 1 3 1 ",
    "1 3 1 66 5 1 2 1 4 348 4 9 2 1 1 48 7 3 3 20494 1 1 55 7 4 93 2 19628 1 9057 7 1 17 2 7 1 ",
    "2 1 5 100 1 2231 1 2024 26 6 26 6 26 "]

/-- The runs of `otherAlphabetic`. -/
def otherAlphabeticRuns : List Nat :=
  numbersOf otherAlphabetic.toList

/-- Is the character alphabetic? -/
def isAlphabetic (character : Char) : Bool :=
  let category := Category.ofChar character
  category.isLetter || category == .letterNumber ||
    inEvenRun otherAlphabeticRuns character.toNat

/-- Is the character alphabetic or a number? -/
def isAlphanumeric (character : Char) : Bool :=
  isAlphabetic character || (Category.ofChar character).isNumber

/-- The upper-case characters that are no letters: Roman numerals and circled letters. -/
def isOtherUppercase (code : Nat) : Bool :=
  (0x2160 ≤ code && code ≤ 0x216F) ||
    (0x24B6 ≤ code && code ≤ 0x24CF) ||
    (0x1F130 ≤ code && code ≤ 0x1F149) ||
    (0x1F150 ≤ code && code ≤ 0x1F169) ||
    (0x1F170 ≤ code && code ≤ 0x1F189)

/-- Is the character upper case? -/
def isUppercase (character : Char) : Bool :=
  Category.ofChar character == .uppercaseLetter || isOtherUppercase character.toNat

/-- The lower-case characters of other categories than lower-case letters. -/
def otherLowercase : String :=
  String.join [
    "170 1 15 1 501 9 7 2 30 5 96 1 52 1 3457 1 3119 63 13 1 34 37 689 1 13 1 16 13 211 16 848 ",
    "26 1938 2 31262 2 210 1 129 3 3 2 866 4 9 1 23574 1 2 3 1 42 1 9 55413 62 "]

/-- The runs of `otherLowercase`. -/
def otherLowercaseRuns : List Nat :=
  numbersOf otherLowercase.toList

/-- Is the character lower case? -/
def isLowercase (character : Char) : Bool :=
  Category.ofChar character == .lowercaseLetter ||
    inEvenRun otherLowercaseRuns character.toNat

/-- Is the character blank: a space, or one that ends a line or a page? -/
def isBlank (character : Char) : Bool :=
  let code := character.toNat
  (0x9 ≤ code && code ≤ 0xD) ||
    code == 0x20 ||
    code == 0x85 ||
    code == 0xA0 ||
    code == 0x1680 ||
    (0x2000 ≤ code && code ≤ 0x200A) ||
    (0x2028 ≤ code && code ≤ 0x2029) ||
    code == 0x202F ||
    code == 0x205F ||
    code == 0x3000

/-- Is the character a decimal digit of any script? -/
def isDigit (character : Char) : Bool :=
  Category.ofChar character == .decimalNumber

/--
Is the character part of a word: alphabetic, a mark, a decimal digit, a
connector such as the low line, or a joiner?
-/
def isWord (character : Char) : Bool :=
  let category := Category.ofChar character
  isAlphabetic character || category.isMark || category == .decimalNumber ||
    category == .connectorPunctuation || character == '\u200C' || character == '\u200D'

end QueryGateway.Unicode
