import QueryGateway.Text.Bytes
import QueryGateway.Unicode.Category
import QueryGateway.Unicode.Folding
import QueryGateway.Uri.Punycode

/-!
# Domain names

A domain name is brought to one form, in ASCII and lower case.  Case is folded,
full-width characters and full stops of other scripts become those of ASCII,
and characters that do not show are left out.  A label that is not ASCII after
that is written in Punycode, with a mark in front.

Two steps that bring such names to one form are left out: the canonical
composition of characters (NFC), and the compatibility mapping of UTS 46 beyond
what is named above.  A name with characters that they change, such as a letter
and a mark that compose, or a ligature, keeps these characters and becomes
another host.
-/

namespace QueryGateway.Uri.DomainName

/-- May the character, of ASCII, never stand in a domain name? -/
def isForbidden (character : Char) : Bool :=
  character.toNat ≤ 0x20 || character.toNat == 0x7F || "%#/:<>?@[\\]^|".toList.contains character

/-- Is the character left out? -/
def isIgnored (code : Nat) : Bool :=
  [0xAD, 0x34F, 0x200B, 0x2060, 0x2064, 0xFEFF].contains code ||
    (0x180B ≤ code && code ≤ 0x180F) || (0xFE00 ≤ code && code ≤ 0xFE0F)

/-- What a character is replaced with. -/
def mapped (character : Char) : List Char :=
  let code := character.toNat
  if code < 0x80 then [character.toLower]
  else if isIgnored code then []
  else if [0x3002, 0xFF0E, 0xFF61].contains code then ['.']
  else if 0xFF01 ≤ code && code ≤ 0xFF5E then [(Char.ofNat (code - 0xFEE0)).toLower]
  else if character = 'ς' then [character]
  else [Char.ofNat (Unicode.foldCode code)]

/-- The categories of characters that are no part of any name. -/
def refusedCategories : List Unicode.Category :=
  [.control, .format, .surrogate, .privateUse, .unassigned, .spaceSeparator, .lineSeparator,
    .paragraphSeparator]

/-- May a label hold the character?  The sign for a character that could not be read may not. -/
def isAllowed (character : Char) : Bool :=
  if character.toNat < 0x80 then
    !isForbidden character
  else
    character.toNat != 0xFFFD &&
      !refusedCategories.contains (Unicode.Category.ofChar character)

/-- Does the label start with a mark, which has nothing to combine with? -/
def startsWithMark (label : List Char) : Bool :=
  label.head?.any fun character => (Unicode.Category.ofChar character).isMark

/-- Is the label fit to be written in Punycode? -/
def isInternational (label : List Char) : Bool :=
  label.any (·.toNat ≥ 0x80) && label.all isAllowed && !startsWithMark label

/-- What stands in front of a label in Punycode. -/
def mark : List Char := "xn--".toList

/-- A mapped label in ASCII, if it is allowed. -/
def label? (label : List Char) : Option (List Char) :=
  if label.all (·.toNat < 0x80) then
    if !label.all isAllowed then
      none
    else if mark.isPrefixOf label then
      match Punycode.decode? (label.drop mark.length) with
      | some decoded =>
          if isInternational decoded && decoded.flatMap mapped == decoded then some label else none
      | none => none
    else
      some label
  else if isInternational label then
    some (mark ++ Punycode.encode label)
  else
    none

/-- A domain name in ASCII, if all its labels are allowed. -/
def ascii? (name : List Char) : Option String := do
  let labels ← ((name.flatMap mapped).splitOnP (· == '.')).mapM label?
  return String.ofList (['.'].intercalate labels)

end QueryGateway.Uri.DomainName
