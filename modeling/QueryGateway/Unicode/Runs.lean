import QueryGateway.Text.Digits

/-!
# Tables written as runs

A property of characters is constant on long stretches of the code space.  A
table is therefore written as a text that gives, from the first code on, the
length of each stretch.  This module reads such texts and looks codes up.
-/

namespace QueryGateway.Unicode

/-- Numbers with blanks between them. -/
def numbersOf (text : List Char) : List Nat :=
  ((text.splitOnP (· == ' ')).filter (!·.isEmpty)).map Digits.natural

/-- The value whose run a position falls into, where runs follow one another from zero. -/
def runAt? {α : Type} : List (α × Nat) → Nat → Option α
  | [], _ => none
  | (value, length) :: runs, position =>
      if position < length then some value else runAt? runs (position - length)

/--
Does a position fall into a second, fourth, … run?  Runs of codes without a
property and of codes with it alternate, and the first one is without it.
-/
def inEvenRun : List Nat → Nat → Bool
  | without :: within :: runs, position =>
      if position < without then false
      else if position < without + within then true
      else inEvenRun runs (position - without - within)
  | _, _ => false

end QueryGateway.Unicode
