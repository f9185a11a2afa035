import Mathlib.Data.List.TakeWhile
import QueryGateway.Uri.Target

/-!
# Targets of addresses with a fragment

A fragment says nothing about what is asked for, and no target has one.  An
absolute address is read up to the first `#`, and what follows this character
does not matter, except that it makes the address longer: an address that is
too long is no target.

Other addresses are no absolute ones, with a fragment or without.
-/

namespace QueryGateway.Uri

/-! ## Texts with a mark in them -/

section

variable
    (condition : Char → Bool)
    (stops : condition '#' = false)
    (front back : List Char)

include stops

theorem takeWhile_append_mark :
    (front ++ '#' :: back).takeWhile condition = front.takeWhile condition := by
  induction front with
  | nil => simp [stops]
  | cons character front induction =>
      rw [List.cons_append, List.takeWhile_cons, List.takeWhile_cons, induction]

theorem dropWhile_append_mark :
    (front ++ '#' :: back).dropWhile condition = front.dropWhile condition ++ '#' :: back := by
  induction front with
  | nil => simp [stops]
  | cons character front induction =>
      rw [List.cons_append, List.dropWhile_cons, List.dropWhile_cons, induction]
      split <;> rfl

end

/-! ## Addresses with a fragment -/

/-- The characters of an address in front of the first `#`. -/
def upToFragment (address : String) : List Char :=
  address.toList.takeWhile (· != '#')

theorem upToFragment_append_fragment
    (address fragment : String) :
    upToFragment (address ++ "#" ++ fragment) = upToFragment address := by
  have characters :
      (address ++ "#" ++ fragment).toList = address.toList ++ '#' :: fragment.toList := by
    simp
  rw [upToFragment, characters, takeWhile_append_mark _ (by rfl), upToFragment]

namespace Target

/-- The target that an absolute address stands for, however long it is. -/
def absoluteOf? (address : List Char) : Option Target :=
  (splitScheme? address).bind fun (scheme, rest) => absolute? scheme rest

theorem splitScheme?_append_fragment
    (address rest : List Char) :
    splitScheme? (address ++ '#' :: rest) =
      (splitScheme? address).map fun (scheme, behind) => (scheme, behind ++ '#' :: rest) := by
  rw [splitScheme?, splitScheme?, dropWhile_append_mark _ (by rfl),
    takeWhile_append_mark _ (by rfl)]
  match address.dropWhile isSchemeChar with
  | [] => rfl
  | [first] =>
      by_cases isColon : first = ':' <;> simp [isColon]
  | [first, second] =>
      by_cases isColon : first = ':' <;> simp [isColon]
  | first :: second :: third :: _ =>
      by_cases isColon : first = ':'
      · by_cases isSlash : second = '/'
        · by_cases isSlashToo : third = '/' <;> simp [isColon, isSlash, isSlashToo]
        · simp [isSlash]
      · simp [isColon]

theorem absolute?_append_fragment
    (scheme address rest : List Char) :
    absolute? scheme (address ++ '#' :: rest) = absolute? scheme address := by
  simp only [absolute?]
  rw [dropWhile_append_mark _ (by rfl), takeWhile_append_mark _ (by rfl)]
  simp only [pathAndQuery?]
  rw [takeWhile_append_mark _ (by rfl)]

theorem absoluteOf?_append_fragment
    (address rest : List Char) :
    absoluteOf? (address ++ '#' :: rest) = absoluteOf? address := by
  rw [absoluteOf?, absoluteOf?, splitScheme?_append_fragment]
  cases splitScheme? address with
  | none => rfl
  | some parts => exact absolute?_append_fragment _ _ rest

theorem absoluteOf?_upToFragment
    (address : String) :
    absoluteOf? (upToFragment address) = absoluteOf? address.toList := by
  have split := List.takeWhile_append_dropWhile (p := (· != '#')) (l := address.toList)
  have head := List.head?_dropWhile_not (· != '#') address.toList
  rw [upToFragment]
  generalize address.toList = characters at *
  cases behind : characters.dropWhile (· != '#') with
  | nil =>
      rw [behind, List.append_nil] at split
      rw [split]
  | cons first others =>
      have isMark : first = '#' := by
        simpa [behind] using head
      rw [behind, isMark] at split
      calc
        absoluteOf? (characters.takeWhile (· != '#')) =
            absoluteOf? (characters.takeWhile (· != '#') ++ '#' :: others) :=
          (absoluteOf?_append_fragment _ _).symm
        _ = absoluteOf? characters := by rw [split]

/-- A target with a scheme is an absolute address, which is read up to its fragment. -/
theorem ofString?_eq_some_iff
    {address : String}
    {target : Target}
    (hasScheme : target.scheme.isSome) :
    ofString? address = some target ↔
      address.utf8ByteSize ≤ longestTarget ∧ absoluteOf? (upToFragment address) = some target := by
  rw [absoluteOf?_upToFragment, ofString?]
  split
  · rename_i tooLong
    simp [Nat.not_le.mpr tooLong]
  · rename_i fits
    simp only [Nat.not_lt.mp fits, true_and, absoluteOf?]
    split
    · rename_i isStar
      rw [isStar]
      refine ⟨?_, nofun⟩
      rintro ⟨⟩
      cases hasScheme
    · rename_i rest isPath
      rw [isPath]
      refine ⟨fun isTarget => ?_, nofun⟩
      obtain ⟨read, _, rfl⟩ := Option.map_eq_some_iff.mp isTarget
      cases hasScheme
    · cases splitScheme? address.toList with
      | some parts => rfl
      | none =>
          refine ⟨fun isTarget => ?_, nofun⟩
          simp only [authorityAlone?] at isTarget
          split at isTarget
          · cases isTarget
            cases hasScheme
          · cases isTarget

end Target

end QueryGateway.Uri
