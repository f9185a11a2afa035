import Mathlib.Data.List.TakeWhile

/-!
# Runs of characters of a kind

A run of characters of one kind is taken off the front of a text as far as it
goes: it ends where a character of another kind stands, or with the text.
-/

namespace QueryGateway

/-- What follows does not start with a character of a kind. -/
def StopsAt (kind : Char → Bool) (rest : List Char) : Prop :=
  ∀ character, rest.head? = some character → kind character = false

theorem stopsAt_nil
    (kind : Char → Bool) :
    StopsAt kind [] :=
  nofun

theorem stopsAt_cons
    {kind : Char → Bool}
    {character : Char}
    (notKind : kind character = false)
    (rest : List Char) :
    StopsAt kind (character :: rest) := by
  rintro _ ⟨⟩
  exact notKind

theorem takeWhile_append_of_stopsAt
    {condition : Char → Bool}
    {characters rest : List Char}
    (all : ∀ character ∈ characters, condition character = true)
    (stops : StopsAt condition rest) :
    (characters ++ rest).takeWhile condition = characters ∧
      (characters ++ rest).dropWhile condition = rest := by
  rw [List.takeWhile_append_of_pos all, List.dropWhile_append_of_pos all]
  cases rest with
  | nil => simp
  | cons character rest =>
      have notMet := stops character rfl
      simp [notMet]

theorem stopsAt_dropWhile
    (kind : Char → Bool)
    (text : List Char) :
    StopsAt kind (text.dropWhile kind) := by
  intro character first
  have notKind := List.head?_dropWhile_not kind text
  rw [first] at notKind
  exact notKind

end QueryGateway
