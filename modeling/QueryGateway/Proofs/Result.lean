/-!
# Computations that succeed

When computations that may fail are put together, all of them have succeeded if
the whole has.
-/

namespace QueryGateway

variable
    {ε α β : Type}

theorem bind_eq_ok
    {first : Except ε α}
    {next : α → Except ε β}
    {result : β} :
    first >>= next = .ok result ↔ ∃ value, first = .ok value ∧ next value = .ok result := by
  cases first with
  | error error => simp [bind, Except.bind]
  | ok value => simp [bind, Except.bind]

theorem mapError_eq_ok
    {attempt : Except ε α}
    {translate : ε → β}
    {result : α} :
    attempt.mapError translate = .ok result ↔ attempt = .ok result := by
  cases attempt with
  | error error =>
      constructor
      · rintro ⟨⟩
      · rintro ⟨⟩
  | ok value =>
      constructor
      · rintro ⟨⟩
        rfl
      · rintro ⟨⟩
        rfl

end QueryGateway
