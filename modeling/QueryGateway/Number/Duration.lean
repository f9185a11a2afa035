/-!
# Durations in words

A duration is shown in the greatest unit of which it has at least one: seconds,
milliseconds, microseconds or nanoseconds.  Decimals follow as far as they are
needed.
-/

namespace QueryGateway

/-- A duration. -/
structure Duration where
  nanoseconds : Nat
deriving DecidableEq, Repr

namespace Duration

/-- A number of milliseconds. -/
def ofMilliseconds (count : Nat) : Duration :=
  ⟨count * Nat.pow 10 6⟩

/-- The decimals of a fraction, given by its numerator over a power of ten, without zeros at
the end. -/
def decimals : Nat → Nat → List Char
  | 0, _ => []
  | places + 1, numerator =>
      if numerator = 0 then []
      else
        Nat.digitChar (numerator / Nat.pow 10 places) ::
          decimals places (numerator % Nat.pow 10 places)

/-- A number of units of `10 ^ places` nanoseconds. -/
def inUnit (places : Nat) (unit : String) (duration : Duration) : String :=
  let fraction := decimals places (duration.nanoseconds % Nat.pow 10 places)
  toString (duration.nanoseconds / Nat.pow 10 places) ++
    (if fraction.isEmpty then "" else "." ++ String.ofList fraction) ++ unit

/-- A duration in words. -/
def render (duration : Duration) : String :=
  if duration.nanoseconds ≥ Nat.pow 10 9 then duration.inUnit 9 "s"
  else if duration.nanoseconds ≥ Nat.pow 10 6 then duration.inUnit 6 "ms"
  else if duration.nanoseconds ≥ Nat.pow 10 3 then duration.inUnit 3 "µs"
  else duration.inUnit 0 "ns"

end Duration

end QueryGateway
