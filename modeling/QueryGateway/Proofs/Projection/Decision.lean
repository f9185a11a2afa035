/-!
# Demands in order

A computation that checks one condition after another and stops at the first
one that is not met decides a list of demands: it has a result if and only if
all of them are met, and otherwise its error is the violation of the first
demand that is not met.

Computations that follow one another decide their demands one behind the other.
-/

namespace QueryGateway.Projection

/-- The first demand that is not met has the error as its violation. -/
def FirstViolation {δ ε : Type} (isMet : δ → Prop) (violation : δ → ε) (demands : List δ)
    (error : ε) : Prop :=
  ∃ before demand after, demands = before ++ demand :: after ∧
    (∀ earlier ∈ before, isMet earlier) ∧ ¬ isMet demand ∧ violation demand = error

/-- The result of a computation tells which demands are met. -/
inductive Decides {δ ε α : Type} (isMet : δ → Prop) (violation : δ → ε) (demands : List δ) :
    Except ε α → Prop where
  | ok
      {value : α}
      (allMet : ∀ demand ∈ demands, isMet demand) :
      Decides isMet violation demands (.ok value)
  | error
      {error : ε}
      (first : FirstViolation isMet violation demands error) :
      Decides isMet violation demands (.error error)

variable
    {δ ε α β : Type}
    {isMet : δ → Prop}
    {violation : δ → ε}
    {demands others : List δ}

namespace FirstViolation

variable {error other : ε}

theorem not_all
    (first : FirstViolation isMet violation demands error) :
    ¬ ∀ demand ∈ demands, isMet demand := by
  obtain ⟨before, demand, after, rfl, _, notMet, _⟩ := first
  intro allMet
  exact notMet (allMet demand (by simp))

theorem head
    {demand : δ}
    (notMet : ¬ isMet demand)
    (demands : List δ) :
    FirstViolation isMet violation (demand :: demands) (violation demand) :=
  ⟨[], demand, demands, rfl, by simp, notMet, rfl⟩

theorem append
    (first : FirstViolation isMet violation demands error)
    (others : List δ) :
    FirstViolation isMet violation (demands ++ others) error := by
  obtain ⟨before, demand, after, rfl, earlier, notMet, isError⟩ := first
  exact ⟨before, demand, after ++ others, by simp, earlier, notMet, isError⟩

theorem behind
    (allMet : ∀ demand ∈ demands, isMet demand)
    (first : FirstViolation isMet violation others error) :
    FirstViolation isMet violation (demands ++ others) error := by
  obtain ⟨before, demand, after, rfl, earlier, notMet, isError⟩ := first
  refine ⟨demands ++ before, demand, after, by simp, ?_, notMet, isError⟩
  intro met isEarlier
  rcases List.mem_append.mp isEarlier with isDemand | isBefore
  · exact allMet met isDemand
  · exact earlier met isBefore

theorem of_cons
    {demand : δ}
    (first : FirstViolation isMet violation (demand :: demands) error) :
    (¬ isMet demand ∧ violation demand = error) ∨
      isMet demand ∧ FirstViolation isMet violation demands error := by
  obtain ⟨before, found, after, split, earlier, notMet, isError⟩ := first
  cases before with
  | nil =>
      cases split
      exact .inl ⟨notMet, isError⟩
  | cons _ before =>
      cases split
      refine .inr ⟨earlier demand (by simp), before, found, after, rfl, ?_, notMet, isError⟩
      intro met isBefore
      exact earlier met (List.mem_cons_of_mem _ isBefore)

/-- Some demands have one first violation at most. -/
theorem unique
    (left : FirstViolation isMet violation demands error)
    (right : FirstViolation isMet violation demands other) :
    error = other := by
  induction demands with
  | nil => exact (left.not_all (by simp)).elim
  | cons demand demands induction =>
      rcases left.of_cons with ⟨notMet, rfl⟩ | ⟨met, left⟩
      · rcases right.of_cons with ⟨_, rfl⟩ | ⟨met, _⟩
        · rfl
        · exact (notMet met).elim
      · rcases right.of_cons with ⟨notMet, _⟩ | ⟨_, right⟩
        · exact (notMet met).elim
        · exact induction left right

end FirstViolation

namespace Decides

theorem nil
    (isMet : δ → Prop)
    (violation : δ → ε)
    (value : α) :
    Decides isMet violation [] (.ok value) :=
  .ok (by simp)

/-- The second computation decides the demands behind those of the first one. -/
theorem bind
    {first : Except ε α}
    {next : α → Except ε β}
    (ofFirst : Decides isMet violation demands first)
    (ofNext : ∀ value, first = .ok value → Decides isMet violation others (next value)) :
    Decides isMet violation (demands ++ others) (first >>= next) := by
  cases ofFirst with
  | error violated => exact .error (violated.append others)
  | @ok value allMet =>
      have rest := ofNext value rfl
      change Decides isMet violation (demands ++ others) (next value)
      generalize next value = result at rest ⊢
      cases rest with
      | error violated => exact .error (violated.behind allMet)
      | ok othersMet =>
          refine .ok ?_
          intro demand isDemand
          rcases List.mem_append.mp isDemand with isDemand | isOther
          · exact allMet demand isDemand
          · exact othersMet demand isOther

/-- What is done with a result demands nothing more. -/
theorem bind_ok
    {first : Except ε α}
    {next : α → Except ε β}
    (ofFirst : Decides isMet violation demands first)
    (succeeds : ∀ value, first = .ok value → ∃ result, next value = .ok result) :
    Decides isMet violation demands (first >>= next) := by
  rw [← List.append_nil demands]
  refine ofFirst.bind ?_
  intro value isValue
  obtain ⟨result, isResult⟩ := succeeds value isValue
  rw [isResult]
  exact .nil _ _ result

/-- One demand in front of a computation. -/
theorem cons
    {demand : δ}
    {result : Except ε α}
    (met : isMet demand)
    (decides : Decides isMet violation demands result) :
    Decides isMet violation (demand :: demands) result := by
  cases decides with
  | ok allMet =>
      refine .ok ?_
      intro other isDemand
      rcases List.mem_cons.mp isDemand with rfl | isDemand
      · exact met
      · exact allMet other isDemand
  | error violated =>
      have met : ∀ other ∈ [demand], isMet other := by
        simpa using met
      exact .error (violated.behind met)

/-- Demands and errors told in other words. -/
theorem translate
    {δ' ε' : Type}
    {otherIsMet : δ' → Prop}
    {otherViolation : δ' → ε'}
    {result : Except ε α}
    (decides : Decides isMet violation demands result)
    (demand : δ → δ')
    (error : ε → ε')
    (sameMet : ∀ told, otherIsMet (demand told) ↔ isMet told)
    (sameViolation : ∀ told, otherViolation (demand told) = error (violation told))
    {other : Except ε' β}
    (ofOk : ∀ value, result = .ok value → ∃ otherValue, other = .ok otherValue)
    (ofError : ∀ reason, result = .error reason → other = .error (error reason)) :
    Decides otherIsMet otherViolation (demands.map demand) other := by
  cases decides with
  | @ok value allMet =>
      obtain ⟨otherValue, isOther⟩ := ofOk value rfl
      rw [isOther]
      refine .ok ?_
      intro told isTold
      obtain ⟨original, isOriginal, rfl⟩ := List.mem_map.mp isTold
      exact (sameMet original).mpr (allMet original isOriginal)
  | @error reason violated =>
      rw [ofError reason rfl]
      obtain ⟨before, first, after, rfl, earlier, notMet, rfl⟩ := violated
      refine .error ⟨before.map demand, demand first, after.map demand, by simp, ?_, ?_, ?_⟩
      · intro told isTold
        obtain ⟨original, isOriginal, rfl⟩ := List.mem_map.mp isTold
        exact (sameMet original).mpr (earlier original isOriginal)
      · intro met
        exact notMet ((sameMet first).mp met)
      · exact sameViolation first

/-- The result tells whether all demands are met. -/
theorem ok_iff
    {result : Except ε α}
    (decides : Decides isMet violation demands result) :
    (∃ value, result = .ok value) ↔ ∀ demand ∈ demands, isMet demand := by
  cases decides with
  | @ok value allMet => exact ⟨fun _ => allMet, fun _ => ⟨value, rfl⟩⟩
  | error violated =>
      constructor
      · rintro ⟨value, isValue⟩
        cases isValue
      · intro allMet
        exact (violated.not_all allMet).elim

/-- The error tells the first demand that is not met. -/
theorem error_iff
    {result : Except ε α}
    (decides : Decides isMet violation demands result)
    (error : ε) :
    result = .error error ↔ FirstViolation isMet violation demands error := by
  cases decides with
  | ok allMet =>
      constructor
      · intro isError
        cases isError
      · intro violated
        exact (violated.not_all allMet).elim
  | error violated =>
      constructor
      · intro isError
        cases isError
        exact violated
      · intro alsoViolated
        rw [violated.unique alsoViolated]

end Decides

end QueryGateway.Projection
