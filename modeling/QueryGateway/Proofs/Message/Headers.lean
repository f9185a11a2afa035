import Mathlib.Data.List.Basic
import QueryGateway.Message.Headers

/-!
# The values of a name

What stands under one name does not depend on the other names.  So headers are
known by the values of their names, and every way to change headers has a lemma
that tells the values it leaves.
-/

namespace QueryGateway.Message.Headers

variable
    (headers : Headers)
    (name : String)

@[simp]
theorem values_keep
    (condition : String → Bool) :
    (headers.keep condition).values name = if condition name then headers.values name else [] := by
  rw [values, keep, List.filterMap_filter]
  -- Only fields of this name count, and for them the condition is decided.
  cases holds : condition name with
  | true =>
      refine List.filterMap_congr fun field _ => ?_
      by_cases same : field.1 = name <;> simp [same, holds]
  | false =>
      refine List.filterMap_eq_nil_iff.mpr fun field _ => ?_
      by_cases same : field.1 = name <;> simp [same, holds]

@[simp]
theorem values_without
    (names : List String) :
    (headers.without names).values name = if name ∈ names then [] else headers.values name := by
  by_cases member : name ∈ names <;> simp [without, member]

@[simp]
theorem values_append
    (other : String)
    (value : Bytes) :
    (headers.append other value).values name =
      headers.values name ++ if other = name then [value] else [] := by
  by_cases same : other = name <;> simp [values, append, same]

@[simp]
theorem values_put
    (other : String)
    (value : Bytes) :
    (headers.put other value).values name =
      if other = name then [value] else headers.values name := by
  by_cases same : other = name
  · simp [put, same]
  · simp [put, same, Ne.symm same]

@[simp]
theorem values_putText
    (other text : String) :
    (headers.putText other text).values name =
      if other = name then [Bytes.ofString text] else headers.values name := by
  rw [putText, values_put]

theorem first?_eq_head? :
    headers.first? name = (headers.values name).head? := by
  obtain ⟨fields⟩ := headers
  simp only [first?, values]
  induction fields with
  | nil => rfl
  | cons field fields induction =>
      obtain ⟨other, value⟩ := field
      rw [List.lookup_cons, List.filterMap_cons]
      by_cases same : other = name
      · simp [same]
      · have different : (name == other) = false := by simpa using Ne.symm same
        simp [same, different, induction]

theorem contains_eq :
    headers.contains name = !(headers.values name).isEmpty := by
  obtain ⟨fields⟩ := headers
  simp only [contains, values]
  induction fields with
  | nil => rfl
  | cons field fields induction =>
      by_cases same : field.1 = name <;> simp_all

end QueryGateway.Message.Headers
