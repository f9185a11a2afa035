import QueryGateway.Routing.Table

/-!
# What a change does to a table

Each function that changes a table is described by where the mapping it is about
stands among the others: between mappings in front of it, none of which has its
id, and mappings behind it.  What is in front and behind stays as it is.

Mappings are refused for the first id that has come up before, which is the same
as that their ids are not distinct.
-/

namespace QueryGateway.Routing

/-! ## Repeated ids -/

theorem firstRepeated?_eq_none_iff
    {seen ids : List String} :
    firstRepeated? seen ids = none ↔ ids.Nodup ∧ ∀ id ∈ ids, id ∉ seen := by
  induction ids generalizing seen with
  | nil => simp [firstRepeated?]
  | cons first ids induction =>
      rw [firstRepeated?, List.nodup_cons]
      by_cases known : first ∈ seen
      · simp [known]
      · simp only [List.contains_iff_mem, known, if_false, induction, List.mem_cons,
          forall_eq_or_imp, not_false_eq_true, true_and, not_or]
        constructor
        · rintro ⟨distinct, fresh⟩
          exact ⟨⟨fun again => (fresh first again).1 rfl, distinct⟩,
            fun id member => (fresh id member).2⟩
        · rintro ⟨⟨notAgain, distinct⟩, fresh⟩
          refine ⟨distinct, fun id member => ⟨?_, fresh id member⟩⟩
          rintro rfl
          exact notAgain member

/-- The id that is reported came up before, and it is the first one that did. -/
theorem exists_of_firstRepeated?
    {seen ids : List String}
    {id : String}
    (repeated : firstRepeated? seen ids = some id) :
    ∃ front back,
      ids = front ++ id :: back ∧
        (id ∈ front ∨ id ∈ seen) ∧
        front.Nodup ∧
        ∀ other ∈ front, other ∉ seen := by
  induction ids generalizing seen with
  | nil => simp [firstRepeated?] at repeated
  | cons first ids induction =>
      rw [firstRepeated?] at repeated
      by_cases known : first ∈ seen
      · simp only [List.contains_iff_mem, known, if_true, Option.some.injEq] at repeated
        subst repeated
        exact ⟨[], ids, rfl, .inr known, List.nodup_nil, by simp⟩
      · simp only [List.contains_iff_mem, known, if_false] at repeated
        obtain ⟨front, back, rfl, before, distinct, fresh⟩ := induction repeated
        refine ⟨first :: front, back, rfl, ?_, ?_, ?_⟩
        · rcases before with inFront | known
          · exact .inl (List.mem_cons_of_mem _ inFront)
          · rcases List.mem_cons.mp known with rfl | old
            · exact .inl List.mem_cons_self
            · exact .inr old
        · refine List.nodup_cons.mpr ⟨fun again => ?_, distinct⟩
          exact fresh first again List.mem_cons_self
        · intro other member
          rcases List.mem_cons.mp member with rfl | member
          · exact known
          · exact fun old => fresh other member (List.mem_cons_of_mem _ old)

theorem ensureDistinct_of_nodup
    {mappings : List Mapping}
    (distinct : (mappings.map (·.id)).Nodup) :
    ensureDistinct mappings = .ok () := by
  have noneRepeated : firstRepeated? [] (mappings.map (·.id)) = none :=
    firstRepeated?_eq_none_iff.mpr ⟨distinct, fun _ _ => List.not_mem_nil⟩
  rw [ensureDistinct, noneRepeated]

/-- Mappings that are refused have an id that stands behind itself. -/
theorem exists_repeated_of_not_nodup
    {mappings : List Mapping}
    (repeats : ¬ (mappings.map (·.id)).Nodup) :
    ∃ front id back,
      mappings.map (·.id) = front ++ id :: back ∧
        id ∈ front ∧
        front.Nodup ∧
        ensureDistinct mappings = .error (.duplicateId id) := by
  cases found : firstRepeated? [] (mappings.map (·.id)) with
  | none => exact absurd (firstRepeated?_eq_none_iff.mp found).1 repeats
  | some id =>
      obtain ⟨front, back, ids, before, distinct, _⟩ := exists_of_firstRepeated? found
      refine ⟨front, id, back, ids, ?_, distinct, ?_⟩
      · simpa using before
      · rw [ensureDistinct, found]

namespace Table

/-- A table is made of mappings with distinct ids, and of no others. -/
theorem ofMappings_eq_ok_iff
    {mappings : List Mapping}
    {table : Table} :
    ofMappings mappings = .ok table ↔ (mappings.map (·.id)).Nodup ∧ table = ⟨mappings, 0⟩ := by
  by_cases distinct : (mappings.map (·.id)).Nodup
  · rw [ofMappings, ensureDistinct_of_nodup distinct]
    simp [distinct, bind, Except.bind, pure, Except.pure, eq_comm]
  · obtain ⟨_, _, _, _, _, _, refused⟩ := exists_repeated_of_not_nodup distinct
    rw [ofMappings, refused]
    simp [distinct, bind, Except.bind]

/-! ## The place of a mapping -/

/-- A mapping is the first one with an id, and stands between other mappings. -/
structure Holds (table : Table) (id : String) (front : List Mapping) (held : Mapping)
    (back : List Mapping) : Prop where
  split : table.mappings = front ++ held :: back
  hasId : held.id = id
  isFirst : ∀ mapping ∈ front, mapping.id ≠ id

theorem exists_holds
    {table : Table}
    {id : String}
    (known : id ∈ table.ids) :
    ∃ front held back, table.Holds id front held back := by
  obtain ⟨mapping, member, hasId⟩ := List.mem_map.mp known
  cases found : table.mappings.find? (·.id = id) with
  | none =>
      have absent := List.find?_eq_none.mp found mapping member
      exact absurd hasId (by simpa using absent)
  | some held =>
      obtain ⟨heldId, front, back, split, others⟩ := List.find?_eq_some_iff_append.mp found
      exact ⟨front, held, back, split, by simpa using heldId, by simpa using others⟩

namespace Holds

variable
    {table : Table}
    {id : String}
    {front back : List Mapping}
    {held : Mapping}

theorem delete_eq
    (holds : table.Holds id front held back) :
    table.delete id = .ok (held, table.publish (front ++ back)) := by
  have found : table.mappings.find? (·.id = id) = some held :=
    List.find?_eq_some_iff_append.mpr
      ⟨by simp [holds.hasId], front, back, holds.split, by simpa using holds.isFirst⟩
  have erased : table.mappings.eraseP (·.id = id) = front ++ back := by
    rw [holds.split, List.eraseP_append_right _ (by simpa using holds.isFirst),
      List.eraseP_cons_of_pos (by simp [holds.hasId])]
  rw [delete, found, erased]

theorem put_eq
    {mapping : Mapping}
    (holds : table.Holds mapping.id front held back) :
    table.put mapping = .ok (table.publish (front ++ mapping :: back)) := by
  have place : table.mappings.findIdx? (·.id = mapping.id) = some front.length := by
    have notInFront : front.findIdx? (·.id = mapping.id) = none :=
      List.findIdx?_eq_none_iff.mpr (by simpa using holds.isFirst)
    rw [holds.split, List.findIdx?_append, notInFront, List.findIdx?_cons]
    simp [holds.hasId]
  rw [put, place, holds.split]
  simp

end Holds

theorem put_of_unknown
    {table : Table}
    {mapping : Mapping}
    (unknown : mapping.id ∉ table.ids) :
    table.put mapping = .error (.notFound mapping.id) := by
  have noPlace : table.mappings.findIdx? (·.id = mapping.id) = none := by
    refine List.findIdx?_eq_none_iff.mpr fun other member => decide_eq_false fun same => ?_
    exact unknown (List.mem_map.mpr ⟨other, member, same⟩)
  rw [put, noPlace]

theorem delete_of_unknown
    {table : Table}
    {id : String}
    (unknown : id ∉ table.ids) :
    table.delete id = .error (.notFound id) := by
  have notFound : table.mappings.find? (·.id = id) = none := by
    refine List.find?_eq_none.mpr fun other member => ?_
    simp only [decide_eq_true_eq]
    exact fun same => unknown (List.mem_map.mpr ⟨other, member, same⟩)
  rw [delete, notFound]

theorem add_of_new
    {table : Table}
    {mapping : Mapping}
    (isNew : mapping.id ∉ table.ids) :
    table.add mapping = .ok (table.publish (table.mappings ++ [mapping])) := by
  simp [add, isNew]

theorem add_of_known
    {table : Table}
    {mapping : Mapping}
    (known : mapping.id ∈ table.ids) :
    table.add mapping = .error (.duplicateId mapping.id) := by
  simp [add, known]

/-! ## The ids afterwards -/

end Table

end QueryGateway.Routing
