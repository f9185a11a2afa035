import QueryGateway.Json.Value

/-!
# JSON values by induction

Values are nested through the elements of arrays and the members of objects.
What holds of scalars, and of an array or object if it holds of every value
directly inside it, holds of every value.

The keys of an object that is built by insertion stand in the order in which
they came up first, and each has the value that came up last.
-/

namespace QueryGateway.Json

/-- Is it neither an array nor an object? -/
def Value.isScalar : Value → Bool
  | .array _ => false
  | .object _ => false
  | _ => true

/-- Values by induction on what is directly inside them. -/
@[elab_as_elim]
theorem Value.inside_induction
    {motive : Value → Prop}
    (scalar : ∀ value, value.isScalar = true → motive value)
    (array : ∀ elements, (∀ element ∈ elements, motive element) → motive (.array elements))
    (object :
      ∀ members, (∀ key value, (key, value) ∈ members → motive value) →
        motive (.object members))
    (value : Value) :
    motive value := by
  -- The recursor also speaks of the lists of elements and of members, and of single members.
  refine @Value.rec motive
    (fun elements => ∀ element ∈ elements, motive element)
    (fun members => ∀ key value, (key, value) ∈ members → motive value)
    (fun member => motive member.2)
    ?_ ?_ ?_ ?_ array object ?_ ?_ ?_ ?_ ?_ value
  · exact scalar _ rfl
  · intro value
    exact scalar _ rfl
  · intro value
    exact scalar _ rfl
  · intro value
    exact scalar _ rfl
  · intro element isElement
    cases isElement
  · intro first elements ofFirst ofElements element isElement
    rcases List.mem_cons.mp isElement with rfl | isElement
    · exact ofFirst
    · exact ofElements element isElement
  · intro key value isMember
    cases isMember
  · intro first members ofFirst ofMembers key value isMember
    rcases List.mem_cons.mp isMember with isFirst | isMember
    · cases isFirst
      exact ofFirst
    · exact ofMembers key value isMember
  · intro key value ofValue
    exact ofValue

namespace Members

variable {α : Type}

@[simp]
theorem find?_nil
    (key : String) :
    find? ([] : List (String × α)) key = none :=
  rfl

theorem find?_cons
    (first : String × α)
    (members : List (String × α))
    (key : String) :
    find? (first :: members) key = if key = first.1 then some first.2 else find? members key := by
  rw [find?, List.lookup_cons]
  by_cases same : key = first.1
  · simp [same]
  · have different : (key == first.1) = false := beq_false_of_ne same
    simp [same, different, find?]

theorem mem_of_find?
    {members : List (String × α)}
    {key : String}
    {value : α}
    (found : find? members key = some value) :
    (key, value) ∈ members := by
  induction members with
  | nil => cases found
  | cons first members induction =>
      rw [find?_cons] at found
      split at found
      case isTrue same =>
        cases found
        cases same
        exact List.mem_cons_self
      case isFalse => exact List.mem_cons_of_mem _ (induction found)

/-- Where no key is repeated, every member is found. -/
theorem find?_eq_some_iff
    {members : List (String × α)}
    (distinct : (members.map (·.1)).Nodup)
    {key : String}
    {value : α} :
    find? members key = some value ↔ (key, value) ∈ members := by
  constructor
  · exact mem_of_find?
  · intro isMember
    induction members with
    | nil => cases isMember
    | cons first members induction =>
        obtain ⟨notAgain, distinct⟩ := List.nodup_cons.mp distinct
        rw [find?_cons]
        rcases List.mem_cons.mp isMember with rfl | isMember
        · exact if_pos rfl
        · have different : key ≠ first.1 := by
            rintro rfl
            exact notAgain (List.mem_map.mpr ⟨_, isMember, rfl⟩)
          rw [if_neg different, induction distinct isMember]

/-- A key that is put in comes last unless it is there already. -/
theorem keys_insert
    (key : String)
    (value : α)
    (members : List (String × α)) :
    (insert key value members).map (·.1) =
      if key ∈ members.map (·.1) then members.map (·.1) else members.map (·.1) ++ [key] := by
  induction members with
  | nil => simp [insert]
  | cons first members induction =>
      obtain ⟨other, old⟩ := first
      rw [insert]
      by_cases same : other = key
      · simp [same]
      · have different : ¬ key = other := fun equal => same equal.symm
        rw [if_neg same, List.map_cons, induction]
        by_cases isKey : key ∈ members.map (·.1)
        · simp [isKey]
        · simp [isKey, different]

theorem nodup_keys_insert
    {members : List (String × α)}
    (distinct : (members.map (·.1)).Nodup)
    (key : String)
    (value : α) :
    ((insert key value members).map (·.1)).Nodup := by
  rw [keys_insert]
  split
  case isTrue => exact distinct
  case isFalse isNew =>
    refine List.nodup_append.mpr ⟨distinct, by simp, ?_⟩
    rintro old isOld new isNewKey rfl
    rw [List.mem_singleton] at isNewKey
    exact isNew (isNewKey ▸ isOld)

/-- The members after a value has been put in are this one and those of other keys. -/
theorem mem_insert
    {key other : String}
    {value found : α}
    {members : List (String × α)}
    (distinct : (members.map (·.1)).Nodup)
    (isMember : (other, found) ∈ insert key value members) :
    other = key ∧ found = value ∨ other ≠ key ∧ (other, found) ∈ members := by
  induction members with
  | nil =>
      simp only [insert, List.mem_singleton, Prod.mk.injEq] at isMember
      exact .inl isMember
  | cons first members induction =>
      obtain ⟨firstKey, old⟩ := first
      obtain ⟨notAgain, distinct⟩ := List.nodup_cons.mp distinct
      rw [insert] at isMember
      split at isMember
      case isTrue same =>
        subst same
        rcases List.mem_cons.mp isMember with isFirst | isOld
        · cases isFirst
          exact .inl ⟨rfl, rfl⟩
        · refine .inr ⟨?_, List.mem_cons_of_mem _ isOld⟩
          rintro rfl
          exact notAgain (List.mem_map.mpr ⟨_, isOld, rfl⟩)
      case isFalse different =>
        rcases List.mem_cons.mp isMember with isFirst | isMember
        · cases isFirst
          exact .inr ⟨different, List.mem_cons_self⟩
        · rcases induction distinct isMember with isNew | ⟨isOther, isMember⟩
          · exact .inl isNew
          · exact .inr ⟨isOther, List.mem_cons_of_mem _ isMember⟩

end Members

end QueryGateway.Json
