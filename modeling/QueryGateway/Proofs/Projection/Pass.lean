import QueryGateway.Projection.Pass
import QueryGateway.Proofs.Json.Value
import QueryGateway.Proofs.Projection.Applicability
import QueryGateway.Proofs.Result

/-!
# Visits that succeed

What every part of a projection has done when it has come to a result: the
visits of arrays have visited each element, and the visit of an object has
visited, for each field that applies, the member that the field selects.

The target of an object has the response keys of its fields in the order in
which they come up first, and under each key what the last field with this key
has put there.
-/

namespace QueryGateway.Projection

open Query

/-! ## Members and elements -/

theorem find?_memberVisits
    (document : Document)
    (members : List (String × Json.Value))
    (key : String) :
    Json.Members.find? (memberVisits document members) key =
      (Json.Members.find? members key).map (visitValue document) := by
  induction members with
  | nil => simp [memberVisits]
  | cons first members induction =>
      rw [memberVisits, Json.Members.find?_cons, Json.Members.find?_cons, induction]
      split
      · rfl
      · rfl

theorem visitValue_of_isScalar
    (document : Document)
    (field : Field)
    {value : Json.Value}
    (isScalar : value.isScalar = true) :
    visitValue document value field = .ok (value, []) := by
  cases value with
  | array => cases isScalar
  | object => cases isScalar
  | null => simp [visitValue]
  | bool => simp [visitValue]
  | number => simp [visitValue]
  | string => simp [visitValue]

theorem visitRoot_of_isScalar
    (document : Document)
    (entry : Entry)
    {value : Json.Value}
    (isScalar : value.isScalar = true) :
    visitRoot document entry value = .error (.unsupportedShape value.kind) := by
  cases value with
  | array => cases isScalar
  | object => cases isScalar
  | null => simp [visitRoot]
  | bool => simp [visitRoot]
  | number => simp [visitRoot]
  | string => simp [visitRoot]

/-- Visit elements one after another.  Arrays under fields and at the root are visited so. -/
def visitEach (visit : Json.Value → Visited) :
    List Json.Value → Except ProjectionError (List Json.Value × List Task)
  | [] => .ok ([], [])
  | element :: elements => do
      let (target, found) ← visit element
      let (targets, more) ← visitEach visit elements
      return (target :: targets, found ++ more)

theorem visitElements_eq
    (document : Document)
    (field : Field)
    (elements : List Json.Value) :
    visitElements document elements field = visitEach (visitValue document · field) elements := by
  induction elements with
  | nil => rw [visitElements, visitEach]
  | cons element elements induction => rw [visitElements, visitEach, induction]

theorem visitRoots_eq
    (document : Document)
    (entry : Entry)
    (elements : List Json.Value) :
    visitRoots document entry elements = visitEach (visitRoot document entry) elements := by
  induction elements with
  | nil => rw [visitRoots, visitEach]
  | cons element elements induction => rw [visitRoots, visitEach, induction]

/-- Visits of elements that give targets and tasks. -/
inductive VisitsEach (visit : Json.Value → Visited) :
    List Json.Value → List Json.Value → List Task → Prop where
  | nil : VisitsEach visit [] [] []
  | cons
      {element target : Json.Value}
      {elements targets : List Json.Value}
      {found more : List Task}
      (first : visit element = .ok (target, found))
      (others : VisitsEach visit elements targets more) :
      VisitsEach visit (element :: elements) (target :: targets) (found ++ more)

theorem visitEach_eq_ok
    {visit : Json.Value → Visited}
    {elements targets : List Json.Value}
    {found : List Task}
    (visited : visitEach visit elements = .ok (targets, found)) :
    VisitsEach visit elements targets found := by
  induction elements generalizing targets found with
  | nil =>
      cases visited
      exact .nil
  | cons element elements induction =>
      rw [visitEach, bind_eq_ok] at visited
      obtain ⟨⟨target, own⟩, first, visited⟩ := visited
      rw [bind_eq_ok] at visited
      obtain ⟨⟨others, more⟩, visited, result⟩ := visited
      cases result
      exact .cons first (induction visited)

/-- Elements are visited in their places. -/
theorem VisitsEach.pointwise
    {visit : Json.Value → Visited}
    {elements targets : List Json.Value}
    {found : List Task}
    (visits : VisitsEach visit elements targets found) :
    targets.length = elements.length ∧
      ∀ (index : Nat) (element target : Json.Value),
        elements[index]? = some element → targets[index]? = some target →
          ∃ own, visit element = .ok (target, own) := by
  induction visits with
  | nil => simp
  | @cons element target elements targets found more first others induction =>
      obtain ⟨length, each⟩ := induction
      refine ⟨by simp [length], ?_⟩
      intro index other otherTarget isElement isTarget
      cases index with
      | zero =>
          cases isElement
          cases isTarget
          exact ⟨found, first⟩
      | succ index =>
          rw [List.getElem?_cons_succ] at isElement isTarget
          exact each index other otherTarget isElement isTarget

/-! ## Fields -/

/-- A field is the last one among some fields with its response key. -/
def IsLast (fields : List Field) (key : String) (field : Field) : Prop :=
  ∃ before after, fields = before ++ field :: after ∧ field.responseKey = key ∧
    ∀ other ∈ after, other.responseKey ≠ key

theorem IsLast.mem
    {fields : List Field}
    {key : String}
    {field : Field}
    (isLast : IsLast fields key field) :
    field ∈ fields := by
  obtain ⟨before, after, rfl, _⟩ := isLast
  simp

theorem IsLast.responseKey_eq
    {fields : List Field}
    {key : String}
    {field : Field}
    (isLast : IsLast fields key field) :
    field.responseKey = key := by
  obtain ⟨_, _, _, isKey, _⟩ := isLast
  exact isKey

theorem IsLast.cons
    {fields : List Field}
    {key : String}
    {field : Field}
    (isLast : IsLast fields key field)
    (first : Field) :
    IsLast (first :: fields) key field := by
  obtain ⟨before, after, rfl, isKey, noneAfter⟩ := isLast
  exact ⟨first :: before, after, rfl, isKey, noneAfter⟩

theorem IsLast.head
    (field : Field)
    {fields : List Field}
    (noneAfter : ∀ other ∈ fields, other.responseKey ≠ field.responseKey) :
    IsLast (field :: fields) field.responseKey field :=
  ⟨[], fields, rfl, rfl, noneAfter⟩

theorem IsLast.of_cons
    {first field : Field}
    {fields : List Field}
    {key : String}
    (isLast : IsLast (first :: fields) key field) :
    IsLast fields key field ∨
      field = first ∧ ∀ other ∈ fields, other.responseKey ≠ key := by
  obtain ⟨before, after, split, isKey, noneAfter⟩ := isLast
  cases before with
  | nil =>
      cases split
      exact .inr ⟨rfl, noneAfter⟩
  | cons _ before =>
      cases split
      exact .inl ⟨before, after, rfl, isKey, noneAfter⟩

/-- Only one field is the last one with a response key. -/
theorem IsLast.unique
    {fields : List Field}
    {key : String}
    {field other : Field}
    (left : IsLast fields key field)
    (right : IsLast fields key other) :
    field = other := by
  induction fields with
  | nil => cases left.mem
  | cons first fields induction =>
      rcases left.of_cons with leftLater | ⟨rfl, noneLeft⟩
      · rcases right.of_cons with rightLater | ⟨rfl, noneRight⟩
        · exact induction leftLater rightLater
        · exact (noneRight field leftLater.mem leftLater.responseKey_eq).elim
      · rcases right.of_cons with rightLater | ⟨rfl, _⟩
        · exact (noneLeft other rightLater.mem rightLater.responseKey_eq).elim
        · rfl

/-- There is a last field with every response key of some fields. -/
theorem exists_isLast
    {fields : List Field}
    {key : String}
    (isKey : key ∈ fields.map (·.responseKey)) :
    ∃ field, IsLast fields key field := by
  induction fields with
  | nil => cases isKey
  | cons first fields induction =>
      by_cases again : key ∈ fields.map (·.responseKey)
      · obtain ⟨field, isLast⟩ := induction again
        exact ⟨field, isLast.cons first⟩
      · rcases List.mem_cons.mp isKey with rfl | isLater
        · refine ⟨first, IsLast.head first ?_⟩
          intro other isOther same
          exact again (List.mem_map.mpr ⟨other, isOther, same⟩)
        · exact (again isLater).elim

/-- A list without repetitions stays as it is. -/
theorem eraseDups_of_nodup
    {keys : List String}
    (distinct : keys.Nodup) :
    keys.eraseDups = keys := by
  induction keys with
  | nil => rfl
  | cons key keys induction =>
      obtain ⟨notAgain, distinct⟩ := List.nodup_cons.mp distinct
      have kept : (keys.filter fun other => !other == key) = keys := by
        refine List.filter_eq_self.mpr ?_
        intro other isKey
        have different : other ≠ key := fun same => notAgain (same ▸ isKey)
        simpa using different
      rw [List.eraseDups_cons, kept, induction distinct]

/-- A key that was there before adds nothing. -/
theorem eraseDups_append_cons
    {keys : List String}
    {key : String}
    (isKey : key ∈ keys)
    (others : List String) :
    (keys ++ key :: others).eraseDups = (keys ++ others).eraseDups := by
  rw [List.eraseDups_append, List.eraseDups_append, List.cons_removeAll]
  simp [isKey]

/-- What the visits of fields have made of a target. -/
structure Fills (visits : List (String × (Field → Visited))) (fields : List Field)
    (target filled : List (String × Json.Value)) : Prop where
  keys :
    filled.map (·.1) = (target.map (·.1) ++ fields.map (·.responseKey)).eraseDups
  distinct : (filled.map (·.1)).Nodup
  /-- Every value is what the last field with its key has put there, or it was there before. -/
  values :
    ∀ key value, (key, value) ∈ filled →
      (∃ field visit own, IsLast fields key field ∧
        Json.Members.find? visits field.name = some visit ∧ visit field = .ok (value, own)) ∨
      (∀ field ∈ fields, field.responseKey ≠ key) ∧ (key, value) ∈ target
  present : ∀ field ∈ fields, ∃ visit, Json.Members.find? visits field.name = some visit

theorem visitFields_eq_ok
    {visits : List (String × (Field → Visited))}
    {fields : List Field}
    {target filled : List (String × Json.Value)}
    {found : List Task}
    (distinct : (target.map (·.1)).Nodup)
    (visited : visitFields visits fields target = .ok (filled, found)) :
    Fills visits fields target filled := by
  induction fields generalizing target filled found with
  | nil =>
      cases visited
      refine ⟨?_, distinct, ?_, by simp⟩
      · rw [List.map_nil, List.append_nil, eraseDups_of_nodup distinct]
      · intro key value isMember
        exact .inr ⟨by simp, isMember⟩
  | cons field fields induction =>
      rw [visitFields] at visited
      split at visited
      case h_1 => cases visited
      case h_2 visit isVisit =>
        rw [bind_eq_ok] at visited
        obtain ⟨⟨value, own⟩, ofField, visited⟩ := visited
        rw [bind_eq_ok] at visited
        obtain ⟨⟨filled, more⟩, visited, result⟩ := visited
        cases result
        have keys := Json.Members.keys_insert field.responseKey value target
        have fills := induction
          (Json.Members.nodup_keys_insert distinct field.responseKey value) visited
        refine ⟨?_, fills.distinct, ?_, ?_⟩
        · rw [fills.keys, keys, List.map_cons]
          split
          case isTrue isKey => rw [eraseDups_append_cons isKey]
          case isFalse => rw [List.append_assoc, List.singleton_append]
        · intro key found isMember
          rcases fills.values key found isMember with
            ⟨last, lastVisit, tasks, isLast, visits⟩ | ⟨notLater, wasThere⟩
          · exact .inl ⟨last, lastVisit, tasks, isLast.cons field, visits⟩
          · rcases Json.Members.mem_insert distinct wasThere with ⟨rfl, rfl⟩ | ⟨isOther, wasThere⟩
            · exact .inl ⟨field, visit, own, IsLast.head field notLater, isVisit, ofField⟩
            · refine .inr ⟨?_, wasThere⟩
              intro other isField
              rcases List.mem_cons.mp isField with rfl | isField
              · exact isOther.symm
              · exact notLater other isField
        · intro other isOther
          rcases List.mem_cons.mp isOther with rfl | isOther
          · exact ⟨visit, isVisit⟩
          · exact fills.present other isOther

/-- The last field with a key has put there what its visit came to. -/
theorem Fills.find?_eq
    {visits : List (String × (Field → Visited))}
    {fields : List Field}
    {filled : List (String × Json.Value)}
    (fills : Fills visits fields [] filled)
    {key : String}
    {field : Field}
    (isLast : IsLast fields key field) :
    ∃ visit value own, Json.Members.find? visits field.name = some visit ∧
      visit field = .ok (value, own) ∧ Json.Members.find? filled key = some value := by
  have isKey : key ∈ filled.map (·.1) := by
    rw [fills.keys, List.map_nil, List.nil_append, List.mem_eraseDups]
    exact List.mem_map.mpr ⟨field, isLast.mem, isLast.responseKey_eq⟩
  obtain ⟨⟨_, value⟩, isMember, rfl⟩ := List.mem_map.mp isKey
  rcases fills.values _ value isMember with
    ⟨last, visit, own, alsoLast, isVisit, ofField⟩ | ⟨_, isMember⟩
  · cases isLast.unique alsoLast
    exact ⟨visit, value, own, isVisit, ofField,
      (Json.Members.find?_eq_some_iff fills.distinct).mpr isMember⟩
  · cases isMember

theorem visitFields_succeeds_iff
    (visits : List (String × (Field → Visited)))
    (fields : List Field)
    (target : List (String × Json.Value)) :
    (∃ result, visitFields visits fields target = .ok result) ↔
      ∀ field ∈ fields, ∃ visit value,
        Json.Members.find? visits field.name = some visit ∧ visit field = .ok value := by
  induction fields generalizing target with
  | nil => simp [visitFields]
  | cons field fields induction =>
      constructor
      · rintro ⟨result, visited⟩
        rw [visitFields] at visited
        split at visited
        case h_1 => cases visited
        case h_2 visit isVisit =>
          rw [bind_eq_ok] at visited
          obtain ⟨⟨value, own⟩, ofField, visited⟩ := visited
          rw [bind_eq_ok] at visited
          obtain ⟨others, visited, _⟩ := visited
          intro other isOther
          rcases List.mem_cons.mp isOther with rfl | isOther
          · exact ⟨visit, (value, own), isVisit, ofField⟩
          · exact (induction _).mp ⟨others, visited⟩ other isOther
      · intro succeed
        obtain ⟨visit, ⟨value, own⟩, isVisit, ofField⟩ := succeed field List.mem_cons_self
        obtain ⟨others, visited⟩ :=
          (induction (Json.Members.insert field.responseKey value target)).mpr
            fun other isOther => succeed other (List.mem_cons_of_mem _ isOther)
        refine ⟨(others.1, own ++ others.2), ?_⟩
        rw [visitFields, isVisit]
        refine bind_eq_ok.mpr ⟨(value, own), ofField, ?_⟩
        exact bind_eq_ok.mpr ⟨others, visited, rfl⟩

/-- The visit of an object succeeds with those of its fields and its own link. -/
theorem visitObject_eq_ok_iff
    {document : Document}
    {entry : Entry}
    {members : List (String × Json.Value)}
    {visits : List (String × (Field → Visited))}
    {target : Json.Value}
    {found : List Task} :
    visitObject document entry members visits = .ok (target, found) ↔
      ∃ kept inside own,
        visitFields visits (applicableFields document entry.name members entry.selections) [] =
            .ok (kept, inside) ∧
          followLink document entry.directives entry.name members = .ok own ∧
          target = .object kept ∧ found = inside ++ own.toList := by
  rw [visitObject, bind_eq_ok]
  constructor
  · rintro ⟨⟨kept, inside⟩, ofFields, rest⟩
    obtain ⟨own, ofLink, result⟩ := bind_eq_ok.mp rest
    cases result
    exact ⟨kept, inside, own, ofFields, ofLink, rfl, rfl⟩
  · rintro ⟨kept, inside, own, ofFields, ofLink, rfl, rfl⟩
    exact ⟨(kept, inside), ofFields, bind_eq_ok.mpr ⟨own, ofLink, rfl⟩⟩

end QueryGateway.Projection
