import Mathlib
import QueryGateway.Proofs.Projection.Pass

/-!
# The shape of a projection

`KeepsRoot` says what a projection keeps of a document, without saying how it is
found.  Arrays keep their elements in their places.  Of an object with a
selection set, the target has the response keys of the fields that apply to it,
each where it comes up first, and under a key what is kept of the member that
the last field with this key selects.  Everything else is kept as it is.

This determines the target, and the target of a projection that succeeds is the
one that is determined.
-/

namespace QueryGateway.Projection

open Query

mutual

/-- What is kept of the value of a field. -/
inductive KeepsValue (document : Document) : Field → Json.Value → Json.Value → Prop where
  | scalar
      {field : Field}
      {value : Json.Value}
      (isScalar : value.isScalar = true) :
      KeepsValue document field value value
  /-- An object that nothing is selected from is kept as it is. -/
  | whole
      {field : Field}
      {members : List (String × Json.Value)}
      (noSelections : field.selections = none) :
      KeepsValue document field (.object members) (.object members)
  | object
      {field : Field}
      {selections : List (Selection Argument)}
      {members target : List (String × Json.Value)}
      (hasSelections : field.selections = some selections)
      (kept : KeepsObject document (.ofField field selections) members target) :
      KeepsValue document field (.object members) (.object target)
  /-- An array keeps its length, and what is kept of an element stands in its place. -/
  | array
      {field : Field}
      {elements targets : List Json.Value}
      (length : targets.length = elements.length)
      (each :
        ∀ (index : Nat) (element target : Json.Value),
          elements[index]? = some element → targets[index]? = some target →
            KeepsValue document field element target) :
      KeepsValue document field (.array elements) (.array targets)

/-- What is kept of an object with a selection set. -/
inductive KeepsObject (document : Document) :
    Entry → List (String × Json.Value) → List (String × Json.Value) → Prop where
  | fields
      {entry : Entry}
      {members target : List (String × Json.Value)}
      {fields : List Field}
      (applicable : FieldsOf document (discriminator members entry.name) entry.selections fields)
      (present : ∀ field ∈ fields, ∃ source, Json.Members.find? members field.name = some source)
      (keys : target.map (·.1) = (fields.map (·.responseKey)).eraseDups)
      (values :
        ∀ key value field source, (key, value) ∈ target → IsLast fields key field →
          Json.Members.find? members field.name = some source →
            KeepsValue document field source value) :
      KeepsObject document entry members target

end

/-- What is kept of a document, or of an element of a root that is an array. -/
inductive KeepsRoot (document : Document) (entry : Entry) : Json.Value → Json.Value → Prop where
  | object
      {members target : List (String × Json.Value)}
      (kept : KeepsObject document entry members target) :
      KeepsRoot document entry (.object members) (.object target)
  | array
      {elements targets : List Json.Value}
      (length : targets.length = elements.length)
      (each :
        ∀ (index : Nat) (element target : Json.Value),
          elements[index]? = some element → targets[index]? = some target →
            KeepsRoot document entry element target) :
      KeepsRoot document entry (.array elements) (.array targets)

variable {document : Document}

/-! ## What is kept is determined -/

/-- Arrays that agree in their lengths and in their places are equal. -/
theorem targets_unique
    {elements targets others : List Json.Value}
    (length : targets.length = elements.length)
    (otherLength : others.length = elements.length)
    (same :
      ∀ (index : Nat) (element target other : Json.Value),
        elements[index]? = some element → targets[index]? = some target →
          others[index]? = some other → target = other) :
    targets = others := by
  apply List.ext_getElem (length.trans otherLength.symm)
  intro index inTargets inOthers
  have inElements : index < elements.length := length ▸ inTargets
  exact same index elements[index] _ _ (List.getElem?_eq_getElem inElements)
    (List.getElem?_eq_getElem inTargets) (List.getElem?_eq_getElem inOthers)

/-- Objects that agree in their keys and in the values under them are equal. -/
theorem members_unique
    {target other : List (String × Json.Value)}
    (keys : target.map (·.1) = other.map (·.1))
    (same :
      ∀ key value otherValue, (key, value) ∈ target → (key, otherValue) ∈ other →
        value = otherValue) :
    target = other := by
  have length : target.length = other.length := by
    simpa using congrArg List.length keys
  apply List.ext_getElem length
  intro index inTarget inOther
  have key : target[index].1 = other[index].1 := by
    have atIndex := congrArg (·[index]?) keys
    simpa [inTarget, inOther] using atIndex
  have isOther : (target[index].1, other[index].2) ∈ other := by
    rw [key]
    exact List.getElem_mem inOther
  exact Prod.ext key (same _ _ _ (List.getElem_mem inTarget) isOther)

theorem KeepsObject.unique
    {entry : Entry}
    {members target other : List (String × Json.Value)}
    (ofMembers :
      ∀ key source, (key, source) ∈ members → ∀ field value otherValue,
        KeepsValue document field source value → KeepsValue document field source otherValue →
          value = otherValue)
    (left : KeepsObject document entry members target)
    (right : KeepsObject document entry members other) :
    target = other := by
  cases left with
  | @fields _ _ _ fields applicable present keys values =>
      cases right with
      | fields alsoApplicable _ otherKeys otherValues =>
          cases applicable.unique alsoApplicable
          apply members_unique (keys.trans otherKeys.symm)
          intro key value otherValue isMember isOther
          have isKey : key ∈ fields.map (·.responseKey) := by
            rw [← List.mem_eraseDups, ← keys]
            exact List.mem_map.mpr ⟨_, isMember, rfl⟩
          obtain ⟨field, isLast⟩ := exists_isLast isKey
          obtain ⟨source, found⟩ := present field isLast.mem
          exact ofMembers _ source (Json.Members.mem_of_find? found) field value otherValue
            (values key value field source isMember isLast found)
            (otherValues key otherValue field source isOther isLast found)

theorem KeepsValue.unique
    {field : Field}
    {source target other : Json.Value}
    (left : KeepsValue document field source target)
    (right : KeepsValue document field source other) :
    target = other := by
  induction source using Json.Value.inside_induction generalizing field target other with
  | scalar value isScalar =>
      cases left with
      | scalar =>
          cases right with
          | scalar => rfl
          | whole => cases isScalar
          | object => cases isScalar
          | array => cases isScalar
      | whole => cases isScalar
      | object => cases isScalar
      | array => cases isScalar
  | array elements induction =>
      cases left with
      | scalar isScalar => cases isScalar
      | array length each =>
          cases right with
          | scalar isScalar => cases isScalar
          | array otherLength otherEach =>
              have same := targets_unique length otherLength
                fun index element target other isElement isTarget isOther =>
                  induction element (List.mem_of_getElem? isElement)
                    (each index element target isElement isTarget)
                    (otherEach index element other isElement isOther)
              rw [same]
  | object members induction =>
      cases left with
      | scalar isScalar => cases isScalar
      | whole noSelections =>
          cases right with
          | scalar => rfl
          | whole => rfl
          | object hasSelections =>
              rw [noSelections] at hasSelections
              cases hasSelections
      | object hasSelections kept =>
          cases right with
          | scalar isScalar => cases isScalar
          | whole noSelections =>
              rw [noSelections] at hasSelections
              cases hasSelections
          | object alsoSelections otherKept =>
              rw [hasSelections] at alsoSelections
              cases alsoSelections
              have same := kept.unique
                (fun key source isMember field value otherValue left right =>
                  induction key source isMember left right) otherKept
              rw [same]

theorem KeepsRoot.unique
    {entry : Entry}
    {source target other : Json.Value}
    (left : KeepsRoot document entry source target)
    (right : KeepsRoot document entry source other) :
    target = other := by
  induction left generalizing other with
  | object kept =>
      cases right with
      | object otherKept =>
          have same := kept.unique (fun _ _ _ _ _ _ left right => left.unique right) otherKept
          rw [same]
  | array length _ induction =>
      cases right with
      | array otherLength otherEach =>
          have same := targets_unique length otherLength
            fun index element target other isElement isTarget isOther =>
              induction index element target isElement isTarget
                (otherEach index element other isElement isOther)
          rw [same]

/-! ## What a projection keeps -/

/-- An object whose visit succeeds keeps what its fields select. -/
theorem keepsObject_of_visitObject
    (accepted : SpreadGraph.check document.fragments = .ok ())
    {entry : Entry}
    {members : List (String × Json.Value)}
    {target : Json.Value}
    {found : List Task}
    (ofMembers :
      ∀ key source, (key, source) ∈ members → ∀ field value own,
        visitValue document source field = .ok (value, own) →
          KeepsValue document field source value)
    (visited :
      visitObject document entry members (memberVisits document members) =
        .ok (target, found)) :
    ∃ kept, target = .object kept ∧ KeepsObject document entry members kept := by
  obtain ⟨kept, _, _, visitedFields, _, rfl, _⟩ := visitObject_eq_ok_iff.mp visited
  refine ⟨kept, rfl, ?_⟩
  have fills := visitFields_eq_ok (by simp) visitedFields
  refine .fields (fieldsOf_applicableFields accepted entry.name members entry.selections)
    ?_ fills.keys ?_
  · intro field isField
    obtain ⟨visit, isVisit⟩ := fills.present field isField
    rw [find?_memberVisits, Option.map_eq_some_iff] at isVisit
    obtain ⟨source, found, _⟩ := isVisit
    exact ⟨source, found⟩
  · intro key value field source isMember isLast found
    rcases fills.values key value isMember with
      ⟨last, visit, own, alsoLast, isVisit, visited⟩ | ⟨_, isMember⟩
    · cases isLast.unique alsoLast
      rw [find?_memberVisits, found] at isVisit
      cases isVisit
      exact ofMembers _ source (Json.Members.mem_of_find? found) field value own visited
    · cases isMember

theorem keepsValue_of_visitValue
    (accepted : SpreadGraph.check document.fragments = .ok ())
    {source : Json.Value}
    {field : Field}
    {target : Json.Value}
    {found : List Task}
    (visited : visitValue document source field = .ok (target, found)) :
    KeepsValue document field source target := by
  induction source using Json.Value.inside_induction generalizing field target found with
  | scalar value isScalar =>
      rw [visitValue_of_isScalar document field isScalar] at visited
      cases visited
      exact .scalar isScalar
  | array elements induction =>
      rw [visitValue, visitElements_eq, bind_eq_ok] at visited
      obtain ⟨⟨targets, inside⟩, visitedElements, result⟩ := visited
      cases result
      obtain ⟨length, each⟩ := (visitEach_eq_ok visitedElements).pointwise
      refine .array length ?_
      intro index element target isElement isTarget
      obtain ⟨own, visited⟩ := each index element target isElement isTarget
      exact induction element (List.mem_of_getElem? isElement) visited
  | object members induction =>
      rw [visitValue] at visited
      split at visited
      case h_1 selections hasSelections =>
        obtain ⟨kept, rfl, keepsObject⟩ := keepsObject_of_visitObject accepted
          (fun key source isMember field value own visited =>
            induction key source isMember visited) visited
        exact .object hasSelections keepsObject
      case h_2 noSelections =>
        rw [bind_eq_ok] at visited
        obtain ⟨own, _, result⟩ := visited
        cases result
        exact .whole noSelections

theorem keepsRoot_of_visitRoot
    (accepted : SpreadGraph.check document.fragments = .ok ())
    {entry : Entry}
    {source target : Json.Value}
    {found : List Task}
    (visited : visitRoot document entry source = .ok (target, found)) :
    KeepsRoot document entry source target := by
  induction source using Json.Value.inside_induction generalizing target found with
  | scalar value isScalar =>
      rw [visitRoot_of_isScalar document entry isScalar] at visited
      cases visited
  | array elements induction =>
      rw [visitRoot, visitRoots_eq, bind_eq_ok] at visited
      obtain ⟨⟨targets, inside⟩, visitedElements, result⟩ := visited
      cases result
      obtain ⟨length, each⟩ := (visitEach_eq_ok visitedElements).pointwise
      refine .array length ?_
      intro index element target isElement isTarget
      obtain ⟨own, visited⟩ := each index element target isElement isTarget
      exact induction element (List.mem_of_getElem? isElement) visited
  | object members _ =>
      rw [visitRoot] at visited
      obtain ⟨kept, rfl, keepsObject⟩ := keepsObject_of_visitObject accepted
        (fun _ _ _ _ _ _ visited => keepsValue_of_visitValue accepted visited) visited
      exact .object keepsObject

/--
A projection of a query that has been read keeps at every depth what the query
selects, and nothing else.
-/
theorem project_keeps_iff
    {text : String}
    {operation : Operation Argument}
    {source : Json.Value}
    {projection : Projected}
    (parsed : Document.ofString text = .ok document)
    (isQuery : document.queryOperation? = some operation)
    (projected : project document source = .ok projection)
    (target : Json.Value) :
    KeepsRoot document (.ofOperation operation) source target ↔ target = projection.target := by
  have accepted := Document.check_of_ofString parsed
  rw [project, isQuery] at projected
  simp only [enter, bind_eq_ok] at projected
  obtain ⟨⟨found, followUps⟩, visited, result⟩ := projected
  cases result
  have keeps := keepsRoot_of_visitRoot accepted visited
  constructor
  · intro alsoKeeps
    exact alsoKeeps.unique keeps
  · rintro rfl
    exact keeps

/-! ## A shelf and its owner -/

namespace Shelf

def query : String :=
  "\x7b shelf \x7b kind: label label \x7d owner \x7d"

def operation : Operation Argument :=
  ⟨.query, none, [],
    [.field none "shelf" [] []
        (some [.field (some "kind") "label" [] [] none, .field none "label" [] [] none]),
      .field none "owner" [] [] none]⟩

/-- The owner comes first, and not all that stands on the shelf is an object. -/
def source : Json.Value :=
  .object
    [("owner", .object [("name", .string "ann")]),
      ("shelf", .array [.object [("price", .null), ("label", .string "toy")], .bool true])]

/-- The shelf comes first. -/
def target : Json.Value :=
  .object
    [("shelf",
        .array [.object [("kind", .string "toy"), ("label", .string "toy")], .bool true]),
      ("owner", .object [("name", .string "ann")])]

theorem keeps_target :
    KeepsRoot ⟨[operation], []⟩ (.ofOperation operation) source target := by
  have parsed : Document.ofString query = .ok ⟨[operation], []⟩ := by
    cbv
  have projected : project ⟨[operation], []⟩ source = .ok ⟨target, []⟩ := by
    cbv
  exact (project_keeps_iff parsed rfl projected target).mpr rfl

end Shelf

end QueryGateway.Projection
