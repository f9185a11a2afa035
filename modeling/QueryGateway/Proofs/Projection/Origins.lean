import QueryGateway.Proofs.Json.Paths
import QueryGateway.Proofs.Projection.Shape

/-!
# Where the scalars of a projection come from

Every path to a scalar of a projected document has an origin, a path in the
document that was projected.  Through an array and through what is kept whole
both paths go alike.  Under a response key of an object with a selection set,
the origin goes on under the name of the last field with this key.

The rules do not depend on what the projection yields.  They give every scalar
of its result one origin, and the scalar that is found there is the same.
-/

namespace QueryGateway.Projection

open Query

open Json (Path)

/-! ## Origins -/

mutual

/-- The origin of a path in the value of a field. -/
inductive ValueOrigin (document : Document) : Field → Json.Value → Path → Path → Prop where
  | scalar
      {field : Field}
      {value : Json.Value}
      (isScalar : value.isScalar = true) :
      ValueOrigin document field value [] []
  | whole
      {field : Field}
      {members : List (String × Json.Value)}
      (noSelections : field.selections = none)
      (path : Path) :
      ValueOrigin document field (.object members) path path
  | object
      {field : Field}
      {selections : List (Selection Argument)}
      {members : List (String × Json.Value)}
      {path origin : Path}
      (hasSelections : field.selections = some selections)
      (inside : ObjectOrigin document (.ofField field selections) members path origin) :
      ValueOrigin document field (.object members) path origin
  | array
      {field : Field}
      {elements : List Json.Value}
      {index : Nat}
      {element : Json.Value}
      {path origin : Path}
      (isElement : elements[index]? = some element)
      (inside : ValueOrigin document field element path origin) :
      ValueOrigin document field (.array elements) (.index index :: path) (.index index :: origin)

/-- The origin of a path in what is kept of an object with a selection set. -/
inductive ObjectOrigin (document : Document) :
    Entry → List (String × Json.Value) → Path → Path → Prop where
  | field
      {entry : Entry}
      {members : List (String × Json.Value)}
      {fields : List Field}
      {key : String}
      {field : Field}
      {value : Json.Value}
      {path origin : Path}
      (areFields : FieldsOf document (discriminator members entry.name) entry.selections fields)
      (isLast : IsLast fields key field)
      (isMember : Json.Members.find? members field.name = some value)
      (inside : ValueOrigin document field value path origin) :
      ObjectOrigin document entry members (.key key :: path) (.key field.name :: origin)

end

/-- The origin of a path in what is kept of a root. -/
inductive RootOrigin (document : Document) (entry : Entry) : Json.Value → Path → Path → Prop where
  | object
      {members : List (String × Json.Value)}
      {path origin : Path}
      (inside : ObjectOrigin document entry members path origin) :
      RootOrigin document entry (.object members) path origin
  | array
      {elements : List Json.Value}
      {index : Nat}
      {element : Json.Value}
      {path origin : Path}
      (isElement : elements[index]? = some element)
      (inside : RootOrigin document entry element path origin) :
      RootOrigin document entry (.array elements) (.index index :: path) (.index index :: origin)

/-- The origin of a path in a projected document; without an entry, everything is kept. -/
def IsOrigin (document : Document) (entry : Option Entry) (source : Json.Value)
    (path origin : Path) : Prop :=
  match entry with
  | none => origin = path
  | some entry => RootOrigin document entry source path origin

variable {document : Document}

/-! ## A path has one origin -/

theorem ObjectOrigin.unique
    {entry : Entry}
    {members : List (String × Json.Value)}
    (ofMembers :
      ∀ key value, (key, value) ∈ members → ∀ field path origin other,
        ValueOrigin document field value path origin →
          ValueOrigin document field value path other → origin = other)
    {path origin other : Path}
    (left : ObjectOrigin document entry members path origin)
    (right : ObjectOrigin document entry members path other) :
    origin = other := by
  cases left with
  | field areFields isLast isMember inside =>
      cases right with
      | field alsoFields alsoLast alsoMember alsoInside =>
          cases areFields.unique alsoFields
          cases isLast.unique alsoLast
          cases isMember.symm.trans alsoMember
          rw [ofMembers _ _ (Json.Members.mem_of_find? isMember) _ _ _ _ inside alsoInside]

theorem ValueOrigin.unique
    {field : Field}
    {source : Json.Value}
    {path origin other : Path}
    (left : ValueOrigin document field source path origin)
    (right : ValueOrigin document field source path other) :
    origin = other := by
  induction source using Json.Value.inside_induction generalizing field path origin other with
  | scalar value isScalar =>
      cases left with
      | scalar =>
          cases right with
          | scalar => rfl
          | whole => rfl
          | object => cases isScalar
      | whole => cases isScalar
      | object => cases isScalar
      | array => cases isScalar
  | array elements induction =>
      cases left with
      | scalar isScalar => cases isScalar
      | array isElement inside =>
          cases right with
          | array alsoElement alsoInside =>
              cases isElement.symm.trans alsoElement
              rw [induction _ (List.mem_of_getElem? isElement) inside alsoInside]
  | object members induction =>
      cases left with
      | scalar isScalar => cases isScalar
      | whole noSelections =>
          cases right with
          | scalar => rfl
          | whole => rfl
          | object hasSelections =>
              rw [noSelections] at hasSelections
              cases hasSelections
      | object hasSelections inside =>
          cases right with
          | scalar isScalar => cases isScalar
          | whole noSelections =>
              rw [noSelections] at hasSelections
              cases hasSelections
          | object alsoSelections alsoInside =>
              rw [hasSelections] at alsoSelections
              cases alsoSelections
              exact inside.unique (fun key value isMember _ _ _ _ left right =>
                induction key value isMember left right) alsoInside

theorem RootOrigin.unique
    {entry : Entry}
    {source : Json.Value}
    {path origin other : Path}
    (left : RootOrigin document entry source path origin)
    (right : RootOrigin document entry source path other) :
    origin = other := by
  induction left generalizing other with
  | object inside =>
      cases right with
      | object alsoInside =>
          exact inside.unique (fun _ _ _ _ _ _ _ left right => left.unique right) alsoInside
  | array isElement _ induction =>
      cases right with
      | array alsoElement alsoInside =>
          cases isElement.symm.trans alsoElement
          rw [induction alsoInside]

theorem IsOrigin.unique
    {entry : Option Entry}
    {source : Json.Value}
    {path origin other : Path}
    (left : IsOrigin document entry source path origin)
    (right : IsOrigin document entry source path other) :
    origin = other := by
  cases entry with
  | none => exact Eq.trans left (Eq.symm right)
  | some entry => exact RootOrigin.unique left right

/-! ## Every scalar comes from its origin -/

/-- The member under a key is what is kept of the member that the last field with the key names. -/
theorem KeepsObject.exists_field
    {entry : Entry}
    {members target : List (String × Json.Value)}
    (kept : KeepsObject document entry members target)
    {key : String}
    {value : Json.Value}
    (isMember : (key, value) ∈ target) :
    ∃ fields field source,
      FieldsOf document (discriminator members entry.name) entry.selections fields ∧
        IsLast fields key field ∧ Json.Members.find? members field.name = some source ∧
          KeepsValue document field source value := by
  cases kept with
  | fields applicable present keys values =>
      have isKey : key ∈ target.map (·.1) := List.mem_map_of_mem isMember
      rw [keys, List.mem_eraseDups] at isKey
      rcases exists_isLast isKey with ⟨field, isLast⟩
      rcases present field isLast.mem with ⟨source, found⟩
      exact ⟨_, field, source, applicable, isLast, found,
        values key value field source isMember isLast found⟩

theorem KeepsObject.exists_origin
    {entry : Entry}
    {members target : List (String × Json.Value)}
    {scalar : Json.Value}
    (isScalar : scalar.isScalar = true)
    (ofMembers :
      ∀ key source, (key, source) ∈ members → ∀ field value path,
        KeepsValue document field source value → value.at? path = some scalar →
          ∃ origin, ValueOrigin document field source path origin ∧
            source.at? origin = some scalar)
    (kept : KeepsObject document entry members target)
    {path : Path}
    (isFound : (Json.Value.object target).at? path = some scalar) :
    ∃ origin, ObjectOrigin document entry members path origin ∧
      (Json.Value.object members).at? origin = some scalar := by
  cases path with
  | nil =>
      cases isFound
      cases isScalar
  | cons step path =>
      cases step with
      | index => cases isFound
      | key key =>
          rcases Option.bind_eq_some_iff.mp isFound with ⟨value, isMember, inside⟩
          rcases kept.exists_field (Json.Members.mem_of_find? isMember) with
            ⟨fields, field, source, areFields, isLast, found, keepsValue⟩
          rcases ofMembers _ source (Json.Members.mem_of_find? found)
            field value path keepsValue inside with ⟨origin, isOrigin, same⟩
          exact ⟨.key field.name :: origin, .field areFields isLast found isOrigin,
            Option.bind_eq_some_iff.mpr ⟨source, found, same⟩⟩

/-- In an array that keeps its length, an element stands in the place of every target. -/
theorem exists_element
    {elements targets : List Json.Value}
    (length : targets.length = elements.length)
    {index : Nat}
    {target : Json.Value}
    (isTarget : targets[index]? = some target) :
    ∃ element, elements[index]? = some element := by
  rcases List.getElem?_eq_some_iff.mp isTarget with ⟨inTargets, _⟩
  exact ⟨_, List.getElem?_eq_getElem (length ▸ inTargets)⟩

/-- A scalar in an array is in one of its elements. -/
theorem exists_index_of_at?
    {targets : List Json.Value}
    {path : Path}
    {scalar : Json.Value}
    (isFound : (Json.Value.array targets).at? path = some scalar)
    (isScalar : scalar.isScalar = true) :
    ∃ index rest target, path = .index index :: rest ∧ targets[index]? = some target ∧
      target.at? rest = some scalar := by
  cases path with
  | nil =>
      cases isFound
      cases isScalar
  | cons step rest =>
      cases step with
      | key => cases isFound
      | index index =>
          rcases Option.bind_eq_some_iff.mp isFound with ⟨target, isTarget, inside⟩
          exact ⟨index, rest, target, rfl, isTarget, inside⟩

theorem KeepsValue.exists_origin
    {field : Field}
    {source target : Json.Value}
    (kept : KeepsValue document field source target)
    {path : Path}
    {scalar : Json.Value}
    (isFound : target.at? path = some scalar)
    (isScalar : scalar.isScalar = true) :
    ∃ origin, ValueOrigin document field source path origin ∧ source.at? origin = some scalar := by
  induction source using Json.Value.inside_induction generalizing field target path with
  | scalar value isSource =>
      cases kept with
      | scalar =>
          rcases Json.Value.at?_of_isScalar isSource isFound with ⟨rfl, rfl⟩
          exact ⟨[], .scalar isSource, isFound⟩
      | whole => cases isSource
      | object => cases isSource
      | array => cases isSource
  | array elements induction =>
      cases kept with
      | scalar isSource => cases isSource
      | array length each =>
          rcases exists_index_of_at? isFound isScalar with
            ⟨index, rest, value, rfl, isTarget, inside⟩
          rcases exists_element length isTarget with ⟨element, isElement⟩
          rcases induction element (List.mem_of_getElem? isElement)
            (each index element value isElement isTarget) inside with ⟨origin, isOrigin, same⟩
          exact ⟨.index index :: origin, .array isElement isOrigin,
            Option.bind_eq_some_iff.mpr ⟨element, isElement, same⟩⟩
  | object members induction =>
      cases kept with
      | scalar isSource => cases isSource
      | whole noSelections => exact ⟨path, .whole noSelections path, isFound⟩
      | object hasSelections keepsObject =>
          rcases keepsObject.exists_origin isScalar
            (fun key source isMember _ _ _ kept isFound =>
              induction key source isMember kept isFound) isFound with ⟨origin, isOrigin, same⟩
          exact ⟨origin, .object hasSelections isOrigin, same⟩

theorem KeepsRoot.exists_origin
    {entry : Entry}
    {source target : Json.Value}
    (kept : KeepsRoot document entry source target)
    {path : Path}
    {scalar : Json.Value}
    (isFound : target.at? path = some scalar)
    (isScalar : scalar.isScalar = true) :
    ∃ origin, RootOrigin document entry source path origin ∧ source.at? origin = some scalar := by
  induction kept generalizing path with
  | object kept =>
      rcases kept.exists_origin isScalar
        (fun _ _ _ _ _ _ kept isFound => kept.exists_origin isFound isScalar) isFound with
        ⟨origin, isOrigin, same⟩
      exact ⟨origin, .object isOrigin, same⟩
  | array length _ induction =>
      rcases exists_index_of_at? isFound isScalar with ⟨index, rest, value, rfl, isTarget, inside⟩
      rcases exists_element length isTarget with ⟨element, isElement⟩
      rcases induction index element value isElement isTarget inside with ⟨origin, isOrigin, same⟩
      exact ⟨.index index :: origin, .array isElement isOrigin,
        Option.bind_eq_some_iff.mpr ⟨element, isElement, same⟩⟩

/-! ## What is kept is held -/

theorem nodup_eraseDups
    (keys : List String) :
    keys.eraseDups.Nodup := by
  induction size : keys.length using Nat.strong_induction_on generalizing keys with
  | _ bound induction =>
      subst size
      cases keys with
      | nil => exact .nil
      | cons key keys =>
          have shorter : (keys.filter fun other => !other == key).length < (key :: keys).length :=
            Nat.lt_succ_of_le (List.length_filter_le _ _)
          rw [List.eraseDups_cons, List.nodup_cons]
          exact ⟨by simp, induction _ shorter _ rfl⟩

theorem KeepsObject.isHeld
    {entry : Entry}
    {members target : List (String × Json.Value)}
    {depth : Nat}
    (ofMembers :
      ∀ key source, (key, source) ∈ members → ∀ field value,
        KeepsValue document field source value → value.IsHeld depth)
    (kept : KeepsObject document entry members target) :
    (Json.Value.object target).IsHeld (depth + 1) := by
  refine .object ?_ ?_
  · cases kept with
    | fields _ _ keys _ =>
        rw [keys]
        exact nodup_eraseDups _
  · intro key value isMember
    rcases kept.exists_field isMember with ⟨_, field, source, _, _, found, keepsValue⟩
    exact ofMembers _ source (Json.Members.mem_of_find? found) field value keepsValue

theorem KeepsValue.isHeld
    {field : Field}
    {source target : Json.Value}
    (kept : KeepsValue document field source target)
    {depth : Nat}
    (isHeld : source.IsHeld depth) :
    target.IsHeld depth := by
  induction isHeld generalizing field target with
  | null depth =>
      cases kept
      exact .null depth
  | bool depth value =>
      cases kept
      exact .bool depth value
  | number depth isHeld =>
      cases kept
      exact .number depth isHeld
  | string depth value =>
      cases kept
      exact .string depth value
  | array _ induction =>
      cases kept with
      | scalar isScalar => cases isScalar
      | array length each =>
          refine .array ?_
          intro target isTarget
          rcases List.mem_iff_getElem?.mp isTarget with ⟨index, isTarget⟩
          rcases exists_element length isTarget with ⟨element, isElement⟩
          exact induction element (List.mem_of_getElem? isElement)
            (each index element target isElement isTarget)
  | object distinct inside induction =>
      cases kept with
      | scalar isScalar => cases isScalar
      | whole => exact .object distinct inside
      | object _ kept =>
          exact kept.isHeld fun key source isMember _ _ kept => induction key source isMember kept

theorem KeepsRoot.isHeld
    {entry : Entry}
    {source target : Json.Value}
    (kept : KeepsRoot document entry source target)
    {depth : Nat}
    (isHeld : source.IsHeld depth) :
    target.IsHeld depth := by
  induction kept generalizing depth with
  | object kept =>
      cases isHeld with
      | object _ inside =>
          exact kept.isHeld fun key source isMember _ _ kept =>
            kept.isHeld (inside key source isMember)
  | array length _ induction =>
      cases isHeld with
      | array inside =>
          refine .array ?_
          intro target isTarget
          rcases List.mem_iff_getElem?.mp isTarget with ⟨index, isTarget⟩
          rcases exists_element length isTarget with ⟨element, isElement⟩
          exact induction index element target isElement isTarget
            (inside element (List.mem_of_getElem? isElement))

/-! ## Projections -/

/-- The entry that a document is applied with; there is none without a query. -/
def queryEntry (document : Document) : Option Entry :=
  document.queryOperation?.map .ofOperation

/-- What an entry keeps of a document; without an entry, everything is kept. -/
def Keeps (document : Document) (entry : Option Entry) (source target : Json.Value) : Prop :=
  match entry with
  | none => target = source
  | some entry => KeepsRoot document entry source target

theorem keepsRoot_of_enter
    (accepted : SpreadGraph.check document.fragments = .ok ())
    {entry : Entry}
    {source : Json.Value}
    {projection : Projected}
    (entered : enter document entry source = .ok projection) :
    KeepsRoot document entry source projection.target := by
  rw [enter, bind_eq_ok] at entered
  rcases entered with ⟨_, visited, result⟩
  cases result
  exact keepsRoot_of_visitRoot accepted visited

theorem keeps_of_project
    (accepted : SpreadGraph.check document.fragments = .ok ())
    {source : Json.Value}
    {projection : Projected}
    (projected : project document source = .ok projection) :
    Keeps document (queryEntry document) source projection.target := by
  rw [project] at projected
  rw [queryEntry]
  cases isQuery : document.queryOperation? with
  | none =>
      rw [isQuery] at projected
      cases projected
      rfl
  | some operation =>
      rw [isQuery] at projected
      exact keepsRoot_of_enter accepted projected

theorem keeps_of_task
    (accepted : SpreadGraph.check document.fragments = .ok ())
    {task : Task}
    {source : Json.Value}
    {projection : Projected}
    (projected : task.project document source = .ok projection) :
    Keeps document (some task.entry) source projection.target :=
  keepsRoot_of_enter accepted projected

section

variable
    {entry : Option Entry}
    {source target : Json.Value}
    (keeps : Keeps document entry source target)

include keeps

theorem Keeps.isHeld
    {depth : Nat}
    (isHeld : source.IsHeld depth) :
    target.IsHeld depth := by
  cases entry with
  | none =>
      cases keeps
      exact isHeld
  | some entry => exact KeepsRoot.isHeld keeps isHeld

/-- A scalar that is kept has one origin, and is found there. -/
theorem Keeps.exists_origin
    {path : Path}
    {scalar : Json.Value}
    (isFound : target.at? path = some scalar)
    (isScalar : scalar.isScalar = true) :
    ∃ origin, (∀ other, IsOrigin document entry source path other ↔ other = origin) ∧
      source.at? origin = some scalar := by
  have origin : ∃ origin, IsOrigin document entry source path origin ∧
      source.at? origin = some scalar := by
    cases entry with
    | none =>
        cases keeps
        exact ⟨path, rfl, isFound⟩
    | some entry => exact KeepsRoot.exists_origin keeps isFound isScalar
  rcases origin with ⟨origin, isOrigin, same⟩
  refine ⟨origin, fun other => ⟨fun isOther => isOther.unique isOrigin, ?_⟩, same⟩
  rintro rfl
  exact isOrigin

end

end QueryGateway.Projection
