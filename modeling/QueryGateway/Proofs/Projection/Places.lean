import QueryGateway.Projection.Pass
import QueryGateway.Proofs.Json.Value
import QueryGateway.Proofs.Projection.Applicability

/-!
# The places of visits

A projection visits objects: those at the root, and those in the values of the
fields that apply to an object it visits, through arrays.  The place of a visit
is the way to it from the outside, a number for each array and each selection
set that is entered.  Fields are told apart by their place in the selection set,
so that the value of a member is visited once for each field that selects it.

At every place there is one visit at most.  Visits end in the order of their
places, those inside an object before its own.
-/

namespace QueryGateway.Projection

open Query

/-! ## Visits -/

/-- An object, and the directives that govern it. -/
structure Node where
  directives : List (Directive Argument)
  members : List (String × Json.Value)

mutual

/-- The visit at a place in an object with a selection set. -/
inductive ObjectVisit (document : Document) :
    Entry → List (String × Json.Value) → List Nat → Node → Prop where
  | own
      {entry : Entry}
      {members : List (String × Json.Value)} :
      ObjectVisit document entry members [] ⟨entry.directives, members⟩
  | field
      {entry : Entry}
      {members : List (String × Json.Value)}
      {fields : List Field}
      (areFields : FieldsOf document (discriminator members entry.name) entry.selections fields)
      {index : Nat}
      {field : Field}
      (isField : fields[index]? = some field)
      {value : Json.Value}
      (isMember : Json.Members.find? members field.name = some value)
      {place : List Nat}
      {node : Node}
      (inside : ValueVisit document field value place node) :
      ObjectVisit document entry members (index :: place) node

/-- The visit at a place in the value of a field. -/
inductive ValueVisit (document : Document) :
    Field → Json.Value → List Nat → Node → Prop where
  | whole
      {field : Field}
      {members : List (String × Json.Value)}
      (noSelections : field.selections = none) :
      ValueVisit document field (.object members) [] ⟨field.directives, members⟩
  | object
      {field : Field}
      {selections : List (Selection Argument)}
      {members : List (String × Json.Value)}
      {place : List Nat}
      {node : Node}
      (hasSelections : field.selections = some selections)
      (inside : ObjectVisit document (.ofField field selections) members place node) :
      ValueVisit document field (.object members) place node
  | array
      {field : Field}
      {elements : List Json.Value}
      {index : Nat}
      {element : Json.Value}
      {place : List Nat}
      {node : Node}
      (isElement : elements[index]? = some element)
      (inside : ValueVisit document field element place node) :
      ValueVisit document field (.array elements) (index :: place) node

end

/-- The visit at a place in a root. -/
inductive RootVisit (document : Document) (entry : Entry) :
    Json.Value → List Nat → Node → Prop where
  | object
      {members : List (String × Json.Value)}
      {place : List Nat}
      {node : Node}
      (inside : ObjectVisit document entry members place node) :
      RootVisit document entry (.object members) place node
  | array
      {elements : List Json.Value}
      {index : Nat}
      {element : Json.Value}
      {place : List Nat}
      {node : Node}
      (isElement : elements[index]? = some element)
      (inside : RootVisit document entry element place node) :
      RootVisit document entry (.array elements) (index :: place) node

/-! ## The order of places -/

/-- The order in which visits end: what is inside comes first, and then what is earlier. -/
inductive Before : List Nat → List Nat → Prop where
  | inside
      {step : Nat}
      {rest : List Nat} :
      Before (step :: rest) []
  | earlier
      {step other : Nat}
      {rest others : List Nat}
      (less : step < other) :
      Before (step :: rest) (other :: others)
  | within
      {step : Nat}
      {rest others : List Nat}
      (before : Before rest others) :
      Before (step :: rest) (step :: others)

theorem Before.asymm
    {place other : List Nat}
    (before : Before place other) :
    ¬ Before other place := by
  induction before with
  | inside =>
      intro after
      cases after
  | earlier less =>
      intro after
      cases after with
      | earlier more => omega
      | within => omega
  | within _ induction =>
      intro after
      cases after with
      | earlier less => omega
      | within after => exact induction after

theorem Before.nodup
    {places : List (List Nat)}
    (ordered : places.Pairwise Before) :
    places.Nodup := by
  refine ordered.imp ?_
  rintro place _ before rfl
  exact before.asymm before

section

variable
    {document : Document}

/-! ## Visits of each kind of value -/

/-- The visits in some children, the first of which has the number `start`. -/
def Among {α : Type} (visits : α → List Nat → Node → Prop) (start : Nat) (children : List α)
    (place : List Nat) (node : Node) : Prop :=
  ∃ index child rest, children[index]? = some child ∧ place = (start + index) :: rest ∧
    visits child rest node

theorem among_cons
    {α : Type}
    {visits : α → List Nat → Node → Prop}
    {start : Nat}
    {child : α}
    {children : List α}
    {place : List Nat}
    {node : Node} :
    Among visits start (child :: children) place node ↔
      (∃ rest, place = start :: rest ∧ visits child rest node) ∨
        Among visits (start + 1) children place node := by
  constructor
  · rintro ⟨index, other, rest, isChild, rfl, isVisit⟩
    cases index with
    | zero =>
        cases isChild
        exact .inl ⟨rest, rfl, isVisit⟩
    | succ index =>
        rw [List.getElem?_cons_succ] at isChild
        exact .inr ⟨index, other, rest, isChild, by rw [Nat.add_right_comm]; rfl, isVisit⟩
  · rintro (⟨rest, rfl, isVisit⟩ | ⟨index, other, rest, isChild, rfl, isVisit⟩)
    · exact ⟨0, child, rest, rfl, rfl, isVisit⟩
    · exact ⟨index + 1, other, rest, isChild, by rw [Nat.add_right_comm]; rfl, isVisit⟩

/-- The visits in the member that a field selects. -/
def FieldVisit (document : Document) (members : List (String × Json.Value)) (field : Field)
    (place : List Nat) (node : Node) : Prop :=
  ∃ value, Json.Members.find? members field.name = some value ∧
    ValueVisit document field value place node

theorem objectVisit_iff
    (accepted : SpreadGraph.check document.fragments = .ok ())
    {entry : Entry}
    {members : List (String × Json.Value)}
    {place : List Nat}
    {node : Node} :
    ObjectVisit document entry members place node ↔
      Among (FieldVisit document members) 0
          (applicableFields document entry.name members entry.selections) place node ∨
        place = [] ∧ node = ⟨entry.directives, members⟩ := by
  constructor
  · intro isVisit
    cases isVisit with
    | own => exact .inr ⟨rfl, rfl⟩
    | @field _ _ _ areFields index field isField value isMember rest _ inside =>
        rw [fieldsOf_iff_applicableFields accepted] at areFields
        subst areFields
        exact .inl ⟨index, field, rest, isField, by rw [Nat.zero_add], value, isMember, inside⟩
  · rintro (⟨index, field, rest, isField, rfl, value, isMember, inside⟩ | ⟨rfl, rfl⟩)
    · rw [Nat.zero_add]
      have areFields := fieldsOf_applicableFields accepted entry.name members entry.selections
      exact .field areFields isField isMember inside
    · exact .own

theorem valueVisit_whole_iff
    {field : Field}
    (noSelections : field.selections = none)
    {members : List (String × Json.Value)}
    {place : List Nat}
    {node : Node} :
    ValueVisit document field (.object members) place node ↔
      place = [] ∧ node = ⟨field.directives, members⟩ := by
  constructor
  · intro isVisit
    cases isVisit with
    | whole => exact ⟨rfl, rfl⟩
    | object hasSelections =>
        rw [noSelections] at hasSelections
        cases hasSelections
  · rintro ⟨rfl, rfl⟩
    exact .whole noSelections

theorem valueVisit_object_iff
    {field : Field}
    {selections : List (Selection Argument)}
    (hasSelections : field.selections = some selections)
    {members : List (String × Json.Value)}
    {place : List Nat}
    {node : Node} :
    ValueVisit document field (.object members) place node ↔
      ObjectVisit document (.ofField field selections) members place node := by
  constructor
  · intro isVisit
    cases isVisit with
    | whole noSelections =>
        rw [hasSelections] at noSelections
        cases noSelections
    | object alsoSelections inside =>
        rw [hasSelections] at alsoSelections
        cases alsoSelections
        exact inside
  · exact .object hasSelections

theorem valueVisit_array_iff
    {field : Field}
    {elements : List Json.Value}
    {place : List Nat}
    {node : Node} :
    ValueVisit document field (.array elements) place node ↔
      Among (ValueVisit document field) 0 elements place node := by
  constructor
  · intro isVisit
    cases isVisit with
    | array isElement inside => exact ⟨_, _, _, isElement, by rw [Nat.zero_add], inside⟩
  · rintro ⟨index, element, rest, isElement, rfl, inside⟩
    rw [Nat.zero_add]
    exact .array isElement inside

theorem not_valueVisit_of_isScalar
    {field : Field}
    {value : Json.Value}
    (isScalar : value.isScalar = true)
    (place : List Nat)
    (node : Node) :
    ¬ ValueVisit document field value place node := by
  intro isVisit
  cases isVisit with
  | whole => cases isScalar
  | object => cases isScalar
  | array => cases isScalar

theorem rootVisit_object_iff
    {entry : Entry}
    {members : List (String × Json.Value)}
    {place : List Nat}
    {node : Node} :
    RootVisit document entry (.object members) place node ↔
      ObjectVisit document entry members place node := by
  constructor
  · intro isVisit
    cases isVisit with
    | object inside => exact inside
  · exact .object

theorem rootVisit_array_iff
    {entry : Entry}
    {elements : List Json.Value}
    {place : List Nat}
    {node : Node} :
    RootVisit document entry (.array elements) place node ↔
      Among (RootVisit document entry) 0 elements place node := by
  constructor
  · intro isVisit
    cases isVisit with
    | array isElement inside => exact ⟨_, _, _, isElement, by rw [Nat.zero_add], inside⟩
  · rintro ⟨index, element, rest, isElement, rfl, inside⟩
    rw [Nat.zero_add]
    exact .array isElement inside

/-! ## There is one visit at a place -/

/-- At every place there is one visit at most. -/
def Unambiguous (visits : List Nat → Node → Prop) : Prop :=
  ∀ place node other, visits place node → visits place other → node = other

theorem Unambiguous.among
    {α : Type}
    {visits : α → List Nat → Node → Prop}
    {children : List α}
    (ofEach : ∀ child ∈ children, Unambiguous (visits child))
    (start : Nat) :
    Unambiguous (Among visits start children) := by
  rintro _ node other ⟨index, child, rest, isChild, rfl, left⟩
    ⟨otherIndex, otherChild, otherRest, isOtherChild, same, right⟩
  rw [List.cons.injEq] at same
  obtain ⟨sameIndex, rfl⟩ := same
  cases Nat.add_left_cancel sameIndex
  cases isChild.symm.trans isOtherChild
  exact ofEach child (List.mem_of_getElem? isChild) rest node other left right

theorem unambiguous_objectVisit
    (accepted : SpreadGraph.check document.fragments = .ok ())
    {members : List (String × Json.Value)}
    (ofMembers :
      ∀ key source, (key, source) ∈ members → ∀ field,
        Unambiguous (ValueVisit document field source))
    (entry : Entry) :
    Unambiguous (ObjectVisit document entry members) := by
  have ofField : ∀ field, Unambiguous (FieldVisit document members field) := by
    rintro field place node other ⟨value, isMember, left⟩ ⟨_, alsoMember, right⟩
    cases isMember.symm.trans alsoMember
    exact ofMembers field.name value (Json.Members.mem_of_find? isMember) field place node other
      left right
  intro place node other left right
  rw [objectVisit_iff accepted] at left right
  rcases left with left | ⟨rfl, rfl⟩
  · rcases right with right | ⟨rfl, _⟩
    · exact Unambiguous.among (fun field _ => ofField field) 0 place node other left right
    · obtain ⟨_, _, _, _, notOwn, _⟩ := left
      cases notOwn
  · rcases right with ⟨_, _, _, _, notOwn, _⟩ | ⟨_, rfl⟩
    · cases notOwn
    · rfl

theorem unambiguous_valueVisit
    (accepted : SpreadGraph.check document.fragments = .ok ())
    (value : Json.Value)
    (field : Field) :
    Unambiguous (ValueVisit document field value) := by
  induction value using Json.Value.inside_induction generalizing field with
  | scalar value isScalar =>
      intro place node _ left
      exact (not_valueVisit_of_isScalar isScalar place node left).elim
  | array elements induction =>
      intro place node other left right
      rw [valueVisit_array_iff] at left right
      exact Unambiguous.among (fun element isElement => induction element isElement field) 0
        place node other left right
  | object members induction =>
      intro place node other left right
      cases selected : field.selections with
      | some selections =>
          rw [valueVisit_object_iff selected] at left right
          exact unambiguous_objectVisit accepted induction _ place node other left right
      | none =>
          rw [valueVisit_whole_iff selected] at left right
          rw [left.2, right.2]

theorem unambiguous_rootVisit
    (accepted : SpreadGraph.check document.fragments = .ok ())
    (entry : Entry)
    (root : Json.Value) :
    Unambiguous (RootVisit document entry root) := by
  induction root using Json.Value.inside_induction with
  | scalar value isScalar =>
      intro place node _ left
      cases left with
      | object => cases isScalar
      | array => cases isScalar
  | array elements induction =>
      intro place node other left right
      rw [rootVisit_array_iff] at left right
      exact Unambiguous.among induction 0 place node other left right
  | object members _ =>
      intro place node other left right
      rw [rootVisit_object_iff] at left right
      refine unambiguous_objectVisit accepted ?_ entry place node other left right
      intro key source _ field
      exact unambiguous_valueVisit accepted source field

/-- The visits of the first query of a document; without a query there are none. -/
def QueryVisit (document : Document) (source : Json.Value) (place : List Nat) (node : Node) :
    Prop :=
  ∃ operation, document.queryOperation? = some operation ∧
    RootVisit document (.ofOperation operation) source place node

theorem unambiguous_queryVisit
    (accepted : SpreadGraph.check document.fragments = .ok ())
    (source : Json.Value) :
    Unambiguous (QueryVisit document source) := by
  rintro place node other ⟨operation, isQuery, left⟩ ⟨_, alsoQuery, right⟩
  cases isQuery.symm.trans alsoQuery
  exact unambiguous_rootVisit accepted (.ofOperation operation) source place node other left right

end

end QueryGateway.Projection
