import Mathlib
import QueryGateway.Proofs.Projection.Simulation

/-!
# What is not selected has no influence

Two sources agree under a selection set if the query cannot tell them apart: at
every pair of objects that it visits, the guessed types are the same, and so is
what stands under each field that applies there, again under the selection set
of the field.  Whatever else the objects have, and in whatever order, is left
open.

Without links, a projection has the same result on sources that agree.  With
links it need not, since an address may mention members that are not selected,
and a task shows its whole node.
-/

namespace QueryGateway.Query

mutual

/-- The directives within a selection. -/
def Selection.directivesWithin {α : Type} : Selection α → List (Directive α)
  | .field _ _ _ directives none => directives
  | .field _ _ _ directives (some selections) =>
      directives ++ Selection.directivesWithinAll selections
  | .spread _ directives => directives
  | .inline _ directives selections => directives ++ Selection.directivesWithinAll selections

/-- The directives within a selection set. -/
def Selection.directivesWithinAll {α : Type} : List (Selection α) → List (Directive α)
  | [] => []
  | selection :: selections =>
      selection.directivesWithin ++ Selection.directivesWithinAll selections

end

/-- All directives of a document, on and within its operations and fragments. -/
def Document.directives (document : Document) : List (Directive Argument) :=
  (document.operations.flatMap fun operation =>
      operation.directives ++ Selection.directivesWithinAll operation.selections) ++
    document.fragments.flatMap fun fragment =>
      fragment.directives ++ Selection.directivesWithinAll fragment.selections

theorem Document.directivesWithin_operation
    {document : Document}
    {operation : Operation Argument}
    (isOperation : operation ∈ document.operations) :
    operation.directives ++ Selection.directivesWithinAll operation.selections ⊆
      document.directives := by
  intro directive isDirective
  exact List.mem_append_left _ (List.mem_flatMap.mpr ⟨operation, isOperation, isDirective⟩)

theorem Document.directivesWithin_fragment
    {document : Document}
    {fragment : Fragment Argument}
    (isFragment : fragment ∈ document.fragments) :
    fragment.directives ++ Selection.directivesWithinAll fragment.selections ⊆
      document.directives := by
  intro directive isDirective
  exact List.mem_append_right _ (List.mem_flatMap.mpr ⟨fragment, isFragment, isDirective⟩)

end QueryGateway.Query

namespace QueryGateway.Projection

open Query

/--
Two values agree under a selection set: the query cannot tell them apart.  The
values stand under a field of the name, or at the root of an operation.
-/
inductive Agrees (document : Document) :
    Option String → Option (List (Selection Argument)) → Json.Value → Json.Value → Prop where
  | scalar
      {name : Option String}
      {selections : Option (List (Selection Argument))}
      {value : Json.Value}
      (isScalar : value.isScalar = true) :
      Agrees document name selections value value
  /-- Without a selection set everything is kept. -/
  | whole
      {name : Option String}
      (members : List (String × Json.Value)) :
      Agrees document name none (.object members) (.object members)
  | object
      {name : Option String}
      {selections : List (Selection Argument)}
      {members others : List (String × Json.Value)}
      {fields : List Field}
      (sameType : discriminator members name = discriminator others name)
      (apply : FieldsOf document (discriminator members name) selections fields)
      (bothMissing : ∀ field ∈ fields,
        Json.Members.find? members field.name = none ↔
          Json.Members.find? others field.name = none)
      (agree : ∀ field ∈ fields, ∀ value other,
        Json.Members.find? members field.name = some value →
          Json.Members.find? others field.name = some other →
            Agrees document (some field.name) field.selections value other) :
      Agrees document name (some selections) (.object members) (.object others)
  | array
      {name : Option String}
      {selections : Option (List (Selection Argument))}
      {elements others : List Json.Value}
      (sameLength : elements.length = others.length)
      (agree : ∀ (index : Nat) (element other : Json.Value),
        elements[index]? = some element → others[index]? = some other →
          Agrees document name selections element other) :
      Agrees document name selections (.array elements) (.array others)

section

variable
    {document : Document}

/-! ## Directives of the fields that apply -/

/-- The directives on and within some selections are all directives of the document. -/
def Within (document : Document) (directives : List (Directive Argument))
    (selections : Option (List (Selection Argument))) : Prop :=
  directives ⊆ document.directives ∧
    ∀ own, selections = some own → Selection.directivesWithinAll own ⊆ document.directives

theorem within_of_fieldsOf
    {type : Option String}
    {selections : List (Selection Argument)}
    {fields : List Field}
    (fieldsOf : FieldsOf document type selections fields)
    (within : Selection.directivesWithinAll selections ⊆ document.directives) :
    ∀ field ∈ fields, Within document field.directives field.selections := by
  induction fieldsOf with
  | nil => simp
  | @field _ _ _ directives own _ _ _ induction =>
      rw [Selection.directivesWithinAll] at within
      obtain ⟨withinFirst, within⟩ := List.append_subset.mp within
      refine List.forall_mem_cons.mpr ⟨?_, induction within⟩
      cases own with
      | none =>
          rw [Selection.directivesWithin] at withinFirst
          exact ⟨withinFirst, by simp⟩
      | some own =>
          rw [Selection.directivesWithin] at withinFirst
          obtain ⟨onField, underField⟩ := List.append_subset.mp withinFirst
          refine ⟨onField, ?_⟩
          rintro _ ⟨⟩
          exact underField
  | spread applies _ _ insideInduction othersInduction =>
      rw [Selection.directivesWithinAll] at within
      have isFragment := (applicableFragment?_eq_some applies).1
      have withinFragment := Document.directivesWithin_fragment isFragment
      refine List.forall_mem_append.mpr ⟨?_, ?_⟩
      · exact insideInduction (List.append_subset.mp withinFragment).2
      · exact othersInduction (List.append_subset.mp within).2
  | unknown _ _ induction | excluded _ _ induction =>
      rw [Selection.directivesWithinAll] at within
      exact induction (List.append_subset.mp within).2
  | inline _ _ _ insideInduction othersInduction =>
      rw [Selection.directivesWithinAll, Selection.directivesWithin] at within
      obtain ⟨withinFirst, within⟩ := List.append_subset.mp within
      refine List.forall_mem_append.mpr ⟨?_, othersInduction within⟩
      exact insideInduction (List.append_subset.mp withinFirst).2

/-! ## Visits of values that agree -/

/-- No task is related to any: results that agree have none. -/
def NoTasks (_ _ : Task) : Prop :=
  False

theorem followLink_of_unlinked
    (unlinked : ∀ directive ∈ document.directives, directive.name ≠ linkDirective)
    {directives : List (Directive Argument)}
    (within : directives ⊆ document.directives)
    (parent : Option String)
    (members : List (String × Json.Value)) :
    followLink document directives parent members = .ok none := by
  have notFound : directives.find? (·.name = linkDirective) = none := by
    refine List.find?_eq_none.mpr ?_
    intro directive isDirective
    simpa using unlinked directive (within isDirective)
  rw [followLink, notFound]

/-- What agreement comes to: values are visited alike, under fields and at the root. -/
structure VisitAlike (document : Document) (name : Option String)
    (selections : Option (List (Selection Argument))) (value other : Json.Value) : Prop where
  underField : ∀ field : Field, some field.name = name → field.selections = selections →
    Within document field.directives field.selections →
      Alike NoTasks (visitValue document value field) (visitValue document other field)
  atRoot : ∀ entry : Entry, entry.name = name → some entry.selections = selections →
    Within document entry.directives (some entry.selections) →
      Alike NoTasks (visitRoot document entry value) (visitRoot document entry other)

theorem alike_visitObject_of_agree
    (accepted : SpreadGraph.check document.fragments = .ok ())
    (unlinked : ∀ directive ∈ document.directives, directive.name ≠ linkDirective)
    {entry : Entry}
    (within : Within document entry.directives (some entry.selections))
    {members others : List (String × Json.Value)}
    {fields : List Field}
    (sameType : discriminator members entry.name = discriminator others entry.name)
    (apply : FieldsOf document (discriminator members entry.name) entry.selections fields)
    (bothMissing : ∀ field ∈ fields,
      Json.Members.find? members field.name = none ↔ Json.Members.find? others field.name = none)
    (alike : ∀ field ∈ fields, ∀ value other,
      Json.Members.find? members field.name = some value →
        Json.Members.find? others field.name = some other →
          VisitAlike document (some field.name) field.selections value other) :
    Alike NoTasks (visitObject document entry members (memberVisits document members))
      (visitObject document entry others (memberVisits document others)) := by
  have ofMembers := (fieldsOf_iff_applicableFields accepted).mp apply
  have ofOthers := (fieldsOf_iff_applicableFields accepted).mp (sameType ▸ apply)
  refine alike_visitObject ?_ ?_
  · rw [← ofMembers, ← ofOthers, List.forall₂_same]
    intro field isField
    refine ⟨rfl, rfl, ?_, ?_⟩
    · rw [find?_memberVisits, find?_memberVisits, Option.map_eq_none_iff, Option.map_eq_none_iff]
      exact bothMissing field isField
    · intro visit otherVisit isVisit isOther
      rw [find?_memberVisits, Option.map_eq_some_iff] at isVisit isOther
      obtain ⟨value, isValue, rfl⟩ := isVisit
      obtain ⟨other, isOther, rfl⟩ := isOther
      have withinField := within_of_fieldsOf apply (within.2 _ rfl) field isField
      exact (alike field isField value other isValue isOther).underField field rfl rfl withinField
  · rw [followLink_of_unlinked unlinked within.1, followLink_of_unlinked unlinked within.1]
    exact .ok .none

theorem alike_visitEach_of_agree
    {visit : Json.Value → Visited}
    {elements others : List Json.Value}
    (sameLength : elements.length = others.length)
    (alike : ∀ (index : Nat) (element other : Json.Value),
      elements[index]? = some element → others[index]? = some other →
        Alike NoTasks (visit element) (visit other)) :
    Alike NoTasks (visitEach visit elements) (visitEach visit others) := by
  refine alike_visitEach (List.forall₂_iff_get.mpr ⟨sameLength, ?_⟩)
  intro index isIndex isOther
  exact alike index _ _ (List.getElem?_eq_getElem isIndex) (List.getElem?_eq_getElem isOther)

/-- Values that agree are visited alike. -/
theorem visitAlike_of_agrees
    (accepted : SpreadGraph.check document.fragments = .ok ())
    (unlinked : ∀ directive ∈ document.directives, directive.name ≠ linkDirective)
    {name : Option String}
    {selections : Option (List (Selection Argument))}
    {value other : Json.Value}
    (agrees : Agrees document name selections value other) :
    VisitAlike document name selections value other := by
  induction agrees with
  | scalar isScalar =>
      constructor
      · intro field _ _ _
        rw [visitValue_of_isScalar document field isScalar]
        exact .ok ⟨rfl, .nil⟩
      · intro entry _ _ _
        rw [visitRoot_of_isScalar document entry isScalar]
        exact .error _
  | whole members =>
      constructor
      · intro field _ hasNone within
        rw [visitValue]
        simp only [hasNone]
        rw [followLink_of_unlinked unlinked within.1]
        exact .ok ⟨rfl, .nil⟩
      · rintro _ _ ⟨⟩
  | @object name selections members others fields sameType apply bothMissing _ induction =>
      constructor
      · rintro field rfl hasSelections within
        rw [visitValue, visitValue]
        simp only [hasSelections] at within ⊢
        have withinEntry : Within document (Entry.ofField field selections).directives
            (some (Entry.ofField field selections).selections) := within
        exact alike_visitObject_of_agree accepted unlinked withinEntry sameType apply bothMissing
          induction
      · rintro entry rfl ⟨⟩ within
        rw [visitRoot, visitRoot]
        exact alike_visitObject_of_agree accepted unlinked within sameType apply bothMissing
          induction
  | array sameLength _ induction =>
      constructor
      · intro field isName hasSelections within
        rw [visitValue, visitValue, visitElements_eq, visitElements_eq]
        refine Agree.bind (alike_visitEach_of_agree sameLength ?_) ?_
        · intro index element other isElement isOther
          exact (induction index element other isElement isOther).underField field isName
            hasSelections within
        · rintro ⟨targets, found⟩ ⟨_, others⟩ ⟨rfl, tasks⟩
          exact .ok ⟨rfl, tasks⟩
      · intro entry isName hasSelections within
        rw [visitRoot, visitRoot, visitRoots_eq, visitRoots_eq]
        refine Agree.bind (alike_visitEach_of_agree sameLength ?_) ?_
        · intro index element other isElement isOther
          exact (induction index element other isElement isOther).atRoot entry isName
            hasSelections within
        · rintro ⟨targets, found⟩ ⟨_, others⟩ ⟨rfl, tasks⟩
          exact .ok ⟨rfl, tasks⟩

/-! ## Sources that agree -/

/-- Every value agrees with itself. -/
theorem Agrees.refl
    (accepted : SpreadGraph.check document.fragments = .ok ())
    (name : Option String)
    (selections : Option (List (Selection Argument)))
    (value : Json.Value) :
    Agrees document name selections value value := by
  induction value using Json.Value.inside_induction generalizing name selections with
  | scalar value isScalar => exact .scalar isScalar
  | array elements induction =>
      refine .array rfl ?_
      intro index element other isElement isOther
      cases isElement.symm.trans isOther
      exact induction element (List.mem_of_getElem? isElement) name selections
  | object members induction =>
      cases selections with
      | none => exact .whole members
      | some selections =>
          refine .object rfl (fieldsOf_applicableFields accepted name members selections)
            (fun _ _ => Iff.rfl) ?_
          intro field _ value other isValue isOther
          cases isValue.symm.trans isOther
          exact induction _ _ (Json.Members.mem_of_find? isValue) (some field.name)
            field.selections

/-- Objects agree that differ only in members which are neither selected nor tell the type. -/
theorem Agrees.of_same_members
    (accepted : SpreadGraph.check document.fragments = .ok ())
    {name : Option String}
    {selections : List (Selection Argument)}
    {members others : List (String × Json.Value)}
    (sameType : Json.Members.find? members "type" = Json.Members.find? others "type")
    (same : ∀ field ∈ applicableFields document name members selections,
      Json.Members.find? members field.name = Json.Members.find? others field.name) :
    Agrees document name (some selections) (.object members) (.object others) := by
  refine .object ?_ (fieldsOf_applicableFields accepted name members selections) ?_ ?_
  · rw [discriminator, discriminator, sameType]
  · intro field isField
    rw [same field isField]
  · intro field isField value other isValue isOther
    rw [same field isField] at isValue
    cases isValue.symm.trans isOther
    exact .refl accepted (some field.name) field.selections value

theorem project_of_queryOperation?
    {operation : Operation Argument}
    (isQuery : document.queryOperation? = some operation)
    (source : Json.Value) :
    project document source = enter document (.ofOperation operation) source := by
  rw [project, isQuery]

/-- Projections that go alike without tasks have the same result. -/
theorem results_of_noTasks
    {left right : Except ProjectionError Projected}
    (agree : Agree (SameProjected NoTasks) left right) :
    (∃ error, left = .error error ∧ right = .error error) ∨
      ∃ target, left = .ok ⟨target, []⟩ ∧ right = .ok ⟨target, []⟩ := by
  cases agree with
  | error error => exact .inl ⟨error, rfl, rfl⟩
  | @ok kept other same =>
      obtain ⟨target, followUps⟩ := kept
      obtain ⟨_, others⟩ := other
      obtain ⟨rfl, tasks⟩ := same
      cases tasks with
      | nil => exact .inr ⟨target, rfl, rfl⟩
      | cons related => exact related.elim

/--
A query without links has the same result on sources that agree: the same error,
or the same target.  It asks for nothing more.
-/
theorem project_eq_of_agrees
    {text : String}
    (parsed : Document.ofString text = .ok document)
    {operation : Operation Argument}
    (isQuery : document.queryOperation? = some operation)
    (unlinked : ∀ directive ∈ document.directives, directive.name ≠ linkDirective)
    {left right : Json.Value}
    (agrees : Agrees document operation.name (some operation.selections) left right) :
    (∃ error, project document left = .error error ∧ project document right = .error error) ∨
      ∃ target, project document left = .ok ⟨target, []⟩ ∧
        project document right = .ok ⟨target, []⟩ := by
  have accepted := Document.check_of_ofString parsed
  have isOperation := List.mem_of_find?_eq_some isQuery
  obtain ⟨onOperation, inOperation⟩ :=
    List.append_subset.mp (Document.directivesWithin_operation isOperation)
  have within : Within document operation.directives (some operation.selections) := by
    refine ⟨onOperation, ?_⟩
    rintro _ ⟨⟩
    exact inOperation
  have alike := (visitAlike_of_agrees accepted unlinked agrees).atRoot (.ofOperation operation)
    rfl rfl within
  rw [project_of_queryOperation? isQuery, project_of_queryOperation? isQuery]
  exact results_of_noTasks (agree_enter alike)

end

/-! ## Tags that only dogs show -/

namespace DogTags

def query : String :=
  "\x7b pets \x7b name ... on Dog \x7b tag \x7d \x7d \x7d"

def field (name : String) : Selection Argument :=
  .field none name [] [] none

def selections : List (Selection Argument) :=
  [field "name", .inline (some "Dog") [] [field "tag"]]

def operation : Operation Argument :=
  ⟨.query, none, [], [.field none "pets" [] [] (some selections)]⟩

def document : Document :=
  ⟨[operation], []⟩

def dog (others : List (String × Json.Value)) : List (String × Json.Value) :=
  [("type", .string "Dog"), ("name", .string "Rex"), ("tag", .number (.integer 7))] ++ others

/-- The tag of a cat is not selected. -/
def cat (tag : Json.Value) : List (String × Json.Value) :=
  [("tag", tag), ("name", .string "Ann"), ("type", .string "Cat")]

def source (others : List (String × Json.Value)) (tag : Json.Value) : Json.Value :=
  .object (("pets", .array [.object (dog others), .object (cat tag)]) :: others)

def target : Json.Value :=
  .object [("pets", .array
    [.object [("name", .string "Rex"), ("tag", .number (.integer 7))],
      .object [("name", .string "Ann")]])]

theorem parsed :
    Document.ofString query = .ok document := by
  cbv

theorem agrees :
    Agrees document none (some operation.selections) (source [] .null)
      (source [("vet", .string "Ann"), ("name", .null)] (.bool true)) := by
  have accepted := Document.check_of_ofString parsed
  refine .object rfl (.field .nil) ?_ ?_
  · intro _ isField
    cases List.mem_singleton.mp isField
    exact ⟨nofun, nofun⟩
  intro _ isField value other isValue isOther
  cases List.mem_singleton.mp isField
  cases isValue
  cases isOther
  refine .array rfl ?_
  intro index element other isElement isOther
  match index with
  | 0 =>
      cases isElement
      cases isOther
      refine .of_same_members accepted rfl ?_
      intro field isField
      rcases List.mem_cons.mp isField with rfl | isField
      · rfl
      · cases List.mem_singleton.mp isField
        rfl
  | 1 =>
      cases isElement
      cases isOther
      refine .of_same_members accepted rfl ?_
      intro field isField
      cases List.mem_singleton.mp isField
      rfl
  | _ + 2 => cases isElement

theorem other_members_stay_out :
    Document.ofString query = .ok document ∧
      (∀ directive ∈ document.directives, directive.name ≠ linkDirective) ∧
      project document (source [] .null) = .ok ⟨target, []⟩ ∧
      project document (source [("vet", .string "Ann"), ("name", .null)] (.bool true)) =
        .ok ⟨target, []⟩ := by
  have unlinked : ∀ directive ∈ document.directives, directive.name ≠ linkDirective := nofun
  have projected : project document (source [] .null) = .ok ⟨target, []⟩ := rfl
  rcases project_eq_of_agrees parsed rfl unlinked agrees with ⟨_, failed, _⟩ | ⟨_, ofLeft, ofRight⟩
  · cases projected.symm.trans failed
  · cases projected.symm.trans ofLeft
    exact ⟨parsed, unlinked, projected, ofRight⟩

end DogTags

end QueryGateway.Projection
