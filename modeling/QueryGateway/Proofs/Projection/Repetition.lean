import QueryGateway.Proofs.Projection.Shape

/-!
# Fields that are repeated

A response key may come up several times among the fields of an object: it may
be written twice, or once outside of a fragment and once within.  The fields
are not merged.  What the last field of a key selects stands under this key, all
of it, and nothing of what is selected by those before it.

So a selection set that grows leaves every response key where it was, and what
stands under a key changes only if a new field is now the last one.
-/

namespace QueryGateway.Projection

open Query

/-! ## Objects within a target -/

/-- An object of a document with what it is visited for and what becomes of it. -/
structure Item where
  entry : Entry
  members : List (String × Json.Value)
  target : List (String × Json.Value)

mutual

/-- An item stands in the target of an object. -/
inductive InObject (document : Document) (item : Item) :
    Entry → List (String × Json.Value) → List (String × Json.Value) → Prop where
  | itself : InObject document item item.entry item.members item.target
  | member
      {entry : Entry}
      {members target : List (String × Json.Value)}
      {fields : List Field}
      {key : String}
      {field : Field}
      {source value : Json.Value}
      (applicable : FieldsOf document (discriminator members entry.name) entry.selections fields)
      (isLast : IsLast fields key field)
      (isSource : Json.Members.find? members field.name = some source)
      (isValue : Json.Members.find? target key = some value)
      (inside : InValue document item field source value) :
      InObject document item entry members target

/-- An item stands in the target of a field's value. -/
inductive InValue (document : Document) (item : Item) :
    Field → Json.Value → Json.Value → Prop where
  | object
      {field : Field}
      {selections : List (Selection Argument)}
      {members target : List (String × Json.Value)}
      (hasSelections : field.selections = some selections)
      (inside : InObject document item (.ofField field selections) members target) :
      InValue document item field (.object members) (.object target)
  | array
      {field : Field}
      {elements targets : List Json.Value}
      {index : Nat}
      {element target : Json.Value}
      (isElement : elements[index]? = some element)
      (isTarget : targets[index]? = some target)
      (inside : InValue document item field element target) :
      InValue document item field (.array elements) (.array targets)

end

/-- An item stands in the target of a document. -/
inductive InRoot (document : Document) (item : Item) (entry : Entry) :
    Json.Value → Json.Value → Prop where
  | object
      {members target : List (String × Json.Value)}
      (inside : InObject document item entry members target) :
      InRoot document item entry (.object members) (.object target)
  | array
      {elements targets : List Json.Value}
      {index : Nat}
      {element target : Json.Value}
      (isElement : elements[index]? = some element)
      (isTarget : targets[index]? = some target)
      (inside : InRoot document item entry element target) :
      InRoot document item entry (.array elements) (.array targets)

/-- The visit of an object with the visits of its members. -/
def Item.IsVisited (document : Document) (item : Item) : Prop :=
  ∃ found,
    visitObject document item.entry item.members (memberVisits document item.members) =
      .ok (.object item.target, found)

section

variable
    {document : Document}
    {item : Item}

/-- What stands under a key is what the visit of the last field with this key came to. -/
theorem Item.IsVisited.value
    (accepted : SpreadGraph.check document.fragments = .ok ())
    (visited : item.IsVisited document)
    {fields : List Field}
    {key : String}
    {field : Field}
    (applicable :
      FieldsOf document (discriminator item.members item.entry.name) item.entry.selections fields)
    (isLast : IsLast fields key field) :
    ∃ source value own, Json.Members.find? item.members field.name = some source ∧
      visitValue document source field = .ok (value, own) ∧
      Json.Members.find? item.target key = some value := by
  obtain ⟨found, visited⟩ := visited
  obtain ⟨kept, _, _, ofFields, _, isKept, _⟩ := visitObject_eq_ok_iff.mp visited
  cases isKept
  rw [fieldsOf_iff_applicableFields accepted] at applicable
  subst applicable
  have fills := visitFields_eq_ok (by simp) ofFields
  obtain ⟨visit, value, own, isVisit, ofField, isValue⟩ := fills.find?_eq isLast
  rw [find?_memberVisits, Option.map_eq_some_iff] at isVisit
  obtain ⟨source, isSource, rfl⟩ := isVisit
  exact ⟨source, value, own, isSource, ofField, isValue⟩

mutual

theorem InObject.isVisited
    (accepted : SpreadGraph.check document.fragments = .ok ())
    {entry : Entry}
    {members target : List (String × Json.Value)} :
    InObject document item entry members target →
      Item.IsVisited document ⟨entry, members, target⟩ → item.IsVisited document
  | .itself, visited => visited
  | .member applicable isLast isSource isValue inside, visited => by
      obtain ⟨_, _, own, alsoSource, ofField, alsoValue⟩ :=
        visited.value accepted applicable isLast
      cases isSource.symm.trans alsoSource
      cases isValue.symm.trans alsoValue
      exact inside.isVisited accepted ofField

theorem InValue.isVisited
    (accepted : SpreadGraph.check document.fragments = .ok ())
    {field : Field}
    {source value : Json.Value}
    {found : List Task} :
    InValue document item field source value →
      visitValue document source field = .ok (value, found) → item.IsVisited document
  | .object hasSelections inside, visited => by
      rw [visitValue, hasSelections] at visited
      exact inside.isVisited accepted ⟨_, visited⟩
  | .array isElement isTarget inside, visited => by
      rw [visitValue, visitElements_eq, bind_eq_ok] at visited
      obtain ⟨⟨targets, _⟩, visited, result⟩ := visited
      cases result
      obtain ⟨own, visited⟩ := (visitEach_eq_ok visited).pointwise.2 _ _ _ isElement isTarget
      exact inside.isVisited accepted visited

end

theorem InRoot.isVisited
    (accepted : SpreadGraph.check document.fragments = .ok ())
    {entry : Entry}
    {source target : Json.Value}
    {found : List Task}
    (inside : InRoot document item entry source target)
    (visited : visitRoot document entry source = .ok (target, found)) :
    item.IsVisited document := by
  induction inside generalizing found with
  | object inside =>
      rw [visitRoot] at visited
      exact inside.isVisited accepted ⟨_, visited⟩
  | array isElement isTarget _ induction =>
      rw [visitRoot, visitRoots_eq, bind_eq_ok] at visited
      obtain ⟨⟨targets, _⟩, visited, result⟩ := visited
      cases result
      obtain ⟨own, visited⟩ := (visitEach_eq_ok visited).pointwise.2 _ _ _ isElement isTarget
      exact induction visited

end

/-! ## Selection sets that grow -/

/-- A selection set has all that another one has, in the same order, and perhaps more. -/
inductive Widens : List (Selection Argument) → List (Selection Argument) → Prop where
  | nil : Widens [] []
  | add
      {selections others : List (Selection Argument)}
      (added : Selection Argument)
      (widens : Widens selections others) :
      Widens selections (added :: others)
  | keep
      {selections others : List (Selection Argument)}
      (kept : Selection Argument)
      (widens : Widens selections others) :
      Widens (kept :: selections) (kept :: others)
  | inline
      {own wider selections others : List (Selection Argument)}
      (condition : Option String)
      (directives : List (Directive Argument))
      (inside : Widens own wider)
      (widens : Widens selections others) :
      Widens (.inline condition directives own :: selections)
        (.inline condition directives wider :: others)

variable
    {document : Document}

theorem Widens.exists_fields
    {type : Option String}
    {selections others : List (Selection Argument)}
    {fields : List Field}
    (widens : Widens selections others)
    (areFields : FieldsOf document type others fields) :
    ∃ fewer, FieldsOf document type selections fewer ∧ fewer.Sublist fields := by
  induction widens generalizing fields with
  | nil =>
      cases areFields
      exact ⟨[], .nil, .slnil⟩
  | add added _ induction =>
      cases areFields with
      | field rest =>
          obtain ⟨fewer, areFewer, sublist⟩ := induction rest
          exact ⟨fewer, areFewer, sublist.cons _⟩
      | unknown _ rest => exact induction rest
      | excluded _ rest => exact induction rest
      | spread _ _ rest =>
          obtain ⟨fewer, areFewer, sublist⟩ := induction rest
          exact ⟨fewer, areFewer, sublist.trans (List.sublist_append_right ..)⟩
      | inline _ _ rest =>
          obtain ⟨fewer, areFewer, sublist⟩ := induction rest
          exact ⟨fewer, areFewer, sublist.trans (List.sublist_append_right ..)⟩
  | keep kept _ induction =>
      cases areFields with
      | field rest =>
          obtain ⟨fewer, areFewer, sublist⟩ := induction rest
          exact ⟨_, .field areFewer, sublist.cons_cons _⟩
      | unknown none rest =>
          obtain ⟨fewer, areFewer, sublist⟩ := induction rest
          exact ⟨_, .unknown none areFewer, sublist⟩
      | excluded none rest =>
          obtain ⟨fewer, areFewer, sublist⟩ := induction rest
          exact ⟨_, .excluded none areFewer, sublist⟩
      | spread applies inside rest =>
          obtain ⟨fewer, areFewer, sublist⟩ := induction rest
          exact ⟨_, .spread applies inside areFewer, sublist.append_left _⟩
      | inline admitted inside rest =>
          obtain ⟨fewer, areFewer, sublist⟩ := induction rest
          exact ⟨_, .inline admitted inside areFewer, sublist.append_left _⟩
  | inline condition directives _ _ insideInduction induction =>
      cases areFields with
      | excluded none rest =>
          obtain ⟨fewer, areFewer, sublist⟩ := induction rest
          exact ⟨_, .excluded none areFewer, sublist⟩
      | inline admitted inside rest =>
          obtain ⟨inner, areInner, innerSublist⟩ := insideInduction inside
          obtain ⟨fewer, areFewer, sublist⟩ := induction rest
          exact ⟨_, .inline admitted areInner areFewer, innerSublist.append sublist⟩

/-- An item as it is visited for other selections. -/
def Item.with (item : Item) (selections : List (Selection Argument))
    (target : List (String × Json.Value)) : Item :=
  ⟨{ item.entry with selections }, item.members, target⟩

/-- What is left of an item's target, for selections that have less than its own. -/
structure Item.Narrows (document : Document) (item : Item)
    (selections : List (Selection Argument)) (smaller : List (String × Json.Value)) : Prop where
  visited : (item.with selections smaller).IsVisited document
  keys : ∀ key ∈ smaller.map (·.1), key ∈ item.target.map (·.1)
  /-- Where the selections have the last field of a key, they have what stands under it. -/
  values :
    ∀ fields fewer key field,
      FieldsOf document (discriminator item.members item.entry.name) item.entry.selections
          fields →
        FieldsOf document (discriminator item.members item.entry.name) selections fewer →
          IsLast fields key field → IsLast fewer key field →
            Json.Members.find? smaller key = Json.Members.find? item.target key

theorem Item.IsVisited.narrows
    {item : Item}
    (accepted : SpreadGraph.check document.fragments = .ok ())
    (visited : item.IsVisited document)
    {selections : List (Selection Argument)}
    (widens : Widens selections item.entry.selections) :
    ∃ smaller, item.Narrows document selections smaller := by
  obtain ⟨found, isVisited⟩ := visited
  obtain ⟨kept, inside, own, ofFields, ofLink, isKept, _⟩ := visitObject_eq_ok_iff.mp isVisited
  cases isKept
  have areFields :=
    fieldsOf_applicableFields accepted item.entry.name item.members item.entry.selections
  obtain ⟨fewer, areFewer, sublist⟩ := widens.exists_fields areFields
  have isFewer := (fieldsOf_iff_applicableFields accepted).mp areFewer
  -- The visits of fewer fields are among those that have succeeded.
  have succeed := (visitFields_succeeds_iff _ _ _).mp ⟨_, ofFields⟩
  obtain ⟨⟨smaller, found⟩, ofFewer⟩ :=
    (visitFields_succeeds_iff (memberVisits document item.members) fewer []).mpr
      fun field isField => succeed field (sublist.subset isField)
  have fills := visitFields_eq_ok (by simp) ofFields
  have fillsLess := visitFields_eq_ok (by simp) ofFewer
  refine ⟨smaller, ?_, ?_, ?_⟩
  · rw [isFewer] at ofFewer
    exact ⟨_, visitObject_eq_ok_iff.mpr ⟨smaller, found, own, ofFewer, ofLink, rfl, rfl⟩⟩
  · intro key isKey
    rw [fillsLess.keys] at isKey
    rw [fills.keys]
    simp only [List.map_nil, List.nil_append, List.mem_eraseDups] at isKey ⊢
    exact (sublist.map _).subset isKey
  · intro fields others key field alsoFields alsoFewer isLast isLastOfFewer
    cases areFields.unique alsoFields
    cases areFewer.unique alsoFewer
    obtain ⟨visit, value, tasks, isVisit, ofField, isValue⟩ := fills.find?_eq isLast
    obtain ⟨_, _, _, alsoVisit, alsoOfField, alsoValue⟩ := fillsLess.find?_eq isLastOfFewer
    cases isVisit.symm.trans alsoVisit
    cases ofField.symm.trans alsoOfField
    rw [isValue, alsoValue]

/-! ## Projections -/

/--
In every object of a target stands, under every response key, what the last
field with this key selects at every depth.  Had the object been visited for
less than it was, then no key would be there that is not there now, and under
the keys that have the same last field would stand the same.
-/
theorem project_keeps_last
    {text : String}
    {operation : Operation Argument}
    {source : Json.Value}
    {projection : Projected}
    {item : Item}
    (parsed : Document.ofString text = .ok document)
    (isQuery : document.queryOperation? = some operation)
    (projected : project document source = .ok projection)
    (inside : InRoot document item (.ofOperation operation) source projection.target) :
    (∀ fields key field,
        FieldsOf document (discriminator item.members item.entry.name) item.entry.selections
            fields →
          IsLast fields key field →
            ∃ selected value, Json.Members.find? item.members field.name = some selected ∧
              Json.Members.find? item.target key = some value ∧
              KeepsValue document field selected value) ∧
      ∀ selections, Widens selections item.entry.selections →
        ∃ smaller, item.Narrows document selections smaller := by
  have accepted := Document.check_of_ofString parsed
  rw [project, isQuery] at projected
  simp only [enter, bind_eq_ok] at projected
  obtain ⟨⟨found, followUps⟩, visited, result⟩ := projected
  cases result
  have isVisited := inside.isVisited accepted visited
  constructor
  · intro fields key field applicable isLast
    obtain ⟨selected, value, own, isSelected, ofField, isValue⟩ :=
      isVisited.value accepted applicable isLast
    exact ⟨selected, value, isSelected, isValue, keepsValue_of_visitValue accepted ofField⟩
  · intro selections widens
    exact isVisited.narrows accepted widens

/-! ## A shelf that is selected twice -/

namespace Shelf

def labelQuery : String :=
  "\x7b shelf \x7b label \x7d \x7d"

def labelAndPriceQuery : String :=
  "\x7b shelf \x7b label \x7d shelf \x7b price \x7d \x7d"

def labelSelection : Selection Argument :=
  .field none "shelf" [] [] (some [.field none "label" [] [] none])

def priceField : Field :=
  ⟨none, "shelf", [], [], some [.field none "price" [] [] none]⟩

def priceSelection : Selection Argument :=
  .field none "shelf" [] [] priceField.selections

def labelOperation : Operation Argument :=
  ⟨.query, none, [], [labelSelection]⟩

def labelAndPriceOperation : Operation Argument :=
  ⟨.query, none, [], [labelSelection, priceSelection]⟩

def sourceMembers : List (String × Json.Value) :=
  [("shelf", .array [.object [("price", .null), ("label", .string "toy")], .bool true])]

def labelTarget : List (String × Json.Value) :=
  [("shelf", .array [.object [("label", .string "toy")], .bool true])]

def priceTarget : List (String × Json.Value) :=
  [("shelf", .array [.object [("price", .null)], .bool true])]

theorem labelAndPrice_parsed :
    Document.ofString labelAndPriceQuery = .ok ⟨[labelAndPriceOperation], []⟩ := by
  cbv

theorem labelAndPrice_projected :
    project ⟨[labelAndPriceOperation], []⟩ (.object sourceMembers) =
      .ok ⟨.object priceTarget, []⟩ := by
  cbv

/-- The label is kept, until the shelf is selected once more for its price. -/
theorem label_is_dropped :
    Document.ofString labelQuery = .ok ⟨[labelOperation], []⟩ ∧
      project ⟨[labelOperation], []⟩ (.object sourceMembers) = .ok ⟨.object labelTarget, []⟩ ∧
      Document.ofString labelAndPriceQuery = .ok ⟨[labelAndPriceOperation], []⟩ ∧
      project ⟨[labelAndPriceOperation], []⟩ (.object sourceMembers) =
        .ok ⟨.object priceTarget, []⟩ := by
  have labelParsed : Document.ofString labelQuery = .ok ⟨[labelOperation], []⟩ := by
    cbv
  have labelProjected : project ⟨[labelOperation], []⟩ (.object sourceMembers) =
      .ok ⟨.object labelTarget, []⟩ := by
    cbv
  exact ⟨labelParsed, labelProjected, labelAndPrice_parsed, labelAndPrice_projected⟩

/-- The whole document, which is an object on which the shelf stands. -/
def room : Item :=
  ⟨.ofOperation labelAndPriceOperation, sourceMembers, priceTarget⟩

/-- What stands under the shelf is what the second selection keeps of it. -/
theorem price_is_kept :
    (∃ selected value, Json.Members.find? room.members "shelf" = some selected ∧
        Json.Members.find? room.target "shelf" = some value ∧
        KeepsValue ⟨[labelAndPriceOperation], []⟩ priceField selected value) ∧
      ∃ smaller, room.Narrows ⟨[labelAndPriceOperation], []⟩ [labelSelection] smaller := by
  have inside : InRoot ⟨[labelAndPriceOperation], []⟩ room (.ofOperation labelAndPriceOperation)
      (.object sourceMembers) (.object priceTarget) :=
    .object .itself
  obtain ⟨values, narrows⟩ :=
    project_keeps_last labelAndPrice_parsed rfl labelAndPrice_projected inside
  refine ⟨values _ "shelf" priceField (.field (.field .nil)) ?_, narrows _ ?_⟩
  · exact ⟨[_], [], rfl, rfl, by simp⟩
  · exact .keep _ (.add _ .nil)

end Shelf

end QueryGateway.Projection
