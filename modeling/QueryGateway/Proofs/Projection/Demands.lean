import QueryGateway.Proofs.Projection.Decision
import QueryGateway.Proofs.Projection.Pass

/-!
# What a projection demands

A projection makes demands on a document: roots are objects or arrays, objects
have the members that are selected, and what a link directive needs is there.
The demands of a document are listed in the order in which the document is
walked through: those of an object's fields before those of its own link, and
those of a field before those of the next one.  Which objects are visited does
not depend on whether demands are met, apart from members that are missing.

A projection decides its demands.
-/

namespace QueryGateway.Projection

open Query

/-! ## Links -/

/-- What a link directive demands of itself, the document and the node. -/
inductive LinkDemand where
  /-- An argument is a string if it is there. -/
  | stringArgument (directive : Directive Argument) (name : String)
  /-- There is an argument for the fragment. -/
  | fragmentArgument (directive : Directive Argument)
  /-- There is an argument for the address. -/
  | addressArgument (directive : Directive Argument)
  /-- A placeholder stands for a scalar member. -/
  | placeholder (members : List (String × Json.Value)) (key : String)
  /-- There is a fragment of a name, with a type if one is given. -/
  | fragment (document : Document) (name : String) (type : Option String)

namespace LinkDemand

/-- Is the demand met? -/
def IsMet : LinkDemand → Prop
  | .stringArgument directive name =>
      ∀ value, directive.argument? name = some value → ∃ text, value.asString? = some text
  | .fragmentArgument directive => ∃ value, directive.argument? "fragment" = some value
  | .addressArgument directive => ∃ value, directive.argument? "href" = some value
  | .placeholder members key =>
      ∃ value, Json.Members.find? members key = some value ∧ value.isScalar = true
  | .fragment document name type =>
      ∃ fragment ∈ document.fragments, fragment.name = name ∧
        ∀ condition, type = some condition → fragment.condition = condition

/-- The error when the demand is not met. -/
def violation : LinkDemand → LinkError
  | .stringArgument _ name => .nonStringArgument name
  | .fragmentArgument _ => .missingFragmentArgument
  | .addressArgument _ => .missingAddress
  | .placeholder _ key => .unresolvedPlaceholder key
  | .fragment _ name _ => .unknownFragment name

end LinkDemand

/-- An argument that is a string. -/
def textArgument? (directive : Directive Argument) (name : String) : Option String :=
  (directive.argument? name).bind (·.asString?)

/-- The address that a node has itself. -/
def ownAddress? (members : List (String × Json.Value)) : Option String :=
  (Json.Members.find? members "href").bind (·.asString?)

/-- The keys of the placeholders of a template, in their order. -/
def placeholders (template : String) : List String :=
  (Template.pieces template.toList).filterMap fun
    | .placeholder key => some (String.ofList key)
    | .literal _ => none

/-- The demands of an address: it is that of the node, or else a string argument. -/
def addressDemands (directive : Directive Argument) (members : List (String × Json.Value)) :
    List LinkDemand :=
  match ownAddress? members with
  | some _ => []
  | none => [.stringArgument directive "href", .addressArgument directive]

/-- The demands of a link directive on a node. -/
def directiveDemands (document : Document) (directive : Directive Argument)
    (members : List (String × Json.Value)) : List LinkDemand :=
  let address? := (ownAddress? members).or (textArgument? directive "href")
  [.stringArgument directive "fragment", .fragmentArgument directive] ++
    (addressDemands directive members ++
      ((address?.toList.flatMap placeholders).map (.placeholder members) ++
        ([.stringArgument directive "type"] ++
          (textArgument? directive "fragment").toList.map
            (.fragment document · (textArgument? directive "type")))))

/-! ## Documents -/

/-- What a projection demands. -/
inductive Demand where
  /-- A root is an object or an array. -/
  | shape (root : Json.Value)
  /-- An object has a member. -/
  | member (members : List (String × Json.Value)) (name : String)
  /-- The link directive on a field, or at the root, can be followed. -/
  | link (field : Option String) (demand : LinkDemand)

namespace Demand

/-- Is the demand met? -/
def IsMet : Demand → Prop
  | .shape root => root.isScalar = false
  | .member members name => ∃ value, Json.Members.find? members name = some value
  | .link _ demand => demand.IsMet

/-- The error when the demand is not met. -/
def violation : Demand → ProjectionError
  | .shape root => .unsupportedShape root.kind
  | .member _ name => .missingField name
  | .link field demand => .invalidLink field demand.violation

end Demand

/-- The demands of the first link directive among some directives on a node. -/
def linkDemands (document : Document) (directives : List (Directive Argument))
    (parent : Option String) (members : List (String × Json.Value)) : List Demand :=
  match directives.find? (·.name = linkDirective) with
  | none => []
  | some directive => (directiveDemands document directive members).map (.link parent)

mutual

/-- The demands of a field on its value. -/
inductive ValueDemands (document : Document) : Field → Json.Value → List Demand → Prop where
  | scalar
      {field : Field}
      {value : Json.Value}
      (isScalar : value.isScalar = true) :
      ValueDemands document field value []
  /-- An object that nothing is selected from may still have a link. -/
  | whole
      {field : Field}
      {members : List (String × Json.Value)}
      (noSelections : field.selections = none) :
      ValueDemands document field (.object members)
        (linkDemands document field.directives (some field.name) members)
  | object
      {field : Field}
      {selections : List (Selection Argument)}
      {members : List (String × Json.Value)}
      {demands : List Demand}
      (hasSelections : field.selections = some selections)
      (ofObject : ObjectDemands document (.ofField field selections) members demands) :
      ValueDemands document field (.object members) demands
  | array
      {field : Field}
      {elements : List Json.Value}
      {demands : List Demand}
      (ofElements : ElementDemands document field elements demands) :
      ValueDemands document field (.array elements) demands

/-- The demands of a field on the elements of an array, in the order of the elements. -/
inductive ElementDemands (document : Document) :
    Field → List Json.Value → List Demand → Prop where
  | nil {field : Field} : ElementDemands document field [] []
  | cons
      {field : Field}
      {element : Json.Value}
      {elements : List Json.Value}
      {demands others : List Demand}
      (ofElement : ValueDemands document field element demands)
      (ofElements : ElementDemands document field elements others) :
      ElementDemands document field (element :: elements) (demands ++ others)

/-- The demands on an object: those of the fields that apply, then those of its own link. -/
inductive ObjectDemands (document : Document) :
    Entry → List (String × Json.Value) → List Demand → Prop where
  | fields
      {entry : Entry}
      {members : List (String × Json.Value)}
      {fields : List Field}
      {demands : List Demand}
      (applicable : FieldsOf document (discriminator members entry.name) entry.selections fields)
      (ofFields : FieldDemands document fields members demands) :
      ObjectDemands document entry members
        (demands ++ linkDemands document entry.directives entry.name members)

/-- The demands of fields on an object, in the order of the fields. -/
inductive FieldDemands (document : Document) :
    List Field → List (String × Json.Value) → List Demand → Prop where
  | nil {members : List (String × Json.Value)} : FieldDemands document [] members []
  | missing
      {field : Field}
      {fields : List Field}
      {members : List (String × Json.Value)}
      {others : List Demand}
      (isMissing : Json.Members.find? members field.name = none)
      (ofFields : FieldDemands document fields members others) :
      FieldDemands document (field :: fields) members (.member members field.name :: others)
  | present
      {field : Field}
      {fields : List Field}
      {members : List (String × Json.Value)}
      {value : Json.Value}
      {demands others : List Demand}
      (isPresent : Json.Members.find? members field.name = some value)
      (ofValue : ValueDemands document field value demands)
      (ofFields : FieldDemands document fields members others) :
      FieldDemands document (field :: fields) members
        (.member members field.name :: (demands ++ others))

end

mutual

/-- The demands of an entry on a root, or on an element of a root that is an array. -/
inductive RootDemands (document : Document) (entry : Entry) :
    Json.Value → List Demand → Prop where
  | scalar
      {value : Json.Value}
      (isScalar : value.isScalar = true) :
      RootDemands document entry value [.shape value]
  | object
      {members : List (String × Json.Value)}
      {demands : List Demand}
      (ofObject : ObjectDemands document entry members demands) :
      RootDemands document entry (.object members) (.shape (.object members) :: demands)
  | array
      {elements : List Json.Value}
      {demands : List Demand}
      (ofElements : RootsDemands document entry elements demands) :
      RootDemands document entry (.array elements) (.shape (.array elements) :: demands)

/-- The demands of an entry on the elements of a root, in the order of the elements. -/
inductive RootsDemands (document : Document) (entry : Entry) :
    List Json.Value → List Demand → Prop where
  | nil : RootsDemands document entry [] []
  | cons
      {element : Json.Value}
      {elements : List Json.Value}
      {demands others : List Demand}
      (ofElement : RootDemands document entry element demands)
      (ofElements : RootsDemands document entry elements others) :
      RootsDemands document entry (element :: elements) (demands ++ others)

end

/-! ## The demands are determined -/

/-- Exactly one list of demands is the one that is asked for. -/
def Determines (asks : List Demand → Prop) (demands : List Demand) : Prop :=
  ∀ others, asks others ↔ others = demands

variable {document : Document}

theorem exists_fieldDemands
    {members : List (String × Json.Value)}
    (ofMembers :
      ∀ key source, (key, source) ∈ members → ∀ field,
        ∃ demands, Determines (ValueDemands document field source) demands)
    (fields : List Field) :
    ∃ demands, Determines (FieldDemands document fields members) demands := by
  induction fields with
  | nil =>
      refine ⟨[], fun others => ⟨?_, ?_⟩⟩
      · intro asks
        cases asks
        rfl
      · rintro rfl
        exact .nil
  | cons field fields induction =>
      obtain ⟨rest, isRest⟩ := induction
      cases found : Json.Members.find? members field.name with
      | none =>
          refine ⟨.member members field.name :: rest, fun others => ⟨?_, ?_⟩⟩
          · intro asks
            cases asks with
            | missing _ ofFields => rw [(isRest _).mp ofFields]
            | present isPresent =>
                rw [found] at isPresent
                cases isPresent
          · rintro rfl
            exact .missing found ((isRest rest).mpr rfl)
      | some value =>
          obtain ⟨inside, isInside⟩ :=
            ofMembers field.name value (Json.Members.mem_of_find? found) field
          refine ⟨.member members field.name :: (inside ++ rest), fun others => ⟨?_, ?_⟩⟩
          · intro asks
            cases asks with
            | missing isMissing =>
                rw [found] at isMissing
                cases isMissing
            | present isPresent ofValue ofFields =>
                rw [found] at isPresent
                cases isPresent
                rw [(isInside _).mp ofValue, (isRest _).mp ofFields]
          · rintro rfl
            exact .present found ((isInside inside).mpr rfl) ((isRest rest).mpr rfl)

theorem exists_objectDemands
    (accepted : SpreadGraph.check document.fragments = .ok ())
    {members : List (String × Json.Value)}
    (ofMembers :
      ∀ key source, (key, source) ∈ members → ∀ field,
        ∃ demands, Determines (ValueDemands document field source) demands)
    (entry : Entry) :
    ∃ demands, Determines (ObjectDemands document entry members) demands := by
  have applicable := fieldsOf_applicableFields accepted entry.name members entry.selections
  obtain ⟨demands, areDemands⟩ := exists_fieldDemands ofMembers
    (applicableFields document entry.name members entry.selections)
  refine ⟨demands ++ linkDemands document entry.directives entry.name members,
    fun others => ⟨?_, ?_⟩⟩
  · intro asks
    cases asks with
    | fields alsoApplicable ofFields =>
        cases applicable.unique alsoApplicable
        rw [(areDemands _).mp ofFields]
  · rintro rfl
    exact .fields applicable ((areDemands demands).mpr rfl)

/-- Demands on elements one after another. -/
inductive EachDemands (asks : Json.Value → List Demand → Prop) :
    List Json.Value → List Demand → Prop where
  | nil : EachDemands asks [] []
  | cons
      {element : Json.Value}
      {elements : List Json.Value}
      {demands others : List Demand}
      (ofElement : asks element demands)
      (ofElements : EachDemands asks elements others) :
      EachDemands asks (element :: elements) (demands ++ others)

theorem elementDemands_iff
    {field : Field}
    {elements : List Json.Value}
    {demands : List Demand} :
    ElementDemands document field elements demands ↔
      EachDemands (ValueDemands document field) elements demands := by
  constructor
  · intro asks
    induction elements generalizing demands with
    | nil =>
        cases asks
        exact .nil
    | cons element elements induction =>
        cases asks with
        | cons ofElement ofElements => exact .cons ofElement (induction ofElements)
  · intro asks
    induction asks with
    | nil => exact .nil
    | cons ofElement _ ofElements => exact .cons ofElement ofElements

theorem rootsDemands_iff
    {entry : Entry}
    {elements : List Json.Value}
    {demands : List Demand} :
    RootsDemands document entry elements demands ↔
      EachDemands (RootDemands document entry) elements demands := by
  constructor
  · intro asks
    induction elements generalizing demands with
    | nil =>
        cases asks
        exact .nil
    | cons element elements induction =>
        cases asks with
        | cons ofElement ofElements => exact .cons ofElement (induction ofElements)
  · intro asks
    induction asks with
    | nil => exact .nil
    | cons ofElement _ ofElements => exact .cons ofElement ofElements

theorem exists_eachDemands
    {asks : Json.Value → List Demand → Prop}
    {elements : List Json.Value}
    (ofEach : ∀ element ∈ elements, ∃ demands, Determines (asks element) demands) :
    ∃ demands, Determines (EachDemands asks elements) demands := by
  induction elements with
  | nil =>
      refine ⟨[], fun others => ⟨?_, ?_⟩⟩
      · intro asked
        cases asked
        rfl
      · rintro rfl
        exact .nil
  | cons element elements induction =>
      obtain ⟨first, isFirst⟩ := ofEach element List.mem_cons_self
      obtain ⟨rest, isRest⟩ :=
        induction fun element isElement => ofEach element (List.mem_cons_of_mem _ isElement)
      refine ⟨first ++ rest, fun others => ⟨?_, ?_⟩⟩
      · intro asked
        cases asked with
        | cons ofElement ofElements => rw [(isFirst _).mp ofElement, (isRest _).mp ofElements]
      · rintro rfl
        exact .cons ((isFirst first).mpr rfl) ((isRest rest).mpr rfl)

/-- A field has exactly one list of demands on a value. -/
theorem exists_valueDemands
    (accepted : SpreadGraph.check document.fragments = .ok ())
    (value : Json.Value)
    (field : Field) :
    ∃ demands, Determines (ValueDemands document field value) demands := by
  induction value using Json.Value.inside_induction generalizing field with
  | scalar value isScalar =>
      refine ⟨[], fun others => ⟨?_, ?_⟩⟩
      · intro asks
        cases asks with
        | scalar => rfl
        | whole => cases isScalar
        | object => cases isScalar
        | array => cases isScalar
      · rintro rfl
        exact .scalar isScalar
  | array elements induction =>
      obtain ⟨demands, areDemands⟩ :=
        exists_eachDemands fun element isElement => induction element isElement field
      refine ⟨demands, fun others => ⟨?_, ?_⟩⟩
      · intro asks
        cases asks with
        | scalar isScalar => cases isScalar
        | array ofElements => exact (areDemands _).mp (elementDemands_iff.mp ofElements)
      · intro same
        exact .array (elementDemands_iff.mpr ((areDemands others).mpr same))
  | object members induction =>
      cases selected : field.selections with
      | none =>
          refine ⟨linkDemands document field.directives (some field.name) members,
            fun others => ⟨?_, ?_⟩⟩
          · intro asks
            cases asks with
            | scalar isScalar => cases isScalar
            | whole => rfl
            | object hasSelections =>
                rw [selected] at hasSelections
                cases hasSelections
          · rintro rfl
            exact .whole selected
      | some selections =>
          obtain ⟨demands, areDemands⟩ :=
            exists_objectDemands accepted induction (.ofField field selections)
          refine ⟨demands, fun others => ⟨?_, ?_⟩⟩
          · intro asks
            cases asks with
            | scalar isScalar => cases isScalar
            | whole noSelections =>
                rw [selected] at noSelections
                cases noSelections
            | object hasSelections ofObject =>
                rw [selected] at hasSelections
                cases hasSelections
                exact (areDemands _).mp ofObject
          · intro same
            exact .object selected ((areDemands others).mpr same)

/-- An entry has exactly one list of demands on a root. -/
theorem exists_rootDemands
    (accepted : SpreadGraph.check document.fragments = .ok ())
    (entry : Entry)
    (root : Json.Value) :
    ∃ demands, Determines (RootDemands document entry root) demands := by
  induction root using Json.Value.inside_induction with
  | scalar value isScalar =>
      refine ⟨[.shape value], fun others => ⟨?_, ?_⟩⟩
      · intro asks
        cases asks with
        | scalar => rfl
        | object => cases isScalar
        | array => cases isScalar
      · rintro rfl
        exact .scalar isScalar
  | array elements induction =>
      obtain ⟨demands, areDemands⟩ := exists_eachDemands induction
      refine ⟨.shape (.array elements) :: demands, fun others => ⟨?_, ?_⟩⟩
      · intro asks
        cases asks with
        | scalar isScalar => cases isScalar
        | array ofElements => rw [(areDemands _).mp (rootsDemands_iff.mp ofElements)]
      · rintro rfl
        exact .array (rootsDemands_iff.mpr ((areDemands demands).mpr rfl))
  | object members _ =>
      obtain ⟨demands, areDemands⟩ := exists_objectDemands accepted
        (fun _ source _ field => exists_valueDemands accepted source field) entry
      refine ⟨.shape (.object members) :: demands, fun others => ⟨?_, ?_⟩⟩
      · intro asks
        cases asks with
        | scalar isScalar => cases isScalar
        | object ofObject => rw [(areDemands _).mp ofObject]
      · rintro rfl
        exact .object ((areDemands demands).mpr rfl)

end QueryGateway.Projection
