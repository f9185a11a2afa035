import QueryGateway.Proofs.Projection.Applicability

/-!
# Where the fields of an object stand

A selection set has fields, and further fields occur in its inline fragments and
in the fragments that it spreads, at any depth.  The place of an occurrence is
the way to it: a number for each selection that is entered, which puts spreads
where they are written.  What is entered encloses the field.

The fields that apply to an object are those whose every enclosure admits the
type of the object, in the order of their places.  There is one type, which
decides about all enclosures, whatever they are enclosed in themselves.
-/

namespace QueryGateway.Projection

open Query

/-! ## The type of an object -/

/-- The value of a member, and the type that it tells. -/
inductive TellsType : Json.Value → String → Prop where
  | string (text : String) : TellsType (.string text) text
  | number (number : Json.Number) : TellsType (.number number) (String.ofList number.text)
  | yes : TellsType (.bool true) "true"
  | no : TellsType (.bool false) "false"

/-- The type of an object is told by its own `type` member, or else by the name of its parent. -/
inductive IsType (members : List (String × Json.Value)) (parent : Option String) :
    Option String → Prop where
  | told
      {value : Json.Value}
      {type : String}
      (isMember : Json.Members.find? members "type" = some value)
      (tells : TellsType value type) :
      IsType members parent (some type)
  | untold
      (tellsNone :
        ∀ value type, Json.Members.find? members "type" = some value → ¬ TellsType value type) :
      IsType members parent parent

/-- What a value tells is its text, unless it is null. -/
theorem tellsType_iff
    {value : Json.Value}
    {type : String} :
    TellsType value type ↔ value ≠ .null ∧ value.scalarText? = some type := by
  constructor
  · intro tells
    cases tells <;> exact ⟨by simp, rfl⟩
  · rintro ⟨notNull, text⟩
    cases value with
    | null => exact (notNull rfl).elim
    | bool value =>
        cases value with
        | true =>
            cases text
            exact .yes
        | false =>
            cases text
            exact .no
    | number number =>
        cases text
        exact .number number
    | string value =>
        cases text
        exact .string _
    | array elements => cases text
    | object members => cases text

section

variable
    {members : List (String × Json.Value)}
    {parent type : Option String}

theorem discriminator_of_told
    {value : Json.Value}
    {told : String}
    (isMember : Json.Members.find? members "type" = some value)
    (tells : TellsType value told) :
    discriminator members parent = some told := by
  rcases tellsType_iff.mp tells with ⟨notNull, text⟩
  rw [discriminator, isMember]
  cases value with
  | null => exact (notNull rfl).elim
  | bool | number | string | array | object => simp [text]

theorem discriminator_of_untold
    (tellsNone :
      ∀ value type, Json.Members.find? members "type" = some value → ¬ TellsType value type) :
    discriminator members parent = parent := by
  rw [discriminator]
  cases found : Json.Members.find? members "type" with
  | none => rfl
  | some value =>
      cases text : value.scalarText? with
      | none => cases value <;> simp [text]
      | some told =>
          have notTold := tellsNone value told found
          rw [tellsType_iff, text] at notTold
          cases value with
          | null => rfl
          | bool | number | string | array | object => simp at notTold

/-- Every object has a type, or has none, in one way. -/
theorem isType_iff :
    IsType members parent type ↔ type = discriminator members parent := by
  constructor
  · intro isType
    cases isType with
    | told isMember tells => rw [discriminator_of_told isMember tells]
    | untold tellsNone => rw [discriminator_of_untold tellsNone]
  · rintro rfl
    by_cases told :
        ∃ value type, Json.Members.find? members "type" = some value ∧ TellsType value type
    · rcases told with ⟨value, type, isMember, tells⟩
      rw [discriminator_of_told isMember tells]
      exact .told isMember tells
    · have tellsNone :
          ∀ value type, Json.Members.find? members "type" = some value →
            ¬ TellsType value type := by
        intro value type isMember tells
        exact told ⟨value, type, isMember, tells⟩
      rw [discriminator_of_untold tellsNone]
      exact .untold tellsNone

/-! ## Occurrences -/

/-- What a field is enclosed in: an inline fragment, or a fragment that is spread. -/
inductive Enclosure where
  | inline (condition : Option String)
  | spread (name : String) (fragment : Fragment Argument)

namespace Enclosure

/-- The type condition, which an inline fragment may be without. -/
def condition : Enclosure → Option String
  | .inline condition => condition
  | .spread _ fragment => some fragment.condition

/-- A fragment is the first of a document's that something holds of. -/
def IsFirst (document : Document) (fits : Fragment Argument → Prop)
    (fragment : Fragment Argument) : Prop :=
  ∃ front back,
    document.fragments = front ++ fragment :: back ∧
      fits fragment ∧
      ∀ earlier ∈ front, ¬ fits earlier

/--
An inline fragment admits a type if it has no other condition.  A spread is of
the first fragment with its name and the type.  Without a type every inline
fragment is entered, and a spread is of the first fragment with its name.
-/
def Admits (document : Document) : Option String → Enclosure → Prop
  | some type, .inline condition => condition = none ∨ condition = some type
  | some type, .spread name fragment =>
      IsFirst document (fun other => other.name = name ∧ other.condition = type) fragment
  | none, .inline _ => True
  | none, .spread name fragment => IsFirst document (fun other => other.name = name) fragment

theorem admits_inline_iff
    {document : Document}
    {condition : Option String} :
    (Enclosure.inline condition).Admits document type ↔ Query.admits condition type = true := by
  cases type <;> cases condition <;> simp [Admits, Query.admits]

theorem isFirst_iff
    {document : Document}
    {fits : Fragment Argument → Prop}
    {test : Fragment Argument → Bool}
    (tests : ∀ fragment, test fragment = true ↔ fits fragment)
    {fragment : Fragment Argument} :
    IsFirst document fits fragment ↔ document.fragments.find? test = some fragment := by
  rw [List.find?_eq_some_iff_append, IsFirst]
  constructor
  · rintro ⟨front, back, split, isOne, noneEarlier⟩
    refine ⟨(tests fragment).mpr isOne, front, back, split, ?_⟩
    intro earlier isEarlier
    simpa [← tests] using noneEarlier earlier isEarlier
  · rintro ⟨isOne, front, back, split, noneEarlier⟩
    refine ⟨front, back, split, (tests fragment).mp isOne, ?_⟩
    intro earlier isEarlier
    simpa [← tests] using noneEarlier earlier isEarlier

theorem admits_spread_iff
    {document : Document}
    {name : String}
    {fragment : Fragment Argument} :
    (Enclosure.spread name fragment).Admits document type ↔
      document.applicableFragment? name type = some fragment := by
  rw [Document.applicableFragment?]
  cases type with
  | none =>
      apply isFirst_iff
      intro other
      simp [isApplicable_iff, Suits]
  | some type =>
      apply isFirst_iff
      intro other
      simp [isApplicable_iff, Suits]

end Enclosure

/-- A field at a place of a selection set, and what encloses it there. -/
inductive Occurs (document : Document) :
    List (Selection Argument) → List Nat → List Enclosure → Field → Prop where
  | own
      {selections : List (Selection Argument)}
      {index : Nat}
      {alternative : Option String}
      {name : String}
      {arguments : List Argument}
      {directives : List (Directive Argument)}
      {below : Option (List (Selection Argument))}
      (isSelection :
        selections[index]? = some (.field alternative name arguments directives below)) :
      Occurs document selections [index] [] ⟨alternative, name, arguments, directives, below⟩
  | inline
      {selections own : List (Selection Argument)}
      {index : Nat}
      {condition : Option String}
      {directives : List (Directive Argument)}
      {place : List Nat}
      {enclosures : List Enclosure}
      {field : Field}
      (isSelection : selections[index]? = some (.inline condition directives own))
      (inside : Occurs document own place enclosures field) :
      Occurs document selections (index :: place) (.inline condition :: enclosures) field
  /-- Any fragment of the name may be entered. -/
  | spread
      {selections : List (Selection Argument)}
      {index : Nat}
      {name : String}
      {directives : List (Directive Argument)}
      {fragment : Fragment Argument}
      {place : List Nat}
      {enclosures : List Enclosure}
      {field : Field}
      (isSelection : selections[index]? = some (.spread name directives))
      (isFragment : fragment ∈ document.fragments)
      (isNamed : fragment.name = name)
      (inside : Occurs document fragment.selections place enclosures field) :
      Occurs document selections (index :: place) (.spread name fragment :: enclosures) field

/-- A field occurs at a place, and all that encloses it there admits the type. -/
def Selected (document : Document) (type : Option String) (selections : List (Selection Argument))
    (place : List Nat) (field : Field) : Prop :=
  ∃ enclosures, Occurs document selections place enclosures field ∧
    ∀ enclosure ∈ enclosures, enclosure.Admits document type

/-- A field is selected at a place of one selection. -/
def SelectedBy (document : Document) (type : Option String) :
    Selection Argument → List Nat → Field → Prop
  | .field alternative name arguments directives below, place, field =>
      place = [] ∧ field = ⟨alternative, name, arguments, directives, below⟩
  | .inline condition _ own, place, field =>
      admits condition type = true ∧ Selected document type own place field
  | .spread name _, place, field =>
      ∃ fragment, document.applicableFragment? name type = some fragment ∧
        Selected document type fragment.selections place field

variable
    {document : Document}

theorem selected_iff
    {selections : List (Selection Argument)}
    {place : List Nat}
    {field : Field} :
    Selected document type selections place field ↔
      ∃ index selection rest, selections[index]? = some selection ∧ place = index :: rest ∧
        SelectedBy document type selection rest field := by
  constructor
  · rintro ⟨enclosures, occurs, admitted⟩
    cases occurs with
    | own isSelection => exact ⟨_, _, [], isSelection, rfl, rfl, rfl⟩
    | inline isSelection inside =>
        rw [List.forall_mem_cons, Enclosure.admits_inline_iff] at admitted
        exact ⟨_, _, _, isSelection, rfl, admitted.1, _, inside, admitted.2⟩
    | spread isSelection _ _ inside =>
        rw [List.forall_mem_cons, Enclosure.admits_spread_iff] at admitted
        exact ⟨_, _, _, isSelection, rfl, _, admitted.1, _, inside, admitted.2⟩
  · rintro ⟨index, selection, rest, isSelection, rfl, selectedBy⟩
    cases selection with
    | field =>
        rcases selectedBy with ⟨rfl, rfl⟩
        exact ⟨[], .own isSelection, by simp⟩
    | inline condition =>
        rcases selectedBy with ⟨isAdmitted, enclosures, inside, admitted⟩
        refine ⟨_, .inline isSelection inside, ?_⟩
        exact List.forall_mem_cons.mpr ⟨Enclosure.admits_inline_iff.mpr isAdmitted, admitted⟩
    | spread name =>
        rcases selectedBy with ⟨fragment, applies, enclosures, inside, admitted⟩
        rcases applicableFragment?_eq_some applies with ⟨isFragment, isNamed⟩
        refine ⟨_, .spread isSelection isFragment isNamed inside, ?_⟩
        exact List.forall_mem_cons.mpr ⟨Enclosure.admits_spread_iff.mpr applies, admitted⟩

theorem selected_cons_iff
    {selection : Selection Argument}
    {selections : List (Selection Argument)}
    {place : List Nat}
    {field : Field} :
    Selected document type (selection :: selections) place field ↔
      (∃ rest, place = 0 :: rest ∧ SelectedBy document type selection rest field) ∨
        ∃ index rest, place = (index + 1) :: rest ∧
          Selected document type selections (index :: rest) field := by
  rw [selected_iff]
  constructor
  · rintro ⟨index, other, rest, isSelection, rfl, selectedBy⟩
    cases index with
    | zero =>
        cases isSelection
        exact .inl ⟨rest, rfl, selectedBy⟩
    | succ index =>
        rw [List.getElem?_cons_succ] at isSelection
        exact .inr ⟨index, rest, rfl, selected_iff.mpr ⟨_, _, _, isSelection, rfl, selectedBy⟩⟩
  · rintro (⟨rest, rfl, selectedBy⟩ | ⟨index, rest, rfl, selected⟩)
    · exact ⟨0, selection, rest, rfl, rfl, selectedBy⟩
    · rcases selected_iff.mp selected with ⟨_, other, _, isSelection, same, selectedBy⟩
      cases same
      exact ⟨index + 1, other, rest, isSelection, rfl, selectedBy⟩

/-! ## All occurrences in their order -/

/-- The places and fields of a list are all that are selected, in the order of the places. -/
structure Enumerates (selected : List Nat → Field → Prop) (occurrences : List (List Nat × Field)) :
    Prop where
  ordered : (occurrences.map (·.1)).Pairwise (List.Lex (· < ·))
  complete : ∀ place field, (place, field) ∈ occurrences ↔ selected place field

/-- An occurrence in the selections behind a first one. -/
def behindFirst : List Nat × Field → List Nat × Field
  | ([], field) => ([], field)
  | (index :: rest, field) => ((index + 1) :: rest, field)

theorem map_snd_behindFirst
    (occurrences : List (List Nat × Field)) :
    (occurrences.map behindFirst).map (·.2) = occurrences.map (·.2) := by
  rw [List.map_map]
  apply List.map_congr_left
  rintro ⟨place, field⟩ _
  cases place <;> rfl

theorem lex_behindFirst
    {occurrence other : List Nat × Field}
    (earlier : List.Lex (· < ·) occurrence.1 other.1) :
    List.Lex (· < ·) (behindFirst occurrence).1 (behindFirst other).1 := by
  rcases occurrence with ⟨place, field⟩
  rcases other with ⟨otherPlace, otherField⟩
  cases earlier with
  | nil => exact .nil
  | rel less => exact .rel (Nat.succ_lt_succ less)
  | cons within => exact .cons within

theorem Enumerates.nothing
    {selected : List Nat → Field → Prop}
    (selectsNone : ∀ place field, ¬ selected place field) :
    Enumerates selected [] where
  ordered := List.Pairwise.nil
  complete place field := by simp [selectsNone]

theorem Enumerates.congr
    {selected others : List Nat → Field → Prop}
    {occurrences : List (List Nat × Field)}
    (enumerates : Enumerates selected occurrences)
    (same : ∀ place field, others place field ↔ selected place field) :
    Enumerates others occurrences where
  ordered := enumerates.ordered
  complete place field := (enumerates.complete place field).trans (same place field).symm

/-- The occurrences in a first selection stand before those in the selections behind it. -/
theorem Enumerates.cons
    {selection : Selection Argument}
    {selections : List (Selection Argument)}
    {inner outer : List (List Nat × Field)}
    (first : Enumerates (SelectedBy document type selection) inner)
    (others : Enumerates (Selected document type selections) outer) :
    Enumerates (Selected document type (selection :: selections))
      (inner.map (fun (place, field) => (0 :: place, field)) ++ outer.map behindFirst) := by
  have isBehind : ∀ occurrence ∈ outer, ∃ index rest field,
      occurrence = (index :: rest, field) := by
    rintro ⟨place, field⟩ isOccurrence
    rcases selected_iff.mp ((others.complete place field).mp isOccurrence) with
      ⟨index, _, rest, _, rfl, _⟩
    exact ⟨index, rest, field, rfl⟩
  constructor
  · rw [List.map_append, List.map_map, List.map_map]
    refine List.pairwise_append.mpr ⟨?_, ?_, ?_⟩
    · exact List.pairwise_map.mpr ((List.pairwise_map.mp first.ordered).imp List.Lex.cons)
    · exact List.pairwise_map.mpr ((List.pairwise_map.mp others.ordered).imp lex_behindFirst)
    · intro place inFirst otherPlace inOthers
      rcases List.mem_map.mp inFirst with ⟨occurrence, _, rfl⟩
      rcases List.mem_map.mp inOthers with ⟨other, isOther, rfl⟩
      rcases isBehind other isOther with ⟨index, rest, field, rfl⟩
      exact .rel (Nat.succ_pos index)
  · intro place field
    rw [selected_cons_iff, List.mem_append]
    constructor
    · rintro (inFirst | inOthers)
      · rcases List.mem_map.mp inFirst with ⟨⟨rest, _⟩, isOccurrence, same⟩
        cases same
        exact .inl ⟨rest, rfl, (first.complete rest field).mp isOccurrence⟩
      · rcases List.mem_map.mp inOthers with ⟨occurrence, isOccurrence, same⟩
        rcases isBehind occurrence isOccurrence with ⟨index, rest, _, rfl⟩
        cases same
        exact .inr ⟨index, rest, rfl, (others.complete (index :: rest) field).mp isOccurrence⟩
    · rintro (⟨rest, rfl, selectedBy⟩ | ⟨index, rest, rfl, selected⟩)
      · have isOccurrence := (first.complete rest field).mpr selectedBy
        exact .inl (List.mem_map.mpr ⟨(rest, field), isOccurrence, rfl⟩)
      · have isOccurrence := (others.complete (index :: rest) field).mpr selected
        exact .inr (List.mem_map.mpr ⟨(index :: rest, field), isOccurrence, rfl⟩)

/-- Some places enumerate what is selected, and these fields stand at them. -/
def Places (selected : List Nat → Field → Prop) (fields : List Field) : Prop :=
  ∃ occurrences, occurrences.map (·.2) = fields ∧ Enumerates selected occurrences

theorem Places.cons
    {selection : Selection Argument}
    {selections : List (Selection Argument)}
    {inner fields : List Field}
    (first : Places (SelectedBy document type selection) inner)
    (others : Places (Selected document type selections) fields) :
    Places (Selected document type (selection :: selections)) (inner ++ fields) := by
  rcases first with ⟨innerOccurrences, rfl, firstEnumerates⟩
  rcases others with ⟨outerOccurrences, rfl, othersEnumerate⟩
  refine ⟨_, ?_, firstEnumerates.cons othersEnumerate⟩
  rw [List.map_append, map_snd_behindFirst, List.map_map]
  rfl

theorem Places.none
    {selected : List Nat → Field → Prop}
    (selectsNone : ∀ place field, ¬ selected place field) :
    Places selected [] :=
  ⟨[], rfl, .nothing selectsNone⟩

theorem Places.congr
    {selected others : List Nat → Field → Prop}
    {fields : List Field}
    (places : Places selected fields)
    (same : ∀ place field, others place field ↔ selected place field) :
    Places others fields := by
  rcases places with ⟨occurrences, areFields, enumerates⟩
  exact ⟨occurrences, areFields, enumerates.congr same⟩

/-- The fields of a selection set stand at the places where fields are selected. -/
theorem FieldsOf.places
    {selections : List (Selection Argument)}
    {fields : List Field}
    (areFields : FieldsOf document type selections fields) :
    Places (Selected document type selections) fields := by
  induction areFields with
  | nil =>
      apply Places.none
      intro place field selected
      rcases selected_iff.mp selected with ⟨_, _, _, isSelection, _⟩
      cases isSelection
  | @field alternative name arguments directives own _ _ _ others =>
      have itself :
          Places
            (SelectedBy document type (.field alternative name arguments directives own))
            [⟨alternative, name, arguments, directives, own⟩] := by
        refine ⟨[([], _)], rfl, List.pairwise_singleton _ _, ?_⟩
        intro place field
        simp [SelectedBy]
      exact itself.cons others
  | spread applies _ _ inside others =>
      refine (inside.congr ?_).cons others
      intro place field
      simp [SelectedBy, applies]
  | unknown appliesNone _ others =>
      refine (Places.none ?_).cons others
      intro place field
      simp [SelectedBy, appliesNone]
  | inline admitted _ _ inside others =>
      refine (inside.congr ?_).cons others
      intro place field
      simp [SelectedBy, admitted]
  | excluded notAdmitted _ others =>
      refine (Places.none ?_).cons others
      intro place field
      simp [SelectedBy, notAdmitted]

/-- An enclosure that admits a type has no other condition. -/
theorem Enclosure.Admits.condition_eq
    {enclosure : Enclosure}
    {required condition : String}
    (admits : enclosure.Admits document (some required))
    (hasCondition : enclosure.condition = some condition) :
    condition = required := by
  cases enclosure with
  | inline own =>
      cases hasCondition
      rcases admits with unconditional | same
      · cases unconditional
      · exact Option.some.inj same
  | spread name fragment =>
      cases hasCondition
      rcases admits with ⟨_, _, _, ⟨_, same⟩, _⟩
      exact same

/--
The fields that apply to an object are, in the order of their places, those of
whose enclosures every one admits the one type of the object.  So a field that
occurs only within conditions on other types does not apply.
-/
theorem applicableFields_occur
    (accepted : SpreadGraph.check document.fragments = .ok ())
    (parent : Option String)
    (members : List (String × Json.Value))
    (selections : List (Selection Argument)) :
    ∃ type, (∀ other, IsType members parent other ↔ other = type) ∧
      (∃ occurrences : List (List Nat × Field),
        occurrences.map (·.2) = applicableFields document parent members selections ∧
          (occurrences.map (·.1)).Pairwise (List.Lex (· < ·)) ∧
          ∀ place field, (place, field) ∈ occurrences ↔
            ∃ enclosures, Occurs document selections place enclosures field ∧
              ∀ enclosure ∈ enclosures, enclosure.Admits document type) ∧
      ∀ required, type = some required → ∀ field,
        (∀ place enclosures, Occurs document selections place enclosures field →
          ∃ enclosure ∈ enclosures, ∃ condition,
            enclosure.condition = some condition ∧ condition ≠ required) →
          field ∉ applicableFields document parent members selections := by
  rcases (fieldsOf_applicableFields accepted parent members selections).places with
    ⟨occurrences, areFields, ordered, complete⟩
  refine ⟨discriminator members parent, ?_, ⟨occurrences, areFields, ordered, complete⟩, ?_⟩
  · intro other
    exact isType_iff
  · intro required isRequired field onlyOthers applies
    rw [← areFields] at applies
    rcases List.mem_map.mp applies with ⟨⟨place, _⟩, isOccurrence, rfl⟩
    rcases (complete place _).mp isOccurrence with ⟨enclosures, occurs, admitted⟩
    rcases onlyOthers place enclosures occurs with
      ⟨enclosure, isEnclosure, condition, hasCondition, different⟩
    rw [isRequired] at admitted
    exact different ((admitted enclosure isEnclosure).condition_eq hasCondition)

end

/-! ## A dog, and fragments of one name -/

namespace Kennel

def leaf (name : String) : Selection Argument :=
  .field none name [] [] none

def leafField (name : String) : Field :=
  ⟨none, name, [], [], none⟩

def catDetails : Fragment Argument :=
  ⟨"Details", "Cat", [], [leaf "meow"]⟩

def dogDetails : Fragment Argument :=
  ⟨"Details", "Dog", [], [leaf "bark", .inline none [] [leaf "tail"]]⟩

def moreDetails : Fragment Argument :=
  ⟨"Details", "Dog", [], [leaf "teeth"]⟩

def document : Document :=
  ⟨[], [catDetails, dogDetails, moreDetails]⟩

/-- The details are spread where they apply, and once more among selections for dogs. -/
def selections : List (Selection Argument) :=
  [.spread "Details" [],
    .inline (some "Dog") [] [.inline (some "Cat") [] [leaf "purr"], .spread "Details" []]]

def members : List (String × Json.Value) :=
  [("type", .string "Dog"), ("name", .string "rex")]

theorem dog_barks_twice :
    SpreadGraph.check document.fragments = .ok () ∧
      ∃ occurrences : List (List Nat × Field),
        occurrences.map (·.2) = ["bark", "tail", "bark", "tail"].map leafField ∧
          (occurrences.map (·.1)).Pairwise (List.Lex (· < ·)) ∧
          ([1, 1, 1, 0], leafField "tail") ∈ occurrences := by
  have accepted : SpreadGraph.check document.fragments = .ok () := rfl
  rcases applicableFields_occur accepted (some "pets") members selections with
    ⟨type, isType, ⟨occurrences, areFields, ordered, complete⟩, _⟩
  have tells : TellsType (.string "Dog") "Dog" := .string "Dog"
  have isDog : some "Dog" = type := (isType (some "Dog")).mp (.told rfl tells)
  subst isDog
  refine ⟨accepted, occurrences, areFields, ordered, ?_⟩
  apply (complete _ _).mpr
  have inDetails :
      Occurs document dogDetails.selections [1, 0] [.inline none] (leafField "tail") :=
    .inline rfl (.own rfl)
  have inSpread :
      Occurs document [.inline (some "Cat") [] [leaf "purr"], .spread "Details" []] [1, 1, 0]
        [.spread "Details" dogDetails, .inline none] (leafField "tail") :=
    .spread rfl (by simp [document]) rfl inDetails
  refine ⟨_, .inline rfl inSpread, ?_⟩
  have isFirst : (Enclosure.spread "Details" dogDetails).Admits document (some "Dog") :=
    ⟨[catDetails], [moreDetails], rfl, ⟨rfl, rfl⟩, by simp [catDetails]⟩
  have ofDogs : (Enclosure.inline (some "Dog")).Admits document (some "Dog") := .inr rfl
  have ofAll : (Enclosure.inline none).Admits document (some "Dog") := .inl rfl
  rintro enclosure (_ | ⟨_, _ | ⟨_, _ | ⟨_, isOther⟩⟩⟩)
  · exact ofDogs
  · exact isFirst
  · exact ofAll
  · cases isOther

end Kennel

end QueryGateway.Projection
