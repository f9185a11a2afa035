import Mathlib
import QueryGateway.Proofs.Projection.Demands

/-!
# When a projection fails

A projection decides its demands: it succeeds if and only if all of them are
met, and otherwise its error is the violation of the first demand that is not
met, in the order in which the document is walked through.

The demands are followed through the projection from the inside to the outside,
first those of a link, then those of a value, by induction on the value.
-/

namespace QueryGateway.Projection

open Query

/-! ## Links -/

theorem stringArgument?_eq_ok
    {directive : Directive Argument}
    {name : String}
    {text? : Option String}
    (isText : stringArgument? directive name = .ok text?) :
    text? = textArgument? directive name ∧
      (text?.isSome = true ↔ ∃ value, directive.argument? name = some value) := by
  rw [stringArgument?] at isText
  split at isText
  case h_1 isMissing =>
    cases isText
    simp [textArgument?, isMissing]
  case h_2 value isValue =>
    split at isText
    case h_1 text isString =>
      cases isText
      simp [textArgument?, isValue, isString]
    case h_2 => cases isText

theorem stringArgument?_decides
    (directive : Directive Argument)
    (name : String) :
    Decides LinkDemand.IsMet LinkDemand.violation [.stringArgument directive name]
      (stringArgument? directive name) := by
  rw [stringArgument?]
  split
  case h_1 isMissing =>
    refine .ok ?_
    simp [LinkDemand.IsMet, isMissing]
  case h_2 value isValue =>
    split
    case h_1 text isString =>
      refine .ok ?_
      simp [LinkDemand.IsMet, isValue, isString]
    case h_2 notString =>
      refine .error (FirstViolation.head ?_ [])
      intro isMet
      obtain ⟨text, isString⟩ := isMet value isValue
      rw [notString] at isString
      cases isString

/-- A node without an address of its own leaves the address to the directive. -/
theorem linkAddress_of_none
    {directive : Directive Argument}
    {members : List (String × Json.Value)}
    (notOwn : ownAddress? members = none) :
    linkAddress directive members =
      stringArgument? directive "href" >>= fun
        | some address => .ok address
        | none => .error .missingAddress := by
  rw [linkAddress]
  split
  case h_1 address isOwn =>
    rw [ownAddress?, isOwn] at notOwn
    cases notOwn
  case h_2 => rfl

theorem linkAddress_of_some
    (directive : Directive Argument)
    {members : List (String × Json.Value)}
    {address : String}
    (isOwn : ownAddress? members = some address) :
    linkAddress directive members = .ok address := by
  rw [ownAddress?, Option.bind_eq_some_iff] at isOwn
  obtain ⟨value, isMember, isString⟩ := isOwn
  cases value with
  | string text =>
      cases isString
      simp [linkAddress, isMember]
  | _ => cases isString

theorem linkAddress_eq_ok
    {directive : Directive Argument}
    {members : List (String × Json.Value)}
    {address : String}
    (isAddress : linkAddress directive members = .ok address) :
    (ownAddress? members).or (textArgument? directive "href") = some address := by
  cases own : ownAddress? members with
  | some text =>
      rw [linkAddress_of_some directive own] at isAddress
      cases isAddress
      rfl
  | none =>
      rw [linkAddress_of_none own, bind_eq_ok] at isAddress
      obtain ⟨text?, isText, isAddress⟩ := isAddress
      rw [Option.none_or, ← (stringArgument?_eq_ok isText).1]
      cases text? with
      | none => cases isAddress
      | some text =>
          cases isAddress
          rfl

theorem linkAddress_decides
    (directive : Directive Argument)
    (members : List (String × Json.Value)) :
    Decides LinkDemand.IsMet LinkDemand.violation (addressDemands directive members)
      (linkAddress directive members) := by
  rw [addressDemands]
  cases own : ownAddress? members with
  | some text =>
      rw [linkAddress_of_some directive own]
      exact .nil _ _ text
  | none =>
      rw [linkAddress_of_none own]
      apply (stringArgument?_decides directive "href").bind
      intro text? isText
      have present := (stringArgument?_eq_ok isText).2
      cases text? with
      | none =>
          refine .error (FirstViolation.head ?_ [])
          intro isMet
          cases present.mpr isMet
      | some text =>
          refine .cons ?_ (.nil _ _ text)
          exact present.mp rfl

theorem scalarText?_isSome
    (value : Json.Value) :
    value.scalarText?.isSome = value.isScalar := by
  cases value with
  | null => rfl
  | bool => rfl
  | number => rfl
  | string => rfl
  | array => rfl
  | object => rfl

/-- Filling in pieces demands a scalar for every placeholder. -/
theorem fill_decides
    (members : List (String × Json.Value))
    (pieces : List Template.Piece) :
    Decides (fun key => (LinkDemand.placeholder members key).IsMet) id
      (pieces.filterMap fun
        | .placeholder key => some (String.ofList key)
        | .literal _ => none)
      (Template.fill members pieces) := by
  induction pieces with
  | nil => exact .nil _ _ []
  | cons piece pieces induction =>
      cases piece with
      | literal character =>
          rw [Template.fill]
          refine induction.bind_ok ?_
          intro rest _
          exact ⟨_, rfl⟩
      | placeholder key =>
          rw [Template.fill]
          simp only [List.filterMap_cons]
          split
          case h_1 isNone =>
            refine .error (FirstViolation.head ?_ _)
            rintro ⟨value, found, isScalar⟩
            rw [found, Option.bind_some, ← Option.not_isSome_iff_eq_none] at isNone
            exact isNone (by rw [scalarText?_isSome, isScalar])
          case h_2 text isSome =>
            obtain ⟨value, found, isText⟩ := Option.bind_eq_some_iff.mp isSome
            refine .cons ?_ (induction.bind_ok ?_)
            · refine ⟨value, found, ?_⟩
              rw [← scalarText?_isSome, isText]
              rfl
            · intro rest _
              exact ⟨_, rfl⟩

theorem expand_decides
    (template : String)
    (members : List (String × Json.Value)) :
    Decides LinkDemand.IsMet LinkDemand.violation
      ((placeholders template).map (.placeholder members))
      ((Template.expand template members).mapError .unresolvedPlaceholder) := by
  refine (fill_decides members (Template.pieces template.toList)).translate
    (LinkDemand.placeholder members) LinkError.unresolvedPlaceholder ?_ ?_ ?_ ?_
  · intro key
    rfl
  · intro key
    rfl
  · intro text isText
    refine ⟨String.ofList text, ?_⟩
    rw [Template.expand, isText]
    rfl
  · intro key isError
    rw [Template.expand, isError]
    rfl

/-- A fragment applies if one has the name and the type. -/
theorem exists_applicableFragment?_iff
    (document : Document)
    (name : String)
    (type : Option String) :
    (∃ fragment, document.applicableFragment? name type = some fragment) ↔
      (LinkDemand.fragment document name type).IsMet := by
  rw [← Option.isSome_iff_exists, Document.applicableFragment?, List.find?_isSome]
  simp only [isApplicable_iff]
  rfl

/-- Looking a fragment up demands that there is one. -/
theorem lookUp_decides
    (document : Document)
    (name : String)
    (type : Option String)
    (task : Fragment Argument → Task) :
    Decides LinkDemand.IsMet LinkDemand.violation [.fragment document name type]
      (match document.applicableFragment? name type with
        | none => .error (.unknownFragment name)
        | some fragment => .ok (task fragment)) := by
  cases applies : document.applicableFragment? name type with
  | some fragment =>
      refine .cons ?_ (.nil _ _ _)
      exact (exists_applicableFragment?_iff document name type).mp ⟨fragment, applies⟩
  | none =>
      refine .error (FirstViolation.head ?_ [])
      intro isMet
      obtain ⟨fragment, alsoApplies⟩ :=
        (exists_applicableFragment?_iff document name type).mpr isMet
      rw [applies] at alsoApplies
      cases alsoApplies

/-- The task of a link directive decides what the directive demands. -/
theorem linkTask_decides
    (document : Document)
    (directive : Directive Argument)
    (members : List (String × Json.Value)) :
    Decides LinkDemand.IsMet LinkDemand.violation
      (directiveDemands document directive members)
      (linkTask document directive members) := by
  rw [linkTask, directiveDemands]
  apply (stringArgument?_decides directive "fragment").bind
  intro name? isName
  obtain ⟨nameIsText, namePresent⟩ := stringArgument?_eq_ok isName
  cases name? with
  | none =>
      refine .error (FirstViolation.head ?_ _)
      intro isMet
      cases namePresent.mpr isMet
  | some name =>
      refine .cons (namePresent.mp rfl) ?_
      rw [← nameIsText]
      apply (linkAddress_decides directive members).bind
      intro address isAddress
      rw [linkAddress_eq_ok isAddress]
      simp only [Option.toList_some, List.flatMap_cons, List.flatMap_nil, List.append_nil,
        List.map_cons, List.map_nil]
      have expands := expand_decides address members
      cases expanded : Template.expand address members with
      | error key =>
          rw [expanded] at expands
          apply expands.bind
          intro url isUrl
          cases isUrl
      | ok url =>
          rw [expanded] at expands
          apply expands.bind
          intro url _
          apply (stringArgument?_decides directive "type").bind
          intro type isType
          rw [← (stringArgument?_eq_ok isType).1]
          exact lookUp_decides document name type (⟨.ofFragment ·, .object members, url⟩)

theorem followLink_decides
    (document : Document)
    (directives : List (Directive Argument))
    (parent : Option String)
    (members : List (String × Json.Value)) :
    Decides Demand.IsMet Demand.violation (linkDemands document directives parent members)
      (followLink document directives parent members) := by
  rw [followLink, linkDemands]
  cases directives.find? (·.name = linkDirective) with
  | none => exact .nil _ _ none
  | some directive =>
      refine (linkTask_decides document directive members).translate (Demand.link parent)
        (ProjectionError.invalidLink parent) ?_ ?_ ?_ ?_
      · intro demand
        rfl
      · intro demand
        rfl
      · intro task isTask
        exact ⟨some task, by simp [isTask]⟩
      · intro reason isError
        simp [isError]

/-! ## Objects and arrays -/

section

variable {document : Document}

theorem visitFields_decides
    {members : List (String × Json.Value)}
    (ofMembers :
      ∀ key source, (key, source) ∈ members → ∀ field demands,
        ValueDemands document field source demands →
          Decides Demand.IsMet Demand.violation demands (visitValue document source field))
    {fields : List Field}
    {demands : List Demand}
    (asks : FieldDemands document fields members demands)
    (target : List (String × Json.Value)) :
    Decides Demand.IsMet Demand.violation demands
      (visitFields (memberVisits document members) fields target) := by
  induction fields generalizing demands target with
  | nil =>
      cases asks
      exact .nil _ _ _
  | cons field fields induction =>
      rw [visitFields, find?_memberVisits]
      cases asks with
      | missing isMissing _ =>
          rw [isMissing]
          refine .error (FirstViolation.head ?_ _)
          rintro ⟨value, found⟩
          rw [isMissing] at found
          cases found
      | @present _ _ _ value inside others isPresent ofValue ofFields =>
          rw [isPresent]
          refine .cons ⟨value, isPresent⟩ ?_
          have isMember := Json.Members.mem_of_find? isPresent
          apply (ofMembers field.name value isMember field inside ofValue).bind
          intro visited _
          refine (induction ofFields _).bind_ok ?_
          intro rest _
          exact ⟨_, rfl⟩

theorem visitObject_decides
    (accepted : SpreadGraph.check document.fragments = .ok ())
    {members : List (String × Json.Value)}
    (ofMembers :
      ∀ key source, (key, source) ∈ members → ∀ field demands,
        ValueDemands document field source demands →
          Decides Demand.IsMet Demand.violation demands (visitValue document source field))
    {entry : Entry}
    {demands : List Demand}
    (asks : ObjectDemands document entry members demands) :
    Decides Demand.IsMet Demand.violation demands
      (visitObject document entry members (memberVisits document members)) := by
  cases asks with
  | fields applicable ofFields =>
      rw [(fieldsOf_iff_applicableFields accepted).mp applicable] at ofFields
      rw [visitObject]
      apply (visitFields_decides ofMembers ofFields []).bind
      intro visited _
      refine (followLink_decides document entry.directives entry.name members).bind_ok ?_
      intro own _
      exact ⟨_, rfl⟩

/-- Visiting elements one after another decides their demands one after another. -/
theorem visitEach_decides
    {asks : Json.Value → List Demand → Prop}
    {visit : Json.Value → Visited}
    {elements : List Json.Value}
    (ofEach :
      ∀ element ∈ elements, ∀ demands, asks element demands →
        Decides Demand.IsMet Demand.violation demands (visit element))
    {demands : List Demand}
    (asked : EachDemands asks elements demands) :
    Decides Demand.IsMet Demand.violation demands (visitEach visit elements) := by
  induction asked with
  | nil => exact .nil _ _ _
  | @cons element elements _ _ ofElement _ induction =>
      rw [visitEach]
      apply (ofEach element List.mem_cons_self _ ofElement).bind
      intro visited _
      have ofRest := induction
        fun element isElement => ofEach element (List.mem_cons_of_mem _ isElement)
      refine ofRest.bind_ok ?_
      intro rest _
      exact ⟨_, rfl⟩

/-- Visiting the value of a field decides what the field demands of it. -/
theorem visitValue_decides
    (accepted : SpreadGraph.check document.fragments = .ok ())
    {value : Json.Value}
    {field : Field}
    {demands : List Demand}
    (asks : ValueDemands document field value demands) :
    Decides Demand.IsMet Demand.violation demands (visitValue document value field) := by
  induction value using Json.Value.inside_induction generalizing field demands with
  | scalar value isScalar =>
      rw [visitValue_of_isScalar document field isScalar]
      cases asks with
      | scalar => exact .nil _ _ _
      | whole => cases isScalar
      | object => cases isScalar
      | array => cases isScalar
  | array elements induction =>
      cases asks with
      | scalar isScalar => cases isScalar
      | array ofElements =>
          rw [visitValue, visitElements_eq]
          have decides := visitEach_decides
            (fun element isElement demands asks => induction element isElement asks)
            (elementDemands_iff.mp ofElements)
          refine decides.bind_ok ?_
          intro visited _
          exact ⟨_, rfl⟩
  | object members induction =>
      cases asks with
      | scalar isScalar => cases isScalar
      | whole noSelections =>
          rw [visitValue, noSelections]
          refine (followLink_decides document field.directives (some field.name) members).bind_ok ?_
          intro own _
          exact ⟨_, rfl⟩
      | object hasSelections ofObject =>
          rw [visitValue, hasSelections]
          exact visitObject_decides accepted
            (fun key source isMember field demands asks => induction key source isMember asks)
            ofObject

/-- Visiting a root decides what is demanded of it. -/
theorem visitRoot_decides
    (accepted : SpreadGraph.check document.fragments = .ok ())
    {entry : Entry}
    {root : Json.Value}
    {demands : List Demand}
    (asks : RootDemands document entry root demands) :
    Decides Demand.IsMet Demand.violation demands (visitRoot document entry root) := by
  induction root using Json.Value.inside_induction generalizing demands with
  | scalar value isScalar =>
      rw [visitRoot_of_isScalar document entry isScalar]
      cases asks with
      | scalar =>
          refine .error (FirstViolation.head ?_ [])
          simp [Demand.IsMet, isScalar]
      | object => cases isScalar
      | array => cases isScalar
  | array elements induction =>
      cases asks with
      | scalar isScalar => cases isScalar
      | array ofElements =>
          rw [visitRoot, visitRoots_eq]
          have decides := visitEach_decides
            (fun element isElement demands asks => induction element isElement asks)
            (rootsDemands_iff.mp ofElements)
          refine .cons rfl (decides.bind_ok ?_)
          intro visited _
          exact ⟨_, rfl⟩
  | object members _ =>
      cases asks with
      | scalar isScalar => cases isScalar
      | object ofObject =>
          rw [visitRoot]
          refine .cons rfl ?_
          exact visitObject_decides accepted
            (fun _ _ _ _ _ asks => visitValue_decides accepted asks) ofObject

/--
A projection of a query that has been read succeeds if and only if all its
demands are met, and otherwise fails with the violation of the first one that is
not met.
-/
theorem project_decides
    {text : String}
    {operation : Operation Argument}
    (parsed : Document.ofString text = .ok document)
    (isQuery : document.queryOperation? = some operation)
    (source : Json.Value) :
    ∃ demands,
      Determines (RootDemands document (.ofOperation operation) source) demands ∧
        ((∃ projection, project document source = .ok projection) ↔
          ∀ demand ∈ demands, demand.IsMet) ∧
        ∀ error, project document source = .error error ↔
          FirstViolation Demand.IsMet Demand.violation demands error := by
  have accepted := Document.check_of_ofString parsed
  obtain ⟨demands, areDemands⟩ :=
    exists_rootDemands accepted (.ofOperation operation) source
  have decides : Decides Demand.IsMet Demand.violation demands (project document source) := by
    rw [project, isQuery]
    refine (visitRoot_decides accepted ((areDemands demands).mpr rfl)).bind_ok ?_
    intro visited _
    exact ⟨_, rfl⟩
  exact ⟨demands, areDemands, decides.ok_iff, decides.error_iff⟩

end

/-! ## A link that cannot be followed -/

namespace BrokenLink

def query : String :=
  "\x7b toy @GET(fragment: \"Toy\") name \x7d fragment Toy on Toy \x7b name \x7d"

def operation : Operation Argument :=
  ⟨.query, none, [],
    [.field none "toy" [] [⟨"GET", [⟨"fragment", .literal (.string "Toy")⟩]⟩] none,
      .field none "name" [] [] none]⟩

def fragment : Fragment Argument :=
  ⟨"Toy", "Toy", [], [.field none "name" [] [] none]⟩

/-- There is no id for the address of the toy, and there is no name. -/
def source : Json.Value :=
  .object [("toy", .object [("href", .string "/toys/\x7bid\x7d")])]

/-- The link comes before the name. -/
theorem link_is_first :
    ∃ demands, RootDemands ⟨[operation], [fragment]⟩ (.ofOperation operation) source demands ∧
      FirstViolation Demand.IsMet Demand.violation demands
        (.invalidLink (some "toy") (.unresolvedPlaceholder "id")) := by
  have parsed : Document.ofString query = .ok ⟨[operation], [fragment]⟩ := by
    cbv
  have fails : project ⟨[operation], [fragment]⟩ source =
      .error (.invalidLink (some "toy") (.unresolvedPlaceholder "id")) := by
    cbv
  obtain ⟨demands, areDemands, _, isError⟩ := project_decides parsed rfl source
  exact ⟨demands, (areDemands demands).mpr rfl, (isError _).mp fails⟩

end BrokenLink

end QueryGateway.Projection
