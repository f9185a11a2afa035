import Mathlib
import QueryGateway.Proofs.Projection.Pass

/-!
# Projections with a limited depth of calls

Fragments may be spread in fragments, and a projection that expands each spread
where it meets it has no other measure to end by than the fragments themselves.
Here the projection is written in that way, without a bound that is computed from
the document.  It is given a depth of calls instead, and has no result if its
calls nest deeper than that.

For a query that has been read, every projection has a result at some depth and
at all larger ones, and it is the result of the projection that knows its bound.
The reason is that the spreads that are being expanded at one time spread
different names: a chain of them leads down an order of all names.  Each spread
of a chain takes up a call, so a query with chains of any length would have a
result at no depth.
-/

namespace QueryGateway.Projection

open Query

/-! ## Expansion without a bound -/

/-- The fields of a selection, given how selection sets further inside are expanded. -/
def selectionWithin (document : Document) (type : Option String)
    (collect : List (Selection Argument) → Option (List Field)) :
    Selection Argument → Option (List Field)
  | .field alternative name arguments directives selections =>
      some [⟨alternative, name, arguments, directives, selections⟩]
  | .spread name _ =>
      match document.applicableFragment? name type with
      | none => some []
      | some fragment => collect fragment.selections
  | .inline condition _ selections =>
      if admits condition type then collect selections else some []

/-- The fields of a selection set, expanded by calls to the given depth. -/
def collectWithin (document : Document) (type : Option String) :
    Nat → List (Selection Argument) → Option (List Field)
  | 0, _ => none
  | depth + 1, selections =>
      (selections.mapM (selectionWithin document type (collectWithin document type depth))).map
        List.flatten

/-! ## Projection without a bound -/

/-- A computation that fails, has a result, or is given up because its calls nest too deeply. -/
abbrev Attempt := ExceptT ProjectionError Option

/-- Visit fields one after another and add them to a target. -/
def fieldsWithin (visit : Field → Json.Value → Attempt (Json.Value × List Task))
    (members : List (String × Json.Value)) :
    List Field → List (String × Json.Value) → Attempt (List (String × Json.Value) × List Task)
  | [], target => return (target, [])
  | field :: fields, target =>
      match Json.Members.find? members field.name with
      | none => throw (.missingField field.name)
      | some value => do
          let (value, found) ← visit field value
          let target := Json.Members.insert field.responseKey value target
          let (target, more) ← fieldsWithin visit members fields target
          return (target, found ++ more)

/-- Visit elements one after another. -/
def elementsWithin (visit : Json.Value → Attempt (Json.Value × List Task)) :
    List Json.Value → Attempt (List Json.Value × List Task)
  | [] => return ([], [])
  | element :: elements => do
      let (target, found) ← visit element
      let (targets, more) ← elementsWithin visit elements
      return (target :: targets, found ++ more)

/-- Visit an object with a selection set: expand it, visit the fields, then the link. -/
def objectWithin (document : Document) (depth : Nat)
    (visit : Field → Json.Value → Attempt (Json.Value × List Task)) (entry : Entry)
    (members : List (String × Json.Value)) : Attempt (Json.Value × List Task) := do
  let type := discriminator members entry.name
  let fields ← collectWithin document type depth entry.selections
  let (target, found) ← fieldsWithin visit members fields []
  let own ← followLink document entry.directives entry.name members
  return (.object target, found ++ own.toList)

/-- Visit the value of a field. -/
def valueWithin (document : Document) : Nat → Field → Json.Value → Attempt (Json.Value × List Task)
  | 0, _, _ => .mk none
  | depth + 1, field, .object members =>
      match field.selections with
      | some selections =>
          objectWithin document depth (valueWithin document depth) (.ofField field selections)
            members
      | none => do
          let own ← followLink document field.directives (some field.name) members
          return (.object members, own.toList)
  | depth + 1, field, .array elements => do
      let (targets, found) ← elementsWithin (valueWithin document depth field) elements
      return (.array targets, found)
  | _ + 1, _, scalar => return (scalar, [])

/-- Visit the root of a document, or an element of a root that is an array. -/
def rootWithin (document : Document) (entry : Entry) :
    Nat → Json.Value → Attempt (Json.Value × List Task)
  | 0, _ => .mk none
  | depth + 1, .object members =>
      objectWithin document depth (valueWithin document depth) entry members
  | depth + 1, .array elements => do
      let (targets, found) ← elementsWithin (rootWithin document entry depth) elements
      return (.array targets, found)
  | _ + 1, scalar => throw (.unsupportedShape scalar.kind)

/-- Apply an entry to a document. -/
def enterWithin (document : Document) (entry : Entry) (depth : Nat) (source : Json.Value) :
    Attempt Projected := do
  let (target, followUps) ← rootWithin document entry depth source
  return ⟨target, followUps⟩

/-- Apply the first query of a document. -/
def projectWithin (document : Document) (depth : Nat) (source : Json.Value) : Attempt Projected :=
  match document.queryOperation? with
  | none => return ⟨source, []⟩
  | some operation => enterWithin document (.ofOperation operation) depth source

/-! ## Having a result -/

/-- At some depth and at all larger ones, a computation comes to a result. -/
def ComesTo {α : Type} (computation : Nat → Option α) (result : α) : Prop :=
  ∃ bound, ∀ depth, bound ≤ depth → computation depth = some result

namespace ComesTo

variable
    {α β : Type}

theorem const
    (result : α) :
    ComesTo (fun _ => some result) result :=
  ⟨0, fun _ _ => rfl⟩

/-- One call more takes one more step of depth. -/
theorem call
    {computation : Nat → Option α}
    {inner : Nat → Option α}
    {result : α}
    (calls : ∀ depth, computation (depth + 1) = inner depth)
    (comes : ComesTo inner result) :
    ComesTo computation result := by
  obtain ⟨bound, atDepth⟩ := comes
  refine ⟨bound + 1, ?_⟩
  intro depth enough
  cases depth with
  | zero => omega
  | succ depth =>
      rw [calls]
      exact atDepth depth (by omega)

theorem bind
    {first : Nat → Attempt α}
    {next : Nat → α → Attempt β}
    {result : Except ProjectionError α}
    {rest : α → Except ProjectionError β}
    (comes : ComesTo (fun depth => (first depth).run) result)
    (goesOn : ∀ value, ComesTo (fun depth => (next depth value).run) (rest value)) :
    ComesTo (fun depth => (first depth >>= next depth).run) (result >>= rest) := by
  obtain ⟨bound, atDepth⟩ := comes
  cases result with
  | error error =>
      refine ⟨bound, ?_⟩
      intro depth enough
      have isError : first depth = .mk (some (.error error)) := atDepth depth enough
      change (first depth >>= next depth).run = _
      rw [isError]
      rfl
  | ok value =>
      obtain ⟨other, atOther⟩ := goesOn value
      refine ⟨max bound other, ?_⟩
      intro depth enough
      have isOk : first depth = .mk (some (.ok value)) := atDepth depth (by omega)
      change (first depth >>= next depth).run = _
      rw [isOk]
      exact atOther depth (by omega)

/-- What is done in any case has its result at every depth. -/
theorem ofExcept
    (result : Except ProjectionError α) :
    ComesTo (fun _ => (liftM result : Attempt α).run) result := by
  refine ⟨0, ?_⟩
  intro depth _
  cases result with
  | error error => rfl
  | ok value => rfl

theorem bind_option
    {computation : Nat → Option α}
    {next : Nat → α → Attempt β}
    {value : α}
    {result : Except ProjectionError β}
    (comes : ComesTo computation value)
    (goesOn : ComesTo (fun depth => (next depth value).run) result) :
    ComesTo (fun depth => ((liftM (computation depth) : Attempt α) >>= next depth).run) result := by
  obtain ⟨bound, atDepth⟩ := comes
  obtain ⟨other, atOther⟩ := goesOn
  refine ⟨max bound other, ?_⟩
  intro depth enough
  change ((liftM (computation depth) : Attempt α) >>= next depth).run = _
  rw [atDepth depth (by omega)]
  exact atOther depth (by omega)

end ComesTo

/-! ## Expansions -/

section

variable
    {document : Document}
    {type : Option String}

theorem collectWithin_cons
    (depth : Nat)
    (selection : Selection Argument)
    (selections : List (Selection Argument)) :
    collectWithin document type (depth + 1) (selection :: selections) =
      (selectionWithin document type (collectWithin document type depth) selection).bind
        fun fields =>
          (collectWithin document type (depth + 1) selections).map (fields ++ ·) := by
  rw [collectWithin, collectWithin, List.mapM_cons]
  cases selectionWithin document type (collectWithin document type depth) selection with
  | none => rfl
  | some fields =>
      cases selections.mapM (selectionWithin document type (collectWithin document type depth)) with
      | none => rfl
      | some others => rfl

theorem comesTo_collect_cons
    {selection : Selection Argument}
    {selections : List (Selection Argument)}
    {fields others : List Field}
    (ofFirst :
      ComesTo
        (fun depth => selectionWithin document type (collectWithin document type depth) selection)
        fields)
    (ofOthers : ComesTo (collectWithin document type · selections) others) :
    ComesTo (collectWithin document type · (selection :: selections)) (fields ++ others) := by
  obtain ⟨bound, atDepth⟩ := ofFirst
  obtain ⟨other, atOther⟩ := ofOthers
  -- what is inside the first selection is collected by a call, and the others by the same call
  refine ⟨max (bound + 1) other, ?_⟩
  intro depth enough
  cases depth with
  | zero => omega
  | succ depth =>
      have first : selectionWithin document type (collectWithin document type depth) selection =
          some fields := atDepth depth (by omega)
      have rest : collectWithin document type (depth + 1) selections = some others :=
        atOther (depth + 1) (by omega)
      change collectWithin document type (depth + 1) (selection :: selections) = _
      rw [collectWithin_cons, first, rest]
      rfl

/-- The fields of a selection set are collected at some depth. -/
theorem comesTo_collect
    {selections : List (Selection Argument)}
    {fields : List Field}
    (areFields : FieldsOf document type selections fields) :
    ComesTo (collectWithin document type · selections) fields := by
  induction areFields with
  | nil => exact .call (fun _ => rfl) (.const [])
  | @field alternative name arguments directives own selections fields _ induction =>
      have first : ComesTo (fun depth =>
          selectionWithin document type (collectWithin document type depth)
            (.field alternative name arguments directives own))
          [⟨alternative, name, arguments, directives, own⟩] := .const _
      exact comesTo_collect_cons first induction
  | @spread name directives _ _ _ _ applies _ _ insideInduction othersInduction =>
      refine comesTo_collect_cons ?_ othersInduction
      simpa only [selectionWithin, applies] using insideInduction
  | @unknown name directives _ _ appliesNone _ induction =>
      have first : ComesTo (fun depth =>
          selectionWithin document type (collectWithin document type depth)
            (.spread name directives)) [] := by
        simpa only [selectionWithin, appliesNone] using .const []
      exact comesTo_collect_cons first induction
  | inline admitted _ _ insideInduction othersInduction =>
      refine comesTo_collect_cons ?_ othersInduction
      simpa [selectionWithin, admitted] using insideInduction
  | @excluded condition directives own _ _ notAdmitted _ induction =>
      have first : ComesTo (fun depth =>
          selectionWithin document type (collectWithin document type depth)
            (.inline condition directives own)) [] := by
        simpa [selectionWithin, notAdmitted] using .const []
      exact comesTo_collect_cons first induction

/-! ## Visits -/

theorem comesTo_elements
    {within : Nat → Json.Value → Attempt (Json.Value × List Task)}
    {visit : Json.Value → Visited}
    {elements : List Json.Value}
    (ofEach :
      ∀ element ∈ elements, ComesTo (fun depth => (within depth element).run) (visit element)) :
    ComesTo (fun depth => (elementsWithin (within depth) elements).run)
      (visitEach visit elements) := by
  induction elements with
  | nil => exact .const _
  | cons element elements induction =>
      have ofRest := induction fun other isElement =>
        ofEach other (List.mem_cons_of_mem _ isElement)
      refine (ofEach element List.mem_cons_self).bind ?_
      rintro ⟨target, found⟩
      refine ofRest.bind ?_
      rintro ⟨targets, more⟩
      exact .const _

theorem comesTo_fields
    {members : List (String × Json.Value)}
    (ofMembers :
      ∀ key source, (key, source) ∈ members → ∀ field,
        ComesTo (fun depth => (valueWithin document depth field source).run)
          (visitValue document source field))
    (fields : List Field)
    (target : List (String × Json.Value)) :
    ComesTo (fun depth => (fieldsWithin (valueWithin document depth) members fields target).run)
      (visitFields (memberVisits document members) fields target) := by
  induction fields generalizing target with
  | nil => exact .const _
  | cons field fields induction =>
      simp only [fieldsWithin, visitFields, find?_memberVisits]
      cases found : Json.Members.find? members field.name with
      | none => exact .const _
      | some value =>
          refine (ofMembers field.name value (Json.Members.mem_of_find? found) field).bind ?_
          rintro ⟨value, inside⟩
          refine (induction (Json.Members.insert field.responseKey value target)).bind ?_
          rintro ⟨target, more⟩
          exact .const _

theorem comesTo_object
    (accepted : SpreadGraph.check document.fragments = .ok ())
    {members : List (String × Json.Value)}
    (ofMembers :
      ∀ key source, (key, source) ∈ members → ∀ field,
        ComesTo (fun depth => (valueWithin document depth field source).run)
          (visitValue document source field))
    (entry : Entry) :
    ComesTo
      (fun depth => (objectWithin document depth (valueWithin document depth) entry members).run)
      (visitObject document entry members (memberVisits document members)) := by
  have areFields := fieldsOf_applicableFields accepted entry.name members entry.selections
  refine (comesTo_collect areFields).bind_option ?_
  refine (comesTo_fields ofMembers _ []).bind ?_
  rintro ⟨target, found⟩
  refine (ComesTo.ofExcept (followLink document entry.directives entry.name members)).bind ?_
  intro own
  exact .const _

theorem comesTo_value
    (accepted : SpreadGraph.check document.fragments = .ok ())
    (value : Json.Value)
    (field : Field) :
    ComesTo (fun depth => (valueWithin document depth field value).run)
      (visitValue document value field) := by
  induction value using Json.Value.inside_induction generalizing field with
  | scalar value isScalar =>
      rw [visitValue_of_isScalar document field isScalar]
      refine .call ?_ (.const _)
      intro depth
      cases value with
      | array => cases isScalar
      | object => cases isScalar
      | null => rfl
      | bool => rfl
      | number => rfl
      | string => rfl
  | array elements induction =>
      rw [visitValue, visitElements_eq]
      have ofElements := comesTo_elements fun element isElement => induction element isElement field
      refine .call (fun _ => rfl) (ofElements.bind ?_)
      rintro ⟨targets, found⟩
      exact .const _
  | object members induction =>
      rw [visitValue]
      cases selected : field.selections with
      | some selections =>
          refine .call ?_ (comesTo_object accepted induction (.ofField field selections))
          intro depth
          rw [valueWithin, selected]
      | none =>
          have ofWhole : ComesTo
              (fun _ => (do
                let own ← followLink document field.directives (some field.name) members
                return (.object members, own.toList) : Attempt (Json.Value × List Task)).run)
              (do
                let own ← followLink document field.directives (some field.name) members
                return (.object members, own.toList)) :=
            (ComesTo.ofExcept _).bind fun _ => .const _
          refine .call ?_ ofWhole
          intro depth
          rw [valueWithin, selected]

theorem comesTo_root
    (accepted : SpreadGraph.check document.fragments = .ok ())
    (entry : Entry)
    (root : Json.Value) :
    ComesTo (fun depth => (rootWithin document entry depth root).run)
      (visitRoot document entry root) := by
  induction root using Json.Value.inside_induction with
  | scalar value isScalar =>
      rw [visitRoot_of_isScalar document entry isScalar]
      refine .call ?_ (.const _)
      intro depth
      cases value with
      | array => cases isScalar
      | object => cases isScalar
      | null => rfl
      | bool => rfl
      | number => rfl
      | string => rfl
  | array elements induction =>
      rw [visitRoot, visitRoots_eq]
      refine .call (fun _ => rfl) ((comesTo_elements induction).bind ?_)
      rintro ⟨targets, found⟩
      exact .const _
  | object members _ =>
      rw [visitRoot]
      refine .call (fun _ => rfl) (comesTo_object accepted ?_ entry)
      intro key source _ field
      exact comesTo_value accepted source field

theorem comesTo_enter
    (accepted : SpreadGraph.check document.fragments = .ok ())
    (entry : Entry)
    (source : Json.Value) :
    ComesTo (fun depth => (enterWithin document entry depth source).run)
      (enter document entry source) := by
  refine (comesTo_root accepted entry source).bind ?_
  rintro ⟨target, followUps⟩
  exact .const _

theorem comesTo_project
    (accepted : SpreadGraph.check document.fragments = .ok ())
    (source : Json.Value) :
    ComesTo (fun depth => (projectWithin document depth source).run)
      (project document source) := by
  unfold projectWithin project
  cases document.queryOperation? with
  | none => exact .const _
  | some operation => exact comesTo_enter accepted (.ofOperation operation) source

/-! ## Chains of spreads -/

/--
The names of the spreads that are being expanded at some time, the outermost one
first, when a selection set is expanded for a type.
-/
inductive SpreadChain (document : Document) (type : Option String) :
    List (Selection Argument) → List String → Prop where
  | here
      {selections : List (Selection Argument)} :
      SpreadChain document type selections []
  | spread
      {name : String}
      {directives : List (Directive Argument)}
      {selections : List (Selection Argument)}
      (isSelection : .spread name directives ∈ selections)
      {fragment : Fragment Argument}
      (applies : document.applicableFragment? name type = some fragment)
      {names : List String}
      (inside : SpreadChain document type fragment.selections names) :
      SpreadChain document type selections (name :: names)
  | inline
      {condition : Option String}
      {directives : List (Directive Argument)}
      {own selections : List (Selection Argument)}
      (isSelection : .inline condition directives own ∈ selections)
      (admitted : admits condition type = true)
      {names : List String}
      (inside : SpreadChain document type own names) :
      SpreadChain document type selections names

theorem collectWithin_eq_none
    {depth : Nat}
    {selection : Selection Argument}
    {selections : List (Selection Argument)}
    (isSelection : selection ∈ selections)
    (tooDeep :
      selectionWithin document type (collectWithin document type depth) selection = none) :
    collectWithin document type (depth + 1) selections = none := by
  induction selections with
  | nil => cases isSelection
  | cons first selections induction =>
      rw [collectWithin_cons]
      rcases List.mem_cons.mp isSelection with rfl | isLater
      · rw [tooDeep]
        rfl
      · rw [induction isLater]
        exact Option.bind_fun_none _

/-- Every spread of a chain takes up a call. -/
theorem SpreadChain.collectWithin_eq_none
    {selections : List (Selection Argument)}
    {names : List String}
    (chain : SpreadChain document type selections names)
    {depth : Nat}
    (notMore : depth ≤ names.length) :
    collectWithin document type depth selections = none := by
  induction chain generalizing depth with
  | here =>
      cases Nat.le_zero.mp notMore
      rfl
  | spread isSelection applies _ induction =>
      cases depth with
      | zero => rfl
      | succ depth =>
          refine Projection.collectWithin_eq_none isSelection ?_
          rw [selectionWithin, applies]
          exact induction (Nat.le_of_succ_le_succ notMore)
  | inline isSelection admitted _ induction =>
      cases depth with
      | zero => rfl
      | succ depth =>
          refine Projection.collectWithin_eq_none isSelection ?_
          rw [selectionWithin, if_pos admitted]
          exact induction (Nat.le_of_succ_le notMore)

/-- A chain leads down the order of all names, so it does not come back to one. -/
theorem SpreadChain.distinct
    {selections : List (Selection Argument)}
    {names : List String}
    (chain : SpreadChain document type selections names)
    {order : List String}
    (ordered : SpreadGraph.Ordered document.fragments order)
    (inOrder :
      ∀ name ∈ Selection.spreadNamesOf selections,
        name ∈ document.fragments.map (·.name) → name ∈ order) :
    names.Nodup ∧ names ⊆ order := by
  induction chain generalizing order with
  | here => exact ⟨List.nodup_nil, List.nil_subset _⟩
  | @spread name directives _ isSelection _ applies _ _ induction =>
      have isSpread : name ∈ (Selection.spread name directives : Selection Argument).spreadNames :=
        List.mem_singleton_self name
      obtain ⟨isName, below, belowOrdered, subset, notBelow, spreadsBelow⟩ :=
        exists_below_of_applies ordered (inOrder name (spreadNames_subset isSelection isSpread))
          applies
      -- the rest of the chain stays below the name, where the name is not found again
      obtain ⟨distinct, namesBelow⟩ :=
        induction belowOrdered fun next isNext _ => spreadsBelow isNext
      constructor
      · exact List.nodup_cons.mpr ⟨fun again => notBelow (namesBelow again), distinct⟩
      · exact List.cons_subset.mpr ⟨isName, List.Subset.trans namesBelow subset⟩
  | inline isSelection _ _ induction =>
      refine induction ordered ?_
      intro name isSpread
      exact inOrder name (spreadNames_subset isSelection isSpread)

/--
For a query that has been read, the projection of every document comes to a
result, and so does the projection of what is fetched for any task.  Whatever
object a selection set is expanded for, no name is spread within its own spread,
and the calls nest more deeply than the spreads.
-/
theorem projection_comes_to_result
    {text : String}
    (parsed : Document.ofString text = .ok document) :
    (∀ source,
      ComesTo (fun depth => (projectWithin document depth source).run)
        (project document source)) ∧
    (∀ (task : Task) (source : Json.Value),
      ComesTo (fun depth => (enterWithin document task.entry depth source).run)
        (task.project document source)) ∧
    ∀ (parent : Option String) (members : List (String × Json.Value))
      (selections : List (Selection Argument)) (names : List String),
      SpreadChain document (discriminator members parent) selections names →
        names.Nodup ∧ ∀ depth ≤ names.length,
          collectWithin document (discriminator members parent) depth selections = none := by
  have accepted := Document.check_of_ofString parsed
  refine ⟨comesTo_project accepted, fun task => comesTo_enter accepted task.entry, ?_⟩
  intro parent members selections names chain
  obtain ⟨order, ordered, complete⟩ := SpreadGraph.exists_ordered_of_check accepted
  have distinct := (chain.distinct ordered fun name _ isName => complete isName).1
  exact ⟨distinct, fun depth => chain.collectWithin_eq_none⟩

end

/-! ## Two fragments of one name, one of which links to itself -/

namespace Relatives

def query : String :=
  "query @GET(fragment: \"Item\", href: \"/a\") \x7b ...Item ...Lost \x7d " ++
    "fragment Item on Toy @GET(fragment: \"Item\", href: \"/b\") " ++
    "\x7b ... \x7b ...Named \x7d \x7d " ++
    "fragment Item on Book \x7b title \x7d fragment Named on Toy \x7b name \x7d"

def link (address : String) : Directive Argument :=
  ⟨"GET", [⟨"fragment", .literal (.string "Item")⟩, ⟨"href", .literal (.string address)⟩]⟩

def operation : Operation Argument :=
  ⟨.query, none, [link "/a"], [.spread "Item" [], .spread "Lost" []]⟩

def toyItem : Fragment Argument :=
  ⟨"Item", "Toy", [link "/b"], [.inline none [] [.spread "Named" []]]⟩

def bookItem : Fragment Argument :=
  ⟨"Item", "Book", [], [.field none "title" [] [] none]⟩

def named : Fragment Argument :=
  ⟨"Named", "Toy", [], [.field none "name" [] [] none]⟩

def document : Document :=
  ⟨[operation], [toyItem, bookItem, named]⟩

def members : List (String × Json.Value) :=
  [("type", .string "Toy"), ("name", .string "bear")]

def target : Json.Value :=
  .object [("name", .string "bear")]

def task (address : String) : Task :=
  ⟨.ofFragment toyItem, .object members, address⟩

theorem named_within_item :
    SpreadChain document (discriminator members none) operation.selections ["Item", "Named"] := by
  have ofItem : document.applicableFragment? "Item" (discriminator members none) = some toyItem :=
    rfl
  have ofNamed : document.applicableFragment? "Named" (discriminator members none) = some named :=
    rfl
  exact .spread List.mem_cons_self ofItem
    (.inline List.mem_cons_self rfl (.spread List.mem_cons_self ofNamed .here))

theorem links_again_and_again :
    ComesTo (fun depth => (projectWithin document depth (.object members)).run)
        (.ok ⟨target, [task "/a"]⟩) ∧
      ComesTo (fun depth => (enterWithin document (task "/a").entry depth (.object members)).run)
        (.ok ⟨target, [task "/b"]⟩) ∧
      ["Item", "Named"].Nodup := by
  have parsed : Document.ofString query = .ok document := by
    cbv
  have projected : project document (.object members) = .ok ⟨target, [task "/a"]⟩ := rfl
  have again : (task "/a").project document (.object members) = .ok ⟨target, [task "/b"]⟩ := rfl
  obtain ⟨ofQuery, ofTasks, distinct⟩ := projection_comes_to_result parsed
  refine ⟨projected ▸ ofQuery (.object members), again ▸ ofTasks (task "/a") (.object members), ?_⟩
  exact (distinct none members operation.selections ["Item", "Named"] named_within_item).1

end Relatives

end QueryGateway.Projection
