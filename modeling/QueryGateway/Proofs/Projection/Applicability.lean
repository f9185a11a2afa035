import QueryGateway.Projection.Applicable
import QueryGateway.Proofs.Query.SpreadGraph

/-!
# The fields that apply, without a depth

The fields of a selection set are those that are reached by entering inline
fragments and spreads.  `FieldsOf` says so without a bound on the depth of the
spreads.  It is inductive, and so speaks about finite expansions only.

In a document that has been read from a text, the expansion of every selection
set is finite, and the depth to which spreads are expanded is enough for all of
them: the names that a fragment spreads stand behind its own name in an order of
all names, so fewer and fewer fragments remain to be spread.
-/

namespace QueryGateway.Projection

open Query

/-- The fields of a selection set for a type. -/
inductive FieldsOf (document : Document) (type : Option String) :
    List (Selection Argument) → List Field → Prop where
  | nil : FieldsOf document type [] []
  | field
      {alternative : Option String}
      {name : String}
      {arguments : List Argument}
      {directives : List (Directive Argument)}
      {own : Option (List (Selection Argument))}
      {selections : List (Selection Argument)}
      {fields : List Field}
      (others : FieldsOf document type selections fields) :
      FieldsOf document type
        (.field alternative name arguments directives own :: selections)
        (⟨alternative, name, arguments, directives, own⟩ :: fields)
  /-- The first applicable fragment of the name takes the place of the spread. -/
  | spread
      {name : String}
      {directives : List (Directive Argument)}
      {fragment : Fragment Argument}
      {selections : List (Selection Argument)}
      {inner fields : List Field}
      (applies : document.applicableFragment? name type = some fragment)
      (inside : FieldsOf document type fragment.selections inner)
      (others : FieldsOf document type selections fields) :
      FieldsOf document type (.spread name directives :: selections) (inner ++ fields)
  /-- Nothing takes the place of a spread without an applicable fragment. -/
  | unknown
      {name : String}
      {directives : List (Directive Argument)}
      {selections : List (Selection Argument)}
      {fields : List Field}
      (appliesNone : document.applicableFragment? name type = none)
      (others : FieldsOf document type selections fields) :
      FieldsOf document type (.spread name directives :: selections) fields
  | inline
      {condition : Option String}
      {directives : List (Directive Argument)}
      {own selections : List (Selection Argument)}
      {inner fields : List Field}
      (admitted : admits condition type = true)
      (inside : FieldsOf document type own inner)
      (others : FieldsOf document type selections fields) :
      FieldsOf document type (.inline condition directives own :: selections) (inner ++ fields)
  | excluded
      {condition : Option String}
      {directives : List (Directive Argument)}
      {own selections : List (Selection Argument)}
      {fields : List Field}
      (notAdmitted : admits condition type = false)
      (others : FieldsOf document type selections fields) :
      FieldsOf document type (.inline condition directives own :: selections) fields

variable
    {document : Document}
    {type : Option String}

/-- A selection set has its fields in one way only. -/
theorem FieldsOf.unique
    {selections : List (Selection Argument)}
    {fields others : List Field}
    (left : FieldsOf document type selections fields)
    (right : FieldsOf document type selections others) :
    fields = others := by
  induction left generalizing others with
  | nil =>
      cases right
      rfl
  | field _ induction =>
      cases right with
      | field rest => rw [induction rest]
  | spread applies _ _ insideInduction othersInduction =>
      cases right with
      | spread alsoApplies inside rest =>
          rw [applies] at alsoApplies
          cases alsoApplies
          rw [insideInduction inside, othersInduction rest]
      | unknown appliesNone =>
          rw [applies] at appliesNone
          cases appliesNone
  | unknown appliesNone _ induction =>
      cases right with
      | spread applies =>
          rw [appliesNone] at applies
          cases applies
      | unknown _ rest => exact induction rest
  | inline admitted _ _ insideInduction othersInduction =>
      cases right with
      | inline _ inside rest => rw [insideInduction inside, othersInduction rest]
      | excluded notAdmitted =>
          rw [admitted] at notAdmitted
          cases notAdmitted
  | excluded notAdmitted _ induction =>
      cases right with
      | inline admitted =>
          rw [notAdmitted] at admitted
          cases admitted
      | excluded _ rest => exact induction rest

/-! ## What takes the place of a spread -/

/-- Fields that may take the place of the spread of a name. -/
def Replaces (document : Document) (type : Option String) (name : String)
    (fields : List Field) : Prop :=
  match document.applicableFragment? name type with
  | none => fields = []
  | some fragment => FieldsOf document type fragment.selections fields

theorem Replaces.cons
    {name : String}
    {inner fields : List Field}
    (replaces : Replaces document type name inner)
    (directives : List (Directive Argument))
    {selections : List (Selection Argument)}
    (others : FieldsOf document type selections fields) :
    FieldsOf document type (.spread name directives :: selections) (inner ++ fields) := by
  rw [Replaces] at replaces
  split at replaces
  case h_1 appliesNone =>
    cases replaces
    exact .unknown appliesNone others
  case h_2 fragment applies => exact .spread applies replaces others

mutual

theorem fieldsOf_selectionFields
    {spread : String → List Field} :
    ∀ (selection : Selection Argument)
      (_ : ∀ name ∈ selection.spreadNames, Replaces document type name (spread name))
      {selections : List (Selection Argument)} {fields : List Field},
      FieldsOf document type selections fields →
        FieldsOf document type (selection :: selections)
          (selectionFields type spread selection ++ fields)
  | .field alternative name arguments directives own, _, _, _, others => by
      rw [selectionFields]
      exact .field others
  | .spread name directives, replaces, _, _, others => by
      rw [selectionFields]
      exact (replaces name (by simp [Selection.spreadNames])).cons directives others
  | .inline condition directives own, replaces, _, _, others => by
      rw [selectionFields]
      split
      case isTrue admitted =>
        refine .inline admitted ?_ others
        exact fieldsOf_selectionSetFields own (by simpa [Selection.spreadNames] using replaces)
      case isFalse notAdmitted =>
        exact .excluded (by simpa using notAdmitted) others

/-- Spreads that are replaced one by one make up the fields of a selection set. -/
theorem fieldsOf_selectionSetFields
    {spread : String → List Field} :
    ∀ (selections : List (Selection Argument))
      (_ : ∀ name ∈ Selection.spreadNamesOf selections,
        Replaces document type name (spread name)),
      FieldsOf document type selections (selectionSetFields type spread selections)
  | [], _ => by
      rw [selectionSetFields]
      exact .nil
  | selection :: selections, replaces => by
      rw [selectionSetFields]
      rw [Selection.spreadNamesOf] at replaces
      refine fieldsOf_selectionFields selection ?_ (fieldsOf_selectionSetFields selections ?_)
      · intro name isSpread
        exact replaces name (List.mem_append_left _ isSpread)
      · intro name isSpread
        exact replaces name (List.mem_append_right _ isSpread)

end

/-! ## The depth -/

/-- The fragments with names in an order. -/
def spreadable (document : Document) (order : List String) : List (Fragment Argument) :=
  document.fragments.filter (·.name ∈ order)

theorem length_spreadable_lt
    {fragment : Fragment Argument}
    (isFragment : fragment ∈ document.fragments)
    {below order : List String}
    (isName : fragment.name ∈ order)
    (notBelow : fragment.name ∉ below)
    (subset : below ⊆ order) :
    (spreadable document below).length < (spreadable document order).length := by
  have filtered : spreadable document below =
      (spreadable document order).filter (·.name ∈ below) := by
    rw [spreadable, spreadable, List.filter_filter]
    apply List.filter_congr
    intro other _
    by_cases isBelow : other.name ∈ below
    · simp [isBelow, subset isBelow]
    · simp [isBelow]
  rw [filtered, List.length_filter_lt_length_iff_exists]
  refine ⟨fragment, ?_, by simpa using notBelow⟩
  exact List.mem_filter.mpr ⟨isFragment, by simpa using isName⟩

/-- Has a fragment the name, and the type if there is one? -/
def Suits {α : Type} (name : String) (type : Option String) (fragment : Fragment α) : Prop :=
  fragment.name = name ∧ ∀ condition, type = some condition → fragment.condition = condition

theorem isApplicable_iff
    {α : Type}
    {name : String}
    {type : Option String}
    {fragment : Fragment α} :
    isApplicable name type fragment = true ↔ Suits name type fragment := by
  rw [isApplicable, Bool.and_eq_true, beq_iff_eq, Suits]
  cases type with
  | none => simp [admits]
  | some condition => simp [admits]

theorem applicableFragment?_eq_some
    {name : String}
    {fragment : Fragment Argument}
    (applies : document.applicableFragment? name type = some fragment) :
    fragment ∈ document.fragments ∧ fragment.name = name := by
  exact ⟨List.mem_of_find?_eq_some applies, (isApplicable_iff.mp (List.find?_some applies)).1⟩

/-- What a fragment spreads stands below its name in the order of all names. -/
theorem exists_below_of_applies
    {order : List String}
    (ordered : SpreadGraph.Ordered document.fragments order)
    {name : String}
    (inOrder : name ∈ document.fragments.map (·.name) → name ∈ order)
    {fragment : Fragment Argument}
    (applies : document.applicableFragment? name type = some fragment) :
    name ∈ order ∧
      ∃ below, SpreadGraph.Ordered document.fragments below ∧ below ⊆ order ∧ name ∉ below ∧
        Selection.spreadNamesOf fragment.selections ⊆ below := by
  obtain ⟨isFragment, isNamed⟩ := applicableFragment?_eq_some applies
  have isName := inOrder (List.mem_map.mpr ⟨fragment, isFragment, isNamed⟩)
  obtain ⟨below, belowOrdered, leadsBelow, subset, notBelow⟩ := ordered.exists_below isName
  refine ⟨isName, below, belowOrdered, subset, notBelow, ?_⟩
  intro next isNext
  exact leadsBelow (SpreadGraph.mem_successors isFragment isNamed isNext)

/-- A depth that exceeds the number of fragments that can be spread is enough. -/
theorem fieldsOf_fieldsToDepth
    {order : List String}
    (ordered : SpreadGraph.Ordered document.fragments order)
    {depth : Nat}
    {selections : List (Selection Argument)}
    (spreads :
      ∀ name ∈ Selection.spreadNamesOf selections,
        name ∈ document.fragments.map (·.name) → name ∈ order)
    (enough : (spreadable document order).length < depth) :
    FieldsOf document type selections (fieldsToDepth document type depth selections) := by
  induction depth generalizing order selections with
  | zero => cases enough
  | succ depth induction =>
      rw [fieldsToDepth]
      apply fieldsOf_selectionSetFields
      intro name isSpread
      rw [Replaces]
      cases applies : document.applicableFragment? name type with
      | none => rfl
      | some fragment =>
          obtain ⟨isName, below, belowOrdered, subset, notBelow, spreadsBelow⟩ :=
            exists_below_of_applies ordered (spreads name isSpread) applies
          obtain ⟨isFragment, isNamed⟩ := applicableFragment?_eq_some applies
          subst isNamed
          apply induction belowOrdered
          · intro next isNext _
            exact spreadsBelow isNext
          · have fewer := length_spreadable_lt isFragment isName notBelow subset
            omega

/-- The fields that apply to an object are those of the selection set for its type. -/
theorem fieldsOf_applicableFields
    (accepted : SpreadGraph.check document.fragments = .ok ())
    (parent : Option String)
    (members : List (String × Json.Value))
    (selections : List (Selection Argument)) :
    FieldsOf document (discriminator members parent) selections
      (applicableFields document parent members selections) := by
  obtain ⟨order, ordered, complete⟩ := SpreadGraph.exists_ordered_of_check accepted
  refine fieldsOf_fieldsToDepth ordered ?_ ?_
  · intro name _ isName
    exact complete isName
  · exact Nat.lt_succ_of_le (List.length_filter_le ..)

theorem fieldsOf_iff_applicableFields
    (accepted : SpreadGraph.check document.fragments = .ok ())
    {parent : Option String}
    {members : List (String × Json.Value)}
    {selections : List (Selection Argument)}
    {fields : List Field} :
    FieldsOf document (discriminator members parent) selections fields ↔
      fields = applicableFields document parent members selections := by
  have applicable := fieldsOf_applicableFields accepted parent members selections
  constructor
  · intro areFields
    exact areFields.unique applicable
  · rintro rfl
    exact applicable

end QueryGateway.Projection
