import Mathlib.Data.List.Forall2
import Mathlib.Data.Option.Basic
import QueryGateway.Proofs.Query.SpreadGraph
import QueryGateway.Proofs.Result

/-!
# Fragments in the place of their spreads

A spread of a fragment whose name is its own may be replaced by an inline
fragment with the type condition and the selections of the fragment, and an
inline fragment without a type condition by its own selections.  `Inlining`
replaces any of them, as many as one likes at once, at any depth, and also in
what has taken the place of a spread.

What is replaced in definitions as they are written is replaced in the document
that they are evaluated to.  The document is still one whose fragments do not
lead back to themselves: every name that is spread in it was led to before.
-/

namespace QueryGateway.Query

/-! ## Replacing spreads and inline fragments -/

/-- Some spreads and inline fragments of a selection set are replaced. -/
inductive Inlining {α : Type} (fragments : List (Fragment α)) :
    List (Selection α) → List (Selection α) → Prop where
  | nil : Inlining fragments [] []
  | leaf
      {alternative : Option String}
      {name : String}
      {arguments : List α}
      {directives : List (Directive α)}
      {selections others : List (Selection α)}
      (rest : Inlining fragments selections others) :
      Inlining fragments
        (.field alternative name arguments directives none :: selections)
        (.field alternative name arguments directives none :: others)
  | field
      {alternative : Option String}
      {name : String}
      {arguments : List α}
      {directives : List (Directive α)}
      {own inlined selections others : List (Selection α)}
      (inside : Inlining fragments own inlined)
      (rest : Inlining fragments selections others) :
      Inlining fragments
        (.field alternative name arguments directives (some own) :: selections)
        (.field alternative name arguments directives (some inlined) :: others)
  | spread
      {name : String}
      {directives : List (Directive α)}
      {selections others : List (Selection α)}
      (rest : Inlining fragments selections others) :
      Inlining fragments (.spread name directives :: selections) (.spread name directives :: others)
  /-- The only fragment of the name is put in its place; the directives may be kept. -/
  | replaced
      {fragment : Fragment α}
      {directives kept : List (Directive α)}
      {inlined selections others : List (Selection α)}
      (isOnly : fragments.filter (·.name = fragment.name) = [fragment])
      (keeps : kept = [] ∨ kept = directives)
      (inside : Inlining fragments fragment.selections inlined)
      (rest : Inlining fragments selections others) :
      Inlining fragments
        (.spread fragment.name directives :: selections)
        (.inline (some fragment.condition) kept inlined :: others)
  | inline
      {condition : Option String}
      {directives : List (Directive α)}
      {own inlined selections others : List (Selection α)}
      (inside : Inlining fragments own inlined)
      (rest : Inlining fragments selections others) :
      Inlining fragments
        (.inline condition directives own :: selections)
        (.inline condition directives inlined :: others)
  /-- Without a condition, the selections stand for themselves. -/
  | dissolved
      {directives : List (Directive α)}
      {own inlined selections others : List (Selection α)}
      (inside : Inlining fragments own inlined)
      (rest : Inlining fragments selections others) :
      Inlining fragments (.inline none directives own :: selections) (inlined ++ others)

/-- A field with some spreads and inline fragments replaced in its selection set. -/
def Field.Inlines (fragments : List (Fragment Argument)) (field other : Field) : Prop :=
  ∃ selections, Option.Rel (Inlining fragments) field.selections selections ∧
    other = { field with selections }

/-- An operation with some spreads and inline fragments replaced. -/
def Operation.Inlines {α : Type} (fragments : List (Fragment α)) (operation other : Operation α) :
    Prop :=
  ∃ selections, Inlining fragments operation.selections selections ∧
    other = { operation with selections }

/-- A fragment with some spreads and inline fragments replaced. -/
def Fragment.Inlines {α : Type} (fragments : List (Fragment α)) (fragment other : Fragment α) :
    Prop :=
  ∃ selections, Inlining fragments fragment.selections selections ∧
    other = { fragment with selections }

/-- A definition with some spreads and inline fragments replaced. -/
inductive Definition.Inlines {α : Type} (fragments : List (Fragment α)) :
    Definition α → Definition α → Prop where
  | operation
      {operation other : Operation α}
      (inlines : operation.Inlines fragments other) :
      Definition.Inlines fragments (.operation operation) (.operation other)
  | fragment
      {fragment other : Fragment α}
      (inlines : fragment.Inlines fragments other) :
      Definition.Inlines fragments (.fragment fragment) (.fragment other)

/-- The fragment that a definition is, if it is one. -/
def Definition.fragment? {α : Type} : Definition α → Option (Fragment α)
  | .operation _ => none
  | .fragment own => some own

/-- Definitions in which some spreads and inline fragments are replaced. -/
def InlinesAll {α : Type} (definitions others : List (Definition α)) : Prop :=
  List.Forall₂ (Definition.Inlines (definitions.filterMap (·.fragment?))) definitions others

/-- A document in which some spreads and inline fragments are replaced. -/
structure Document.Inlines (document other : Document) : Prop where
  operations :
    List.Forall₂ (Operation.Inlines document.fragments) document.operations other.operations
  fragments :
    List.Forall₂ (Fragment.Inlines document.fragments) document.fragments other.fragments

section

variable
    {α : Type}
    {fragments : List (Fragment α)}

mutual

theorem Inlining.cons_refl :
    ∀ (selection : Selection α) {selections others : List (Selection α)},
      Inlining fragments selections others →
        Inlining fragments (selection :: selections) (selection :: others)
  | .field _ _ _ _ none, _, _, rest => .leaf rest
  | .field _ _ _ _ (some selections), _, _, rest => .field (Inlining.refl selections) rest
  | .spread _ _, _, _, rest => .spread rest
  | .inline _ _ selections, _, _, rest => .inline (Inlining.refl selections) rest

/-- Nothing has to be replaced. -/
theorem Inlining.refl :
    ∀ selections : List (Selection α), Inlining fragments selections selections
  | [] => .nil
  | selection :: selections => Inlining.cons_refl selection (Inlining.refl selections)

end

theorem mem_of_isOnly
    {fragment : Fragment α}
    (isOnly : fragments.filter (·.name = fragment.name) = [fragment]) :
    fragment ∈ fragments := by
  have isFiltered : fragment ∈ fragments.filter (·.name = fragment.name) := by
    rw [isOnly]
    exact List.mem_cons_self
  exact (List.mem_filter.mp isFiltered).1

/-! ## Fragments stay in order -/

theorem spreadNamesOf_append
    (selections others : List (Selection α)) :
    Selection.spreadNamesOf (selections ++ others) =
      Selection.spreadNamesOf selections ++ Selection.spreadNamesOf others := by
  induction selections with
  | nil => rfl
  | cons selection selections induction =>
      rw [List.cons_append, Selection.spreadNamesOf, Selection.spreadNamesOf, induction,
        List.append_assoc]

/-- What stands below in the order stays below, since a fragment spreads only what does. -/
theorem Inlining.spreadNamesOf_subset
    {selections others : List (Selection α)}
    (inlining : Inlining fragments selections others)
    {below : List String}
    (ordered : SpreadGraph.Ordered fragments below)
    (spreads : Selection.spreadNamesOf selections ⊆ below) :
    Selection.spreadNamesOf others ⊆ below := by
  induction inlining with
  | nil => exact spreads
  | leaf _ induction =>
      rw [Selection.spreadNamesOf, Selection.spreadNames, List.nil_append] at spreads ⊢
      exact induction spreads
  | field _ _ insideInduction induction =>
      rw [Selection.spreadNamesOf, Selection.spreadNames, List.append_subset] at spreads ⊢
      exact ⟨insideInduction spreads.1, induction spreads.2⟩
  | spread _ induction =>
      rw [Selection.spreadNamesOf, Selection.spreadNames, List.append_subset] at spreads ⊢
      exact ⟨spreads.1, induction spreads.2⟩
  | @replaced fragment _ _ _ _ _ isOnly _ _ _ insideInduction induction =>
      simp only [Selection.spreadNamesOf, Selection.spreadNames, List.append_subset] at spreads ⊢
      refine ⟨insideInduction ?_, induction spreads.2⟩
      obtain ⟨further, _, leadsFurther, subset, _⟩ :=
        ordered.exists_below (spreads.1 List.mem_cons_self)
      intro name isSpread
      exact subset (leadsFurther (SpreadGraph.mem_successors (mem_of_isOnly isOnly) rfl isSpread))
  | inline _ _ insideInduction induction =>
      rw [Selection.spreadNamesOf, Selection.spreadNames, List.append_subset] at spreads ⊢
      exact ⟨insideInduction spreads.1, induction spreads.2⟩
  | dissolved _ _ insideInduction induction =>
      rw [Selection.spreadNamesOf, Selection.spreadNames, List.append_subset] at spreads
      rw [spreadNamesOf_append, List.append_subset]
      exact ⟨insideInduction spreads.1, induction spreads.2⟩

end

theorem names_of_inlines
    {α : Type}
    {fragments others all : List (Fragment α)}
    (inlines : List.Forall₂ (Fragment.Inlines all) fragments others) :
    others.map (·.name) = fragments.map (·.name) := by
  induction inlines with
  | nil => rfl
  | cons first _ induction =>
      obtain ⟨_, _, rfl⟩ := first
      rw [List.map_cons, List.map_cons, induction]

theorem successors_subset_of_inlines
    {α : Type}
    {fragments others : List (Fragment α)}
    (inlines : List.Forall₂ (Fragment.Inlines fragments) fragments others)
    {below : List String}
    (ordered : SpreadGraph.Ordered fragments below)
    {name : String}
    (leadsBelow : SpreadGraph.successors fragments name ⊆ below) :
    SpreadGraph.successors others name ⊆ below := by
  intro next isNext
  obtain ⟨other, isNamed, isSpread⟩ := List.mem_flatMap.mp isNext
  obtain ⟨isOther, isNamed⟩ := List.mem_filter.mp isNamed
  obtain ⟨index, isIndex, rfl⟩ := List.getElem_of_mem isOther
  obtain ⟨sameLength, each⟩ := List.forall₂_iff_get.mp inlines
  obtain ⟨selections, inlining, isRewritten⟩ := each index (sameLength ▸ isIndex) isIndex
  rw [List.get_eq_getElem, List.get_eq_getElem] at isRewritten
  rw [isRewritten] at isSpread isNamed
  refine inlining.spreadNamesOf_subset ordered ?_ isSpread
  intro spreadName isSpreadName
  exact leadsBelow (SpreadGraph.mem_successors (List.getElem_mem _) (by simpa using isNamed)
    isSpreadName)

/-- Fragments that do not lead back to themselves still do not when spreads are replaced. -/
theorem check_of_inlines
    {α : Type}
    {fragments others : List (Fragment α)}
    (inlines : List.Forall₂ (Fragment.Inlines fragments) fragments others)
    (accepted : SpreadGraph.check fragments = .ok ()) :
    SpreadGraph.check others = .ok () := by
  obtain ⟨order, ordered, complete⟩ := SpreadGraph.exists_ordered_of_check accepted
  have stillOrdered : ∀ below, SpreadGraph.Ordered fragments below →
      SpreadGraph.Ordered others below := by
    intro below
    induction below with
    | nil => exact fun _ => trivial
    | cons name rest induction =>
        rintro ⟨leadsBelow, ordered⟩
        exact ⟨successors_subset_of_inlines inlines ordered leadsBelow, induction ordered⟩
  refine SpreadGraph.check_of_ordered (stillOrdered order ordered) ?_
  rw [names_of_inlines inlines]
  exact complete

/-! ## Evaluation -/

theorem evaluateSelections_cons_eq_ok_iff
    {selection : Selection WrittenArgument}
    {selections : List (Selection WrittenArgument)}
    {results : List (Selection Argument)} :
    evaluateSelections (selection :: selections) = .ok results ↔
      ∃ first rest, evaluateSelection selection = .ok first ∧
        evaluateSelections selections = .ok rest ∧ results = first :: rest := by
  rw [evaluateSelections, bind_eq_ok]
  refine exists_congr fun first => ?_
  rw [bind_eq_ok]
  constructor
  · rintro ⟨isFirst, rest, isRest, result⟩
    cases result
    exact ⟨rest, isFirst, isRest, rfl⟩
  · rintro ⟨rest, isFirst, isRest, rfl⟩
    exact ⟨isFirst, rest, isRest, rfl⟩

theorem evaluateSelections_append
    {selections others : List (Selection WrittenArgument)}
    {results otherResults : List (Selection Argument)}
    (evaluates : evaluateSelections selections = .ok results)
    (evaluatesOthers : evaluateSelections others = .ok otherResults) :
    evaluateSelections (selections ++ others) = .ok (results ++ otherResults) := by
  induction selections generalizing results with
  | nil =>
      cases evaluates
      exact evaluatesOthers
  | cons selection selections induction =>
      obtain ⟨first, rest, isFirst, isRest, rfl⟩ := evaluateSelections_cons_eq_ok_iff.mp evaluates
      exact evaluateSelections_cons_eq_ok_iff.mpr
        ⟨first, rest ++ otherResults, isFirst, induction isRest, rfl⟩

theorem evaluateSelection_field_eq_ok_iff
    {alternative : Option String}
    {name : String}
    {arguments : List WrittenArgument}
    {directives : List (Directive WrittenArgument)}
    {selections : List (Selection WrittenArgument)}
    {result : Selection Argument} :
    evaluateSelection (.field alternative name arguments directives (some selections)) =
        .ok result ↔
      ∃ own, evaluateSelections selections = .ok own ∧
        ∃ values, arguments.mapM evaluateArgument = .ok values ∧
          ∃ ofDirectives, directives.mapM evaluateDirective = .ok ofDirectives ∧
            .field alternative name values ofDirectives (some own) = result := by
  simp only [evaluateSelection, bind_eq_ok, pure, Except.pure, Except.ok.injEq]

theorem evaluateSelection_spread_eq_ok_iff
    {name : String}
    {directives : List (Directive WrittenArgument)}
    {result : Selection Argument} :
    evaluateSelection (.spread name directives) = .ok result ↔
      ∃ ofDirectives, directives.mapM evaluateDirective = .ok ofDirectives ∧
        .spread name ofDirectives = result := by
  simp only [evaluateSelection, bind_eq_ok, pure, Except.pure, Except.ok.injEq]

theorem evaluateSelection_inline_eq_ok_iff
    {condition : Option String}
    {directives : List (Directive WrittenArgument)}
    {selections : List (Selection WrittenArgument)}
    {result : Selection Argument} :
    evaluateSelection (.inline condition directives selections) = .ok result ↔
      ∃ ofDirectives, directives.mapM evaluateDirective = .ok ofDirectives ∧
        ∃ own, evaluateSelections selections = .ok own ∧
          .inline condition ofDirectives own = result := by
  simp only [evaluateSelection, bind_eq_ok, pure, Except.pure, Except.ok.injEq]

/-- A fragment and what it is evaluated to. -/
def Evaluates (fragment : Fragment WrittenArgument) (result : Fragment Argument) : Prop :=
  evaluateFragment fragment = .ok result

theorem evaluates_iff
    {fragment : Fragment WrittenArgument}
    {result : Fragment Argument} :
    Evaluates fragment result ↔
      ∃ directives, fragment.directives.mapM evaluateDirective = .ok directives ∧
        ∃ selections, evaluateSelections fragment.selections = .ok selections ∧
          ⟨fragment.name, fragment.condition, directives, selections⟩ = result := by
  simp only [Evaluates, evaluateFragment, bind_eq_ok, pure, Except.pure, Except.ok.injEq]

/-- The only fragment of a name is evaluated to the only one of the name. -/
theorem exists_isOnly
    {fragments : List (Fragment WrittenArgument)}
    {results : List (Fragment Argument)}
    (evaluate : List.Forall₂ Evaluates fragments results)
    {fragment : Fragment WrittenArgument}
    (isOnly : fragments.filter (·.name = fragment.name) = [fragment]) :
    ∃ result, Evaluates fragment result ∧ result.name = fragment.name ∧
      results.filter (·.name = result.name) = [result] := by
  have sameName : ∀ {fragment result}, Evaluates fragment result → result.name = fragment.name := by
    intro fragment result evaluates
    obtain ⟨_, _, _, _, rfl⟩ := evaluates_iff.mp evaluates
    rfl
  have filtered : List.Forall₂ Evaluates (fragments.filter (·.name = fragment.name))
      (results.filter (·.name = fragment.name)) := by
    refine List.rel_filter ?_ evaluate
    intro other result evaluates
    simp [sameName evaluates]
  rw [isOnly] at filtered
  generalize others : results.filter (·.name = fragment.name) = found at filtered
  cases filtered with
  | cons evaluates none =>
      cases none
      exact ⟨_, evaluates, sameName evaluates, sameName evaluates ▸ others⟩

section

variable
    {fragments : List (Fragment WrittenArgument)}
    {results : List (Fragment Argument)}

/-- Selections in which something is replaced are evaluated as they are, with the same replaced. -/
theorem Inlining.exists_evaluateSelections
    (evaluate : List.Forall₂ Evaluates fragments results)
    {selections others : List (Selection WrittenArgument)}
    (inlining : Inlining fragments selections others)
    {evaluated : List (Selection Argument)}
    (evaluates : evaluateSelections selections = .ok evaluated) :
    ∃ inlined, evaluateSelections others = .ok inlined ∧ Inlining results evaluated inlined := by
  induction inlining generalizing evaluated with
  | nil =>
      cases evaluates
      exact ⟨[], rfl, .nil⟩
  | leaf _ induction =>
      obtain ⟨first, rest, isFirst, isRest, rfl⟩ := evaluateSelections_cons_eq_ok_iff.mp evaluates
      obtain ⟨inlined, ofOthers, inlining⟩ := induction isRest
      refine ⟨first :: inlined, ?_, .cons_refl first inlining⟩
      exact evaluateSelections_cons_eq_ok_iff.mpr ⟨first, inlined, isFirst, ofOthers, rfl⟩
  | field _ _ insideInduction induction =>
      obtain ⟨first, rest, isFirst, isRest, rfl⟩ := evaluateSelections_cons_eq_ok_iff.mp evaluates
      obtain ⟨own, isOwn, values, areValues, ofDirectives, areDirectives, rfl⟩ :=
        evaluateSelection_field_eq_ok_iff.mp isFirst
      obtain ⟨inlined, ofOthers, inlining⟩ := induction isRest
      obtain ⟨inlinedOwn, ofOwn, inliningOwn⟩ := insideInduction isOwn
      refine ⟨_, evaluateSelections_cons_eq_ok_iff.mpr ⟨_, inlined, ?_, ofOthers, rfl⟩,
        .field inliningOwn inlining⟩
      exact evaluateSelection_field_eq_ok_iff.mpr
        ⟨inlinedOwn, ofOwn, values, areValues, ofDirectives, areDirectives, rfl⟩
  | spread _ induction =>
      obtain ⟨first, rest, isFirst, isRest, rfl⟩ := evaluateSelections_cons_eq_ok_iff.mp evaluates
      obtain ⟨inlined, ofOthers, inlining⟩ := induction isRest
      refine ⟨first :: inlined, ?_, .cons_refl first inlining⟩
      exact evaluateSelections_cons_eq_ok_iff.mpr ⟨first, inlined, isFirst, ofOthers, rfl⟩
  | @replaced fragment directives kept _ _ _ isOnly keeps _ _ insideInduction induction =>
      obtain ⟨first, rest, isFirst, isRest, rfl⟩ := evaluateSelections_cons_eq_ok_iff.mp evaluates
      obtain ⟨ofDirectives, areDirectives, rfl⟩ := evaluateSelection_spread_eq_ok_iff.mp isFirst
      obtain ⟨result, evaluatesTo, sameName, resultIsOnly⟩ := exists_isOnly evaluate isOnly
      obtain ⟨_, _, own, isOwn, rfl⟩ := evaluates_iff.mp evaluatesTo
      obtain ⟨inlined, ofOthers, inlining⟩ := induction isRest
      obtain ⟨inlinedOwn, ofOwn, inliningOwn⟩ := insideInduction isOwn
      have exists_kept : ∃ ofKept, kept.mapM evaluateDirective = .ok ofKept ∧
          (ofKept = [] ∨ ofKept = ofDirectives) := by
        rcases keeps with rfl | rfl
        · exact ⟨[], rfl, .inl rfl⟩
        · exact ⟨ofDirectives, areDirectives, .inr rfl⟩
      obtain ⟨ofKept, isKept, keepsResult⟩ := exists_kept
      refine ⟨_, evaluateSelections_cons_eq_ok_iff.mpr ⟨_, inlined, ?_, ofOthers, rfl⟩,
        .replaced resultIsOnly keepsResult inliningOwn inlining⟩
      exact evaluateSelection_inline_eq_ok_iff.mpr ⟨ofKept, isKept, inlinedOwn, ofOwn, rfl⟩
  | inline _ _ insideInduction induction =>
      obtain ⟨first, rest, isFirst, isRest, rfl⟩ := evaluateSelections_cons_eq_ok_iff.mp evaluates
      obtain ⟨ofDirectives, areDirectives, own, isOwn, rfl⟩ :=
        evaluateSelection_inline_eq_ok_iff.mp isFirst
      obtain ⟨inlined, ofOthers, inlining⟩ := induction isRest
      obtain ⟨inlinedOwn, ofOwn, inliningOwn⟩ := insideInduction isOwn
      refine ⟨_, evaluateSelections_cons_eq_ok_iff.mpr ⟨_, inlined, ?_, ofOthers, rfl⟩,
        .inline inliningOwn inlining⟩
      exact evaluateSelection_inline_eq_ok_iff.mpr
        ⟨ofDirectives, areDirectives, inlinedOwn, ofOwn, rfl⟩
  | dissolved _ _ insideInduction induction =>
      obtain ⟨first, rest, isFirst, isRest, rfl⟩ := evaluateSelections_cons_eq_ok_iff.mp evaluates
      obtain ⟨ofDirectives, _, own, isOwn, rfl⟩ := evaluateSelection_inline_eq_ok_iff.mp isFirst
      obtain ⟨inlined, ofOthers, inlining⟩ := induction isRest
      obtain ⟨inlinedOwn, ofOwn, inliningOwn⟩ := insideInduction isOwn
      exact ⟨inlinedOwn ++ inlined, evaluateSelections_append ofOwn ofOthers,
        .dissolved inliningOwn inlining⟩

theorem Operation.Inlines.exists_evaluateOperation
    (evaluate : List.Forall₂ Evaluates fragments results)
    {operation other : Operation WrittenArgument}
    (inlines : operation.Inlines fragments other)
    {evaluated : Operation Argument}
    (evaluates : evaluateOperation operation = .ok evaluated) :
    ∃ inlined, evaluateOperation other = .ok inlined ∧ evaluated.Inlines results inlined := by
  obtain ⟨_, inlining, rfl⟩ := inlines
  simp only [evaluateOperation, bind_eq_ok, pure, Except.pure, Except.ok.injEq] at evaluates
  obtain ⟨directives, areDirectives, _, areSelections, rfl⟩ := evaluates
  obtain ⟨inlined, ofOthers, inlining⟩ := inlining.exists_evaluateSelections evaluate areSelections
  refine ⟨⟨operation.kind, operation.name, directives, inlined⟩, ?_, inlined, inlining, rfl⟩
  simp only [evaluateOperation, bind_eq_ok, pure, Except.pure, Except.ok.injEq]
  exact ⟨directives, areDirectives, inlined, ofOthers, rfl⟩

theorem Fragment.Inlines.exists_evaluates
    (evaluate : List.Forall₂ Evaluates fragments results)
    {fragment other : Fragment WrittenArgument}
    (inlines : fragment.Inlines fragments other)
    {evaluated : Fragment Argument}
    (evaluates : Evaluates fragment evaluated) :
    ∃ inlined, Evaluates other inlined ∧ evaluated.Inlines results inlined := by
  obtain ⟨_, inlining, rfl⟩ := inlines
  obtain ⟨directives, areDirectives, _, areSelections, rfl⟩ := evaluates_iff.mp evaluates
  obtain ⟨inlined, ofOthers, inlining⟩ := inlining.exists_evaluateSelections evaluate areSelections
  refine ⟨⟨fragment.name, fragment.condition, directives, inlined⟩, ?_, inlined, inlining, rfl⟩
  exact evaluates_iff.mpr ⟨directives, areDirectives, inlined, ofOthers, rfl⟩

theorem evaluateDefinitions_operation_eq_ok_iff
    {operation : Operation WrittenArgument}
    {definitions : List (Definition WrittenArgument)}
    {document : Document} :
    evaluateDefinitions (.operation operation :: definitions) = .ok document ↔
      ∃ result, evaluateOperation operation = .ok result ∧
        ∃ rest, evaluateDefinitions definitions = .ok rest ∧
          { rest with operations := result :: rest.operations } = document := by
  simp only [evaluateDefinitions, bind_eq_ok, pure, Except.pure, Except.ok.injEq]

theorem evaluateDefinitions_fragment_eq_ok_iff
    {fragment : Fragment WrittenArgument}
    {definitions : List (Definition WrittenArgument)}
    {document : Document} :
    evaluateDefinitions (.fragment fragment :: definitions) = .ok document ↔
      ∃ result, Evaluates fragment result ∧
        ∃ rest, evaluateDefinitions definitions = .ok rest ∧
          { rest with fragments := result :: rest.fragments } = document := by
  simp only [Evaluates, evaluateDefinitions, bind_eq_ok, pure, Except.pure, Except.ok.injEq]

theorem forall₂_evaluates
    {definitions : List (Definition WrittenArgument)}
    {document : Document}
    (evaluates : evaluateDefinitions definitions = .ok document) :
    List.Forall₂ Evaluates (definitions.filterMap (·.fragment?)) document.fragments := by
  induction definitions generalizing document with
  | nil =>
      cases evaluates
      exact .nil
  | cons definition definitions induction =>
      cases definition with
      | operation operation =>
          obtain ⟨_, _, _, ofRest, rfl⟩ := evaluateDefinitions_operation_eq_ok_iff.mp evaluates
          have ofFragments := induction ofRest
          exact ofFragments
      | fragment fragment =>
          obtain ⟨_, ofFirst, _, ofRest, rfl⟩ := evaluateDefinitions_fragment_eq_ok_iff.mp evaluates
          exact .cons ofFirst (induction ofRest)

theorem exists_evaluateDefinitions
    (evaluate : List.Forall₂ Evaluates fragments results)
    {definitions others : List (Definition WrittenArgument)}
    (inlines : List.Forall₂ (Definition.Inlines fragments) definitions others)
    {document : Document}
    (evaluates : evaluateDefinitions definitions = .ok document) :
    ∃ inlined, evaluateDefinitions others = .ok inlined ∧
      List.Forall₂ (Operation.Inlines results) document.operations inlined.operations ∧
      List.Forall₂ (Fragment.Inlines results) document.fragments inlined.fragments := by
  induction inlines generalizing document with
  | nil =>
      cases evaluates
      exact ⟨⟨[], []⟩, rfl, .nil, .nil⟩
  | cons first _ induction =>
      cases first with
      | operation inlines =>
          obtain ⟨result, ofFirst, rest, ofRest, rfl⟩ :=
            evaluateDefinitions_operation_eq_ok_iff.mp evaluates
          obtain ⟨inlinedRest, ofOthers, operations, fragments⟩ := induction ofRest
          obtain ⟨inlined, ofInlined, inlines⟩ := inlines.exists_evaluateOperation evaluate ofFirst
          exact ⟨_, evaluateDefinitions_operation_eq_ok_iff.mpr
            ⟨inlined, ofInlined, inlinedRest, ofOthers, rfl⟩, .cons inlines operations, fragments⟩
      | fragment inlines =>
          obtain ⟨result, ofFirst, rest, ofRest, rfl⟩ :=
            evaluateDefinitions_fragment_eq_ok_iff.mp evaluates
          obtain ⟨inlinedRest, ofOthers, operations, fragments⟩ := induction ofRest
          obtain ⟨inlined, ofInlined, inlines⟩ := inlines.exists_evaluates evaluate ofFirst
          exact ⟨_, evaluateDefinitions_fragment_eq_ok_iff.mpr
            ⟨inlined, ofInlined, inlinedRest, ofOthers, rfl⟩, operations, .cons inlines fragments⟩

end

/-! ## Acceptance -/

/-- The definitions of a text as they are written, if it has any that can be read. -/
def writtenDefinitions? (text : String) : Option (List (Definition WrittenArgument)) :=
  (Token.list? text.toList).bind Grammar.definitions?

/-- A text is accepted if its definitions can be evaluated and do not lead back to themselves. -/
theorem Document.ofString_eq_ok_iff
    {text : String}
    {definitions : List (Definition WrittenArgument)}
    (written : writtenDefinitions? text = some definitions)
    {document : Document} :
    Document.ofString text = .ok document ↔
      evaluateDefinitions definitions = .ok document ∧
        SpreadGraph.check document.fragments = .ok () := by
  rw [writtenDefinitions?] at written
  simp only [Document.ofString, written, bind_eq_ok, pure, Except.pure, Except.ok.injEq]
  constructor
  · rintro ⟨_, evaluates, _, accepted, rfl⟩
    exact ⟨evaluates, accepted⟩
  · rintro ⟨evaluates, accepted⟩
    exact ⟨document, evaluates, (), accepted, rfl⟩

/--
If a text is accepted, then its definitions can still be evaluated when spreads
and inline fragments are replaced in them, and they still do not lead back to
themselves.
-/
theorem exists_inlined
    {text : String}
    {definitions others : List (Definition WrittenArgument)}
    (written : writtenDefinitions? text = some definitions)
    {document : Document}
    (accepted : Document.ofString text = .ok document)
    (inlines : InlinesAll definitions others) :
    ∃ inlined, evaluateDefinitions others = .ok inlined ∧ document.Inlines inlined ∧
      SpreadGraph.check inlined.fragments = .ok () := by
  obtain ⟨evaluates, checked⟩ := (Document.ofString_eq_ok_iff written).mp accepted
  obtain ⟨inlined, ofOthers, operations, fragments⟩ :=
    exists_evaluateDefinitions (forall₂_evaluates evaluates) inlines evaluates
  exact ⟨inlined, ofOthers, ⟨operations, fragments⟩, check_of_inlines fragments checked⟩

end QueryGateway.Query
