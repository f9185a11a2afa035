import QueryGateway.Query.Text

/-!
# What the search for cycles shows

Fragments that the search accepts, and only these, can be put in an order in
which every name stands before the names that its fragments spread.  Spreading
therefore comes to an end: it only ever leads further down in the order.

The names that the search has visited, the last one first, are in such an order
at any time.  The search never runs out of fuel, because the names on its path
are distinct names of fragments.
-/

namespace QueryGateway.Query

theorem spreadNames_subset
    {α : Type}
    {selection : Selection α}
    {selections : List (Selection α)}
    (isSelection : selection ∈ selections) :
    selection.spreadNames ⊆ Selection.spreadNamesOf selections := by
  induction selections with
  | nil => cases isSelection
  | cons first selections induction =>
      rw [Selection.spreadNamesOf]
      rcases List.mem_cons.mp isSelection with rfl | isLater
      · exact List.subset_append_left _ _
      · exact List.Subset.trans (induction isLater) (List.subset_append_right _ _)

namespace SpreadGraph

variable
    {α : Type}
    {fragments : List (Fragment α)}

/-- Every name stands before the names that it leads to. -/
def Ordered (fragments : List (Fragment α)) : List String → Prop
  | [] => True
  | name :: rest => successors fragments name ⊆ rest ∧ Ordered fragments rest

/-- What has become of the visited names when some more names have been visited. -/
structure Extends (fragments : List (Fragment α)) (visited names later : List String) : Prop where
  ordered : Ordered fragments later
  keeps : visited ⊆ later
  adds : names ⊆ later

theorem mem_names_of_mem_successors
    {name next : String}
    (isNext : next ∈ successors fragments name) :
    name ∈ fragments.map (·.name) := by
  rw [successors, List.mem_flatMap] at isNext
  obtain ⟨fragment, isNamed, _⟩ := isNext
  rw [List.mem_filter, decide_eq_true_iff] at isNamed
  exact List.mem_map.mpr ⟨fragment, isNamed⟩

theorem mem_successors
    {fragment : Fragment α}
    (isFragment : fragment ∈ fragments)
    {name next : String}
    (isNamed : fragment.name = name)
    (isNext : next ∈ Selection.spreadNamesOf fragment.selections) :
    next ∈ successors fragments name := by
  refine List.mem_flatMap.mpr ⟨fragment, ?_, isNext⟩
  exact List.mem_filter.mpr ⟨isFragment, by simpa using isNamed⟩

/-- Behind the last place of a name stands all that it leads to, but not the name itself. -/
theorem Ordered.exists_below
    {order : List String}
    (ordered : Ordered fragments order)
    {name : String}
    (isName : name ∈ order) :
    ∃ below, Ordered fragments below ∧ successors fragments name ⊆ below ∧
      below ⊆ order ∧ name ∉ below := by
  induction order with
  | nil => cases isName
  | cons first rest induction =>
      by_cases again : name ∈ rest
      · obtain ⟨below, belowOrdered, leadsBelow, subset, notBelow⟩ := induction ordered.2 again
        exact ⟨below, belowOrdered, leadsBelow, List.subset_cons_of_subset first subset, notBelow⟩
      · have isFirst : name = first := (List.mem_cons.mp isName).resolve_right again
        subst isFirst
        exact ⟨rest, ordered.2, ordered.1, List.subset_cons_self name rest, again⟩

/-- What one name leads to extends the visited names; so do several names one after another. -/
theorem extends_foldlM
    {step : List String → String → Except QueryError (List String)}
    {names : List String}
    (spec :
      ∀ name ∈ names, ∀ visited later, Ordered fragments visited →
        step visited name = .ok later → Extends fragments visited [name] later)
    {visited later : List String}
    (ordered : Ordered fragments visited)
    (folded : names.foldlM step visited = .ok later) :
    Extends fragments visited names later := by
  induction names generalizing visited with
  | nil =>
      cases folded
      exact ⟨ordered, List.Subset.refl _, List.nil_subset _⟩
  | cons name names induction =>
      rw [List.foldlM_cons] at folded
      cases first : step visited name with
      | error error =>
          rw [first] at folded
          cases folded
      | ok between =>
          rw [first] at folded
          have ofFirst := spec name List.mem_cons_self visited between ordered first
          have ofNames := induction
            (fun name isName => spec name (List.mem_cons_of_mem _ isName)) ofFirst.ordered folded
          refine ⟨ofNames.ordered, List.Subset.trans ofFirst.keeps ofNames.keeps, ?_⟩
          exact List.cons_subset.mpr
            ⟨ofNames.keeps (ofFirst.adds List.mem_cons_self), ofNames.adds⟩

/-- A path of distinct names of fragments is not longer than the list of fragments. -/
theorem length_le_of_distinct
    {path : List String}
    (distinct : path.Nodup)
    (defined : path ⊆ fragments.map (·.name)) :
    path.length ≤ fragments.length := by
  have notLonger := distinct.length_le_of_subset defined
  rwa [List.length_map] at notLonger

/-- Searching from a name extends the visited names. -/
theorem extends_visit
    {fuel : Nat}
    {path : List String}
    (enough : fragments.length + 2 ≤ fuel + path.length)
    (distinct : path.Nodup)
    (defined : path ⊆ fragments.map (·.name))
    {visited later : List String}
    {name : String}
    (ordered : Ordered fragments visited)
    (visits : visit fragments fuel path visited name = .ok later) :
    Extends fragments visited [name] later := by
  induction fuel generalizing path visited later name with
  | zero =>
      have notLonger := length_le_of_distinct distinct defined
      omega
  | succ fuel induction =>
      rw [visit] at visits
      split at visits
      case isTrue => cases visits
      case isFalse notOnPath =>
        split at visits
        case isTrue isVisited =>
          cases visits
          exact ⟨ordered, List.Subset.refl _, by simpa using isVisited⟩
        case isFalse =>
          cases folded : (successors fragments name).foldlM
              (visit fragments fuel (name :: path)) visited with
          | error error =>
              rw [folded] at visits
              cases visits
          | ok between =>
              rw [folded] at visits
              cases visits
              have distinctBelow : (name :: path).Nodup :=
                List.nodup_cons.mpr ⟨by simpa using notOnPath, distinct⟩
              have ofSuccessors : Extends fragments visited (successors fragments name) between := by
                refine extends_foldlM ?_ ordered folded
                intro next isNext seen after seenOrdered visitsNext
                have isDefined := mem_names_of_mem_successors isNext
                have enoughBelow : fragments.length + 2 ≤ fuel + (name :: path).length := by
                  rw [List.length_cons]
                  omega
                exact induction enoughBelow distinctBelow
                  (List.cons_subset.mpr ⟨isDefined, defined⟩) seenOrdered visitsNext
              refine ⟨⟨ofSuccessors.adds, ofSuccessors.ordered⟩, ?_, by simp⟩
              exact List.subset_cons_of_subset name ofSuccessors.keeps

/-- Fragments that are accepted can be put in order. -/
theorem exists_ordered_of_check
    (accepted : check fragments = .ok ()) :
    ∃ order, Ordered fragments order ∧ fragments.map (·.name) ⊆ order := by
  rw [check] at accepted
  cases folded : fragments.foldlM
      (fun visited fragment => visit fragments (fragments.length + 2) [] visited fragment.name)
      [] with
  | error error =>
      rw [folded] at accepted
      cases accepted
  | ok order =>
      have byName : (fragments.map (·.name)).foldlM
          (visit fragments (fragments.length + 2) []) [] = .ok order := by
        rw [List.foldlM_map]
        exact folded
      have extended : Extends fragments [] (fragments.map (·.name)) order := by
        refine extends_foldlM ?_ trivial byName
        intro name _ visited later ordered visits
        exact extends_visit (by simp) List.nodup_nil (List.nil_subset _) ordered visits
      exact ⟨order, extended.ordered, extended.adds⟩

/-! ## Fragments in order are accepted -/

theorem exists_foldlM
    {step : List String → String → Except QueryError (List String)}
    {names : List String}
    (succeeds : ∀ name ∈ names, ∀ visited, ∃ later, step visited name = .ok later)
    (visited : List String) :
    ∃ later, names.foldlM step visited = .ok later := by
  induction names generalizing visited with
  | nil => exact ⟨visited, rfl⟩
  | cons name names induction =>
      obtain ⟨ofFirst, ofNames⟩ := List.forall_mem_cons.mp succeeds
      obtain ⟨between, first⟩ := ofFirst visited
      obtain ⟨later, folded⟩ := induction ofNames between
      refine ⟨later, ?_⟩
      rw [List.foldlM_cons, first]
      exact folded

/-- A search that starts below its path in an order meets no name on the path. -/
theorem exists_visit
    {fuel : Nat}
    {path order : List String}
    (ordered : Ordered fragments order)
    (notBelow : ∀ name ∈ path, name ∉ order)
    {name : String}
    (isName : name ∈ order)
    (visited : List String) :
    ∃ later, visit fragments fuel path visited name = .ok later := by
  induction fuel generalizing path order name visited with
  | zero => exact ⟨visited, rfl⟩
  | succ fuel induction =>
      have notOnPath : name ∉ path := fun onPath => notBelow name onPath isName
      rw [visit]
      by_cases isVisited : name ∈ visited
      · exact ⟨visited, by simp [notOnPath, isVisited]⟩
      obtain ⟨below, belowOrdered, leadsBelow, subset, nameNotBelow⟩ := ordered.exists_below isName
      have pathNotBelow : ∀ other ∈ name :: path, other ∉ below := by
        refine List.forall_mem_cons.mpr ⟨nameNotBelow, ?_⟩
        intro other onPath isBelow
        exact notBelow other onPath (subset isBelow)
      have ofSuccessors : ∀ next ∈ successors fragments name, ∀ seen,
          ∃ later, visit fragments fuel (name :: path) seen next = .ok later :=
        fun next isNext => induction belowOrdered pathNotBelow (leadsBelow isNext)
      obtain ⟨later, folded⟩ := exists_foldlM ofSuccessors visited
      refine ⟨name :: later, ?_⟩
      simp [notOnPath, isVisited, folded, bind, Except.bind, pure, Except.pure]

/-- Fragments that can be put in order are accepted. -/
theorem check_of_ordered
    {order : List String}
    (ordered : Ordered fragments order)
    (complete : fragments.map (·.name) ⊆ order) :
    check fragments = .ok () := by
  have ofNames : ∀ name ∈ fragments.map (·.name), ∀ visited,
      ∃ later, visit fragments (fragments.length + 2) [] visited name = .ok later :=
    fun name isName => exists_visit ordered (by simp) (complete isName)
  obtain ⟨later, folded⟩ := exists_foldlM ofNames []
  rw [List.foldlM_map] at folded
  rw [check, folded]
  rfl

end SpreadGraph

/-- The fragments of a text that is read are accepted. -/
theorem Document.check_of_ofString
    {text : String}
    {document : Document}
    (parsed : Document.ofString text = .ok document) :
    SpreadGraph.check document.fragments = .ok () := by
  rw [Document.ofString] at parsed
  split at parsed
  case h_1 => cases parsed
  case h_2 definitions _ =>
    cases evaluated : evaluateDefinitions definitions with
    | error error =>
        rw [evaluated] at parsed
        cases parsed
    | ok read =>
        rw [evaluated] at parsed
        cases checked : SpreadGraph.check read.fragments with
        | error error =>
            simp only [bind, Except.bind, checked] at parsed
            cases parsed
        | ok =>
            simp only [bind, Except.bind, checked] at parsed
            cases parsed
            exact checked

end QueryGateway.Query
