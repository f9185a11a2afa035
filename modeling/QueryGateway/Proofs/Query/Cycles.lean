import Mathlib.Logic.Relation
import QueryGateway.Proofs.Query.SpreadGraph

/-!
# What the search for cycles decides

A name leads to another one if a fragment of the first name spreads the second
one, however deep below fields and in inline fragments.  Fragments of one name
are one node of this graph; what operations spread, and what directives refer
to, is no part of it.

Fragments are refused if and only if a name of one of them leads back to itself,
and the name that is reported is such a name.  The search comes to this decision
without a bound on its depth: `Searches` describes the same search with nothing
that counts its steps.
-/

namespace QueryGateway.Query.SpreadGraph

/-! ## The graph -/

/-- A name is spread in a selection set, or somewhere below one of its selections. -/
inductive SpreadIn {α : Type} (name : String) : List (Selection α) → Prop where
  | here
      {directives : List (Directive α)}
      {selections : List (Selection α)}
      (isSelection : .spread name directives ∈ selections) :
      SpreadIn name selections
  | field
      {alternative : Option String}
      {other : String}
      {arguments : List α}
      {directives : List (Directive α)}
      {own selections : List (Selection α)}
      (isSelection : .field alternative other arguments directives (some own) ∈ selections)
      (inside : SpreadIn name own) :
      SpreadIn name selections
  | inline
      {condition : Option String}
      {directives : List (Directive α)}
      {own selections : List (Selection α)}
      (isSelection : .inline condition directives own ∈ selections)
      (inside : SpreadIn name own) :
      SpreadIn name selections

/-- A fragment of a name spreads the next one. -/
def Leads {α : Type} (fragments : List (Fragment α)) (name next : String) : Prop :=
  ∃ fragment ∈ fragments, fragment.name = name ∧ SpreadIn next fragment.selections

/-- A name leads to itself in one or more steps. -/
def LeadsBack {α : Type} (fragments : List (Fragment α)) (name : String) : Prop :=
  Relation.TransGen (Leads fragments) name name

section

variable
    {α : Type}
    {name : String}

theorem SpreadIn.of_cons
    {selection : Selection α}
    {selections : List (Selection α)}
    (spread : SpreadIn name selections) :
    SpreadIn name (selection :: selections) := by
  cases spread with
  | here isSelection => exact .here (List.mem_cons_of_mem _ isSelection)
  | field isSelection inside => exact .field (List.mem_cons_of_mem _ isSelection) inside
  | inline isSelection inside => exact .inline (List.mem_cons_of_mem _ isSelection) inside

mutual

theorem spreadIn_of_mem_spreadNames :
    ∀ (selection : Selection α) (selections : List (Selection α)),
      name ∈ selection.spreadNames → SpreadIn name (selection :: selections)
  | .field _ _ _ _ none, _, isSpread => by simp [Selection.spreadNames] at isSpread
  | .field _ _ _ _ (some own), _, isSpread => by
      rw [Selection.spreadNames] at isSpread
      exact .field List.mem_cons_self (spreadIn_of_mem_spreadNamesOf own isSpread)
  | .spread _ _, _, isSpread => by
      rw [Selection.spreadNames, List.mem_singleton] at isSpread
      subst isSpread
      exact .here List.mem_cons_self
  | .inline _ _ own, _, isSpread => by
      rw [Selection.spreadNames] at isSpread
      exact .inline List.mem_cons_self (spreadIn_of_mem_spreadNamesOf own isSpread)

theorem spreadIn_of_mem_spreadNamesOf :
    ∀ (selections : List (Selection α)),
      name ∈ Selection.spreadNamesOf selections → SpreadIn name selections
  | [], isSpread => by simp [Selection.spreadNamesOf] at isSpread
  | selection :: selections, isSpread => by
      rw [Selection.spreadNamesOf, List.mem_append] at isSpread
      rcases isSpread with ofFirst | ofOthers
      · exact spreadIn_of_mem_spreadNames selection selections ofFirst
      · exact (spreadIn_of_mem_spreadNamesOf selections ofOthers).of_cons

end

/-- The names that are listed for a selection set are those that are spread in it. -/
theorem mem_spreadNamesOf_iff
    {selections : List (Selection α)} :
    name ∈ Selection.spreadNamesOf selections ↔ SpreadIn name selections := by
  constructor
  · exact spreadIn_of_mem_spreadNamesOf selections
  · intro spread
    induction spread with
    | here isSelection =>
        exact spreadNames_subset isSelection (by simp [Selection.spreadNames])
    | field isSelection _ induction =>
        exact spreadNames_subset isSelection (by simpa [Selection.spreadNames] using induction)
    | inline isSelection _ induction =>
        exact spreadNames_subset isSelection (by simpa [Selection.spreadNames] using induction)

variable
    {fragments : List (Fragment α)}

theorem mem_successors_iff
    {next : String} :
    next ∈ successors fragments name ↔ Leads fragments name next := by
  constructor
  · intro isNext
    rcases List.mem_flatMap.mp isNext with ⟨fragment, isNamed, isSpread⟩
    rw [List.mem_filter, decide_eq_true_iff] at isNamed
    exact ⟨fragment, isNamed.1, isNamed.2, mem_spreadNamesOf_iff.mp isSpread⟩
  · rintro ⟨fragment, isFragment, isNamed, spread⟩
    exact mem_successors isFragment isNamed (mem_spreadNamesOf_iff.mpr spread)

/-- Only names of fragments lead back to themselves. -/
theorem LeadsBack.mem_names
    (leadsBack : LeadsBack fragments name) :
    name ∈ fragments.map (·.name) := by
  rcases Relation.TransGen.head'_iff.mp leadsBack with ⟨next, leads, _⟩
  exact mem_names_of_mem_successors (mem_successors_iff.mpr leads)

/-! ## Names in order do not lead back -/

theorem Ordered.mem_of_leads
    {order : List String}
    (ordered : Ordered fragments order)
    {next : String}
    (leads : Leads fragments name next)
    (isName : name ∈ order) :
    next ∈ order := by
  rcases ordered.exists_below isName with ⟨below, _, leadsBelow, subset, _⟩
  exact subset (leadsBelow (mem_successors_iff.mpr leads))

theorem Ordered.mem_of_reaches
    {order : List String}
    (ordered : Ordered fragments order)
    {last : String}
    (reaches : Relation.ReflTransGen (Leads fragments) name last)
    (isName : name ∈ order) :
    last ∈ order := by
  induction reaches with
  | refl => exact isName
  | tail _ leads induction => exact ordered.mem_of_leads leads induction

/-- A name leads only to what stands below it in an order, where it is not found again. -/
theorem Ordered.not_leadsBack
    {order : List String}
    (ordered : Ordered fragments order)
    (isName : name ∈ order) :
    ¬ LeadsBack fragments name := by
  intro leadsBack
  rcases Relation.TransGen.head'_iff.mp leadsBack with ⟨next, leads, reaches⟩
  rcases ordered.exists_below isName with ⟨below, belowOrdered, leadsBelow, _, notBelow⟩
  apply notBelow
  apply belowOrdered.mem_of_reaches reaches
  exact leadsBelow (mem_successors_iff.mpr leads)

/-! ## What is reported leads back -/

theorem exists_error_of_foldlM
    {step : List String → String → Except QueryError (List String)}
    {names visited : List String}
    {error : QueryError}
    (fails : names.foldlM step visited = .error error) :
    ∃ name ∈ names, ∃ seen, step seen name = .error error := by
  induction names generalizing visited with
  | nil => cases fails
  | cons first names induction =>
      rw [List.foldlM_cons] at fails
      cases stepped : step visited first with
      | error other =>
          rw [stepped] at fails
          cases fails
          exact ⟨first, List.mem_cons_self, visited, stepped⟩
      | ok between =>
          rw [stepped] at fails
          rcases induction fails with ⟨name, isName, seen, stepFails⟩
          exact ⟨name, List.mem_cons_of_mem _ isName, seen, stepFails⟩

/-- Every name on the path leads to the one that is visited, which may be one of them. -/
theorem leadsBack_of_visit
    {fuel : Nat}
    {path visited : List String}
    (leadTo : ∀ earlier ∈ path, Relation.TransGen (Leads fragments) earlier name)
    {error : QueryError}
    (fails : visit fragments fuel path visited name = .error error) :
    ∃ reported, error = .fragmentCycle reported ∧ LeadsBack fragments reported := by
  induction fuel generalizing path visited name with
  | zero => cases fails
  | succ fuel induction =>
      rw [visit] at fails
      split at fails
      case isTrue onPath =>
        cases fails
        exact ⟨name, rfl, leadTo name (by simpa using onPath)⟩
      case isFalse =>
        split at fails
        case isTrue => cases fails
        case isFalse =>
          cases folded : (successors fragments name).foldlM
              (visit fragments fuel (name :: path)) visited with
          | ok later =>
              rw [folded] at fails
              cases fails
          | error other =>
              rw [folded] at fails
              cases fails
              rcases exists_error_of_foldlM folded with ⟨next, isNext, seen, visitFails⟩
              have leads := mem_successors_iff.mp isNext
              apply induction _ visitFails
              intro earlier onPath
              rcases List.mem_cons.mp onPath with rfl | onPath
              · exact .single leads
              · exact (leadTo earlier onPath).tail leads

theorem leadsBack_of_check
    {error : QueryError}
    (fails : check fragments = .error error) :
    ∃ name, error = .fragmentCycle name ∧ LeadsBack fragments name := by
  rw [check] at fails
  cases folded : fragments.foldlM
      (fun visited fragment => visit fragments (fragments.length + 2) [] visited fragment.name)
      [] with
  | ok later =>
      rw [folded] at fails
      cases fails
  | error other =>
      rw [folded] at fails
      cases fails
      rw [← List.foldlM_map] at folded
      rcases exists_error_of_foldlM folded with ⟨name, _, seen, visitFails⟩
      exact leadsBack_of_visit (by simp) visitFails

/-! ## The search without a bound -/

/--
Searching from names, one after another: what has been visited and what leads
to them, and what comes of it.  A name that is neither on the path nor visited
is entered, and the names it leads to are searched from with it on the path.
-/
inductive Searches (fragments : List (Fragment α)) :
    List String → List String → List String → Except QueryError (List String) → Prop where
  | done
      {path visited : List String} :
      Searches fragments path visited [] (.ok visited)
  | again
      {path visited names : List String}
      {name : String}
      (onPath : name ∈ path) :
      Searches fragments path visited (name :: names) (.error (.fragmentCycle name))
  | known
      {path visited names : List String}
      {name : String}
      {result : Except QueryError (List String)}
      (notOnPath : name ∉ path)
      (isVisited : name ∈ visited)
      (others : Searches fragments path visited names result) :
      Searches fragments path visited (name :: names) result
  | stops
      {path visited names : List String}
      {name : String}
      {error : QueryError}
      (notOnPath : name ∉ path)
      (notVisited : name ∉ visited)
      (inside :
        Searches fragments (name :: path) visited (successors fragments name) (.error error)) :
      Searches fragments path visited (name :: names) (.error error)
  | enters
      {path visited between names : List String}
      {name : String}
      {result : Except QueryError (List String)}
      (notOnPath : name ∉ path)
      (notVisited : name ∉ visited)
      (inside :
        Searches fragments (name :: path) visited (successors fragments name) (.ok between))
      (others : Searches fragments path (name :: between) names result) :
      Searches fragments path visited (name :: names) result

/--
The fuel is enough for all that is searched.  The induction is on the fuel, and
for each amount of it along the names that are still to be searched from.
-/
theorem searches_foldlM
    {fuel : Nat}
    {path names : List String}
    (enough : fragments.length + 2 ≤ fuel + path.length)
    (distinct : path.Nodup)
    (defined : names ≠ [] → path ⊆ fragments.map (·.name))
    (visited : List String) :
    Searches fragments path visited names (names.foldlM (visit fragments fuel path) visited) := by
  induction fuel generalizing path names visited with
  | zero =>
      cases names with
      | nil => exact .done
      | cons name names =>
          have notLonger := length_le_of_distinct distinct (defined (by simp))
          omega
  | succ fuel induction =>
      induction names generalizing visited with
      | nil => exact .done
      | cons name names ofOthers =>
          have pathDefined := defined (by simp)
          rw [List.foldlM_cons, visit]
          by_cases onPath : name ∈ path
          · simp only [List.contains_iff_mem.mpr onPath, if_true]
            exact .again onPath
          by_cases isVisited : name ∈ visited
          · simp only [List.contains_iff_mem, onPath, isVisited, if_true, if_false]
            exact .known onPath isVisited (ofOthers (fun _ => pathDefined) visited)
          have inside : Searches fragments (name :: path) visited (successors fragments name)
              ((successors fragments name).foldlM (visit fragments fuel (name :: path))
                visited) := by
            apply induction
            · rw [List.length_cons]
              omega
            · exact List.nodup_cons.mpr ⟨onPath, distinct⟩
            · intro leads
              rcases List.exists_mem_of_ne_nil _ leads with ⟨next, isNext⟩
              exact List.cons_subset.mpr ⟨mem_names_of_mem_successors isNext, pathDefined⟩
          simp only [List.contains_iff_mem, onPath, isVisited, if_false]
          cases folded : (successors fragments name).foldlM
              (visit fragments fuel (name :: path)) visited with
          | error error =>
              rw [folded] at inside
              exact .stops onPath isVisited inside
          | ok between =>
              rw [folded] at inside
              exact .enters onPath isVisited inside
                (ofOthers (fun _ => pathDefined) (name :: between))

theorem exists_searches
    (fragments : List (Fragment α)) :
    ∃ result, Searches fragments [] [] (fragments.map (·.name)) result ∧
      check fragments = result.map fun _ => () := by
  have enough : fragments.length + 2 ≤ fragments.length + 2 + ([] : List String).length := by
    simp
  refine ⟨_, searches_foldlM enough List.nodup_nil ?_ [], ?_⟩
  · intro _
    exact List.nil_subset _
  · rw [check, List.foldlM_map]
    cases fragments.foldlM
        (fun visited fragment => visit fragments (fragments.length + 2) [] visited fragment.name)
        [] <;> rfl

theorem check_eq_ok_iff :
    check fragments = .ok () ↔
      ∀ name ∈ fragments.map (·.name), ¬ LeadsBack fragments name := by
  constructor
  · intro accepted name isName
    rcases exists_ordered_of_check accepted with ⟨order, ordered, complete⟩
    exact ordered.not_leadsBack (complete isName)
  · intro noneLeadsBack
    cases checked : check fragments with
    | ok => rfl
    | error error =>
        rcases leadsBack_of_check checked with ⟨name, _, leadsBack⟩
        exact (noneLeadsBack name leadsBack.mem_names leadsBack).elim

/-- Where the graph is the same, so is the decision. -/
theorem check_eq_ok_of_same_graph
    {others : List (Fragment α)}
    (same : ∀ name next, Leads fragments name next ↔ Leads others name next)
    (accepted : check fragments = .ok ()) :
    check others = .ok () := by
  have sameGraph : Leads fragments = Leads others := by
    funext name next
    exact propext (same name next)
  rw [check_eq_ok_iff] at accepted ⊢
  intro name _ leadsBack
  rw [LeadsBack, ← sameGraph] at leadsBack
  exact accepted name (LeadsBack.mem_names leadsBack) leadsBack

end

/--
The search comes to an end for every document.  It accepts the document if and
only if no name of its fragments leads back to itself, and otherwise reports a
name that does.  So whatever else documents differ in, those with the same graph
are accepted or refused together.
-/
theorem check_decides
    (document : Document) :
    (∃ result,
      Searches document.fragments [] [] (document.fragments.map (·.name)) result ∧
        check document.fragments = result.map fun _ => ()) ∧
    (check document.fragments = .ok () ↔
      ∀ name ∈ document.fragments.map (·.name), ¬ LeadsBack document.fragments name) ∧
    (∀ error, check document.fragments = .error error →
      ∃ name, error = .fragmentCycle name ∧ LeadsBack document.fragments name) ∧
    ∀ other : Document,
      (∀ name next, Leads document.fragments name next ↔ Leads other.fragments name next) →
        (check document.fragments = .ok () ↔ check other.fragments = .ok ()) := by
  refine ⟨exists_searches document.fragments, check_eq_ok_iff, ?_, ?_⟩
  · intro error fails
    exact leadsBack_of_check fails
  · intro other same
    constructor
    · exact check_eq_ok_of_same_graph same
    · exact check_eq_ok_of_same_graph fun name next => (same name next).symm

/--
A fragment that is shared, defined twice and links to itself is accepted, as is
a name that nothing is defined for.
-/
example (link : Directive Argument) :
    check
      [⟨"Dog", "Animal", [], [.spread "Name" [], .inline none [] [.spread "Owner" []]]⟩,
        ⟨"Owner", "Person", [], [.field none "home" [] [] (some [.spread "Name" []])]⟩,
        ⟨"Name", "Animal", [link], [.spread "Lost" []]⟩,
        ⟨"Name", "Person", [], [.field none "name" [] [] none]⟩] =
      .ok () :=
  rfl

/-- The second definition of a name closes a cycle, which is entered behind its first name. -/
example (link : Directive Argument) :
    check
      [⟨"Dog", "Animal", [], [.spread "Owner" []]⟩,
        ⟨"Pet", "Animal", [], [.field none "name" [] [] none]⟩,
        ⟨"Owner", "Person", [], [.field none "home" [] [] (some [.spread "Pet" []])]⟩,
        ⟨"Pet", "Animal", [link], [.spread "Owner" []]⟩] =
      .error (.fragmentCycle "Owner") :=
  rfl

end QueryGateway.Query.SpreadGraph
