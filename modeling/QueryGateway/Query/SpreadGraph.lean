import QueryGateway.Query.Document
import QueryGateway.Query.Error

/-!
# Fragments that contain themselves

Spreading a fragment means putting its selections in its place.  This ends
only if no fragment leads back to itself through spreads.

The spreads form a graph on the names of fragments: from a name there is an
edge to every name that is spread anywhere within a fragment of that name.
Fragments of one name are one node.  The graph is searched depth first, in the
order of the text, and the first name that is met again on the path that leads
to it is reported.
-/

namespace QueryGateway.Query

mutual

/-- The names that a selection spreads, in their order. -/
def Selection.spreadNames {α : Type} : Selection α → List String
  | .field _ _ _ _ none => []
  | .field _ _ _ _ (some selections) => Selection.spreadNamesOf selections
  | .spread name _ => [name]
  | .inline _ _ selections => Selection.spreadNamesOf selections

/-- The names that a selection set spreads, in their order. -/
def Selection.spreadNamesOf {α : Type} : List (Selection α) → List String
  | [] => []
  | selection :: selections => selection.spreadNames ++ Selection.spreadNamesOf selections

end

namespace SpreadGraph

variable {α : Type}

/-- The names that the fragments of a name spread. -/
def successors (fragments : List (Fragment α)) (name : String) : List String :=
  (fragments.filter (·.name = name)).flatMap fun fragment =>
    Selection.spreadNamesOf fragment.selections

/--
Search from a name.  `path` holds the names that lead to it and `visited` those
from which no cycle can be reached; the result is the new `visited`.  The
length of a path without repetition is bounded by the number of fragments, so
that many steps of `fuel` and two more are enough.
-/
def visit (fragments : List (Fragment α)) (fuel : Nat) (path visited : List String)
    (name : String) : Except QueryError (List String) :=
  match fuel with
  | 0 => .ok visited
  | fuel + 1 =>
      if path.contains name then
        .error (.fragmentCycle name)
      else if visited.contains name then
        .ok visited
      else do
        let visited ← (successors fragments name).foldlM
          (visit fragments fuel (name :: path)) visited
        return name :: visited

/-- Refuse fragments that lead back to themselves. -/
def check (fragments : List (Fragment α)) : Except QueryError Unit := do
  let _ ← fragments.foldlM
    (fun visited fragment =>
      visit fragments (fragments.length + 2) [] visited fragment.name)
    []

end SpreadGraph

end QueryGateway.Query
