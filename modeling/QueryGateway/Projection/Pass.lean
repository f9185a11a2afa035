import QueryGateway.Projection.Applicable
import QueryGateway.Projection.Link

/-!
# Projections

A projection applies a selection set to a JSON document.  It keeps the selected
members, in the order of the selection, and collects the tasks of the links on
the nodes it visits.

The selection set of an entry applies to the root, or to each element of a root
that is an array, to any depth of nesting.  A value under a field is treated
otherwise: arrays are walked through, objects are entered if the field has a
selection set, and everything else is kept as it is.

The walk is a recursion on the document.  For an object it first pairs every
member with the visit of its value, a function of the field under which the
value is looked up; the fields that apply then choose among these visits.
-/

namespace QueryGateway.Projection

open Query

/-- A projected document, and the tasks that were met, in the order of the walk. -/
structure Projected where
  target : Json.Value
  followUps : List Task
deriving Repr

/-- The result of visiting a value: what is kept of it, and the tasks within. -/
abbrev Visited := Except ProjectionError (Json.Value × List Task)

/-- Look up fields among the visits of an object's members and add them to a target. -/
def visitFields (visits : List (String × (Field → Visited))) :
    List Field → List (String × Json.Value) →
      Except ProjectionError (List (String × Json.Value) × List Task)
  | [], target => .ok (target, [])
  | field :: fields, target =>
      match Json.Members.find? visits field.name with
      | none => .error (.missingField field.name)
      | some visit => do
          let (value, found) ← visit field
          let target := Json.Members.insert field.responseKey value target
          let (target, more) ← visitFields visits fields target
          return (target, found ++ more)

/--
Visit an object with a selection set: first the fields that apply to it, then
the link on the object itself.
-/
def visitObject (document : Document) (entry : Entry)
    (members : List (String × Json.Value)) (visits : List (String × (Field → Visited))) :
    Visited := do
  let fields := applicableFields document entry.name members entry.selections
  let (target, found) ← visitFields visits fields []
  let own ← followLink document entry.directives entry.name members
  return (.object target, found ++ own.toList)

/-- The entry that a field with a selection set is for the objects under it. -/
def Entry.ofField (field : Field) (selections : List (Selection Argument)) : Entry :=
  ⟨some field.name, field.directives, selections⟩

mutual

/-- Visit the value of a field. -/
def visitValue (document : Document) : Json.Value → Field → Visited
  | .object members, field =>
      match field.selections with
      | some selections =>
          visitObject document (.ofField field selections) members
            (memberVisits document members)
      | none => do
          let own ← followLink document field.directives (some field.name) members
          return (.object members, own.toList)
  | .array elements, field => do
      let (targets, found) ← visitElements document elements field
      return (.array targets, found)
  | scalar, _ => .ok (scalar, [])

/-- Visit the elements of an array under a field. -/
def visitElements (document : Document) :
    List Json.Value → Field → Except ProjectionError (List Json.Value × List Task)
  | [], _ => .ok ([], [])
  | element :: elements, field => do
      let (target, found) ← visitValue document element field
      let (targets, more) ← visitElements document elements field
      return (target :: targets, found ++ more)

/-- The members of an object, each with the visit of its value. -/
def memberVisits (document : Document) :
    List (String × Json.Value) → List (String × (Field → Visited))
  | [] => []
  | (key, value) :: members => (key, visitValue document value) :: memberVisits document members

end

mutual

/-- Visit the root of a document, or an element of a root that is an array. -/
def visitRoot (document : Document) (entry : Entry) : Json.Value → Visited
  | .object members => visitObject document entry members (memberVisits document members)
  | .array elements => do
      let (targets, found) ← visitRoots document entry elements
      return (.array targets, found)
  | scalar => .error (.unsupportedShape scalar.kind)

/-- Visit the elements of a root that is an array. -/
def visitRoots (document : Document) (entry : Entry) :
    List Json.Value → Except ProjectionError (List Json.Value × List Task)
  | [] => .ok ([], [])
  | element :: elements => do
      let (target, found) ← visitRoot document entry element
      let (targets, more) ← visitRoots document entry elements
      return (target :: targets, found ++ more)

end

/-- Apply an entry to a document. -/
def enter (document : Document) (entry : Entry) (source : Json.Value) :
    Except ProjectionError Projected := do
  let (target, followUps) ← visitRoot document entry source
  return ⟨target, followUps⟩

/-- Apply the first query of a document; without a query everything is kept. -/
def project (document : Document) (source : Json.Value) : Except ProjectionError Projected :=
  match document.queryOperation? with
  | none => .ok ⟨source, []⟩
  | some operation => enter document (.ofOperation operation) source

/-- Apply what a task selects to the document that was fetched for it. -/
def Task.project (document : Document) (task : Task) (source : Json.Value) :
    Except ProjectionError Projected :=
  enter document task.entry source

end QueryGateway.Projection
