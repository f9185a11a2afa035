import QueryGateway.Json.Printer
import QueryGateway.Query.Document

/-!
# The fields that apply to an object

A selection set mixes fields with fragments, and a fragment contributes its
fields only to objects that its type condition admits.  There is no schema to
tell the type of an object, so the type is guessed: the `type` member of the
object if that is a scalar other than null, and else the name of the field
under which the object stands.

Spreads are expanded to a depth that the caller gives.  In a document whose
fragments do not lead back to themselves, no chain of spreads is longer than
the number of fragments, so `applicableFields` expands all of them.
-/

namespace QueryGateway.Projection

open Query

/-- The guessed type of an object under a field, or at the root of an operation. -/
def discriminator (members : List (String × Json.Value)) (parent : Option String) :
    Option String :=
  match Json.Members.find? members "type" with
  | none => parent
  | some .null => parent
  | some value => value.scalarText?.orElse fun _ => parent

mutual

/-- The fields of a selection for a type, given those of each fragment that is spread. -/
def selectionFields (type : Option String) (spread : String → List Field) :
    Selection Argument → List Field
  | .field alternative name arguments directives selections =>
      [⟨alternative, name, arguments, directives, selections⟩]
  | .spread name _ => spread name
  | .inline condition _ selections =>
      if admits condition type then selectionSetFields type spread selections else []

/-- The fields of a selection set, in their order. -/
def selectionSetFields (type : Option String) (spread : String → List Field) :
    List (Selection Argument) → List Field
  | [] => []
  | selection :: selections =>
      selectionFields type spread selection ++ selectionSetFields type spread selections

end

/--
The fields of a selection set for a type, with spreads expanded to a depth.  A
spread without an applicable fragment contributes nothing.
-/
def fieldsToDepth (document : Document) (type : Option String) :
    Nat → List (Selection Argument) → List Field
  | 0, _ => []
  | depth + 1, selections =>
      selectionSetFields type
        (fun name =>
          match document.applicableFragment? name type with
          | none => []
          | some fragment => fieldsToDepth document type depth fragment.selections)
        selections

/-- The fields of a selection set that apply to an object, in their order. -/
def applicableFields (document : Document) (parent : Option String)
    (members : List (String × Json.Value)) (selections : List (Selection Argument)) :
    List Field :=
  fieldsToDepth document (discriminator members parent) (document.fragments.length + 1) selections

end QueryGateway.Projection
