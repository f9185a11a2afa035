import QueryGateway.Projection.Error
import QueryGateway.Projection.Template
import QueryGateway.Query.Document

/-!
# Links from a node to another document

A link directive says that more about a node can be fetched from elsewhere.
It names the fragment that is to be applied to the fetched document.  The
address is the `href` member of the node, or else an argument of the
directive, and may hold placeholders for other members of the node.
-/

namespace QueryGateway.Projection

open Query

/-- What a projection is entered with: a named selection set and the directives on it. -/
structure Entry where
  name : Option String
  directives : List (Directive Argument)
  selections : List (Selection Argument)
deriving Repr

/-- A document to be fetched, and what is to be selected from it. -/
structure Task where
  entry : Entry
  /-- The node that carried the link. -/
  snapshot : Json.Value
  /-- The address, perhaps a relative one. -/
  url : String
deriving Repr

/-- The entry that an operation is. -/
def Entry.ofOperation (operation : Operation Argument) : Entry :=
  ⟨operation.name, operation.directives, operation.selections⟩

/-- The entry that a fragment is; its name is that of its type. -/
def Entry.ofFragment (fragment : Fragment Argument) : Entry :=
  ⟨some fragment.condition, fragment.directives, fragment.selections⟩

/-- The name of link directives. -/
def linkDirective : String := "GET"

/-- An argument of a directive, which must be a string if it is there. -/
def stringArgument? (directive : Directive Argument) (name : String) :
    Except LinkError (Option String) :=
  match directive.argument? name with
  | none => .ok none
  | some value =>
      match value.asString? with
      | some text => .ok (some text)
      | none => .error (.nonStringArgument name)

/-- The address that a link has on a node, before placeholders are replaced. -/
def linkAddress (directive : Directive Argument) (members : List (String × Json.Value)) :
    Except LinkError String :=
  match Json.Members.find? members "href" with
  | some (.string address) => .ok address
  | _ => do
      match ← stringArgument? directive "href" with
      | some address => .ok address
      | none => .error .missingAddress

/-- The task of a link directive on a node. -/
def linkTask (document : Document) (directive : Directive Argument)
    (members : List (String × Json.Value)) : Except LinkError Task := do
  let some name ← stringArgument? directive "fragment"
    | .error .missingFragmentArgument
  let address ← linkAddress directive members
  let url ←
    match Template.expand address members with
    | .ok url => .ok url
    | .error key => .error (.unresolvedPlaceholder key)
  let type ← stringArgument? directive "type"
  match document.applicableFragment? name type with
  | none => .error (.unknownFragment name)
  | some fragment => .ok ⟨.ofFragment fragment, .object members, url⟩

/--
The task of the first link directive among some directives on a node.  Errors
name the field under which the node stands.
-/
def followLink (document : Document) (directives : List (Directive Argument))
    (parent : Option String) (members : List (String × Json.Value)) :
    Except ProjectionError (Option Task) :=
  match directives.find? (·.name = linkDirective) with
  | none => .ok none
  | some directive =>
      match linkTask document directive members with
      | .ok task => .ok (some task)
      | .error reason => .error (.invalidLink parent reason)

end QueryGateway.Projection
