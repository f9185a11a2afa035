import QueryGateway.Json.Value

/-!
# Query documents

The executable part of a query document: operations and fragments, each with a
tree of selections.  There is no schema; types are only names.

The tree is generic in the form its arguments take.  A text is read into
definitions whose arguments are literals as written; the arguments of a
`Document` are values.  The order of operations, fragments, selections,
directives and arguments is that of the text.
-/

namespace QueryGateway.Query

/-- The kinds of operations. -/
inductive OperationKind where
  | query
  | mutation
  | subscription
deriving DecidableEq, Repr

/-- A directive and its arguments. -/
structure Directive (α : Type) where
  name : String
  arguments : List α
deriving DecidableEq, Repr

/-- A selection; a selection set is a list of them. -/
inductive Selection (α : Type) where
  /-- A field, with its alias and its own selection set if it has them. -/
  | field
      (alternative : Option String)
      (name : String)
      (arguments : List α)
      (directives : List (Directive α))
      (selections : Option (List (Selection α)))
  /-- A reference to the fragments of a name. -/
  | spread (name : String) (directives : List (Directive α))
  /-- Selections written in place, perhaps under a type condition. -/
  | inline
      (condition : Option String)
      (directives : List (Directive α))
      (selections : List (Selection α))
deriving Repr, Inhabited

/-- An operation. -/
structure Operation (α : Type) where
  kind : OperationKind
  name : Option String
  directives : List (Directive α)
  selections : List (Selection α)
deriving Repr

/-- A named fragment on a type condition. -/
structure Fragment (α : Type) where
  name : String
  condition : String
  directives : List (Directive α)
  selections : List (Selection α)
deriving Repr

/-- A definition of a text: an operation or a fragment. -/
inductive Definition (α : Type) where
  | operation (operation : Operation α)
  | fragment (fragment : Fragment α)
deriving Repr

/-- The value of an argument: a JSON value, or the name of an unbound variable. -/
inductive ArgumentValue where
  | literal (value : Json.Value)
  | variable (name : String)
deriving Repr

/-- A named argument. -/
structure Argument where
  name : String
  value : ArgumentValue
deriving Repr

/-- The operations and the fragments of a text, each in their order. -/
structure Document where
  operations : List (Operation Argument)
  fragments : List (Fragment Argument)
deriving Repr

/-- A field outside of its selection set. -/
structure Field where
  alternative : Option String
  name : String
  arguments : List Argument
  directives : List (Directive Argument)
  selections : Option (List (Selection Argument))
deriving Repr

/-- The key of a field in the response: its alias, or else its name. -/
def Field.responseKey (field : Field) : String :=
  field.alternative.getD field.name

/-- The value of a directive's first argument of a name. -/
def Directive.argument? (directive : Directive Argument) (name : String) :
    Option ArgumentValue :=
  (directive.arguments.find? (·.name = name)).map (·.value)

/-- The string an argument value is, if it is a string literal. -/
def ArgumentValue.asString? : ArgumentValue → Option String
  | .literal value => value.asString?
  | .variable _ => none

/--
Does a type condition admit a type?  Without a condition, or without a known
type, everything is admitted; otherwise the names must be equal.
-/
def admits (condition discriminator : Option String) : Bool :=
  match condition, discriminator with
  | some condition, some discriminator => condition == discriminator
  | _, _ => true

/-- Has a fragment the name, and does its type condition admit the type? -/
def isApplicable {α : Type} (name : String) (discriminator : Option String)
    (fragment : Fragment α) : Bool :=
  fragment.name == name && admits (some fragment.condition) discriminator

namespace Document

/-- The first operation that is a query. -/
def queryOperation? (document : Document) : Option (Operation Argument) :=
  document.operations.find? (·.kind = .query)

/-- The first fragment of a name whose type condition admits the type. -/
def applicableFragment? (document : Document) (name : String)
    (discriminator : Option String) : Option (Fragment Argument) :=
  document.fragments.find? (isApplicable name discriminator)

end Document

end QueryGateway.Query
