/-!
# What can go wrong in a projection

A projection fails as a whole; there is no partial result.  These are the
reasons, and the words in which they are reported.
-/

namespace QueryGateway.Projection

/-- Why a link directive cannot be followed. -/
inductive LinkError where
  | missingFragmentArgument
  /-- Neither the node nor the directive has an address. -/
  | missingAddress
  | unknownFragment (name : String)
  | nonStringArgument (name : String)
  | unresolvedPlaceholder (key : String)
deriving DecidableEq, Repr

/-- The error in words. -/
def LinkError.message : LinkError → String
  | .missingFragmentArgument => "missing `fragment` argument"
  | .missingAddress => "no `href` property on the node and no `href` argument"
  | .unknownFragment name => "no applicable fragment named `" ++ name ++ "`"
  | .nonStringArgument name => "argument `" ++ name ++ "` must be a string literal"
  | .unresolvedPlaceholder key =>
      "placeholder `\x7b" ++ key ++ "\x7d` has no scalar value on the node"

/-- Why a projection fails. -/
inductive ProjectionError where
  /-- An object lacks a field that is selected. -/
  | missingField (name : String)
  /-- A selection is applied to a value of this kind, which has no fields. -/
  | unsupportedShape (kind : String)
  /-- A link directive, on a field or at the root, cannot be followed. -/
  | invalidLink (field : Option String) (reason : LinkError)
deriving DecidableEq, Repr

/-- The error in words. -/
def ProjectionError.message : ProjectionError → String
  | .missingField name => "response is missing field `" ++ name ++ "`"
  | .unsupportedShape kind =>
      "unsupported JSON shape: expected object or array, found " ++ kind
  | .invalidLink field reason =>
      "invalid @GET directive on `" ++ field.getD "<root>" ++ "`: " ++ reason.message

end QueryGateway.Projection
