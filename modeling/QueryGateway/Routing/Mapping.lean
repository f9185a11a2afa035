import QueryGateway.Pattern.Replacement

/-!
# Mappings

A mapping sends the addresses that its ingress pattern matches as a whole to an
egress address.  The egress is a template, which may refer to the groups of the
pattern.

The pattern is anchored as a text: a start and an end mark are put around it,
with a group between them so that bars inside do not escape.  The anchored text
is what is read, so a pattern may close that group and open it again.

A mapping that is written without an id draws one from a supply.
-/

namespace QueryGateway.Routing

/-- What can be wrong with a mapping, or with a change to a table. -/
inductive RoutingError where
  | duplicateId (id : String)
  | notFound (id : String)
  | invalidPattern (ingress detail : String)
deriving DecidableEq, Repr

/-- The error in words. -/
def RoutingError.message : RoutingError → String
  | .duplicateId id => "mapping '" ++ id ++ "' already exists"
  | .notFound id => "mapping '" ++ id ++ "' not found"
  | .invalidPattern ingress detail => "invalid ingress pattern '" ++ ingress ++ "': " ++ detail

/-- A mapping as it is written, perhaps without an id. -/
structure Draft where
  id : Option String
  ingress : String
  egress : String
deriving DecidableEq, Repr

/-- A mapping as it is shown. -/
structure Entry where
  id : String
  ingress : String
  egress : String
deriving DecidableEq, Repr

/-- A mapping that is ready for use. -/
structure Mapping where
  id : String
  ingress : String
  egress : String
  pattern : Pattern.Regex
deriving DecidableEq, Repr

/-- How a pattern is anchored. -/
def anchored (ingress : String) : String :=
  "^(?:" ++ ingress ++ ")$"

/-- What is told about a pattern that cannot be compiled. -/
def patternDetail : String := "the pattern cannot be compiled"

/-- Compile an ingress pattern, so that it matches whole addresses only. -/
def compilePattern (ingress : String) : Except RoutingError Pattern.Regex :=
  match Pattern.Regex.ofString? (anchored ingress) with
  | some pattern => .ok pattern
  | none => .error (.invalidPattern ingress patternDetail)

namespace Mapping

/-- Compile a mapping under an id. -/
def compile (id ingress egress : String) : Except RoutingError Mapping := do
  return ⟨id, ingress, egress, ← compilePattern ingress⟩

/-- The mapping as it is shown. -/
def entry (mapping : Mapping) : Entry :=
  ⟨mapping.id, mapping.ingress, mapping.egress⟩

/-- The egress address for an address, if the mapping applies to it. -/
def egressFor? (mapping : Mapping) (address : String) : Option String :=
  (mapping.pattern.search address).map (·.expand mapping.egress)

end Mapping

/-- A supply of ids: the ids in the order in which they are drawn, and how many were drawn. -/
structure IdSupply where
  idAt : Nat → String
  drawn : Nat

namespace IdSupply

/-- The id that is written, or else the next one of the supply. -/
def choose (supply : IdSupply) (id : Option String) : String × IdSupply :=
  match id with
  | some id => (id, supply)
  | none => (supply.idAt supply.drawn, { supply with drawn := supply.drawn + 1 })

end IdSupply

/-- Compile a mapping as it is written. -/
def Draft.compile (supply : IdSupply) (draft : Draft) :
    Except RoutingError (Mapping × IdSupply) := do
  let (id, supply) := supply.choose draft.id
  return (← Mapping.compile id draft.ingress draft.egress, supply)

/-- Compile mappings in their order; the first one that is faulty is reported. -/
def compileAll (supply : IdSupply) : List Draft → Except RoutingError (List Mapping × IdSupply)
  | [] => .ok ([], supply)
  | draft :: drafts => do
      let (mapping, supply) ← draft.compile supply
      let (mappings, supply) ← compileAll supply drafts
      return (mapping :: mappings, supply)

end QueryGateway.Routing
