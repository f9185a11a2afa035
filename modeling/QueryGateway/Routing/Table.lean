import QueryGateway.Routing.Mapping

/-!
# Routing tables

A table is a list of mappings with distinct ids, and a version that counts its
changes.  An address is routed by the first mapping that applies to it.

Every change yields a new table or an error; the table it is applied to stays
as it is.  Whoever holds a table therefore holds a snapshot.
-/

namespace QueryGateway.Routing

/-- A routing table. -/
structure Table where
  mappings : List Mapping
  version : Nat
deriving DecidableEq, Repr

/-- The first id in a list that occurred earlier in it, or among those `seen` before. -/
def firstRepeated? (seen : List String) : List String → Option String
  | [] => none
  | id :: ids => if seen.contains id then some id else firstRepeated? (id :: seen) ids

/-- Refuse mappings that share an id. -/
def ensureDistinct (mappings : List Mapping) : Except RoutingError Unit :=
  match firstRepeated? [] (mappings.map (·.id)) with
  | some id => .error (.duplicateId id)
  | none => .ok ()

namespace Table

/-- The ids of a table, in its order. -/
def ids (table : Table) : List String :=
  table.mappings.map (·.id)

/-- The entries of a table, in its order. -/
def entries (table : Table) : List Entry :=
  table.mappings.map (·.entry)

/-- The entry of an id. -/
def get? (table : Table) (id : String) : Option Entry :=
  (table.mappings.find? (·.id = id)).map (·.entry)

/-- The egress address for an address. -/
def resolve? (table : Table) (address : String) : Option String :=
  table.mappings.findSome? (·.egressFor? address)

/-- The table with other mappings, as its next version. -/
def publish (table : Table) (mappings : List Mapping) : Table :=
  ⟨mappings, table.version + 1⟩

/-- The first version of a table. -/
def ofMappings (mappings : List Mapping) : Except RoutingError Table := do
  ensureDistinct mappings
  return ⟨mappings, 0⟩

/-- Put a mapping at the end. -/
def add (table : Table) (mapping : Mapping) : Except RoutingError Table :=
  if table.ids.contains mapping.id then
    .error (.duplicateId mapping.id)
  else
    .ok (table.publish (table.mappings ++ [mapping]))

/-- Put a mapping in the place of the one that has its id. -/
def put (table : Table) (mapping : Mapping) : Except RoutingError Table :=
  match table.mappings.findIdx? (·.id = mapping.id) with
  | none => .error (.notFound mapping.id)
  | some index => .ok (table.publish (table.mappings.set index mapping))

/-- Put a new pattern and egress in the place of an id. -/
def update (table : Table) (id ingress egress : String) :
    Except RoutingError (Mapping × Table) := do
  let mapping ← Mapping.compile id ingress egress
  return (mapping, ← table.put mapping)

/-- Take the mapping of an id out. -/
def delete (table : Table) (id : String) : Except RoutingError (Mapping × Table) :=
  match table.mappings.find? (·.id = id) with
  | none => .error (.notFound id)
  | some mapping => .ok (mapping, table.publish (table.mappings.eraseP (·.id = id)))

/-- Put other mappings in the place of all. -/
def replace (table : Table) (mappings : List Mapping) : Except RoutingError Table := do
  ensureDistinct mappings
  return table.publish mappings

end Table

end QueryGateway.Routing
