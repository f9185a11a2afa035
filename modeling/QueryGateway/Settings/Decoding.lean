import QueryGateway.Json.Value
import QueryGateway.Settings.Configuration
import QueryGateway.Toml.Value

/-!
# Configurations as TOML

A section is a table, or an array that gives the fields in their order.  What a
section lacks has its default, and what it does not know is ignored.  A field of
the wrong type makes the whole configuration malformed.
-/

namespace QueryGateway.Settings

open Toml

/-- What a section holds, whichever way it is written. -/
inductive Section where
  | named (entries : List (String × Value))
  | listed (elements : List Value)

namespace Section

/-- The section that a value is. -/
def ofValue? : Value → Option Section
  | .table entries => some (.named entries)
  | .array elements => some (.listed elements)
  | _ => none

/-- The value of a field, given its key and its place among the fields. -/
def field? (part : Section) (key : String) (index : Nat) : Option Value :=
  match part with
  | .named entries => Json.Members.find? entries key
  | .listed elements => elements[index]?

/--
Decode a field; where it is absent, it has the default.  Nothing is the result
if it has the wrong type.
-/
def decode {α : Type} (part : Section) (key : String) (index : Nat) (standard : α)
    (ofValue? : Value → Option α) : Option α :=
  match part.field? key index with
  | none => some standard
  | some value => ofValue? value

end Section

/-- The text that a value is. -/
def textOf? : Value → Option String
  | .string value => some value
  | _ => none

/-- The truth value that a value is. -/
def truthOf? : Value → Option Bool
  | .boolean value => some value
  | _ => none

/-- The natural number that a value is. -/
def naturalOf? : Value → Option Nat
  | .integer (.ofNat value) => some value
  | _ => none

/-- Is the value an empty table or array? -/
def isVoid : Value → Bool
  | .table entries => entries.isEmpty
  | .array elements => elements.isEmpty
  | _ => false

/-- The log format of a name. -/
def LogFormat.ofName? (name : String) : Option LogFormat :=
  match name with
  | "pretty" => some .pretty
  | "json" => some .json
  | _ => none

/-- The log format that a value is: its name, perhaps as the key of an empty table. -/
def LogFormat.ofValue? : Value → Option LogFormat
  | .string name => ofName? name
  | .table [(name, value)] => if isVoid value then ofName? name else none
  | _ => none

/-- The listener that a value is. -/
def Listener.ofValue? (value : Value) : Option Listener := do
  let part ← Section.ofValue? value
  return ⟨← part.decode "bind_address" 0 standard.bindAddress textOf?⟩

/-- The mapping that a value is; only its id may be absent. -/
def draftOf? (value : Value) : Option Routing.Draft := do
  let part ← Section.ofValue? value
  let id ← part.decode "id" 0 none fun value => (textOf? value).map some
  let ingress ← textOf? (← part.field? "ingress" 1)
  let egress ← textOf? (← part.field? "egress" 2)
  return ⟨id, ingress, egress⟩

/-- The mappings that a value is. -/
def draftsOf? : Value → Option (List Routing.Draft)
  | .array elements => elements.mapM draftOf?
  | _ => none

/-- The limits that a value is. -/
def Backend.ofValue? (value : Value) : Option Backend := do
  let part ← Section.ofValue? value
  let timeoutSeconds ← part.decode "timeout_secs" 0 standard.timeoutSeconds naturalOf?
  let greatestBody ← part.decode "max_body_bytes" 1 standard.greatestBody naturalOf?
  return ⟨timeoutSeconds, greatestBody⟩

/-- The way to answer queries that a value is. -/
def Querying.ofValue? (value : Value) : Option Querying := do
  let part ← Section.ofValue? value
  return ⟨← part.decode "follow_up_concurrency" 0 standard.concurrency naturalOf?⟩

/-- The observability that a value is. -/
def Observability.ofValue? (value : Value) : Option Observability := do
  let part ← Section.ofValue? value
  let logLevel ← part.decode "log_level" 0 standard.logLevel textOf?
  let logFormat ← part.decode "log_format" 1 standard.logFormat LogFormat.ofValue?
  let metricsEnabled ← part.decode "metrics_enabled" 2 standard.metricsEnabled truthOf?
  let metricsAddress ← part.decode "metrics_address" 3 standard.metricsAddress textOf?
  return ⟨logLevel, logFormat, metricsEnabled, metricsAddress⟩

/-- The administration that a value is. -/
def Administration.ofValue? (value : Value) : Option Administration := do
  let part ← Section.ofValue? value
  let enabled ← part.decode "enabled" 0 standard.enabled truthOf?
  let bindAddress ← part.decode "bind_address" 1 standard.bindAddress textOf?
  return ⟨enabled, bindAddress⟩

/-- The configuration that the entries of a document are. -/
def Configuration.ofEntries? (entries : List (String × Value)) : Option Configuration := do
  let whole := Section.named entries
  let listener ← whole.decode "listener" 0 .standard Listener.ofValue?
  let mappings ← whole.decode "mappings" 1 [] draftsOf?
  let backend ← whole.decode "upstream" 2 .standard Backend.ofValue?
  let querying ← whole.decode "query" 3 .standard Querying.ofValue?
  let observability ← whole.decode "observability" 4 .standard Observability.ofValue?
  let administration ← whole.decode "admin" 5 .standard Administration.ofValue?
  return ⟨listener, mappings, backend, querying, observability, administration⟩

end QueryGateway.Settings
