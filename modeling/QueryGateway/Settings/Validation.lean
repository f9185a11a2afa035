import QueryGateway.Settings.Configuration
import QueryGateway.Settings.SocketAddress

/-!
# Validating configurations

A configuration that can be decoded may still make no sense.  All problems are
reported, each with the field it is about: first those of addresses, then those
of the mappings in their order, then those of limits.

A mapping is at fault if its pattern cannot be compiled, and if an earlier
mapping has the id that is written for it.
-/

namespace QueryGateway.Settings

/-- A problem with a field of a configuration. -/
structure Problem where
  field : String
  message : String
deriving DecidableEq, Repr

/-- The problem in words. -/
def Problem.text (problem : Problem) : String :=
  problem.field ++ ": " ++ problem.message

/-- The problem of an address that is none. -/
def addressProblems (field address : String) : List Problem :=
  if SocketAddress.isSocketAddress address then
    []
  else
    [⟨field, "'" ++ address ++ "' is not a socket address"⟩]

/-- The name of a field of the mapping at a place in the list. -/
def mappingField (index : Nat) (name : String) : String :=
  "mappings[" ++ toString index ++ "]." ++ name

/-- The problem of a pattern that cannot be compiled. -/
def patternProblems (index : Nat) (ingress : String) : List Problem :=
  match Routing.compilePattern ingress with
  | .ok _ => []
  | .error error => [⟨mappingField index "ingress", error.message⟩]

/-- The problem of an id that is among those `seen` before. -/
def idProblems (index : Nat) (seen : List String) (id : Option String) : List Problem :=
  match id with
  | none => []
  | some id =>
      if seen.contains id then
        [⟨mappingField index "id", "duplicate mapping id '" ++ id ++ "'"⟩]
      else
        []

/-- The problems of mappings from a place in the list on, after the ids `seen` before it. -/
def mappingProblems (index : Nat) (seen : List String) : List Routing.Draft → List Problem
  | [] => []
  | draft :: drafts =>
      patternProblems index draft.ingress ++ idProblems index seen draft.id ++
        mappingProblems (index + 1) (draft.id.toList ++ seen) drafts

/-- The problem of a limit that is zero. -/
def limitProblems (field message : String) (limit : Nat) : List Problem :=
  if limit = 0 then [⟨field, message⟩] else []

/-- All problems of a configuration. -/
def Configuration.problems (configuration : Configuration) : List Problem :=
  addressProblems "listener.bind_address" configuration.listener.bindAddress ++
  (if configuration.administration.enabled then
    addressProblems "admin.bind_address" configuration.administration.bindAddress
  else
    []) ++
  (if configuration.observability.metricsEnabled then
    addressProblems "observability.metrics_address" configuration.observability.metricsAddress
  else
    []) ++
  mappingProblems 0 [] configuration.mappings ++
  limitProblems "upstream.timeout_secs" "must be at least 1 second"
    configuration.backend.timeoutSeconds ++
  limitProblems "upstream.max_body_bytes" "must be greater than zero"
    configuration.backend.greatestBody ++
  limitProblems "query.follow_up_concurrency" "must be at least 1"
    configuration.querying.concurrency

/-- Refuse a configuration that has problems. -/
def Configuration.validate (configuration : Configuration) : Except (List Problem) Unit :=
  match configuration.problems with
  | [] => .ok ()
  | problems => .error problems

end QueryGateway.Settings
