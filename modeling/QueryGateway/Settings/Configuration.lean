import QueryGateway.Routing.Mapping

/-!
# Configurations

What can be configured, and what holds where nothing is written.
-/

namespace QueryGateway.Settings

/-- Where requests are accepted. -/
structure Listener where
  bindAddress : String
deriving DecidableEq, Repr

/-- Limits on exchanges with backends. -/
structure Backend where
  timeoutSeconds : Nat
  /-- The largest body that is held in memory. -/
  greatestBody : Nat
deriving DecidableEq, Repr

/-- How queries are answered. -/
structure Querying where
  /-- How many follow-ups of one list are under way at once. -/
  concurrency : Nat
deriving DecidableEq, Repr

/-- How log lines are written. -/
inductive LogFormat where
  | pretty
  | json
deriving DecidableEq, Repr

/-- What is told about the work. -/
structure Observability where
  logLevel : String
  logFormat : LogFormat
  metricsEnabled : Bool
  metricsAddress : String
deriving DecidableEq, Repr

/-- Where mappings are administered. -/
structure Administration where
  enabled : Bool
  bindAddress : String
deriving DecidableEq, Repr

/-- A configuration. -/
structure Configuration where
  listener : Listener
  mappings : List Routing.Draft
  backend : Backend
  querying : Querying
  observability : Observability
  administration : Administration
deriving DecidableEq, Repr

/-- The default listener. -/
def Listener.standard : Listener := ⟨"0.0.0.0:8080"⟩

/-- The default limits: half a minute, and 16 MiB. -/
def Backend.standard : Backend := ⟨30, 16 * 1024 * 1024⟩

/-- The default way to answer queries. -/
def Querying.standard : Querying := ⟨4⟩

/-- The default observability. -/
def Observability.standard : Observability := ⟨"info", .pretty, false, "0.0.0.0:9090"⟩

/-- The default administration. -/
def Administration.standard : Administration := ⟨false, "127.0.0.1:8081"⟩

/-- The log filter of a level: the gateway's own lines at that level, others from warnings on. -/
def logFilter (level : String) : String :=
  "meshcaline_proxy=" ++ level ++ ",tower_http=" ++ level ++ ",warn"

end QueryGateway.Settings
