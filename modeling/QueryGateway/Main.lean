import QueryGateway.Routing.Table
import QueryGateway.Settings.Loading

/-!
# The command line

The program reads a configuration from its standard input and tells what a
gateway with it would serve: where it listens, and how it routes.  A faulty
configuration is refused with the reason.
-/

namespace QueryGateway

/-- What a configuration says, line by line. -/
def Settings.Configuration.summary (configuration : Settings.Configuration) : List String :=
  let listening := "listening on " ++ configuration.listener.bindAddress
  let administered :=
    if configuration.administration.enabled then
      ["administered on " ++ configuration.administration.bindAddress]
    else
      []
  listening :: administered ++
    configuration.mappings.map fun mapping => mapping.ingress ++ " -> " ++ mapping.egress

/-- All bytes of a stream. -/
partial def readAll (stream : IO.FS.Stream) (front : ByteArray) : IO ByteArray := do
  let piece ← stream.read 65536
  if piece.isEmpty then return front else readAll stream (front ++ piece)

end QueryGateway

/-- Check the configuration on standard input. -/
def main : IO UInt32 := do
  let content ← QueryGateway.readAll (← IO.getStdin) ByteArray.empty
  match QueryGateway.Settings.loadFile (some content.toList) with
  | .ok configuration =>
      configuration.summary.forM IO.println
      return 0
  | .error error =>
      IO.eprintln error.message
      return 1
