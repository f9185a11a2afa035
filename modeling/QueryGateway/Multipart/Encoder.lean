import QueryGateway.Text.Bytes

/-!
# Multipart bodies

A multipart body is a sequence of parts, each with headers and content, framed
by lines with a boundary.  A part may come in several chunks; its headers are
those of its first chunk.

The encoder is a machine that answers polls.  At each poll its source has a
chunk, nothing yet, an error or its end.  Every chunk is written at once; the
end is followed by the closing line, and an error by nothing, so that a body
that failed does not look complete.  After either of them the source is asked
no more.
-/

namespace QueryGateway.Multipart

/-- A chunk of a part. -/
structure Part where
  headers : List (String × String)
  content : Bytes
  /-- Does the chunk complete its part? -/
  isLast : Bool
deriving DecidableEq, Repr

/-- A part in one chunk. -/
def Part.complete (headers : List (String × String)) (content : Bytes) : Part :=
  ⟨headers, content, true⟩

/-- What the source has when it is polled. -/
inductive Event (ε : Type) where
  | chunk (part : Part)
  /-- Nothing yet. -/
  | pending
  | failed (error : ε)
  | ended
deriving DecidableEq, Repr

/-- What the encoder has when it is polled. -/
inductive Output (ε : Type) where
  | bytes (content : Bytes)
  | pending
  | failed (error : ε)
  | ended
deriving DecidableEq, Repr

/-- Where the encoder stands. -/
structure Encoder where
  /-- Has a part been begun and not completed? -/
  inPart : Bool
  /-- Has the source ended or failed? -/
  isTerminated : Bool
deriving DecidableEq, Repr

/-- The end of a line. -/
def lineEnd : Bytes := [0x0D, 0x0A]

/-- The mark in front of a boundary, and behind the last one. -/
def dashes : Bytes := [0x2D, 0x2D]

/-- A header as a line. -/
def headerLine (name value : String) : Bytes :=
  Bytes.ofString name ++ Bytes.ofString ": " ++ Bytes.ofString value ++ lineEnd

/-- The line before a part, its headers, and the empty line before its content. -/
def opening (boundary : String) (headers : List (String × String)) : Bytes :=
  dashes ++ Bytes.ofString boundary ++ lineEnd ++
    headers.flatMap (fun (name, value) => headerLine name value) ++ lineEnd

/-- The line behind the last part. -/
def closing (boundary : String) : Bytes :=
  dashes ++ Bytes.ofString boundary ++ dashes ++ lineEnd

/-- The content type of a multipart body. -/
def contentType (boundary : String) : String :=
  "multipart/mixed; boundary=" ++ boundary

/-- The length of the boundaries that are drawn. -/
def boundaryLength : Nat := 32

namespace Encoder

/-- The encoder before the first poll. -/
def start : Encoder := ⟨false, false⟩

/-- Write a chunk. -/
def encode (boundary : String) (encoder : Encoder) (part : Part) : Bytes :=
  (if encoder.inPart then [] else opening boundary part.headers) ++ part.content ++
    (if part.isLast then lineEnd else [])

/-- Write the end, completing a part that was begun. -/
def finish (boundary : String) (encoder : Encoder) : Bytes :=
  (if encoder.inPart then lineEnd else []) ++ closing boundary

/-- Answer a poll, given what the source has. -/
def answer {ε : Type} (boundary : String) (encoder : Encoder) : Event ε → Output ε × Encoder
  | .chunk part => (.bytes (encoder.encode boundary part), { encoder with inPart := !part.isLast })
  | .pending => (.pending, encoder)
  | .failed error => (.failed error, { encoder with isTerminated := true })
  | .ended => (.bytes (encoder.finish boundary), ⟨false, true⟩)

/--
Poll the encoder, over a source that holds the events to come.  A terminated
encoder leaves its source alone, and a source that ran out of events has ended.
-/
def poll {ε : Type} (boundary : String) (encoder : Encoder) (source : List (Event ε)) :
    Output ε × Encoder × List (Event ε) :=
  if encoder.isTerminated then
    (.ended, encoder, source)
  else
    let (event, source) :=
      match source with
      | [] => (.ended, [])
      | event :: source => (event, source)
    let (output, encoder) := encoder.answer boundary event
    (output, encoder, source)

/-- The outputs of a number of polls. -/
def run {ε : Type} (boundary : String) : Nat → Encoder → List (Event ε) → List (Output ε)
  | 0, _, _ => []
  | polls + 1, encoder, source =>
      let (output, encoder, source) := encoder.poll boundary source
      output :: run boundary polls encoder source

end Encoder

/-- Is it something that a reader of the body receives? -/
def Output.isReceived {ε : Type} : Output ε → Bool
  | .bytes _ => true
  | .failed _ => true
  | .pending => false
  | .ended => false

/-- What a reader of the body receives from the events of a source, one poll for each event. -/
def outputs {ε : Type} (boundary : String) (events : List (Event ε)) : List (Output ε) :=
  (Encoder.start.run boundary events.length events).filter (·.isReceived)

end QueryGateway.Multipart
