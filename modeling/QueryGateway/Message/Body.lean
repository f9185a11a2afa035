import QueryGateway.Text.Bytes

/-!
# Bodies

A body arrives in chunks.  It ends, or it fails after some of them, and what
came before the failure has then been seen already.  A body whose length is
known is announced with it.

A reader that needs the whole of a body sets a limit.  The limit is checked
chunk by chunk, before the body is known to end, so that a body without an end
is refused as well.

A reader that only looks into a body keeps what it has read.  If the body turns
out to be longer than the limit, what was read stands in front of the rest
again.
-/

namespace QueryGateway.Message

/-- A body as it arrives. -/
structure Body where
  chunks : List Bytes
  /-- What is told about the failure, if the body fails after its chunks. -/
  failure : Option String
  lengthKnown : Bool
deriving DecidableEq, Repr

/-- Why a body cannot be read as a whole. -/
inductive ReadError where
  | tooLong
  | broken (detail : String)
deriving DecidableEq, Repr

/-- The error in words. -/
def ReadError.message : ReadError → String
  | .tooLong => "length limit exceeded"
  | .broken detail => detail

/-- Read chunks into the room that is left. -/
def readChunks (failure : Option String) : Nat → List Bytes → Except ReadError Bytes
  | _, [] =>
      match failure with
      | none => .ok []
      | some detail => .error (.broken detail)
  | room, chunk :: chunks =>
      if chunk.length > room then
        .error .tooLong
      else do
        return chunk ++ (← readChunks failure (room - chunk.length) chunks)

namespace Body

/-- A body of known length. -/
def ofBytes (content : Bytes) : Body :=
  ⟨[content], none, true⟩

/-- The body without content. -/
def empty : Body :=
  ⟨[], none, true⟩

/-- A body that comes in chunks, of unknown length. -/
def streamed (chunks : List Bytes) (failure : Option String) : Body :=
  ⟨chunks, failure, false⟩

/-- All that arrives of a body. -/
def content (body : Body) : Bytes :=
  body.chunks.flatten

/-- The length, if it is known before the body is read. -/
def length? (body : Body) : Option Nat :=
  if body.lengthKnown then some body.content.length else none

/-- Read a body that is at most `limit` bytes long. -/
def read (body : Body) (limit : Nat) : Except ReadError Bytes :=
  readChunks body.failure limit body.chunks

end Body

/-- What has become of a body that was looked into. -/
inductive Buffered where
  /-- All of it was read. -/
  | complete (content : Bytes)
  /-- It is too long; what was read of it comes again, and then the rest. -/
  | overflow (replay : Body)
deriving DecidableEq, Repr

/-- Read chunks behind those that are buffered, as long as all of them keep to the limit. -/
def bufferChunks (limit : Nat) (failure : Option String) (buffered : Bytes) :
    List Bytes → Except String Buffered
  | [] =>
      match failure with
      | none => .ok (.complete buffered)
      | some detail => .error detail
  | chunk :: chunks =>
      if buffered.length + chunk.length > limit then
        .ok (.overflow (.streamed (buffered :: chunk :: chunks) failure))
      else
        bufferChunks limit failure (buffered ++ chunk) chunks

/-- Look into a body that may be longer than `limit` bytes; the error is what tells its failure. -/
def Body.buffer (body : Body) (limit : Nat) : Except String Buffered :=
  bufferChunks limit body.failure [] body.chunks

end QueryGateway.Message
