import QueryGateway.Multipart.Encoder

/-!
# Reading multipart bodies

A multipart body is cut at its boundary lines.  What stands before the first
boundary is no part, and what stands behind the last one tells whether the body
was closed.  Every other piece is a part: its header lines, an empty line, and
its content up to the line end before the next boundary.
-/

namespace QueryGateway.Multipart

/-- What was read of a body. -/
structure Decoded where
  parts : List Part
  isClosed : Bool
deriving DecidableEq, Repr

/-- Cut bytes at every occurrence of a mark; `skip` bytes of an occurrence are still to be
passed. -/
def cutAll (mark : Bytes) : Nat → Bytes → List Bytes
  | _, [] => [[]]
  | skip + 1, _ :: rest => cutAll mark skip rest
  | 0, byte :: rest =>
      if mark.isPrefixOf (byte :: rest) then
        [] :: cutAll mark (mark.length - 1) rest
      else
        match cutAll mark 0 rest with
        | piece :: pieces => (byte :: piece) :: pieces
        | [] => [[byte]]

/-- Cut bytes at the first occurrence of a mark. -/
def cut? (mark : Bytes) : Bytes → Option (Bytes × Bytes)
  | [] => none
  | byte :: rest =>
      if mark.isPrefixOf (byte :: rest) then
        some ([], (byte :: rest).drop mark.length)
      else
        (cut? mark rest).map fun (before, after) => (byte :: before, after)

/-- Take a mark off the front. -/
def dropMark? (mark bytes : Bytes) : Option Bytes :=
  if mark.isPrefixOf bytes then some (bytes.drop mark.length) else none

/-- Take a line end off the end. -/
def dropLineEnd? (bytes : Bytes) : Option Bytes :=
  if lineEnd.isSuffixOf bytes then some (bytes.take (bytes.length - lineEnd.length)) else none

/-- Read a header line. -/
def readHeader? (line : Bytes) : Option (String × String) := do
  let (name, value) ← cut? (Bytes.ofString ": ") line
  return (← name.toString?, ← value.toString?)

/-- Read the headers of a part, and give its content with the line end behind it. -/
def readHeaders? (bytes : Bytes) : Option (List (String × String) × Bytes) :=
  match dropMark? lineEnd bytes with
  | some content => some ([], content)
  | none => do
      let (head, content) ← cut? (lineEnd ++ lineEnd) bytes
      return (← (cutAll lineEnd 0 head).mapM readHeader?, content)

/-- Read what stands between two boundaries. -/
def readPart? (piece : Bytes) : Option Part := do
  let (headers, content) ← readHeaders? (← dropMark? lineEnd piece)
  return .complete headers (← dropLineEnd? content)

/-- Read a body as far as it came; nothing if it is no multipart body with the boundary. -/
def decode? (boundary : String) (body : Bytes) : Option Decoded :=
  match cutAll (dashes ++ Bytes.ofString boundary) 0 body with
  | [] :: pieces => do
      let isClosed := pieces.getLast? == some (dashes ++ lineEnd)
      let parts ← (if isClosed then pieces.dropLast else pieces).mapM readPart?
      return ⟨parts, isClosed⟩
  | _ => none

end QueryGateway.Multipart
