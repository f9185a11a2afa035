/-!
# Bytes and the text they carry

Message bodies and header values are sequences of bytes.  This module names
them, and relates them to text through UTF-8.

Decoding reads one byte at a time.  Between characters the reader is at rest;
inside a character it remembers how many continuation bytes are owed and which
range the next one must lie in.  The range excludes overlong forms, surrogates
and values above `U+10FFFF`, so every completed character is a scalar value.
A byte that cannot continue the character begun before it ends that character
as ill-formed, and is then read afresh.
-/

namespace QueryGateway

/-- A sequence of bytes: a body, a chunk of one, or the value of a header. -/
abbrev Bytes := List UInt8

namespace Utf8

/-- The bytes of one character. -/
def encodeChar (character : Char) : Bytes :=
  let code := character.toNat
  if code < 0x80 then
    [code.toUInt8]
  else if code < 0x800 then
    [(0xC0 + code / 0x40).toUInt8, (0x80 + code % 0x40).toUInt8]
  else if code < 0x10000 then
    [(0xE0 + code / 0x1000).toUInt8,
     (0x80 + code / 0x40 % 0x40).toUInt8,
     (0x80 + code % 0x40).toUInt8]
  else
    [(0xF0 + code / 0x40000).toUInt8,
     (0x80 + code / 0x1000 % 0x40).toUInt8,
     (0x80 + code / 0x40 % 0x40).toUInt8,
     (0x80 + code % 0x40).toUInt8]

/-- The bytes of a text. -/
def encode (text : List Char) : Bytes :=
  text.flatMap encodeChar

/-- Where the reader stands between two bytes. -/
inductive Reader where
  /-- Between characters. -/
  | rest
  /--
  Inside a character: `owed + 1` continuation bytes are missing, the next one
  lies between `low` and `high`, and `value` holds the bits read so far.
  -/
  | inside (owed : Nat) (low high : UInt8) (value : Nat)
deriving DecidableEq, Repr

/--
Read a byte between characters.  The first component is what the byte yields
at once: nothing, a character, or `none` for a byte that starts no character.
-/
def start (byte : UInt8) : List (Option Char) × Reader :=
  let code := byte.toNat
  if byte < 0x80 then ([some (Char.ofNat code)], .rest)
  else if byte < 0xC2 then ([none], .rest)
  else if byte < 0xE0 then ([], .inside 0 0x80 0xBF (code - 0xC0))
  else if byte = 0xE0 then ([], .inside 1 0xA0 0xBF 0)
  else if byte = 0xED then ([], .inside 1 0x80 0x9F 0xD)
  else if byte < 0xF0 then ([], .inside 1 0x80 0xBF (code - 0xE0))
  else if byte = 0xF0 then ([], .inside 2 0x90 0xBF 0)
  else if byte < 0xF4 then ([], .inside 2 0x80 0xBF (code - 0xF0))
  else if byte = 0xF4 then ([], .inside 2 0x80 0x8F 4)
  else ([none], .rest)

/-- Read one byte from any position. -/
def step : Reader → UInt8 → List (Option Char) × Reader
  | .rest, byte => start byte
  | .inside owed low high value, byte =>
      if low ≤ byte ∧ byte ≤ high then
        let joined := value * 0x40 + (byte.toNat - 0x80)
        match owed with
        | 0 => ([some (Char.ofNat joined)], .rest)
        | missing + 1 => ([], .inside missing 0x80 0xBF joined)
      else
        let (yielded, next) := start byte
        (none :: yielded, next)

/--
The characters of a byte sequence read from a given position; `none` stands
for each maximal ill-formed piece.
-/
def scalarsFrom : Reader → Bytes → List (Option Char)
  | .rest, [] => []
  | .inside .., [] => [none]
  | reader, byte :: bytes =>
      let (yielded, next) := step reader byte
      yielded ++ scalarsFrom next bytes

/-- The characters of a byte sequence, with `none` for each ill-formed piece. -/
def scalars (bytes : Bytes) : List (Option Char) :=
  scalarsFrom .rest bytes

/-- The text of a byte sequence, if all of it is well-formed. -/
def decode? (bytes : Bytes) : Option (List Char) :=
  (scalars bytes).mapM id

/-- The text of a byte sequence, with `U+FFFD` for each ill-formed piece. -/
def decodeLossy (bytes : Bytes) : List Char :=
  (scalars bytes).map (·.getD '\uFFFD')

end Utf8

/-- The UTF-8 bytes of a string. -/
def Bytes.ofString (text : String) : Bytes :=
  Utf8.encode text.toList

/-- A byte sequence as a string, with `U+FFFD` for each ill-formed piece. -/
def Bytes.toStringLossy (bytes : Bytes) : String :=
  String.ofList (Utf8.decodeLossy bytes)

/-- A byte sequence as a string, if it is UTF-8. -/
def Bytes.toString? (bytes : Bytes) : Option String :=
  (Utf8.decode? bytes).map String.ofList

end QueryGateway
