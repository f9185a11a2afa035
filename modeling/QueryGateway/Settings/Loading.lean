import QueryGateway.Settings.Decoding
import QueryGateway.Settings.Validation
import QueryGateway.Text.Bytes
import QueryGateway.Toml.Document

/-!
# Loading configurations

A configuration comes from a text, or from the bytes of a file.  It is read,
decoded and validated; each of these steps has its own kind of error.
-/

namespace QueryGateway.Settings

/-- Why there are no bytes, or no text in them. -/
inductive FileError where
  | absent
  | notText
deriving DecidableEq, Repr

/-- Why a configuration cannot be loaded. -/
inductive LoadError where
  | unreadable (reason : FileError)
  | malformed (detail : String)
  | invalid (problems : List Problem)
deriving DecidableEq, Repr

/-- The error in words. -/
def LoadError.message : LoadError → String
  | .unreadable .absent => "IO error: there is no such file"
  | .unreadable .notText => "IO error: the file is not valid UTF-8"
  | .malformed detail => "Parse error: " ++ detail
  | .invalid problems => "Validation failed: " ++ ", ".intercalate (problems.map (·.text))

/-- Load a configuration from a text. -/
def load (text : String) : Except LoadError Configuration :=
  match (Toml.parse? text).bind Configuration.ofEntries? with
  | none => .error (.malformed "the text is not a configuration")
  | some configuration =>
      match configuration.validate with
      | .ok () => .ok configuration
      | .error problems => .error (.invalid problems)

/-- Load a configuration from the bytes of a file, if there is one. -/
def loadFile (content : Option Bytes) : Except LoadError Configuration :=
  match content with
  | none => .error (.unreadable .absent)
  | some bytes =>
      match bytes.toString? with
      | none => .error (.unreadable .notText)
      | some text => load text

end QueryGateway.Settings
