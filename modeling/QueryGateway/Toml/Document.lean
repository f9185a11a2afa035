import QueryGateway.Json.Value
import QueryGateway.Toml.Scalar

/-!
# TOML documents

A document is a sequence of lines: headers, which open a table, and keys with
values, which go into the table opened last.  Keys may be dotted, and then
reach into tables below.

No table may be defined twice.  So a document under construction remembers of
each table how it came about: by a header of its own, because a header below it
mentioned it, or because a dotted key did.  A header may still open a table that
only headers below it mentioned; a dotted key may only reach into tables that
dotted keys made.  Tables written in place are complete.
-/

namespace QueryGateway.Toml

/-- How a table under construction came about. -/
inductive Origin where
  /-- By a header of its own, or as an element of an array of tables. -/
  | header
  /-- By a header below it. -/
  | mention
  /-- By a dotted key. -/
  | dotted
deriving DecidableEq, Repr

/-- What a key stands for in a document under construction. -/
inductive Item where
  | value (value : Value)
  | table (origin : Origin) (entries : List (String × Item))
  /-- An array of tables, of which the last is still open; it stands first. -/
  | tables (elements : List (List (String × Item)))
deriving Inhabited

/-- The entries of a table under construction. -/
abbrev Entries := List (String × Item)

namespace Item

mutual

/-- The value of an item. -/
def toValue : Item → Value
  | .value held => held
  | .table _ entries => .table (entryValues entries)
  | .tables elements => .array (tableValues elements).reverse

/-- The values of entries. -/
def entryValues : List (String × Item) → List (String × Value)
  | [] => []
  | (key, item) :: entries => (key, item.toValue) :: entryValues entries

/-- The values of tables. -/
def tableValues : List (List (String × Item)) → List Value
  | [] => []
  | entries :: elements => .table (entryValues entries) :: tableValues elements

end

end Item

namespace Entries

/--
Go down a path and change the table at its end.  Tables that are missing on the
way are made.  A dotted key may not reach into a table that has a header.
-/
def descend (byKey : Bool) (origin : Origin) (entries : Entries) :
    List String → (Origin → Entries → Option Entries) → Option Entries
  | [], change => change origin entries
  | key :: path, change =>
      match Json.Members.find? entries key with
      | none => do
          let made := if byKey then Origin.dotted else Origin.mention
          let inner ← descend byKey made [] path change
          return Json.Members.insert key (.table made inner) entries
      | some (.value _) => none
      | some (.tables []) => none
      | some (.tables (last :: others)) => do
          let inner ← descend byKey .header last path change
          return Json.Members.insert key (.tables (inner :: others)) entries
      | some (.table found inner) =>
          if byKey && found == .header then
            none
          else do
            let inner ← descend byKey found inner path change
            return Json.Members.insert key (.table found inner) entries

/-- Put a value under a dotted key. -/
def put (entries : Entries) (path : List String) (key : String) (value : Value) :
    Option Entries :=
  entries.descend true .header path fun origin inner =>
    if (origin == .dotted) == path.isEmpty then
      none
    else
      match Json.Members.find? inner key with
      | some _ => none
      | none => some (Json.Members.insert key (.value value) inner)

/-- Open the table of a header. -/
def openTable (entries : Entries) (path : List String) (key : String) : Option Entries :=
  entries.descend false .header path fun _ inner =>
    match Json.Members.find? inner key with
    | none => some (Json.Members.insert key (.table .header []) inner)
    | some (.table .mention found) => some (Json.Members.insert key (.table .header found) inner)
    | some _ => none

/-- Open a new element of an array of tables. -/
def openElement (entries : Entries) (path : List String) (key : String) : Option Entries :=
  entries.descend false .header path fun _ inner =>
    match Json.Members.find? inner key with
    | none => some (Json.Members.insert key (.tables [[]]) inner)
    | some (.tables elements) => some (Json.Members.insert key (.tables ([] :: elements)) inner)
    | some _ => none

/-- Put a value under a dotted key in the table that a header opened. -/
def putUnder (entries : Entries) (header path : List String) (key : String) (value : Value) :
    Option Entries :=
  entries.descend false .header header fun _ inner => inner.put path key value

end Entries

namespace Reader

open Scalar

/-- How deep arrays and tables in place may nest, and how many parts a key may have. -/
def nestingLimit : Nat := 79

/-- Skip the blanks within a line. -/
def skipBlanks (input : List Char) : List Char :=
  input.dropWhile isBlank

/-- Pass over a comment, if one follows, up to the end of its line. -/
def passComment (input : List Char) : List Char :=
  match input with
  | '#' :: rest => rest.dropWhile isText
  | _ => input

/-- Pass over the rest of a line: blanks, perhaps a comment, and its end. -/
def lineEnd (input : List Char) : Option (List Char) :=
  match passComment (skipBlanks input) with
  | [] => some []
  | rest => newline? rest

/-- Skip blanks, comments and line ends; a comment must end with its line. -/
def skipGap (fuel : Nat) (input : List Char) : Option (List Char) :=
  match fuel with
  | 0 => some input
  | fuel + 1 =>
      let rest := skipBlanks input
      match rest with
      | '#' :: _ => (newline? (passComment rest)).bind (skipGap fuel)
      | _ =>
          match newline? rest with
          | some rest => skipGap fuel rest
          | none => some rest

/-! ## Keys -/

/-- May the character stand in a key without quotes? -/
def isBare (character : Char) : Bool :=
  character.isAlphanum || character == '-' || character == '_'

/-- Read a key without dots. -/
def simpleKey (input : List Char) : Option (String × List Char) :=
  match input with
  | '"' :: rest =>
      (lineString input.length '"' rest).map fun (text, rest) => (String.ofList text, rest)
  | '\'' :: rest =>
      (lineString input.length '\'' rest).map fun (text, rest) => (String.ofList text, rest)
  | _ =>
      match input.takeWhile isBare with
      | [] => none
      | text => some (String.ofList text, input.dropWhile isBare)

/-- Read a key, with the blanks around it and around its dots. -/
def keyParts (fuel : Nat) (input : List Char) : Option (List String × List Char) :=
  match fuel with
  | 0 => none
  | fuel + 1 => do
      let (first, rest) ← simpleKey (skipBlanks input)
      match skipBlanks rest with
      | '.' :: rest => (keyParts fuel rest).map fun (others, rest) => (first :: others, rest)
      | rest => some ([first], rest)

/-- Read a key and split it before its last part. -/
def key (input : List Char) : Option ((List String × String) × List Char) := do
  let (parts, rest) ← keyParts nestingLimit input
  return ((parts.dropLast, ← parts.getLast?), rest)

/-! ## Values -/

mutual

/-- Read a value; `depth` is how deep it may still nest. -/
def value (fuel depth : Nat) (input : List Char) : Option (Value × List Char) :=
  match fuel with
  | 0 => none
  | fuel + 1 =>
      match input with
      | '[' :: rest =>
          match depth with
          | 0 => none
          | depth + 1 =>
              (elements fuel depth rest).map fun (elements, rest) => (.array elements, rest)
      | '\x7b' :: rest =>
          match depth with
          | 0 => none
          | depth + 1 =>
              match skipBlanks rest with
              | '\x7d' :: rest => some (.table [], rest)
              | rest =>
                  (entries fuel depth [] rest).map fun (entries, rest) =>
                    (.table (Item.entryValues entries), rest)
      | _ => scalar input

/-- Read the elements of an array up to its closing bracket; a comma may follow the last one. -/
def elements (fuel depth : Nat) (input : List Char) : Option (List Value × List Char) :=
  match fuel with
  | 0 => none
  | fuel + 1 => do
      match ← skipGap input.length input with
      | ']' :: rest => some ([], rest)
      | rest =>
          let (first, rest) ← value fuel depth rest
          match ← skipGap rest.length rest with
          | ',' :: rest =>
              (elements fuel depth rest).map fun (others, rest) => (first :: others, rest)
          | ']' :: rest => some ([first], rest)
          | _ => none

/-- Read the entries of a table in place up to its closing brace. -/
def entries (fuel depth : Nat) (done : Entries) (input : List Char) :
    Option (Entries × List Char) :=
  match fuel with
  | 0 => none
  | fuel + 1 => do
      let ((path, name), rest) ← key input
      match rest with
      | '=' :: rest =>
          let (read, rest) ← value fuel depth (skipBlanks rest)
          let done ← done.put path name read
          match skipBlanks rest with
          | ',' :: rest => entries fuel depth done rest
          | '\x7d' :: rest => some (done, rest)
          | _ => none
      | _ => none

end

/-! ## Lines -/

/-- Read lines to the end; `header` is the path of the table that is open. -/
def lines (fuel : Nat) (header : List String) (done : Entries) (input : List Char) :
    Option Entries :=
  match fuel with
  | 0 => none
  | fuel + 1 =>
      match skipBlanks input with
      | [] => some done
      | '#' :: rest => (lineEnd ('#' :: rest)).bind (lines fuel header done)
      | '[' :: '[' :: rest => do
          let ((path, name), rest) ← key rest
          match rest with
          | ']' :: ']' :: rest =>
              let done ← done.openElement path name
              lines fuel (path ++ [name]) done (← lineEnd rest)
          | _ => none
      | '[' :: rest => do
          let ((path, name), rest) ← key rest
          match rest with
          | ']' :: rest =>
              let done ← done.openTable path name
              lines fuel (path ++ [name]) done (← lineEnd rest)
          | _ => none
      | rest =>
          match newline? rest with
          | some rest => lines fuel header done rest
          | none => do
              let ((path, name), rest) ← key rest
              match rest with
              | '=' :: rest =>
                  let rest := skipBlanks rest
                  let (read, rest) ← value (2 * rest.length + 2) nestingLimit rest
                  let done ← done.putUnder header path name read
                  lines fuel header done (← lineEnd rest)
              | _ => none

end Reader

/-- Read a document; a byte order mark may stand in front of it. -/
def parse? (text : String) : Option (List (String × Value)) :=
  let input :=
    match text.toList with
    | '\uFEFF' :: rest => rest
    | input => input
  (Reader.lines (input.length + 1) [] [] input).map Item.entryValues

end QueryGateway.Toml
