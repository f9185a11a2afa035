import QueryGateway.Query.Evaluation
import QueryGateway.Query.SpreadGraph
import QueryGateway.Query.TypeSystem

/-!
# Query texts

A query text is one or more definitions.  `Document.ofString` reads it,
evaluates the arguments and makes sure that spreading its fragments comes to an
end, so that whatever works on a `Document` may spread them without a limit.
-/

namespace QueryGateway.Query

namespace Grammar

/--
Read the definition at the front of the tokens.  Type definitions yield
nothing.  A description may stand in front of them only, and the word that
follows it or `extend` must be the very next token.
-/
def definition (fuel depth : Nat) (tokens : List Token) :
    Option (Option (Definition WrittenArgument) × List Token) :=
  match tokens with
  | .mark '{' :: _ =>
      (selectionSet fuel depth tokens).map fun (selections, rest) =>
        (some (.operation ⟨.query, none, [], selections⟩), rest)
  | .string _ :: .name word :: rest =>
      (TypeSystem.definition fuel depth false (.name word :: rest)).map (none, ·)
  | .name "extend" :: .name word :: rest =>
      (TypeSystem.definition fuel depth true (.name word :: rest)).map (none, ·)
  | .name "fragment" :: rest =>
      (fragment fuel depth (passCommas rest)).map fun (fragment, rest) =>
        (some (.fragment fragment), rest)
  | .name "query" :: rest => named .query (passCommas rest)
  | .name "mutation" :: rest => named .mutation (passCommas rest)
  | .name "subscription" :: rest => named .subscription (passCommas rest)
  | .name _ :: _ => (TypeSystem.definition fuel depth false tokens).map (none, ·)
  | _ => none
where
  /-- Read an operation of a kind. -/
  named (kind : OperationKind) (rest : List Token) :
      Option (Option (Definition WrittenArgument) × List Token) :=
    (operation fuel depth kind rest).map fun (operation, rest) =>
      (some (.operation operation), rest)

/-- Read definitions to the end; every definition takes one of the `count`. -/
def definitions (count fuel depth : Nat) (tokens : List Token) :
    Option (List (Definition WrittenArgument)) :=
  match count, tokens with
  | _, [] => some []
  | 0, _ => none
  | count + 1, tokens => do
      let (first, rest) ← definition fuel depth tokens
      let others ← definitions count fuel depth rest
      some (first.toList ++ others)

/-- The definitions of a text, of which there is at least one. -/
def definitions? (tokens : List Token) : Option (List (Definition WrittenArgument)) :=
  match passCommas tokens with
  | [] => none
  | tokens => definitions tokens.length (2 * tokens.length + 2) nestingLimit tokens

end Grammar

/-- Read a query text. -/
def Document.ofString (text : String) : Except QueryError Document :=
  match (Token.list? text.toList).bind Grammar.definitions? with
  | none => .error (.malformed "the text is not a query document")
  | some definitions => do
      let document ← evaluateDefinitions definitions
      SpreadGraph.check document.fragments
      return document

end QueryGateway.Query
