import Mathlib
import QueryGateway.Proofs.Query.Cycles
import QueryGateway.Proofs.Query.Evaluation
import QueryGateway.Proofs.Query.Inlining

/-!
# Which texts are accepted

A text without a syntax error is a sequence of definitions, and what is defined
for the type system is passed over.  The text is accepted if and only if nothing
is wrong with the arguments that stand in the operations and fragments, and no
fragment leads back to itself; a fragment that does is reported only if nothing
is wrong with the arguments.

All this is decided by the operations and fragments alone, so it is the same
for all texts that have the same ones, whatever stands between them.
-/

namespace QueryGateway.Query

open SpreadGraph

/-! ## The definitions of a text -/

/-- Tokens are read as definitions, in which those for the type system are left open. -/
inductive ReadsFrom (fuel : Nat) :
    List Token → List (Option (Definition WrittenArgument)) → Prop where
  | nil : ReadsFrom fuel [] []
  | cons
      {tokens rest : List Token}
      {item : Option (Definition WrittenArgument)}
      {items : List (Option (Definition WrittenArgument))}
      (isFirst : Grammar.definition fuel Grammar.nestingLimit tokens = some (item, rest))
      (others : ReadsFrom fuel rest items) :
      ReadsFrom fuel tokens (item :: items)

/-- A text is read as definitions. -/
def ReadsAs (text : String) (items : List (Option (Definition WrittenArgument))) : Prop :=
  ∃ tokens, Token.list? text.toList = some tokens ∧
    ReadsFrom (2 * (Grammar.passCommas tokens).length + 2) (Grammar.passCommas tokens) items

theorem ReadsFrom.unique
    {fuel : Nat}
    {tokens : List Token}
    {items others : List (Option (Definition WrittenArgument))}
    (reads : ReadsFrom fuel tokens items)
    (alsoReads : ReadsFrom fuel tokens others) :
    items = others := by
  induction reads generalizing others with
  | nil =>
      cases alsoReads with
      | nil => rfl
      | cons isFirst => cases isFirst
  | cons isFirst _ induction =>
      cases alsoReads with
      | nil => cases isFirst
      | cons alsoFirst alsoOthers =>
          cases isFirst.symm.trans alsoFirst
          rw [induction alsoOthers]

theorem ReadsAs.unique
    {text : String}
    {items others : List (Option (Definition WrittenArgument))}
    (reads : ReadsAs text items)
    (alsoReads : ReadsAs text others) :
    items = others := by
  obtain ⟨tokens, areTokens, readsFrom⟩ := reads
  obtain ⟨_, sameTokens, alsoReadsFrom⟩ := alsoReads
  cases areTokens.symm.trans sameTokens
  exact readsFrom.unique alsoReadsFrom

theorem exists_readsFrom
    {count fuel : Nat}
    {tokens : List Token}
    {definitions : List (Definition WrittenArgument)}
    (written : Grammar.definitions count fuel Grammar.nestingLimit tokens = some definitions) :
    ∃ items, ReadsFrom fuel tokens items ∧ items.reduceOption = definitions := by
  induction count generalizing tokens definitions with
  | zero =>
      cases tokens with
      | nil =>
          cases written
          exact ⟨[], .nil, rfl⟩
      | cons => cases written
  | succ count induction =>
      cases tokens with
      | nil =>
          cases written
          exact ⟨[], .nil, rfl⟩
      | cons token tokens =>
          simp only [Grammar.definitions, Option.bind_eq_bind, Option.bind_eq_some_iff] at written
          obtain ⟨⟨item, rest⟩, isFirst, others, ofOthers, isAll⟩ := written
          cases isAll
          obtain ⟨items, reads, rfl⟩ := induction ofOthers
          refine ⟨item :: items, .cons isFirst reads, ?_⟩
          cases item <;> rfl

theorem exists_readsAs
    {text : String}
    {definitions : List (Definition WrittenArgument)}
    (written : writtenDefinitions? text = some definitions) :
    ∃ items, ReadsAs text items ∧ items.reduceOption = definitions := by
  rw [writtenDefinitions?, Option.bind_eq_some_iff] at written
  obtain ⟨tokens, areTokens, written⟩ := written
  rw [Grammar.definitions?] at written
  split at written
  case h_1 => cases written
  case h_2 =>
    obtain ⟨items, reads, isReduced⟩ := exists_readsFrom written
    exact ⟨items, ⟨tokens, areTokens, reads⟩, isReduced⟩

/-- Only a text that is not read at all has a syntax error. -/
theorem exists_writtenDefinitions?
    {text : String}
    (readable : ∀ detail, Document.ofString text ≠ .error (.malformed detail)) :
    ∃ definitions, writtenDefinitions? text = some definitions := by
  rw [← Option.ne_none_iff_exists']
  intro isNone
  apply readable "the text is not a query document"
  rw [writtenDefinitions?] at isNone
  rw [Document.ofString, isNone]

/-! ## The graph of the definitions -/

mutual

theorem spreadNames_of_evaluateSelection :
    ∀ (selection : Selection WrittenArgument) {result : Selection Argument},
      evaluateSelection selection = .ok result → result.spreadNames = selection.spreadNames
  | .field _ _ _ _ none, _, evaluates => by
      simp only [evaluateSelection, bind_eq_ok, pure, Except.pure, Except.ok.injEq] at evaluates
      obtain ⟨_, _, _, _, rfl⟩ := evaluates
      rfl
  | .field _ _ _ _ (some own), _, evaluates => by
      obtain ⟨_, isOwn, _, _, _, _, rfl⟩ := evaluateSelection_field_eq_ok_iff.mp evaluates
      rw [Selection.spreadNames, Selection.spreadNames]
      exact spreadNamesOf_of_evaluateSelections own isOwn
  | .spread _ _, _, evaluates => by
      obtain ⟨_, _, rfl⟩ := evaluateSelection_spread_eq_ok_iff.mp evaluates
      rfl
  | .inline _ _ own, _, evaluates => by
      obtain ⟨_, _, _, isOwn, rfl⟩ := evaluateSelection_inline_eq_ok_iff.mp evaluates
      rw [Selection.spreadNames, Selection.spreadNames]
      exact spreadNamesOf_of_evaluateSelections own isOwn

/-- Evaluation keeps the names that are spread. -/
theorem spreadNamesOf_of_evaluateSelections :
    ∀ (selections : List (Selection WrittenArgument)) {results : List (Selection Argument)},
      evaluateSelections selections = .ok results →
        Selection.spreadNamesOf results = Selection.spreadNamesOf selections
  | [], _, evaluates => by
      cases evaluates
      rfl
  | selection :: selections, _, evaluates => by
      obtain ⟨_, _, isFirst, isRest, rfl⟩ := evaluateSelections_cons_eq_ok_iff.mp evaluates
      rw [Selection.spreadNamesOf, Selection.spreadNamesOf,
        spreadNames_of_evaluateSelection selection isFirst,
        spreadNamesOf_of_evaluateSelections selections isRest]

end

theorem leads_iff_of_evaluates
    {fragments : List (Fragment WrittenArgument)}
    {results : List (Fragment Argument)}
    (evaluate : List.Forall₂ Evaluates fragments results)
    (name next : String) :
    Leads results name next ↔ Leads fragments name next := by
  induction evaluate with
  | nil => simp [Leads]
  | @cons fragment _ _ _ evaluates _ induction =>
      obtain ⟨_, _, selections, areSelections, rfl⟩ := evaluates_iff.mp evaluates
      have same : SpreadIn next selections ↔ SpreadIn next fragment.selections := by
        rw [← mem_spreadNamesOf_iff, ← mem_spreadNamesOf_iff,
          spreadNamesOf_of_evaluateSelections _ areSelections]
      simp only [Leads, List.exists_mem_cons_iff, same] at induction ⊢
      rw [induction]

/-- The fragments of definitions. -/
def fragmentsOf (definitions : List (Definition WrittenArgument)) :
    List (Fragment WrittenArgument) :=
  definitions.filterMap (·.fragment?)

/-- What leads back to itself in a document does so in what it is evaluated from. -/
theorem leadsBack_iff_of_evaluates
    {definitions : List (Definition WrittenArgument)}
    {document : Document}
    (evaluates : evaluateDefinitions definitions = .ok document)
    (name : String) :
    LeadsBack document.fragments name ↔ LeadsBack (fragmentsOf definitions) name := by
  have sameGraph : Leads document.fragments = Leads (fragmentsOf definitions) := by
    funext name next
    exact propext (leads_iff_of_evaluates (forall₂_evaluates evaluates) name next)
  rw [LeadsBack, LeadsBack, sameGraph]

/-! ## Acceptance -/

section

variable
    {text : String}
    {definitions : List (Definition WrittenArgument)}
    (written : writtenDefinitions? text = some definitions)

include written

theorem Document.ofString_eq :
    Document.ofString text =
      (do
        let document ← evaluateDefinitions definitions
        SpreadGraph.check document.fragments
        return document) := by
  rw [writtenDefinitions?] at written
  rw [Document.ofString, written]

theorem exists_ofString_iff :
    (∃ document, Document.ofString text = .ok document) ↔
      AreSound definitions ∧ ∀ name, ¬ LeadsBack (fragmentsOf definitions) name := by
  have decides := (evaluateDefinitions_decides definitions).succeeds
  constructor
  · rintro ⟨document, accepted⟩
    obtain ⟨evaluates, checked⟩ := (Document.ofString_eq_ok_iff written).mp accepted
    refine ⟨decides.mp ⟨document, evaluates⟩, fun name leadsBack => ?_⟩
    have inDocument := (leadsBack_iff_of_evaluates evaluates name).mpr leadsBack
    exact check_eq_ok_iff.mp checked name inDocument.mem_names inDocument
  · rintro ⟨areSound, noneLeadsBack⟩
    obtain ⟨document, evaluates⟩ := decides.mpr areSound
    refine ⟨document, (Document.ofString_eq_ok_iff written).mpr ⟨evaluates, ?_⟩⟩
    refine check_eq_ok_iff.mpr fun name _ leadsBack => ?_
    exact noneLeadsBack name ((leadsBack_iff_of_evaluates evaluates name).mp leadsBack)

theorem leadsBack_of_ofString
    {name : String}
    (refused : Document.ofString text = .error (.fragmentCycle name)) :
    AreSound definitions ∧ LeadsBack (fragmentsOf definitions) name := by
  have decides := evaluateDefinitions_decides definitions
  rw [Document.ofString_eq written] at refused
  cases evaluates : evaluateDefinitions definitions with
  | error error =>
      rw [evaluates] at refused
      cases refused
      cases decides.fails _ evaluates
  | ok document =>
      refine ⟨decides.succeeds.mp ⟨document, evaluates⟩, ?_⟩
      rw [evaluates] at refused
      cases checked : SpreadGraph.check document.fragments with
      | ok =>
          simp [checked, bind, Except.bind, pure, Except.pure] at refused
      | error error =>
          obtain ⟨found, rfl, leadsBack⟩ := leadsBack_of_check checked
          simp only [checked, bind, Except.bind, Except.error.injEq,
            QueryError.fragmentCycle.injEq] at refused
          subst refused
          exact (leadsBack_iff_of_evaluates evaluates found).mp leadsBack

end

/--
A text without a syntax error is read as definitions in one way.  It is accepted
if and only if nothing is wrong with the arguments in its operations and
fragments and no fragment leads back to itself; one that does is reported only
if nothing is wrong with the arguments.  Any other text with the same operations
and fragments, whatever it defines for the type system, has the same result.
-/
theorem Document.ofString_decides
    {text : String}
    (readable : ∀ detail, Document.ofString text ≠ .error (.malformed detail)) :
    ∃ items, ReadsAs text items ∧ (∀ others, ReadsAs text others → others = items) ∧
      ((∃ document, Document.ofString text = .ok document) ↔
        AreSound items.reduceOption ∧
          ∀ name, ¬ LeadsBack (fragmentsOf items.reduceOption) name) ∧
      (∀ name, Document.ofString text = .error (.fragmentCycle name) →
        AreSound items.reduceOption ∧ LeadsBack (fragmentsOf items.reduceOption) name) ∧
      ∀ otherText otherItems,
        (∀ detail, Document.ofString otherText ≠ .error (.malformed detail)) →
        ReadsAs otherText otherItems →
        otherItems.reduceOption = items.reduceOption →
          Document.ofString otherText = Document.ofString text := by
  obtain ⟨definitions, written⟩ := exists_writtenDefinitions? readable
  obtain ⟨items, reads, rfl⟩ := exists_readsAs written
  refine ⟨items, reads, fun others alsoReads => alsoReads.unique reads,
    exists_ofString_iff written, fun name => leadsBack_of_ofString written, ?_⟩
  intro otherText otherItems otherReadable otherReads same
  obtain ⟨otherDefinitions, otherWritten⟩ := exists_writtenDefinitions? otherReadable
  obtain ⟨_, alsoReads, rfl⟩ := exists_readsAs otherWritten
  rw [alsoReads.unique otherReads, same] at otherWritten
  rw [Document.ofString_eq otherWritten, Document.ofString_eq written]

namespace Typed

/-- A query of pets, with a fragment; the number is too large for an integer. -/
def query : String :=
  "query \x7b pets(first: $n, in: [\x7bage: 9223372036854775808\x7d]) \x7b ...Pet \x7d \x7d " ++
    "fragment Pet on Pet \x7b name \x7d"

/-- The same query with the type of the pets, and a default value that is too large. -/
def typed : String :=
  "query ($n: Int = 9e999) \x7b pets(first: $n, in: [\x7bage: 9223372036854775808\x7d]) " ++
    "\x7b ...Pet \x7d \x7d type Pet \x7b name(length: Int = 9e999): String \x7d " ++
      "fragment Pet on Pet \x7b name \x7d"

def definitions : List (Definition WrittenArgument) :=
  [.operation ⟨.query, none, [],
      [.field none "pets"
        [("first", some (.variable "n")),
          ("in", some (.list [.object [("age", some (.int "9223372036854775808"))]]))]
        [] (some [.spread "Pet" []])]⟩,
    .fragment ⟨"Pet", "Pet", [], [.field none "name" [] [] none]⟩]

def document : Document :=
  ⟨[⟨.query, none, [],
      [.field none "pets"
        [⟨"first", .variable "n"⟩,
          ⟨"in", .literal (.array [.object [("age", .number (.double ⟨false, 4503599627370496, 11⟩))]])⟩]
        [] (some [.spread "Pet" []])]⟩],
    [⟨"Pet", "Pet", [], [.field none "name" [] [] none]⟩]⟩

theorem written :
    writtenDefinitions? query = some definitions := by
  cbv

theorem alsoWritten :
    writtenDefinitions? typed = some definitions := by
  cbv

/-- The number is a power of two. -/
theorem isPower :
    Literal.integerValue "9223372036854775808" =
      .ok (.number (.double ⟨false, 4503599627370496, 11⟩)) := by
  have isDouble : Binary64.ofWritten? "9223372036854775808".toList =
      some ⟨false, 4503599627370496, 11⟩ := by
    decide +kernel
  rw [Literal.integerValue_eq, if_neg (by decide), Literal.floatValue, isDouble]

theorem parsed :
    Document.ofString query = .ok document := by
  have evaluates : evaluateDefinitions definitions = .ok document := by
    simp only [definitions, document, evaluateDefinitions, evaluateOperation, evaluateSelections,
      evaluateSelection, evaluateArgument, List.mapM_cons, List.mapM_nil, Literal.value,
      Literal.values, Literal.fieldValues, isPower, evaluateFragment]
    rfl
  exact (Document.ofString_eq_ok_iff written).mpr ⟨evaluates, by decide⟩

theorem readable
    (detail : String) :
    Document.ofString typed ≠ .error (.malformed detail) := by
  rw [Document.ofString_eq alsoWritten, ← Document.ofString_eq written, parsed]
  nofun

/-- A pet that spreads itself, behind an argument with a value that is not too large. -/
def circular : String :=
  "\x7b pets(first: 1) \x7d fragment Pet on Pet \x7b parent \x7b ...Pet \x7d \x7d"

theorem refused :
    Document.ofString circular = .error (.fragmentCycle "Pet") := by
  cbv

/-- The type of the pets makes no difference; the circle does. -/
theorem only_operations_and_fragments_decide :
    AreSound definitions ∧ Document.ofString typed = .ok document ∧
      ∃ items, ReadsAs circular items ∧ AreSound items.reduceOption ∧
        LeadsBack (fragmentsOf items.reduceOption) "Pet" := by
  have accepted : ∀ detail, Document.ofString query ≠ .error (.malformed detail) := by
    rw [parsed]
    nofun
  obtain ⟨items, reads, unique, decides, _, same⟩ := Document.ofString_decides accepted
  obtain ⟨others, alsoReads, isReduced⟩ := exists_readsAs written
  cases unique others alsoReads
  obtain ⟨otherItems, otherReads, sameDefinitions⟩ := exists_readsAs alsoWritten
  refine ⟨?_, ?_, ?_⟩
  · rw [← isReduced]
    exact (decides.mp ⟨document, parsed⟩).1
  · rw [← parsed]
    exact same typed otherItems readable otherReads (sameDefinitions.trans isReduced.symm)
  · have notMalformed : ∀ detail, Document.ofString circular ≠ .error (.malformed detail) := by
      rw [refused]
      nofun
    obtain ⟨items, reads, _, _, reported, _⟩ := Document.ofString_decides notMalformed
    exact ⟨items, reads, reported "Pet" refused⟩

end Typed

end QueryGateway.Query
