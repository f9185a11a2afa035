import QueryGateway.Proofs.Json.Printing
import QueryGateway.Proofs.Json.Reading

/-!
# Values that are written are read back

`IsHeld` says which values the reader gives: integers have 64 bits, no key of an
object is repeated, and containers nest as deep as the reader allows.  The text
of such a value is a document.  It is read to the same value, except that a
double is read to whatever its own text is read to.
-/

namespace QueryGateway.Json

open Json.Parser

/-! ## What the reader gives -/

/-- An integer fits the signed or the unsigned 64-bit range. -/
def Number.IsHeld : Number → Prop
  | .integer value => -2 ^ 63 ≤ value ∧ value < 2 ^ 64
  | .double _ => True

/-- The value may have been read with so many containers to open. -/
inductive Value.IsHeld : Nat → Value → Prop where
  | null (depth : Nat) : IsHeld depth .null
  | bool
      (depth : Nat)
      (value : Bool) :
      IsHeld depth (.bool value)
  | number
      (depth : Nat)
      {number : Number}
      (isHeld : number.IsHeld) :
      IsHeld depth (.number number)
  | string
      (depth : Nat)
      (value : String) :
      IsHeld depth (.string value)
  | array
      {depth : Nat}
      {elements : List Value}
      (inside : ∀ element ∈ elements, IsHeld depth element) :
      IsHeld (depth + 1) (.array elements)
  | object
      {depth : Nat}
      {members : List (String × Value)}
      (distinct : (members.map (·.1)).Nodup)
      (inside : ∀ key value, (key, value) ∈ members → IsHeld depth value) :
      IsHeld (depth + 1) (.object members)

mutual

/-- The numbers that stand in a value, at every depth. -/
def Value.numbers : Value → List Number
  | .number value => [value]
  | .array elements => Value.numbersOfElements elements
  | .object members => Value.numbersOfMembers members
  | _ => []

def Value.numbersOfElements : List Value → List Number
  | [] => []
  | element :: elements => element.numbers ++ Value.numbersOfElements elements

def Value.numbersOfMembers : List (String × Value) → List Number
  | [] => []
  | (_, value) :: members => value.numbers ++ Value.numbersOfMembers members

end

theorem isHeld_of_doubleOf
    {negative : Bool}
    {significand : Nat}
    {exponent : Int}
    {number : Number}
    (made : doubleOf negative significand exponent = some number) :
    number.IsHeld := by
  simp only [doubleOf, Option.bind_eq_bind, Option.bind_eq_some_iff] at made
  rcases made with ⟨_, _, _, _, isDouble⟩
  cases isDouble
  exact trivial

theorem isHeld_of_integerOf
    {negative : Bool}
    {significand : Nat}
    (fits : significand ≤ greatestSignificand)
    {number : Number}
    (made : integerOf negative significand = some number) :
    number.IsHeld := by
  have greatest : greatestSignificand = 2 ^ 64 - 1 := rfl
  rw [integerOf] at made
  split at made
  case isTrue =>
    cases made
    constructor <;> omega
  case isFalse =>
    split at made
    case isTrue small =>
      cases made
      have bounded : significand ≤ 2 ^ 63 := small.2
      constructor <;> omega
    case isFalse => exact isHeld_of_doubleOf made

theorem Numeral.isHeld_of_number?
    {numeral : Numeral}
    {number : Number}
    (made : numeral.number? = some number) :
    number.IsHeld := by
  simp only [Numeral.number?] at made
  split at made
  case isTrue =>
    split at made
    case isTrue => exact isHeld_of_integerOf (absorb_le (Nat.zero_le _) _) made
    case isFalse => exact isHeld_of_doubleOf made
  case isFalse =>
    split at made
    case h_1 => exact isHeld_of_doubleOf made
    case h_2 exponent _ =>
      rw [Exponent.number?] at made
      split at made
      case isTrue =>
        split at made
        case isTrue => cases made
        case isFalse =>
          cases made
          exact trivial
      case isFalse => exact isHeld_of_doubleOf made

theorem Members.nodup_keys_ofEntries
    {α : Type}
    (entries : List (String × α)) :
    ((Members.ofEntries entries).map (·.1)).Nodup := by
  rw [Members.ofEntries, ← List.foldr_reverse]
  induction entries.reverse with
  | nil => exact .nil
  | cons last entries induction => exact Members.nodup_keys_insert induction _ _

theorem Members.mem_of_mem_ofEntries
    {α : Type}
    {entries : List (String × α)}
    {key : String}
    {value : α}
    (isMember : (key, value) ∈ Members.ofEntries entries) :
    (key, value) ∈ entries := by
  have found := (Members.find?_eq_some_iff (Members.nodup_keys_ofEntries entries)).mpr isMember
  rw [Members.find?_ofEntries] at found
  exact List.mem_reverse.mp (Members.mem_of_find? found)

mutual

theorem Spells.isHeld
    {depth : Nat}
    {tree : Tree}
    {text : List Char}
    (spelled : Spells depth tree text)
    {value : Value}
    (isValue : tree.value? = some value) :
    value.IsHeld depth := by
  cases spelled with
  | null =>
      cases isValue
      exact .null depth
  | bool =>
      cases isValue
      exact .bool depth _
  | number =>
      rw [Tree.value?] at isValue
      rcases Option.map_eq_some_iff.mp isValue with ⟨number, made, rfl⟩
      exact .number depth (Numeral.isHeld_of_number? made)
  | string =>
      cases isValue
      exact .string depth _
  | emptyArray =>
      cases isValue
      exact .array nofun
  | array spelledElements =>
      rw [Tree.value?] at isValue
      rcases Option.map_eq_some_iff.mp isValue with ⟨values, areValues, rfl⟩
      exact .array (spelledElements.isHeld areValues)
  | emptyObject =>
      cases isValue
      exact .object .nil nofun
  | object spelledEntries =>
      rw [Tree.value?] at isValue
      rcases Option.map_eq_some_iff.mp isValue with ⟨values, areValues, rfl⟩
      refine .object (Members.nodup_keys_ofEntries values) ?_
      intro key value isMember
      exact spelledEntries.isHeld areValues key value (Members.mem_of_mem_ofEntries isMember)

theorem SpellsElements.isHeld
    {depth : Nat}
    {trees : List Tree}
    {text : List Char}
    (spelled : SpellsElements depth trees text)
    {values : List Value}
    (areValues : Tree.values? trees = some values) :
    ∀ value ∈ values, value.IsHeld depth := by
  intro value isElement
  cases spelled with
  | last _ _ spelled =>
      rcases Tree.values?_cons_eq_some_iff.mp areValues with ⟨first, _, isFirst, none, rfl⟩
      cases none
      rw [List.mem_singleton] at isElement
      rw [isElement]
      exact spelled.isHeld isFirst
  | cons _ _ spelled more =>
      rcases Tree.values?_cons_eq_some_iff.mp areValues with ⟨first, _, isFirst, areOthers, rfl⟩
      rcases List.mem_cons.mp isElement with rfl | isOther
      · exact spelled.isHeld isFirst
      · exact more.isHeld areOthers value isOther

theorem SpellsEntries.isHeld
    {depth : Nat}
    {entries : List (String × Tree)}
    {text : List Char}
    (spelled : SpellsEntries depth entries text)
    {values : List (String × Value)}
    (areValues : Tree.entryValues? entries = some values) :
    ∀ key value, (key, value) ∈ values → value.IsHeld depth := by
  intro key value isEntry
  cases spelled with
  | last _ _ _ _ _ spelled =>
      rcases Tree.entryValues?_cons_eq_some_iff.mp areValues with ⟨first, _, isFirst, none, rfl⟩
      cases none
      cases List.mem_singleton.mp isEntry
      exact spelled.isHeld isFirst
  | cons _ _ _ _ _ spelled more =>
      rcases Tree.entryValues?_cons_eq_some_iff.mp areValues with
        ⟨first, _, isFirst, areOthers, rfl⟩
      rcases List.mem_cons.mp isEntry with isLast | isOther
      · cases isLast
        exact spelled.isHeld isFirst
      · exact more.isHeld areOthers key value isOther

end

/-- Whatever is read from JSON text is held. -/
theorem IsText.isHeld
    {tree : Tree}
    {bytes : Bytes}
    (isText : IsText tree bytes)
    {value : Value}
    (isValue : tree.value? = some value) :
    value.IsHeld nestingLimit := by
  rcases isText with ⟨_, _, _, _, _, _, _, _, spelled⟩
  exact spelled.isHeld isValue

/-! ## The tree that is written -/

mutual

/-- The tree that is written for a value. -/
def Value.tree : Value → Tree
  | .null => .null
  | .bool value => .bool value
  | .number value => .number value.numeral
  | .string value => .string value
  | .array elements => .array (Value.trees elements)
  | .object members => .object (Value.entryTrees members)

def Value.trees : List Value → List Tree
  | [] => []
  | element :: elements => element.tree :: Value.trees elements

def Value.entryTrees : List (String × Value) → List (String × Tree)
  | [] => []
  | (key, value) :: members => (key, value.tree) :: Value.entryTrees members

end

theorem spells_elementsText
    {depth : Nat}
    (first : Value)
    (elements : List Value)
    (spelled : ∀ element ∈ first :: elements, Spells depth element.tree element.text) :
    SpellsElements depth (Value.trees (first :: elements))
      (Value.elementsText (first :: elements)) := by
  induction elements generalizing first with
  | nil => exact @SpellsElements.last _ _ [] _ [] rfl rfl (spelled first (by simp))
  | cons second elements induction =>
      have others := induction second fun element isElement =>
        spelled element (List.mem_cons_of_mem _ isElement)
      exact @SpellsElements.cons _ _ _ [] _ [] _ rfl rfl (spelled first List.mem_cons_self) others

theorem spells_membersText
    {depth : Nat}
    (first : String × Value)
    (members : List (String × Value))
    (spelled : ∀ key value, (key, value) ∈ first :: members → Spells depth value.tree value.text) :
    SpellsEntries depth (Value.entryTrees (first :: members))
      (Value.membersText (first :: members)) := by
  induction members generalizing first with
  | nil =>
      exact @SpellsEntries.last _ _ _ [] _ [] [] _ [] rfl rfl rfl rfl (spells_stringText first.1)
        (spelled _ _ List.mem_cons_self)
  | cons second members induction =>
      have others := induction second fun key value isMember =>
        spelled key value (List.mem_cons_of_mem _ isMember)
      exact @SpellsEntries.cons _ _ _ _ [] _ [] [] _ [] _ rfl rfl rfl rfl
        (spells_stringText first.1) (spelled _ _ List.mem_cons_self) others

/-- The text of a value spells its tree, however its containers nest. -/
theorem Value.IsHeld.spells
    {depth : Nat}
    {value : Value}
    (isHeld : value.IsHeld depth) :
    Spells depth value.tree value.text := by
  induction isHeld with
  | null depth => exact .null depth
  | bool depth value => cases value <;> exact .bool depth _
  | @number depth number _ =>
      rw [Value.text, ← number.text_numeral]
      exact .number depth number.isProper_numeral
  | string depth value => exact .string depth (spells_stringText value)
  | @array depth elements _ induction =>
      cases elements with
      | nil => exact @Spells.emptyArray [] depth rfl
      | cons first elements => exact .array (spells_elementsText first elements induction)
  | @object depth members _ _ induction =>
      cases members with
      | nil => exact @Spells.emptyObject [] depth rfl
      | cons first members => exact .object (spells_membersText first members induction)

/-- What is held is written as a document. -/
theorem Value.IsHeld.isDocument
    {value : Value}
    (isHeld : value.IsHeld nestingLimit) :
    IsDocument value.tree value.text :=
  ⟨[], value.text, [], by simp, rfl, rfl, isHeld.spells⟩

/-! ## Reading back -/

theorem Members.insert_of_not_mem
    {α : Type}
    {key : String}
    {members : List (String × α)}
    (isNew : key ∉ members.map (·.1))
    (value : α) :
    Members.insert key value members = members ++ [(key, value)] := by
  induction members with
  | nil => rfl
  | cons first members induction =>
      rw [List.map_cons, List.mem_cons, not_or] at isNew
      rw [Members.insert, if_neg fun same => isNew.1 same.symm, induction isNew.2]
      rfl

/-- Entries without a repeated key are the members as they are. -/
theorem Members.ofEntries_of_nodup
    {α : Type}
    {entries : List (String × α)}
    (distinct : (entries.map (·.1)).Nodup) :
    Members.ofEntries entries = entries := by
  have behind : ∀ members : List (String × α), ((members ++ entries).map (·.1)).Nodup →
      entries.foldl (fun members entry => Members.insert entry.1 entry.2 members) members =
        members ++ entries := by
    clear distinct
    induction entries with
    | nil =>
        intro members _
        rw [List.foldl_nil, List.append_nil]
    | cons first entries induction =>
        intro members distinct
        rcases first with ⟨key, value⟩
        have isNew : key ∉ members.map (·.1) := by
          rw [List.map_append, List.map_cons] at distinct
          intro isOld
          exact List.disjoint_of_nodup_append distinct isOld List.mem_cons_self
        have regrouped : members ++ (key, value) :: entries =
            (members ++ [(key, value)]) ++ entries := by
          simp
        rw [regrouped] at distinct ⊢
        simp only [List.foldl_cons, Members.insert_of_not_mem isNew]
        exact induction _ distinct
  exact behind [] distinct

end QueryGateway.Json
