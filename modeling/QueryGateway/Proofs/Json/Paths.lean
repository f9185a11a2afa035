import QueryGateway.Proofs.Json.Exactness
import QueryGateway.Proofs.Json.RoundTrip

/-!
# Scalars in a text, and how they are written again

A path leads from a document to a value within it.  Whatever is found in the
value of a text stands in the text at the same path, and whatever stands in the
text of a value is found in the value.

`Tree.Rewrites` says what becomes of a scalar that is read and written again.
Nulls, booleans and strings stay what they are.  A number becomes the decimal
of what it is held as, which is the same number for every numeral that is kept.
-/

namespace QueryGateway.Json

/-! ## Paths -/

/-- A step into a container. -/
inductive PathStep where
  | key (key : String)
  | index (index : Nat)
deriving DecidableEq

/-- The way from a document to a value within it. -/
abbrev Path :=
  List PathStep

/-- The value at the end of a path. -/
def Value.at? : Value → Path → Option Value
  | value, [] => some value
  | .object members, .key key :: path =>
      (Members.find? members key).bind fun value => value.at? path
  | .array elements, .index index :: path => elements[index]?.bind fun element => element.at? path
  | _, _ => none

/-- The tree at the end of a path; where a key is repeated, its last entry counts. -/
def Tree.at? : Tree → Path → Option Tree
  | tree, [] => some tree
  | .object entries, .key key :: path =>
      (Tree.member? key entries).bind fun entry => entry.at? path
  | .array elements, .index index :: path => elements[index]?.bind fun element => element.at? path
  | _, _ => none

/-- A tree stands at a path; where a key is repeated, each of its entries does. -/
inductive Tree.Has : Tree → Path → Tree → Prop where
  | here (tree : Tree) : Tree.Has tree [] tree
  | entry
      {entries : List (String × Tree)}
      {key : String}
      {entry inner : Tree}
      {path : Path}
      (isEntry : (key, entry) ∈ entries)
      (inside : Tree.Has entry path inner) :
      Tree.Has (.object entries) (.key key :: path) inner
  | element
      {elements : List Tree}
      {index : Nat}
      {element inner : Tree}
      {path : Path}
      (isElement : elements[index]? = some element)
      (inside : Tree.Has element path inner) :
      Tree.Has (.array elements) (.index index :: path) inner

/-- Is it neither an array nor an object? -/
def Tree.isScalar : Tree → Bool
  | .array _ => false
  | .object _ => false
  | _ => true

@[simp]
theorem Value.at?_nil
    (value : Value) :
    value.at? [] = some value := by
  cases value <;> rfl

@[simp]
theorem Tree.at?_nil
    (tree : Tree) :
    tree.at? [] = some tree := by
  cases tree <;> rfl

/-- Nothing is inside a scalar. -/
theorem Value.at?_of_isScalar
    {value found : Value}
    (isScalar : value.isScalar = true)
    {path : Path}
    (isFound : value.at? path = some found) :
    path = [] ∧ found = value := by
  cases path with
  | nil =>
      rw [Value.at?_nil] at isFound
      cases isFound
      exact ⟨rfl, rfl⟩
  | cons step path =>
      cases value with
      | array => cases isScalar
      | object => cases isScalar
      | null => cases step <;> cases isFound
      | bool => cases step <;> cases isFound
      | number => cases step <;> cases isFound
      | string => cases step <;> cases isFound

/-! ## What is found stands in the text -/

theorem getElem?_of_values?
    {trees : List Tree}
    {values : List Value}
    (areValues : Tree.values? trees = some values)
    {index : Nat}
    {value : Value}
    (isElement : values[index]? = some value) :
    ∃ tree, trees[index]? = some tree ∧ tree.value? = some value := by
  induction trees generalizing values index with
  | nil =>
      cases areValues
      cases isElement
  | cons first trees induction =>
      rcases Tree.values?_cons_eq_some_iff.mp areValues with
        ⟨firstValue, others, isFirst, areOthers, rfl⟩
      cases index with
      | zero =>
          cases isElement
          exact ⟨first, rfl, isFirst⟩
      | succ index => exact induction areOthers isElement

/-- A value that is found in the value of a tree is written in the tree at the same path. -/
theorem Tree.exists_at?_of_value?
    {tree : Tree}
    {value found : Value}
    (isValue : tree.value? = some value)
    {path : Path}
    (isFound : value.at? path = some found) :
    ∃ inner, tree.at? path = some inner ∧ inner.value? = some found := by
  induction path generalizing tree value with
  | nil =>
      rw [Value.at?_nil] at isFound
      cases isFound
      exact ⟨tree, tree.at?_nil, isValue⟩
  | cons step path induction =>
      cases tree with
      | null =>
          cases isValue
          cases (Value.at?_of_isScalar rfl isFound).1
      | bool =>
          cases isValue
          cases (Value.at?_of_isScalar rfl isFound).1
      | string =>
          cases isValue
          cases (Value.at?_of_isScalar rfl isFound).1
      | number =>
          rcases Option.map_eq_some_iff.mp isValue with ⟨_, _, rfl⟩
          cases (Value.at?_of_isScalar rfl isFound).1
      | array trees =>
          rcases Option.map_eq_some_iff.mp isValue with ⟨values, areValues, rfl⟩
          cases step with
          | key => cases isFound
          | index index =>
              rcases Option.bind_eq_some_iff.mp isFound with ⟨element, isElement, inside⟩
              rcases getElem?_of_values? areValues isElement with ⟨inner, isInner, isElement⟩
              rcases induction isElement inside with ⟨last, isLast, result⟩
              exact ⟨last, Option.bind_eq_some_iff.mpr ⟨inner, isInner, isLast⟩, result⟩
      | object entries =>
          rcases Option.map_eq_some_iff.mp isValue with ⟨values, areValues, rfl⟩
          cases step with
          | index => cases isFound
          | key key =>
              rcases Option.bind_eq_some_iff.mp isFound with ⟨member, isMember, inside⟩
              rw [find?_of_entryValues? areValues] at isMember
              rcases Option.bind_eq_some_iff.mp isMember with ⟨inner, isInner, isMember⟩
              rcases induction isMember inside with ⟨last, isLast, result⟩
              exact ⟨last, Option.bind_eq_some_iff.mpr ⟨inner, isInner, isLast⟩, result⟩

/-! ## What stands in the text is found -/

theorem getElem?_trees
    (elements : List Value)
    (index : Nat) :
    (Value.trees elements)[index]? = elements[index]?.map Value.tree := by
  induction elements generalizing index with
  | nil => rfl
  | cons first elements induction =>
      cases index with
      | zero => rfl
      | succ index => exact induction index

theorem exists_member_of_mem_entryTrees
    {members : List (String × Value)}
    {key : String}
    {tree : Tree}
    (isEntry : (key, tree) ∈ Value.entryTrees members) :
    ∃ value, (key, value) ∈ members ∧ tree = value.tree := by
  induction members with
  | nil => cases isEntry
  | cons first members induction =>
      rcases List.mem_cons.mp isEntry with isFirst | isOther
      · cases isFirst
        exact ⟨first.2, List.mem_cons_self, rfl⟩
      · rcases induction isOther with ⟨value, isMember, same⟩
        exact ⟨value, List.mem_cons_of_mem _ isMember, same⟩

/-- Whatever stands in the tree of a value is the tree of what is found at the path. -/
theorem Value.IsHeld.exists_at?_of_has
    {depth : Nat}
    {value : Value}
    (isHeld : value.IsHeld depth)
    {path : Path}
    {inner : Tree}
    (has : value.tree.Has path inner) :
    ∃ found, value.at? path = some found ∧ inner = found.tree := by
  generalize isTree : value.tree = tree at has
  induction has generalizing depth value with
  | here =>
      subst isTree
      exact ⟨value, value.at?_nil, rfl⟩
  | entry isEntry _ induction =>
      cases isHeld with
      | null => cases isTree
      | bool => cases isTree
      | number => cases isTree
      | string => cases isTree
      | array => cases isTree
      | object distinct inside =>
          cases isTree
          rcases exists_member_of_mem_entryTrees isEntry with ⟨member, isMember, rfl⟩
          rcases induction (inside _ member isMember) rfl with ⟨found, isFound, rfl⟩
          have isFirst := (Members.find?_eq_some_iff distinct).mpr isMember
          exact ⟨found, Option.bind_eq_some_iff.mpr ⟨member, isFirst, isFound⟩, rfl⟩
  | element isElement _ induction =>
      cases isHeld with
      | null => cases isTree
      | bool => cases isTree
      | number => cases isTree
      | string => cases isTree
      | object => cases isTree
      | array inside =>
          cases isTree
          rw [getElem?_trees] at isElement
          rcases Option.map_eq_some_iff.mp isElement with ⟨value, isValue, rfl⟩
          rcases induction (inside value (List.mem_of_getElem? isValue)) rfl with
            ⟨found, isFound, rfl⟩
          exact ⟨found, Option.bind_eq_some_iff.mpr ⟨value, isValue, isFound⟩, rfl⟩

/-! ## Scalars -/

/-- What becomes of a scalar that is read and written again. -/
inductive Tree.Rewrites : Tree → Tree → Prop where
  | null : Tree.Rewrites .null .null
  | bool (value : Bool) : Tree.Rewrites (.bool value) (.bool value)
  | string (value : String) : Tree.Rewrites (.string value) (.string value)
  /-- A number is written as what it is held as; this is the same number if it is kept. -/
  | number
      {numeral : Numeral}
      {number : Number}
      (held : numeral.number? = some number)
      (exact : numeral.IsKept → number.numeral.value = numeral.value) :
      Tree.Rewrites (.number numeral) (.number number.numeral)

theorem Value.isScalar_tree
    (value : Value) :
    value.tree.isScalar = value.isScalar := by
  cases value <;> rfl

/-- A scalar that is read from a tree is written as the tree is rewritten. -/
theorem Tree.rewrites_of_value?
    {tree : Tree}
    {value : Value}
    (isScalar : value.isScalar = true)
    (isValue : tree.value? = some value) :
    tree.Rewrites value.tree := by
  cases tree with
  | null =>
      cases isValue
      exact .null
  | bool value =>
      cases isValue
      exact .bool value
  | string value =>
      cases isValue
      exact .string value
  | number numeral =>
      rcases Option.map_eq_some_iff.mp isValue with ⟨number, held, rfl⟩
      exact .number held fun isKept => isKept.value_eq held
  | array =>
      rcases Option.map_eq_some_iff.mp isValue with ⟨_, _, rfl⟩
      cases isScalar
  | object =>
      rcases Option.map_eq_some_iff.mp isValue with ⟨_, _, rfl⟩
      cases isScalar

end QueryGateway.Json
