import QueryGateway.Proofs.Routing.Operations

/-!
# Which addresses a change reroutes

An address goes where the first mapping that applies to it sends it.  So a
change of one mapping concerns an address only if no mapping in front of the
changed one applies to it, and if the changed one does, before or after.

What a change makes of an address is told by where the changed mapping stands.
What stands in front of it is tried before it, in the old table as in the new;
what stands behind it is reached where the new table has no mapping at its
place that applies.
-/

namespace QueryGateway.Routing

/-! ## The first mapping that applies -/

/-- A mapping is the first one that applies to an address, and stands between other mappings. -/
structure AppliesFirst (address : String) (mappings front : List Mapping) (first : Mapping)
    (back : List Mapping) : Prop where
  split : mappings = front ++ first :: back
  applies : (first.egressFor? address).isSome
  isFirst : ∀ mapping ∈ front, mapping.egressFor? address = none

/-- The egress address that mappings give for an address. -/
inductive Routes (address : String) (mappings : List Mapping) : Option String → Prop where
  | routed
      {front back : List Mapping}
      {first : Mapping}
      (appliesFirst : AppliesFirst address mappings front first back) :
      Routes address mappings (first.egressFor? address)
  | unrouted
      (nowhere : ∀ mapping ∈ mappings, mapping.egressFor? address = none) :
      Routes address mappings none

theorem routes_iff
    {address : String}
    {mappings : List Mapping}
    {egress : Option String} :
    Routes address mappings egress ↔ mappings.findSome? (·.egressFor? address) = egress := by
  constructor
  · rintro (⟨⟨rfl, applies, isFirst⟩⟩ | nowhere)
    · obtain ⟨text, isEgress⟩ := Option.isSome_iff_exists.mp applies
      rw [isEgress]
      exact List.findSome?_eq_some_iff.mpr ⟨_, _, _, rfl, isEgress, isFirst⟩
    · exact List.findSome?_eq_none_iff.mpr nowhere
  · rintro rfl
    cases found : mappings.findSome? (·.egressFor? address) with
    | none => exact .unrouted (List.findSome?_eq_none_iff.mp found)
    | some text =>
        obtain ⟨front, first, back, split, isEgress, isFirst⟩ :=
          List.findSome?_eq_some_iff.mp found
        rw [← isEgress]
        exact .routed ⟨split, by simp [isEgress], isFirst⟩

namespace Table

variable {table : Table}

theorem routes_resolve?
    (table : Table)
    (address : String) :
    Routes address table.mappings (table.resolve? address) :=
  routes_iff.mpr rfl

/-! ## A mapping among others -/

section

variable
    {address : String}
    {front back : List Mapping}
    {mapping : Mapping}
    {version : Nat}

/-- Where a mapping in front applies, it does not matter what stands behind. -/
theorem resolve?_of_front
    (applies : ∃ earlier ∈ front, (earlier.egressFor? address).isSome)
    (others : List Mapping) :
    resolve? ⟨front ++ others, version⟩ address = front.findSome? (·.egressFor? address) := by
  have found : (front.findSome? (·.egressFor? address)).isSome := by
    simpa [List.findSome?_isSome_iff] using applies
  obtain ⟨egress, found⟩ := Option.isSome_iff_exists.mp found
  rw [resolve?, List.findSome?_append, found, Option.some_or]

/-- Where no mapping in front applies, it is as if they were not there. -/
theorem resolve?_of_not_front
    (nowhere : ∀ earlier ∈ front, earlier.egressFor? address = none)
    (others : List Mapping) :
    resolve? ⟨front ++ others, version⟩ address = others.findSome? (·.egressFor? address) := by
  rw [resolve?, List.findSome?_append, List.findSome?_eq_none_iff.mpr nowhere, Option.none_or]

/-- A mapping that does not apply might as well not be there. -/
theorem resolve?_of_not_applies
    (notApplies : mapping.egressFor? address = none) :
    resolve? ⟨front ++ mapping :: back, version⟩ address =
      resolve? ⟨front ++ back, version⟩ address := by
  rw [resolve?, resolve?, List.findSome?_append, List.findSome?_append, List.findSome?_cons,
    notApplies]

end

theorem Holds.resolve?_eq
    {id : String}
    {front back : List Mapping}
    {held : Mapping}
    (holds : table.Holds id front held back)
    (address : String) :
    table.resolve? address = resolve? ⟨front ++ held :: back, table.version⟩ address := by
  rw [resolve?, resolve?, holds.split]

/-- Where ids are distinct, the first mapping that applies is the one that has its id. -/
theorem holds_of_appliesFirst
    {address : String}
    {front back : List Mapping}
    {first : Mapping}
    (distinct : table.ids.Nodup)
    (appliesFirst : AppliesFirst address table.mappings front first back) :
    table.Holds first.id front first back := by
  refine ⟨appliesFirst.split, rfl, fun mapping member same => ?_⟩
  rw [ids, appliesFirst.split, List.map_append, List.map_cons] at distinct
  exact (List.nodup_append.mp distinct).2.2 mapping.id (List.mem_map_of_mem member)
    first.id List.mem_cons_self same

theorem Holds.changed_delete
    {id : String}
    {front back : List Mapping}
    {held : Mapping}
    (holds : table.Holds id front held back) :
    table.changed (.delete id) = (.ok (.entry held.entry), table.publish (front ++ back)) := by
  refine changed_of_ok ?_
  rw [change, holds.delete_eq]
  rfl

end Table

/-! ## What a change makes of an address -/

/-- What becomes of an address if a mapping takes the place of another. -/
structure ReplacesLocally (address : String) (front : List Mapping) (held replacement : Mapping)
    (back : List Mapping) (before after : Option String) : Prop where
  /-- The first mapping that applies stands in front of both. -/
  preceded : (∃ mapping ∈ front, (mapping.egressFor? address).isSome) → after = before
  unconcerned :
    held.egressFor? address = none → replacement.egressFor? address = none → after = before
  captured :
    (∀ mapping ∈ front, mapping.egressFor? address = none) →
      (replacement.egressFor? address).isSome → after = replacement.egressFor? address
  /-- What the replacement does not take is left to the mappings behind. -/
  released :
    (∀ mapping ∈ front, mapping.egressFor? address = none) →
      replacement.egressFor? address = none → Routes address back after

/-- What the changes of a table make of an address. -/
structure Table.ChangesLocally (table : Table) (address : String) : Prop where
  added :
    ∀ mapping answer next, table.changed (.add mapping) = (.ok answer, next) →
      next.resolve? address = (table.resolve? address).or (mapping.egressFor? address)
  deleted :
    ∀ id answer next, table.changed (.delete id) = (.ok answer, next) →
      (∀ front first back, AppliesFirst address table.mappings front first back →
          first.id = id → Routes address back (next.resolve? address)) ∧
        ((∀ front first back, AppliesFirst address table.mappings front first back →
            first.id ≠ id) →
          next.resolve? address = table.resolve? address)
  updated :
    ∀ id ingress egress answer next,
      table.changed (.update id ingress egress) = (.ok answer, next) →
        ∃ front held back replacement,
          table.Holds id front held back ∧
            Mapping.compile id ingress egress = .ok replacement ∧
            ReplacesLocally address front held replacement back
              (table.resolve? address) (next.resolve? address)
  refused :
    ∀ change error next, table.changed change = (.error error, next) →
      next.resolve? address = table.resolve? address

namespace Table

variable {table : Table}

theorem resolve?_of_added
    {mapping : Mapping}
    {answer : Answer}
    {next : Table}
    (added : table.changed (.add mapping) = (.ok answer, next))
    (address : String) :
    next.resolve? address = (table.resolve? address).or (mapping.egressFor? address) := by
  have effect := table.changeEffect_changed (.add mapping)
  rw [added] at effect
  cases effect
  rw [resolve?, resolve?, List.findSome?_append, List.findSome?_cons, List.findSome?_nil]
  cases mapping.egressFor? address <;> rfl

theorem routes_of_first_deleted
    {address id : String}
    {front back : List Mapping}
    {first : Mapping}
    {answer : Answer}
    {next : Table}
    (distinct : table.ids.Nodup)
    (appliesFirst : AppliesFirst address table.mappings front first back)
    (hasId : first.id = id)
    (deleted : table.changed (.delete id) = (.ok answer, next)) :
    Routes address back (next.resolve? address) := by
  subst hasId
  have holds := holds_of_appliesFirst distinct appliesFirst
  cases deleted.symm.trans holds.changed_delete
  exact routes_iff.mpr (resolve?_of_not_front appliesFirst.isFirst back).symm

theorem resolve?_of_other_deleted
    {address id : String}
    {answer : Answer}
    {next : Table}
    (deleted : table.changed (.delete id) = (.ok answer, next))
    (notFirst :
      ∀ front first back, AppliesFirst address table.mappings front first back →
        first.id ≠ id) :
    next.resolve? address = table.resolve? address := by
  have effect := table.changeEffect_changed (.delete id)
  rw [deleted] at effect
  cases effect with
  | @deleted _ front back held holds =>
      rw [holds.resolve?_eq address]
      by_cases preceded : ∃ mapping ∈ front, (mapping.egressFor? address).isSome
      · rw [resolve?_of_front preceded, resolve?_of_front preceded]
      · have nowhere : ∀ mapping ∈ front, mapping.egressFor? address = none := by
          simpa using preceded
        -- Did it apply, then the deleted mapping would be the first one that does.
        have notApplies : held.egressFor? address = none :=
          Option.not_isSome_iff_eq_none.mp fun applies =>
            notFirst front held back ⟨holds.split, applies, nowhere⟩ holds.hasId
        rw [resolve?_of_not_applies notApplies]
        rfl

theorem replacesLocally
    {address : String}
    {front back : List Mapping}
    {held replacement : Mapping}
    {version other : Nat} :
    ReplacesLocally address front held replacement back
      (resolve? ⟨front ++ held :: back, version⟩ address)
      (resolve? ⟨front ++ replacement :: back, other⟩ address) where
  preceded := fun preceded => by
    rw [resolve?_of_front preceded, resolve?_of_front preceded]
  unconcerned := fun heldNot replacementNot => by
    rw [resolve?_of_not_applies heldNot, resolve?_of_not_applies replacementNot]
    rfl
  captured := fun nowhere applies => by
    obtain ⟨egress, isEgress⟩ := Option.isSome_iff_exists.mp applies
    rw [resolve?_of_not_front nowhere, List.findSome?_cons, isEgress]
  released := fun nowhere replacementNot => by
    rw [resolve?_of_not_front nowhere, List.findSome?_cons, replacementNot]
    exact routes_iff.mpr rfl

/--
An address is sent where the first mapping that applies to it sends it, and a
change of the table makes a difference to it only as far as the mapping that is
put in, taken out or replaced is the first one that applies, or becomes it.
-/
theorem resolves_first_and_changes_locally
    (distinct : table.ids.Nodup)
    (address : String) :
    Routes address table.mappings (table.resolve? address) ∧ table.ChangesLocally address := by
  refine ⟨table.routes_resolve? address, ⟨?_, ?_, ?_, ?_⟩⟩
  · intro mapping answer next added
    exact resolve?_of_added added address
  · intro id answer next deleted
    refine ⟨fun front first back appliesFirst hasId => ?_, resolve?_of_other_deleted deleted⟩
    exact routes_of_first_deleted distinct appliesFirst hasId deleted
  · intro id ingress egress answer next updated
    have effect := table.changeEffect_changed (.update id ingress egress)
    rw [updated] at effect
    cases effect with
    | @updated _ _ _ pattern front back held compiles holds =>
        refine ⟨front, held, back, ⟨id, ingress, egress, pattern⟩, holds, ?_, ?_⟩
        · rw [Mapping.compile, compiles]
          rfl
        · rw [holds.resolve?_eq address]
          exact replacesLocally
  · intro change error next refused
    have effect := table.changeEffect_changed change
    rw [refused] at effect
    cases effect <;> rfl

end Table

/-! ## A pet shop with a back door -/

namespace PetShop

def backDoor : Mapping :=
  (Mapping.compile "back" "http://gateway/.*" "http://back").toOption.get (by decide +kernel)

/-- Both doors lead to the toys; the first one is taken as long as it is there. -/
def twoDoors : Table :=
  ⟨[toys, backDoor], 0⟩

theorem holds_toys :
    twoDoors.Holds "toys" [] toys [backDoor] :=
  ⟨rfl, by decide +kernel, by simp⟩

theorem holds_backDoor :
    twoDoors.Holds "back" [toys] backDoor [] :=
  ⟨rfl, by decide +kernel, by simp only [List.mem_singleton, forall_eq]; decide +kernel⟩

/-- Without its own door, the address of the toys leads through the back door. -/
theorem toys_go_through_back_door :
    twoDoors.ids.Nodup ∧
      Routes "http://gateway/toys" [toys, backDoor] (some "http://toys") ∧
      twoDoors.changed (.delete "toys") =
        (.ok (.entry toys.entry), twoDoors.publish [backDoor]) ∧
      Routes "http://gateway/toys" [backDoor] (some "http://back") ∧
      twoDoors.changed (.delete "back") =
        (.ok (.entry backDoor.entry), twoDoors.publish [toys]) ∧
      (twoDoors.publish [toys]).resolve? "http://gateway/toys" = some "http://toys" := by
  have distinct : twoDoors.ids.Nodup := by decide +kernel
  have first : AppliesFirst "http://gateway/toys" twoDoors.mappings [] toys [backDoor] :=
    ⟨rfl, by decide +kernel, by simp⟩
  have resolved : twoDoors.resolve? "http://gateway/toys" = some "http://toys" := by
    decide +kernel
  have back : (twoDoors.publish [backDoor]).resolve? "http://gateway/toys" =
      some "http://back" := by
    decide +kernel
  obtain ⟨routes, changes⟩ :=
    Table.resolves_first_and_changes_locally distinct "http://gateway/toys"
  have moved :=
    (changes.deleted _ _ _ holds_toys.changed_delete).1 [] toys [backDoor] first holds_toys.hasId
  have kept := (changes.deleted _ _ _ holds_backDoor.changed_delete).2 ?_
  · rw [resolved] at routes kept
    rw [List.nil_append, back] at moved
    rw [List.append_nil] at kept
    exact ⟨distinct, routes, holds_toys.changed_delete, moved, holds_backDoor.changed_delete, kept⟩
  · -- The mapping in front applies, so no other is the first one that does.
    rintro front other behind ⟨split, _, isFirst⟩
    rcases List.cons_eq_append_iff.mp split with ⟨_, same⟩ | ⟨others, rfl, _⟩
    · rw [(List.cons.inj same).1]
      decide +kernel
    · have applies : toys.egressFor? "http://gateway/toys" ≠ none := by decide +kernel
      exact absurd (isFirst toys List.mem_cons_self) applies

end PetShop

end QueryGateway.Routing
