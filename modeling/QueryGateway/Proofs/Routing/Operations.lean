import QueryGateway.Proofs.Routing.Table

/-!
# What can be asked of a table

A table is changed by four operations and read by three.  An operation answers,
or is refused with an error, and leaves a table behind.

`Effect` says what each operation does, in terms of the list of mappings and of
the version only: where a mapping is put in or taken out, when an operation is
refused and with which error, and that a refusal and a reading leave everything
as it was.  The main statement is that every operation on a table that was built
and then worked on has its effect, and that ids stay distinct all along.
-/

namespace QueryGateway.Routing

/-! ## Operations -/

inductive Change where
  | add (mapping : Mapping)
  | update (id ingress egress : String)
  | delete (id : String)
  | replace (mappings : List Mapping)
deriving DecidableEq, Repr

inductive Operation where
  | change (change : Change)
  | get (id : String)
  | list
  | resolve (address : String)
deriving DecidableEq, Repr

/-- What an operation answers, unless it is refused. -/
inductive Answer where
  | entry (entry : Entry)
  | version (version : Nat)
  | found (entry : Option Entry)
  | listed (entries : List Entry)
  | resolved (egress : Option String)
deriving DecidableEq, Repr

namespace Table

/-- The answer to a change and the next table. -/
def change (table : Table) : Change → Except RoutingError (Answer × Table)
  | .add mapping => do
      return (.entry mapping.entry, ← table.add mapping)
  | .update id ingress egress => do
      let (mapping, next) ← table.update id ingress egress
      return (.entry mapping.entry, next)
  | .delete id => do
      let (mapping, next) ← table.delete id
      return (.entry mapping.entry, next)
  | .replace mappings => do
      let next ← table.replace mappings
      return (.version next.version, next)

/-- The result of a change and the table that is there afterwards. -/
def changed (table : Table) (change : Change) : Except RoutingError Answer × Table :=
  match table.change change with
  | .ok (answer, next) => (.ok answer, next)
  | .error error => (.error error, table)

def perform (table : Table) : Operation → Except RoutingError Answer × Table
  | .change change => table.changed change
  | .get id => (.ok (.found (table.get? id)), table)
  | .list => (.ok (.listed table.entries), table)
  | .resolve address => (.ok (.resolved (table.resolve? address)), table)

def performAll (table : Table) (operations : List Operation) : Table :=
  operations.foldl (fun table operation => (table.perform operation).2) table

end Table

/-! ## Effects -/

/-- The effect of a change on a table: its result and the next table. -/
inductive ChangeEffect (table : Table) : Change → Except RoutingError Answer → Table → Prop where
  | added
      {mapping : Mapping}
      (isNew : mapping.id ∉ table.ids) :
      ChangeEffect table (.add mapping) (.ok (.entry mapping.entry))
        ⟨table.mappings ++ [mapping], table.version + 1⟩
  | addRefused
      {mapping : Mapping}
      (known : mapping.id ∈ table.ids) :
      ChangeEffect table (.add mapping) (.error (.duplicateId mapping.id)) table
  | updated
      {id ingress egress : String}
      {pattern : Pattern.Regex}
      {front back : List Mapping}
      {held : Mapping}
      (compiles : compilePattern ingress = .ok pattern)
      (holds : table.Holds id front held back) :
      ChangeEffect table (.update id ingress egress) (.ok (.entry ⟨id, ingress, egress⟩))
        ⟨front ++ ⟨id, ingress, egress, pattern⟩ :: back, table.version + 1⟩
  | updateFaulty
      {id ingress egress detail : String}
      (faulty : compilePattern ingress = .error (.invalidPattern ingress detail)) :
      ChangeEffect table (.update id ingress egress) (.error (.invalidPattern ingress detail)) table
  | updateRefused
      {id ingress egress : String}
      {pattern : Pattern.Regex}
      (compiles : compilePattern ingress = .ok pattern)
      (unknown : id ∉ table.ids) :
      ChangeEffect table (.update id ingress egress) (.error (.notFound id)) table
  | deleted
      {id : String}
      {front back : List Mapping}
      {held : Mapping}
      (holds : table.Holds id front held back) :
      ChangeEffect table (.delete id) (.ok (.entry held.entry))
        ⟨front ++ back, table.version + 1⟩
  | deleteRefused
      {id : String}
      (unknown : id ∉ table.ids) :
      ChangeEffect table (.delete id) (.error (.notFound id)) table
  | replaced
      {mappings : List Mapping}
      (distinct : (mappings.map (·.id)).Nodup) :
      ChangeEffect table (.replace mappings) (.ok (.version (table.version + 1)))
        ⟨mappings, table.version + 1⟩
  | replaceRefused
      {mappings : List Mapping}
      {id : String}
      {front back : List String}
      (ids : mappings.map (·.id) = front ++ id :: back)
      (distinct : front.Nodup)
      (again : id ∈ front) :
      ChangeEffect table (.replace mappings) (.error (.duplicateId id)) table

/-- The effect of an operation on a table; reading has none. -/
inductive Effect (table : Table) : Operation → Except RoutingError Answer → Table → Prop where
  | change
      {change : Change}
      {result : Except RoutingError Answer}
      {next : Table}
      (effect : ChangeEffect table change result next) :
      Effect table (.change change) result next
  | get
      (id : String) :
      Effect table (.get id) (.ok (.found (table.get? id))) table
  | list :
      Effect table .list (.ok (.listed table.entries)) table
  | resolve
      (address : String) :
      Effect table (.resolve address) (.ok (.resolved (table.resolve? address))) table

namespace Table

/-! ## Every operation has its effect -/

theorem changed_of_ok
    {table next : Table}
    {change : Change}
    {answer : Answer}
    (succeeds : table.change change = .ok (answer, next)) :
    table.changed change = (.ok answer, next) := by
  rw [changed, succeeds]

theorem changed_of_error
    {table : Table}
    {change : Change}
    {error : RoutingError}
    (fails : table.change change = .error error) :
    table.changed change = (.error error, table) := by
  rw [changed, fails]

theorem update_eq
    (table : Table)
    (id ingress egress : String) :
    table.update id ingress egress =
      match compilePattern ingress with
      | .error error => .error error
      | .ok pattern =>
          (table.put ⟨id, ingress, egress, pattern⟩).map (⟨id, ingress, egress, pattern⟩, ·) := by
  rw [update, Mapping.compile]
  cases compilePattern ingress with
  | error error => rfl
  | ok pattern =>
      simp only [bind, Except.bind, pure, Except.pure]
      cases table.put ⟨id, ingress, egress, pattern⟩ <;> rfl

/-- A pattern that cannot be compiled is told in the error. -/
theorem compilePattern_cases
    (ingress : String) :
    (∃ pattern, compilePattern ingress = .ok pattern) ∨
      ∃ detail, compilePattern ingress = .error (.invalidPattern ingress detail) := by
  rw [compilePattern]
  cases Pattern.Regex.ofString? (anchored ingress) with
  | none => exact .inr ⟨patternDetail, rfl⟩
  | some pattern => exact .inl ⟨pattern, rfl⟩

theorem changeEffect_changed
    (table : Table)
    (change : Change) :
    ChangeEffect table change (table.changed change).1 (table.changed change).2 := by
  cases change with
  | add mapping =>
      by_cases known : mapping.id ∈ table.ids
      · have refused : table.change (.add mapping) = .error (.duplicateId mapping.id) := by
          rw [Table.change, add_of_known known]
          rfl
        rw [changed_of_error refused]
        exact .addRefused known
      · have added : table.change (.add mapping) =
            .ok (.entry mapping.entry, table.publish (table.mappings ++ [mapping])) := by
          rw [Table.change, add_of_new known]
          rfl
        rw [changed_of_ok added]
        exact .added known
  | update id ingress egress =>
      rcases compilePattern_cases ingress with ⟨pattern, compiles⟩ | ⟨detail, faulty⟩
      · have update := table.update_eq id ingress egress
        simp only [compiles] at update
        by_cases known : id ∈ table.ids
        · obtain ⟨front, held, back, holds⟩ := exists_holds known
          have put : table.put ⟨id, ingress, egress, pattern⟩ =
              .ok (table.publish (front ++ ⟨id, ingress, egress, pattern⟩ :: back)) :=
            Holds.put_eq holds
          have updated : table.change (.update id ingress egress) =
              .ok (.entry ⟨id, ingress, egress⟩,
                table.publish (front ++ ⟨id, ingress, egress, pattern⟩ :: back)) := by
            rw [Table.change, update, put]
            rfl
          rw [changed_of_ok updated]
          exact .updated compiles holds
        · have put : table.put ⟨id, ingress, egress, pattern⟩ = .error (.notFound id) :=
            put_of_unknown known
          have refused : table.change (.update id ingress egress) = .error (.notFound id) := by
            rw [Table.change, update, put]
            rfl
          rw [changed_of_error refused]
          exact .updateRefused compiles known
      · have refused : table.change (.update id ingress egress) =
            .error (.invalidPattern ingress detail) := by
          simp only [Table.change, update_eq, faulty]
          rfl
        rw [changed_of_error refused]
        exact .updateFaulty faulty
  | delete id =>
      by_cases known : id ∈ table.ids
      · obtain ⟨front, held, back, holds⟩ := exists_holds known
        have deleted : table.change (.delete id) =
            .ok (.entry held.entry, table.publish (front ++ back)) := by
          rw [Table.change, holds.delete_eq]
          rfl
        rw [changed_of_ok deleted]
        exact .deleted holds
      · have refused : table.change (.delete id) = .error (.notFound id) := by
          rw [Table.change, delete_of_unknown known]
          rfl
        rw [changed_of_error refused]
        exact .deleteRefused known
  | replace mappings =>
      by_cases distinct : (mappings.map (·.id)).Nodup
      · have replaced : table.change (.replace mappings) =
            .ok (.version (table.version + 1), table.publish mappings) := by
          rw [Table.change, replace, ensureDistinct_of_nodup distinct]
          rfl
        rw [changed_of_ok replaced]
        exact .replaced distinct
      · obtain ⟨front, id, back, ids, again, frontDistinct, isRefused⟩ :=
          exists_repeated_of_not_nodup distinct
        have refused : table.change (.replace mappings) = .error (.duplicateId id) := by
          rw [Table.change, replace, isRefused]
          rfl
        rw [changed_of_error refused]
        exact .replaceRefused ids frontDistinct again

theorem effect_perform
    (table : Table)
    (operation : Operation) :
    Effect table operation (table.perform operation).1 (table.perform operation).2 := by
  cases operation with
  | change change => exact .change (table.changeEffect_changed change)
  | get id => exact .get id
  | list => exact .list
  | resolve address => exact .resolve address

end Table

/-! ## Ids stay distinct -/

theorem ids_perm
    (front : List Mapping)
    (held : Mapping)
    (back : List Mapping) :
    ((front ++ held :: back).map (·.id)).Perm (held.id :: (front ++ back).map (·.id)) :=
  List.perm_middle.map Mapping.id

theorem Table.Holds.nodup_ids_iff
    {table : Table}
    {id : String}
    {front back : List Mapping}
    {held : Mapping}
    (holds : table.Holds id front held back) :
    table.ids.Nodup ↔ (id :: (front ++ back).map (·.id)).Nodup := by
  rw [Table.ids, holds.split, (ids_perm front held back).nodup_iff, holds.hasId]

theorem ChangeEffect.nodup_ids
    {table next : Table}
    {change : Change}
    {result : Except RoutingError Answer}
    (effect : ChangeEffect table change result next)
    (distinct : table.ids.Nodup) :
    next.ids.Nodup := by
  cases effect with
  | added isNew =>
      rw [Table.ids, List.map_append]
      refine List.nodup_append.mpr ⟨distinct, by simp, ?_⟩
      rintro id member other isAdded rfl
      rw [List.map_singleton, List.mem_singleton] at isAdded
      exact isNew (isAdded ▸ member)
  | @updated id ingress egress pattern front back held compiles holds =>
      -- The new mapping has the id of the one it replaces.
      exact (ids_perm front ⟨id, ingress, egress, pattern⟩ back).nodup_iff.mpr
        (holds.nodup_ids_iff.mp distinct)
  | deleted holds => exact (List.nodup_cons.mp (holds.nodup_ids_iff.mp distinct)).2
  | replaced newDistinct => exact newDistinct
  | addRefused | updateFaulty | updateRefused | deleteRefused | replaceRefused => exact distinct

theorem Effect.nodup_ids
    {table next : Table}
    {operation : Operation}
    {result : Except RoutingError Answer}
    (effect : Effect table operation result next)
    (distinct : table.ids.Nodup) :
    next.ids.Nodup := by
  cases effect with
  | change effect => exact effect.nodup_ids distinct
  | get | list | resolve => exact distinct

theorem Table.performAll_append
    (table : Table)
    (before after : List Operation) :
    table.performAll (before ++ after) = (table.performAll before).performAll after :=
  List.foldl_append

theorem Table.nodup_ids_performAll
    {table : Table}
    (distinct : table.ids.Nodup)
    (operations : List Operation) :
    (table.performAll operations).ids.Nodup := by
  induction operations generalizing table with
  | nil => exact distinct
  | cons operation operations induction =>
      exact induction ((table.effect_perform operation).nodup_ids distinct)

/--
Whatever is asked of a table that was built from mappings, its ids are distinct,
and each operation has its effect on the table that the ones before it left.
-/
theorem Table.performAll_of_built
    {mappings : List Mapping}
    {table : Table}
    (built : Table.ofMappings mappings = .ok table)
    (operations : List Operation) :
    (table.performAll operations).ids.Nodup ∧
      ∀ before operation after,
        operations = before ++ operation :: after →
          Effect (table.performAll before) operation
            ((table.performAll before).perform operation).1
            (table.performAll (before ++ [operation])) := by
  obtain ⟨distinct, rfl⟩ := Table.ofMappings_eq_ok_iff.mp built
  have builtDistinct : (Table.ids ⟨mappings, 0⟩).Nodup := distinct
  constructor
  · exact Table.nodup_ids_performAll builtDistinct operations
  · rintro before operation after rfl
    rw [Table.performAll_append]
    exact Table.effect_perform _ operation

/-! ## A pet shop that is closed and opened again -/

namespace PetShop

def pets : Mapping :=
  (Mapping.compile "pets" "http://gateway/pets/(.*)" "http://pets/$1").toOption.get
    (by decide +kernel)

def toys : Mapping :=
  (Mapping.compile "toys" "http://gateway/toys" "http://toys").toOption.get (by decide +kernel)

def opened : Table :=
  ⟨[pets, toys], 0⟩

/-- The first two requests are refused, as is the last one. -/
def requests : List Operation :=
  [.change (.add pets), .change (.update "toys" "(" "http://toys"), .change (.delete "pets"), .list,
    .change (.update "toys" ".*" "http://toys"), .change (.add pets), .change (.delete "dogs")]

theorem built :
    Table.ofMappings [pets, toys] = .ok opened :=
  Table.ofMappings_eq_ok_iff.mpr ⟨by decide +kernel, rfl⟩

theorem pets_are_taken_out :
    Table.ofMappings [pets, toys] = .ok opened ∧
      (opened.performAll requests).ids.Nodup ∧
      Effect (opened.performAll (requests.take 2)) (.change (.delete "pets"))
        ((opened.performAll (requests.take 2)).perform (.change (.delete "pets"))).1
        (opened.performAll (requests.take 3)) := by
  obtain ⟨distinct, effects⟩ := Table.performAll_of_built built requests
  exact ⟨built, distinct,
    effects (requests.take 2) (.change (.delete "pets")) (requests.drop 3) rfl⟩

example :
    (opened.performAll requests).ids = ["toys", "pets"] ∧
      (opened.performAll requests).version = 3 := by
  decide +kernel

end PetShop

end QueryGateway.Routing
