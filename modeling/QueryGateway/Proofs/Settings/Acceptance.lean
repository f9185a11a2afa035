import QueryGateway.Proofs.Routing.Supply
import QueryGateway.Settings.Validation

/-!
# Configurations whose mappings can be used

Mappings are checked where a configuration is validated, and again where they are
compiled and put into a table.  The two checks are made in different ways: the
first one passes over missing ids and reports every problem, the second one draws
ids and stops at the first fault.

They agree.  Validation reports no problem with a mapping if and only if the
mappings are compiled and both a new table and every table that is there already
take them; and then the table holds the mappings as they are configured.
-/

namespace QueryGateway.Settings

open Routing

/-- The problem is one with a field of some mapping. -/
def Problem.IsAboutMapping (problem : Problem) : Prop :=
  ∃ index name, problem.field = mappingField index name

/-! ## Problems of mappings and other problems -/

theorem head?_mappingField
    (index : Nat)
    (name : String) :
    (mappingField index name).toList.head? = some 'm' := by
  simp [mappingField, String.toList_append]

/-- The fields of other sections have other names. -/
theorem Problem.not_isAboutMapping
    {problem : Problem}
    (startsOtherwise : problem.field.toList.head? ≠ some 'm') :
    ¬ problem.IsAboutMapping := by
  rintro ⟨index, name, isField⟩
  exact startsOtherwise (isField ▸ head?_mappingField index name)

theorem field_of_mem_addressProblems
    {field address : String}
    {problem : Problem}
    (isProblem : problem ∈ addressProblems field address) :
    problem.field = field := by
  rw [addressProblems] at isProblem
  split at isProblem
  · cases isProblem
  · rw [List.mem_singleton.mp isProblem]

theorem field_of_mem_limitProblems
    {field message : String}
    {limit : Nat}
    {problem : Problem}
    (isProblem : problem ∈ limitProblems field message limit) :
    problem.field = field := by
  rw [limitProblems] at isProblem
  split at isProblem
  · rw [List.mem_singleton.mp isProblem]
  · cases isProblem

theorem isAboutMapping_of_mem_patternProblems
    {index : Nat}
    {ingress : String}
    {problem : Problem}
    (isProblem : problem ∈ patternProblems index ingress) :
    problem.IsAboutMapping := by
  rw [patternProblems] at isProblem
  split at isProblem
  · cases isProblem
  · rw [List.mem_singleton.mp isProblem]
    exact ⟨index, "ingress", rfl⟩

theorem isAboutMapping_of_mem_idProblems
    {index : Nat}
    {seen : List String}
    {id : Option String}
    {problem : Problem}
    (isProblem : problem ∈ idProblems index seen id) :
    problem.IsAboutMapping := by
  cases id with
  | none => cases isProblem
  | some id =>
      rw [idProblems] at isProblem
      split at isProblem
      · rw [List.mem_singleton.mp isProblem]
        exact ⟨index, "id", rfl⟩
      · cases isProblem

theorem isAboutMapping_of_mem_mappingProblems
    {index : Nat}
    {seen : List String}
    {drafts : List Draft}
    {problem : Problem}
    (isProblem : problem ∈ mappingProblems index seen drafts) :
    problem.IsAboutMapping := by
  induction drafts generalizing index seen with
  | nil => cases isProblem
  | cons draft drafts induction =>
      rw [mappingProblems, List.mem_append, List.mem_append] at isProblem
      rcases isProblem with (ofPattern | ofId) | ofOthers
      · exact isAboutMapping_of_mem_patternProblems ofPattern
      · exact isAboutMapping_of_mem_idProblems ofId
      · exact induction ofOthers

/-- The problems that are about mappings are those that were found with the mappings. -/
theorem Configuration.mem_mappingProblems_iff
    {configuration : Configuration}
    {problem : Problem} :
    problem ∈ mappingProblems 0 [] configuration.mappings ↔
      problem ∈ configuration.problems ∧ problem.IsAboutMapping := by
  constructor
  · intro isProblem
    refine ⟨?_, isAboutMapping_of_mem_mappingProblems isProblem⟩
    simp [Configuration.problems, isProblem]
  · rintro ⟨isProblem, isAboutMapping⟩
    have ofOtherField : ∀ field, problem.field = field → field.toList.head? = some 'm' := by
      rintro field rfl
      by_contra startsOtherwise
      exact Problem.not_isAboutMapping startsOtherwise isAboutMapping
    simp only [Configuration.problems, List.mem_append] at isProblem
    rcases isProblem with ((((((isProblem | isProblem) | isProblem) | isProblem) | isProblem) |
      isProblem) | isProblem)
    · cases ofOtherField _ (field_of_mem_addressProblems isProblem)
    · split at isProblem
      · cases ofOtherField _ (field_of_mem_addressProblems isProblem)
      · cases isProblem
    · split at isProblem
      · cases ofOtherField _ (field_of_mem_addressProblems isProblem)
      · cases isProblem
    · exact isProblem
    · cases ofOtherField _ (field_of_mem_limitProblems isProblem)
    · cases ofOtherField _ (field_of_mem_limitProblems isProblem)
    · cases ofOtherField _ (field_of_mem_limitProblems isProblem)

theorem Configuration.validate_eq_error_iff
    {configuration : Configuration}
    {problems : List Problem} :
    configuration.validate = .error problems ↔
      problems = configuration.problems ∧ problems ≠ [] := by
  rw [Configuration.validate]
  cases configuration.problems with
  | nil =>
      constructor
      · rintro ⟨⟩
      · rintro ⟨rfl, isEmpty⟩
        exact (isEmpty rfl).elim
  | cons first others =>
      constructor
      · rintro ⟨⟩
        exact ⟨rfl, List.cons_ne_nil _ _⟩
      · rintro ⟨rfl, _⟩
        rfl

/-- No problem with a mapping is reported if and only if none was found with the mappings. -/
theorem Configuration.reports_no_mapping_iff
    {configuration : Configuration} :
    (∀ problems, configuration.validate = .error problems →
        ∀ problem ∈ problems, ¬ problem.IsAboutMapping) ↔
      mappingProblems 0 [] configuration.mappings = [] := by
  rw [List.eq_nil_iff_forall_not_mem]
  constructor
  · intro reportsNone problem isFound
    obtain ⟨isProblem, isAboutMapping⟩ := mem_mappingProblems_iff.mp isFound
    have isReported := validate_eq_error_iff.mpr ⟨rfl, List.ne_nil_of_mem isProblem⟩
    exact reportsNone _ isReported problem isProblem isAboutMapping
  · intro findsNone problems isReported problem isProblem isAboutMapping
    obtain ⟨rfl, _⟩ := validate_eq_error_iff.mp isReported
    exact findsNone problem (mem_mappingProblems_iff.mpr ⟨isProblem, isAboutMapping⟩)

/-! ## When there is no problem with a mapping -/

theorem patternProblems_eq_nil_iff
    (index : Nat)
    (ingress : String) :
    patternProblems index ingress = [] ↔ ∃ pattern, compilePattern ingress = .ok pattern := by
  rw [patternProblems]
  cases compilePattern ingress with
  | ok pattern => simp
  | error error => simp

theorem idProblems_eq_nil_iff
    (index : Nat)
    (seen : List String)
    (id : Option String) :
    idProblems index seen id = [] ↔ ∀ written ∈ id.toList, written ∉ seen := by
  cases id with
  | none => simp [idProblems]
  | some id => simp [idProblems]

/-- Mappings are without problems if they can be compiled and no id comes up again. -/
theorem mappingProblems_eq_nil_iff
    (index : Nat)
    (seen : List String)
    (drafts : List Draft) :
    mappingProblems index seen drafts = [] ↔
      (∀ draft ∈ drafts, ∃ pattern, compilePattern draft.ingress = .ok pattern) ∧
        (writtenIds drafts).Nodup ∧ ∀ id ∈ writtenIds drafts, id ∉ seen := by
  induction drafts generalizing index seen with
  | nil => simp [mappingProblems, writtenIds]
  | cons draft drafts induction =>
      have names : writtenIds (draft :: drafts) = draft.id.toList ++ writtenIds drafts := by
        rw [writtenIds, List.filterMap_cons]
        cases draft.id with
        | none => rfl
        | some id => rfl
      rw [mappingProblems, List.append_eq_nil_iff, List.append_eq_nil_iff,
        patternProblems_eq_nil_iff, idProblems_eq_nil_iff, induction, names,
        List.forall_mem_cons, List.nodup_append, List.forall_mem_append]
      have single : draft.id.toList.Nodup := by
        cases draft.id with
        | none => exact List.nodup_nil
        | some id => simp
      constructor
      · rintro ⟨⟨compiles, unseen⟩, othersCompile, distinct, othersUnseen⟩
        refine ⟨⟨compiles, othersCompile⟩, ⟨single, distinct, ?_⟩, unseen, ?_⟩
        · rintro id isFirst _ isOther rfl
          exact othersUnseen id isOther (List.mem_append_left _ isFirst)
        · intro id isOther isSeen
          exact othersUnseen id isOther (List.mem_append_right _ isSeen)
      · rintro ⟨⟨compiles, othersCompile⟩, ⟨_, distinct, notAgain⟩, unseen, othersUnseen⟩
        refine ⟨⟨compiles, unseen⟩, othersCompile, distinct, ?_⟩
        intro id isOther isSeen
        rcases List.mem_append.mp isSeen with isFirst | isSeen
        · exact notAgain id isFirst id isOther rfl
        · exact othersUnseen id isOther isSeen

/-! ## Starting and reloading -/

theorem exists_table_iff
    (mappings : List Mapping) :
    (∃ table, Table.ofMappings mappings = .ok table) ↔ (mappings.map (·.id)).Nodup := by
  simp [Table.ofMappings_eq_ok_iff]

/-- A table is replaced by mappings with distinct ids, and by no others. -/
theorem replace_eq_ok_iff
    {table next : Table}
    {mappings : List Mapping} :
    table.replace mappings = .ok next ↔
      (mappings.map (·.id)).Nodup ∧ next = table.publish mappings := by
  by_cases distinct : (mappings.map (·.id)).Nodup
  · rw [Table.replace, ensureDistinct_of_nodup distinct]
    simp [distinct, bind, Except.bind, pure, Except.pure, eq_comm]
  · obtain ⟨_, _, _, _, _, _, refused⟩ := exists_repeated_of_not_nodup distinct
    rw [Table.replace, refused]
    simp [distinct, bind, Except.bind]

/--
No problem with a mapping is reported if and only if the mappings are compiled
and are taken both at the start and for any table that is in use.  If they are
taken, the table holds them as they are configured, each in its place.
-/
theorem Configuration.mappings_usable_iff
    {configuration : Configuration}
    {supply : IdSupply}
    (fresh :
      supply.IsFresh (unnamed configuration.mappings) (writtenIds configuration.mappings)) :
    ((∀ problems, configuration.validate = .error problems →
        ∀ problem ∈ problems, ¬ problem.IsAboutMapping) ↔
      ∃ mappings rest, compileAll supply configuration.mappings = .ok (mappings, rest) ∧
        (∃ table, Table.ofMappings mappings = .ok table) ∧
        ∀ table : Table, ∃ next, table.replace mappings = .ok next) ∧
    ∀ mappings rest, compileAll supply configuration.mappings = .ok (mappings, rest) →
      (∀ table, Table.ofMappings mappings = .ok table →
        List.Forall₂ Draft.Realizes configuration.mappings table.mappings) ∧
      ∀ table next : Table, table.replace mappings = .ok next →
        List.Forall₂ Draft.Realizes configuration.mappings next.mappings := by
  constructor
  · rw [reports_no_mapping_iff, mappingProblems_eq_nil_iff]
    constructor
    · rintro ⟨compile, distinct, _⟩
      obtain ⟨⟨mappings, rest⟩, compiled⟩ := (exists_compileAll_iff supply _).mpr compile
      have idsDistinct : (mappings.map (·.id)).Nodup := by
        rw [(compileAll_eq_ok compiled).2]
        exact (nodup_chosenIds_iff fresh).mpr distinct
      refine ⟨mappings, rest, compiled, (exists_table_iff mappings).mpr idsDistinct, ?_⟩
      intro table
      exact ⟨_, replace_eq_ok_iff.mpr ⟨idsDistinct, rfl⟩⟩
    · rintro ⟨mappings, rest, compiled, starts, _⟩
      have idsDistinct := (exists_table_iff mappings).mp starts
      rw [(compileAll_eq_ok compiled).2] at idsDistinct
      refine ⟨(exists_compileAll_iff supply _).mp ⟨_, compiled⟩, ?_, by simp⟩
      exact (nodup_chosenIds_iff fresh).mp idsDistinct
  · intro mappings rest compiled
    obtain ⟨realize, _⟩ := compileAll_eq_ok compiled
    constructor
    · intro table made
      obtain ⟨_, rfl⟩ := Table.ofMappings_eq_ok_iff.mp made
      exact realize
    · intro table next replaced
      obtain ⟨_, rfl⟩ := replace_eq_ok_iff.mp replaced
      exact realize

/-! ## Pets with an id, and toys without one -/

namespace PetShop

/-- There is a problem with the address, but none with a mapping. -/
def configuration : Configuration where
  listener := ⟨"nowhere"⟩
  mappings :=
    [⟨none, "http://gateway/toys", "http://toys"⟩,
      ⟨some "pets", "http://gateway/pets/(.*)", "http://pets/$1"⟩,
      ⟨none, ".*", "http://all"⟩]
  backend := .standard
  querying := .standard
  observability := .standard
  administration := .standard

def supply : IdSupply where
  idAt index := "drawn " ++ toString index
  drawn := 7

theorem supply_isFresh :
    supply.IsFresh (unnamed configuration.mappings) (writtenIds configuration.mappings) where
  distinct := by decide +kernel
  unused := by decide +kernel

/-- The mappings are usable, whatever else is wrong. -/
theorem toys_and_pets_are_usable :
    configuration.validate =
        .error [⟨"listener.bind_address", "'nowhere' is not a socket address"⟩] ∧
      ∃ mappings rest, compileAll supply configuration.mappings = .ok (mappings, rest) ∧
        (∀ table : Table, ∃ next, table.replace mappings = .ok next) ∧
        ∃ table, Table.ofMappings mappings = .ok table ∧
          List.Forall₂ Draft.Realizes configuration.mappings table.mappings := by
  have reports : configuration.validate =
      .error [⟨"listener.bind_address", "'nowhere' is not a socket address"⟩] := by
    decide +kernel
  obtain ⟨usable, holds⟩ := Configuration.mappings_usable_iff supply_isFresh
  refine ⟨reports, ?_⟩
  have reportsNone : ∀ problems, configuration.validate = .error problems →
      ∀ problem ∈ problems, ¬ problem.IsAboutMapping := by
    intro problems isReported problem isProblem
    cases reports.symm.trans isReported
    cases List.mem_singleton.mp isProblem
    exact Problem.not_isAboutMapping (by decide +kernel)
  obtain ⟨mappings, rest, compiled, ⟨table, made⟩, replaces⟩ := usable.mp reportsNone
  exact ⟨mappings, rest, compiled, replaces, table, made,
    (holds mappings rest compiled).1 table made⟩

end PetShop

end QueryGateway.Settings
