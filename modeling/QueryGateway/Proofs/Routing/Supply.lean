import Mathlib.Data.List.Forall2
import QueryGateway.Proofs.Result
import QueryGateway.Proofs.Routing.Table

/-!
# Mappings as they are written, and their ids

Mappings are compiled in their order, and one that is written without an id gets
the next id of a supply.  All of them are compiled if and only if every pattern
can be compiled.

The ids that compiled mappings have are those that are written together with the
ids that were drawn.  So if the drawn ids differ from one another and from all
that are written, the compiled mappings have distinct ids if and only if no id is
written twice.
-/

namespace QueryGateway.Routing

/-! ## Ids that are drawn next -/

namespace IdSupply

/-- The ids that are drawn next, as many as are asked for. -/
def upcoming (supply : IdSupply) (count : Nat) : List String :=
  (List.range' supply.drawn count).map supply.idAt

/-- The supply after one more id has been drawn. -/
def advanced (supply : IdSupply) : IdSupply :=
  { supply with drawn := supply.drawn + 1 }

/-- The ids drawn next differ from one another, and from some that are in use. -/
structure IsFresh (supply : IdSupply) (count : Nat) (used : List String) : Prop where
  distinct : (supply.upcoming count).Nodup
  unused : ∀ id ∈ supply.upcoming count, id ∉ used

variable
    {supply : IdSupply}
    {count : Nat}
    {used : List String}

theorem upcoming_succ
    (supply : IdSupply)
    (count : Nat) :
    supply.upcoming (count + 1) = supply.idAt supply.drawn :: supply.advanced.upcoming count := by
  rw [upcoming, upcoming, List.range'_succ, List.map_cons]
  rfl

theorem upcoming_sublist
    (supply : IdSupply)
    {count more : Nat}
    (notMore : count ≤ more) :
    (supply.upcoming count).Sublist (supply.upcoming more) :=
  (List.range'_sublist_right.mpr notMore).map supply.idAt

theorem IsFresh.mono
    {more : Nat}
    {others : List String}
    (fresh : supply.IsFresh more others)
    (notMore : count ≤ more)
    (subset : used ⊆ others) :
    supply.IsFresh count used where
  distinct := fresh.distinct.sublist (supply.upcoming_sublist notMore)
  unused := by
    intro id isUpcoming isUsed
    exact fresh.unused id ((supply.upcoming_sublist notMore).subset isUpcoming) (subset isUsed)

/-- The id that is drawn next is not in use. -/
theorem IsFresh.next
    (fresh : supply.IsFresh (count + 1) used) :
    supply.idAt supply.drawn ∉ used := by
  apply fresh.unused
  rw [upcoming_succ]
  exact List.mem_cons_self

end IdSupply

/-! ## Compiling mappings -/

/-- A mapping is what is written: its id, if one is written, and the pattern of its ingress. -/
structure Draft.Realizes (draft : Draft) (mapping : Mapping) : Prop where
  id : ∀ id, draft.id = some id → mapping.id = id
  ingress : mapping.ingress = draft.ingress
  egress : mapping.egress = draft.egress
  pattern : compilePattern draft.ingress = .ok mapping.pattern

/-- The ids that are written. -/
def writtenIds (drafts : List Draft) : List String :=
  drafts.filterMap (·.id)

/-- How many mappings are written without an id. -/
def unnamed (drafts : List Draft) : Nat :=
  drafts.countP (·.id.isNone)

/-- The ids that mappings get when they are compiled in their order. -/
def chosenIds (supply : IdSupply) : List Draft → List String
  | [] => []
  | draft :: drafts => (supply.choose draft.id).1 :: chosenIds (supply.choose draft.id).2 drafts

variable
    {supply rest : IdSupply}

theorem Draft.compile_eq_ok
    {draft : Draft}
    {mapping : Mapping}
    (compiled : draft.compile supply = .ok (mapping, rest)) :
    draft.Realizes mapping ∧ (mapping.id, rest) = supply.choose draft.id := by
  obtain ⟨_, ofIngress, result⟩ := bind_eq_ok.mp compiled
  obtain ⟨pattern, isPattern, isMapping⟩ := bind_eq_ok.mp ofIngress
  cases isMapping
  cases result
  refine ⟨⟨?_, rfl, rfl, isPattern⟩, rfl⟩
  intro id isWritten
  rw [isWritten]

theorem Draft.exists_compile_iff
    (supply : IdSupply)
    (draft : Draft) :
    (∃ result, draft.compile supply = .ok result) ↔
      ∃ pattern, compilePattern draft.ingress = .ok pattern := by
  constructor
  · rintro ⟨⟨mapping, rest⟩, compiled⟩
    exact ⟨mapping.pattern, (compile_eq_ok compiled).1.pattern⟩
  · rintro ⟨pattern, isPattern⟩
    let chosen := supply.choose draft.id
    let mapping : Mapping := ⟨chosen.1, draft.ingress, draft.egress, pattern⟩
    refine ⟨(mapping, chosen.2), bind_eq_ok.mpr ⟨mapping, ?_, rfl⟩⟩
    exact bind_eq_ok.mpr ⟨pattern, isPattern, rfl⟩

theorem compileAll_eq_ok
    {drafts : List Draft}
    {mappings : List Mapping}
    (compiled : compileAll supply drafts = .ok (mappings, rest)) :
    List.Forall₂ Draft.Realizes drafts mappings ∧
      mappings.map (·.id) = chosenIds supply drafts := by
  induction drafts generalizing supply mappings with
  | nil =>
      cases compiled
      exact ⟨.nil, rfl⟩
  | cons draft drafts induction =>
      obtain ⟨⟨mapping, between⟩, ofDraft, compiled⟩ := bind_eq_ok.mp compiled
      obtain ⟨⟨others, last⟩, ofOthers, result⟩ := bind_eq_ok.mp compiled
      cases result
      obtain ⟨realizes, chosen⟩ := Draft.compile_eq_ok ofDraft
      obtain ⟨allRealize, ids⟩ := induction ofOthers
      refine ⟨.cons realizes allRealize, ?_⟩
      rw [List.map_cons, ids, chosenIds, ← chosen]

/-- Mappings are compiled if and only if all their patterns are. -/
theorem exists_compileAll_iff
    (supply : IdSupply)
    (drafts : List Draft) :
    (∃ result, compileAll supply drafts = .ok result) ↔
      ∀ draft ∈ drafts, ∃ pattern, compilePattern draft.ingress = .ok pattern := by
  induction drafts generalizing supply with
  | nil => simp [compileAll]
  | cons draft drafts induction =>
      rw [List.forall_mem_cons]
      constructor
      · rintro ⟨_, compiled⟩
        obtain ⟨first, ofDraft, compiled⟩ := bind_eq_ok.mp compiled
        obtain ⟨others, ofOthers, _⟩ := bind_eq_ok.mp compiled
        exact ⟨(draft.exists_compile_iff supply).mp ⟨first, ofDraft⟩,
          (induction first.2).mp ⟨others, ofOthers⟩⟩
      · rintro ⟨ofIngress, ofOthers⟩
        obtain ⟨first, ofDraft⟩ := (draft.exists_compile_iff supply).mpr ofIngress
        obtain ⟨others, ofOthers⟩ := (induction first.2).mpr ofOthers
        refine ⟨(first.1 :: others.1, others.2), ?_⟩
        refine bind_eq_ok.mpr ⟨first, ofDraft, ?_⟩
        exact bind_eq_ok.mpr ⟨others, ofOthers, rfl⟩

/-! ## The ids of compiled mappings -/

/-- The ids that mappings get are those that are written and those that are drawn. -/
theorem chosenIds_perm
    (supply : IdSupply)
    (drafts : List Draft) :
    (chosenIds supply drafts).Perm (writtenIds drafts ++ supply.upcoming (unnamed drafts)) := by
  induction drafts generalizing supply with
  | nil => exact .nil
  | cons draft drafts induction =>
      rw [chosenIds]
      cases isWritten : draft.id with
      | some id =>
          have names : writtenIds (draft :: drafts) = id :: writtenIds drafts :=
            List.filterMap_cons_some isWritten
          have count : unnamed (draft :: drafts) = unnamed drafts := by
            simp [unnamed, isWritten]
          rw [names, count]
          exact (induction supply).cons id
      | none =>
          have names : writtenIds (draft :: drafts) = writtenIds drafts :=
            List.filterMap_cons_none isWritten
          have count : unnamed (draft :: drafts) = unnamed drafts + 1 := by
            simp [unnamed, isWritten]
          rw [names, count, IdSupply.upcoming_succ]
          exact ((induction supply.advanced).cons _).trans List.perm_middle.symm

theorem nodup_chosenIds_iff
    {drafts : List Draft}
    (fresh : supply.IsFresh (unnamed drafts) (writtenIds drafts)) :
    (chosenIds supply drafts).Nodup ↔ (writtenIds drafts).Nodup := by
  rw [(chosenIds_perm supply drafts).nodup_iff, List.nodup_append]
  constructor
  · intro distinct
    exact distinct.1
  · intro distinct
    refine ⟨distinct, fresh.distinct, ?_⟩
    rintro id isWritten _ isDrawn rfl
    exact fresh.unused id isDrawn isWritten

end QueryGateway.Routing
