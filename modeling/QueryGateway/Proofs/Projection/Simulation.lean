import Mathlib.Data.List.Forall2
import Mathlib.Data.Option.Basic
import QueryGateway.Proofs.Projection.Pass

/-!
# Two projections side by side

Two projections, of other documents or with other queries, may go the same way:
they meet the same error, or keep the same and meet tasks that are related one
by one.  Each part of a projection goes the same way as its counterpart if the
parts within do, and if the links on the objects do.

How tasks are related is left open.  If no task is related to any, neither
projection meets one.
-/

namespace QueryGateway.Projection

open Query

/-- Two results agree: they are the same error, or values that are related. -/
inductive Agree {ε α β : Type} (related : α → β → Prop) : Except ε α → Except ε β → Prop where
  | error
      (error : ε) :
      Agree related (.error error) (.error error)
  | ok
      {left : α}
      {right : β}
      (relates : related left right) :
      Agree related (.ok left) (.ok right)

theorem agree_refl
    {ε α : Type}
    (result : Except ε α) :
    Agree Eq result result := by
  cases result with
  | error error => exact .error error
  | ok value => exact .ok rfl

theorem Agree.bind
    {ε α β γ δ : Type}
    {related : α → β → Prop}
    {relatedNext : γ → δ → Prop}
    {left : Except ε α}
    {right : Except ε β}
    {next : α → Except ε γ}
    {otherNext : β → Except ε δ}
    (agree : Agree related left right)
    (agreeNext : ∀ value other, related value other →
      Agree relatedNext (next value) (otherNext other)) :
    Agree relatedNext (left >>= next) (right >>= otherNext) := by
  cases agree with
  | error error => exact .error error
  | ok relates => exact agreeNext _ _ relates

/-- The same value, with tasks that are related in their order. -/
structure SameValue {α : Type} (related : Task → Task → Prop) (left right : α × List Task) :
    Prop where
  value : left.1 = right.1
  tasks : List.Forall₂ related left.2 right.2

/-- Two visits go alike: they meet the same error, or the same value with related tasks. -/
abbrev Alike {α : Type} (related : Task → Task → Prop)
    (left right : Except ProjectionError (α × List Task)) : Prop :=
  Agree (SameValue related) left right

variable
    {related : Task → Task → Prop}

/-- Tasks that are met one after another. -/
theorem Alike.append
    {α β γ : Type}
    {found others : List Task}
    {left right : Except ProjectionError (β × List Task)}
    (tasks : List.Forall₂ related found others)
    (alike : Alike related left right)
    (value : α)
    (combine : α → β → γ) :
    Alike related (left >>= fun next => .ok (combine value next.1, found ++ next.2))
      (right >>= fun next => .ok (combine value next.1, others ++ next.2)) := by
  refine Agree.bind alike ?_
  intro next other same
  refine .ok ⟨?_, List.rel_append tasks same.tasks⟩
  rw [same.value]

theorem alike_visitEach
    {visit otherVisit : Json.Value → Visited}
    {elements others : List Json.Value}
    (each : List.Forall₂ (fun element other => Alike related (visit element) (otherVisit other))
      elements others) :
    Alike related (visitEach visit elements) (visitEach otherVisit others) := by
  induction each with
  | nil => exact .ok ⟨rfl, .nil⟩
  | cons first _ induction =>
      rw [visitEach, visitEach]
      refine Agree.bind first ?_
      rintro ⟨target, found⟩ ⟨_, others⟩ ⟨rfl, tasks⟩
      exact induction.append tasks target List.cons

/-- Fields that select from two objects alike. -/
structure SelectAlike (related : Task → Task → Prop)
    (visits others : List (String × (Field → Visited))) (field other : Field) : Prop where
  sameName : field.name = other.name
  sameKey : field.responseKey = other.responseKey
  bothMissing :
    Json.Members.find? visits field.name = none ↔ Json.Members.find? others field.name = none
  alike : ∀ visit otherVisit,
    Json.Members.find? visits field.name = some visit →
      Json.Members.find? others field.name = some otherVisit →
        Alike related (visit field) (otherVisit other)

theorem alike_visitFields
    {visits others : List (String × (Field → Visited))}
    {fields otherFields : List Field}
    (select : List.Forall₂ (SelectAlike related visits others) fields otherFields)
    (target : List (String × Json.Value)) :
    Alike related (visitFields visits fields target) (visitFields others otherFields target) := by
  induction select generalizing target with
  | nil => exact .ok ⟨rfl, .nil⟩
  | @cons field other _ _ first _ induction =>
      rw [visitFields, visitFields, ← first.sameName, ← first.sameKey]
      cases isVisit : Json.Members.find? visits field.name with
      | none =>
          rw [first.bothMissing.mp isVisit]
          exact .error _
      | some visit =>
          cases isOther : Json.Members.find? others field.name with
          | none => cases isVisit.symm.trans (first.bothMissing.mpr isOther)
          | some otherVisit =>
              refine Agree.bind (first.alike visit otherVisit isVisit isOther) ?_
              rintro ⟨value, found⟩ ⟨_, others⟩ ⟨rfl, tasks⟩
              exact (induction _).append tasks () fun _ target => target

theorem forall₂_toList
    {left right : Option Task}
    (relates : Option.Rel related left right) :
    List.Forall₂ related left.toList right.toList := by
  cases relates with
  | none => exact .nil
  | some relates => exact .cons relates .nil

/-- Two objects are visited alike if their fields and their own links are. -/
theorem alike_visitObject
    {document otherDocument : Document}
    {entry other : Entry}
    {members otherMembers : List (String × Json.Value)}
    {visits otherVisits : List (String × (Field → Visited))}
    (select : List.Forall₂ (SelectAlike related visits otherVisits)
      (applicableFields document entry.name members entry.selections)
      (applicableFields otherDocument other.name otherMembers other.selections))
    (links : Agree (Option.Rel related)
      (followLink document entry.directives entry.name members)
      (followLink otherDocument other.directives other.name otherMembers)) :
    Alike related (visitObject document entry members visits)
      (visitObject otherDocument other otherMembers otherVisits) := by
  rw [visitObject, visitObject]
  refine Agree.bind (alike_visitFields select []) ?_
  rintro ⟨target, found⟩ ⟨_, others⟩ ⟨rfl, tasks⟩
  refine Agree.bind links ?_
  intro own otherOwn relates
  exact .ok ⟨rfl, List.rel_append tasks (forall₂_toList relates)⟩

/-- The same target, with tasks that are related in their order. -/
structure SameProjected (related : Task → Task → Prop) (left right : Projected) : Prop where
  target : left.target = right.target
  followUps : List.Forall₂ related left.followUps right.followUps

/-- Entering two documents goes alike if visiting their roots does. -/
theorem agree_enter
    {document otherDocument : Document}
    {entry other : Entry}
    {source otherSource : Json.Value}
    (alike : Alike related (visitRoot document entry source)
      (visitRoot otherDocument other otherSource)) :
    Agree (SameProjected related) (enter document entry source)
      (enter otherDocument other otherSource) := by
  refine Agree.bind alike ?_
  intro visited otherVisited same
  exact .ok ⟨same.value, same.tasks⟩

end QueryGateway.Projection
