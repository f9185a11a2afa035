import Mathlib.Data.List.Induction
import Mathlib.Logic.Function.Basic
import QueryGateway.Proofs.Routing.Operations

/-!
# A table that clients share

Clients change a shared table side by side.  What can be checked of a change
without a table is checked first.  Then the client takes the lock, loads the
table, computes the next one from what it loaded, publishes it, and lets the
lock go; if the change is refused, nothing is published.  Whoever reads loads
the table that is published, at any time and without the lock.

`Step` has one case for each of these.  Between any two steps of a client other
clients may take theirs, and nothing in the steps keeps a client from publishing
what it computed from a table that has been replaced in the meantime: that this
does not happen is a theorem about runs.
-/

namespace QueryGateway.Routing

/-! ## Changes in two halves -/

/-- What is left of a change when all has been checked that needs no table. -/
inductive Edit where
  | append (mapping : Mapping)
  | put (mapping : Mapping)
  | remove (id : String)
  | install (mappings : List Mapping)
deriving DecidableEq, Repr

def Change.check : Change → Except RoutingError Edit
  | .add mapping => .ok (.append mapping)
  | .update id ingress egress => do
      return .put (← Mapping.compile id ingress egress)
  | .delete id => .ok (.remove id)
  | .replace mappings => do
      ensureDistinct mappings
      return .install mappings

/-- The answer to a change and what is published, computed from a table that was loaded. -/
def Edit.apply (loaded : Table) : Edit → Except RoutingError (Answer × Table)
  | .append mapping => do
      return (.entry mapping.entry, ← loaded.add mapping)
  | .put mapping => do
      return (.entry mapping.entry, ← loaded.put mapping)
  | .remove id => do
      let (mapping, next) ← loaded.delete id
      return (.entry mapping.entry, next)
  | .install mappings =>
      .ok (.version (loaded.publish mappings).version, loaded.publish mappings)

namespace Table

/-- A change is what is checked without a table and then what is done to one. -/
theorem change_eq
    (table : Table)
    (change : Change) :
    table.change change = change.check >>= (·.apply table) := by
  cases change with
  | add mapping => rfl
  | update id ingress egress =>
      simp only [Table.change, update, Change.check]
      cases Mapping.compile id ingress egress with
      | error error => rfl
      | ok mapping =>
          simp only [bind, Except.bind, pure, Except.pure, Edit.apply]
          cases table.put mapping <;> rfl
  | delete id => rfl
  | replace mappings =>
      simp only [Table.change, replace, Change.check]
      cases ensureDistinct mappings <;> rfl

theorem changed_of_unchecked
    {change : Change}
    {error : RoutingError}
    (fails : change.check = .error error)
    (table : Table) :
    table.changed change = (.error error, table) := by
  refine changed_of_error ?_
  rw [change_eq, fails]
  rfl

theorem changed_of_applied
    {table next : Table}
    {change : Change}
    {edit : Edit}
    {answer : Answer}
    (checked : change.check = .ok edit)
    (applied : edit.apply table = .ok (answer, next)) :
    table.changed change = (.ok answer, next) := by
  refine changed_of_ok ?_
  rw [change_eq, checked]
  exact applied

theorem changed_of_refused
    {table : Table}
    {change : Change}
    {edit : Edit}
    {error : RoutingError}
    (checked : change.check = .ok edit)
    (refused : edit.apply table = .error error) :
    table.changed change = (.error error, table) := by
  refine changed_of_error ?_
  rw [change_eq, checked]
  exact refused

end Table

/-! ## Steps -/

/-- How far a client has come with a change. -/
inductive Stage where
  | idle
  | checked (change : Change) (edit : Edit)
  | locked (change : Change) (edit : Edit)
  | loaded (change : Change) (edit : Edit) (table : Table)
  /-- The change has been published or refused, and the lock is not yet let go. -/
  | decided (change : Change) (result : Except RoutingError Answer)

structure Shared (Client : Type) where
  current : Table
  holder : Option Client
  stage : Client → Stage

/-- What a client does. -/
inductive Action (Client : Type) where
  | check (client : Client) (change : Change)
  /-- A change is refused before the lock is taken. -/
  | turnAway (client : Client) (change : Change) (error : RoutingError)
  | lock (client : Client) (change : Change)
  | load (client : Client) (table : Table)
  | publish (client : Client) (change : Change) (answer : Answer) (table : Table)
  | refuse (client : Client) (change : Change) (error : RoutingError)
  | release (client : Client) (change : Change) (result : Except RoutingError Answer)
  | read (client : Client) (table : Table)

variable {Client : Type}

def Shared.start (table : Table) : Shared Client :=
  ⟨table, none, fun _ => .idle⟩

section

variable [DecidableEq Client]

def Shared.enter (shared : Shared Client) (client : Client) (stage : Stage) : Shared Client :=
  { shared with stage := Function.update shared.stage client stage }

/-- The steps that clients take. -/
inductive Step (shared : Shared Client) : Action Client → Shared Client → Prop where
  | check
      {client : Client}
      {change : Change}
      {edit : Edit}
      (isIdle : shared.stage client = .idle)
      (checked : change.check = .ok edit) :
      Step shared (.check client change) (shared.enter client (.checked change edit))
  | turnAway
      {client : Client}
      {change : Change}
      {error : RoutingError}
      (isIdle : shared.stage client = .idle)
      (fails : change.check = .error error) :
      Step shared (.turnAway client change error) shared
  | lock
      {client : Client}
      {change : Change}
      {edit : Edit}
      (isChecked : shared.stage client = .checked change edit)
      (isFree : shared.holder = none) :
      Step shared (.lock client change)
        { shared.enter client (.locked change edit) with holder := some client }
  | load
      {client : Client}
      {change : Change}
      {edit : Edit}
      (isLocked : shared.stage client = .locked change edit) :
      Step shared (.load client shared.current)
        (shared.enter client (.loaded change edit shared.current))
  | publish
      {client : Client}
      {change : Change}
      {edit : Edit}
      {table next : Table}
      {answer : Answer}
      (isLoaded : shared.stage client = .loaded change edit table)
      (applied : edit.apply table = .ok (answer, next)) :
      Step shared (.publish client change answer next)
        { shared.enter client (.decided change (.ok answer)) with current := next }
  | refuse
      {client : Client}
      {change : Change}
      {edit : Edit}
      {table : Table}
      {error : RoutingError}
      (isLoaded : shared.stage client = .loaded change edit table)
      (refused : edit.apply table = .error error) :
      Step shared (.refuse client change error)
        (shared.enter client (.decided change (.error error)))
  | release
      {client : Client}
      {change : Change}
      {result : Except RoutingError Answer}
      (isDecided : shared.stage client = .decided change result) :
      Step shared (.release client change result)
        { shared.enter client .idle with holder := none }
  | read
      (client : Client) :
      Step shared (.read client shared.current) shared

/-- Steps one after another, with what was done in them. -/
inductive Run (first : Shared Client) : List (Action Client) → Shared Client → Prop where
  | refl :
      Run first [] first
  | snoc
      {actions : List (Action Client)}
      {shared next : Shared Client}
      {action : Action Client}
      (run : Run first actions shared)
      (step : Step shared action next) :
      Run first (actions ++ [action]) next

theorem run_snoc_iff
    {first last : Shared Client}
    {actions : List (Action Client)}
    {action : Action Client} :
    Run first (actions ++ [action]) last ↔
      ∃ shared, Run first actions shared ∧ Step shared action last := by
  constructor
  · intro run
    generalize whole : actions ++ [action] = all at run
    cases run with
    | refl => simp at whole
    | snoc run step =>
        obtain ⟨rfl, isLast⟩ := List.append_inj' whole rfl
        cases isLast
        exact ⟨_, run, step⟩
  · rintro ⟨shared, run, step⟩
    exact .snoc run step

/-- A run has been somewhere between its first steps and the others. -/
theorem Run.exists_between
    {first last : Shared Client}
    {before after : List (Action Client)}
    (run : Run first (before ++ after) last) :
    ∃ shared, Run first before shared ∧ Run shared after last := by
  -- Runs grow at the end, so the steps behind the cut are taken off from there.
  induction after using List.reverseRecOn generalizing last with
  | nil => exact ⟨last, by simpa using run, .refl⟩
  | append_singleton after action induction =>
      rw [← List.append_assoc] at run
      obtain ⟨previous, run, step⟩ := run_snoc_iff.mp run
      obtain ⟨shared, run, rest⟩ := induction run
      exact ⟨shared, run, .snoc rest step⟩

end

/-! ## What is done in an action -/

namespace Action

def locking? : Action Client → Option (Client × Change)
  | .lock client change => some (client, change)
  | _ => none

/-- A change is published or refused under the lock. -/
def decision? : Action Client → Option (Client × Change × Except RoutingError Answer)
  | .publish client change answer _ => some (client, change, .ok answer)
  | .refuse client change error => some (client, change, .error error)
  | _ => none

def release? : Action Client → Option (Client × Change × Except RoutingError Answer)
  | .release client change result => some (client, change, result)
  | _ => none

def publication? : Action Client → Option Table
  | .publish _ _ _ table => some table
  | _ => none

def reading? : Action Client → Option (Client × Table)
  | .read client table => some (client, table)
  | _ => none

end Action

/-! ## One change after another -/

namespace Table

def changedAll (table : Table) (changes : List Change) : Table :=
  changes.foldl (fun table change => (table.changed change).2) table

/-- The results of changes that clients make one after another. -/
def results (table : Table) :
    List (Client × Change) → List (Client × Change × Except RoutingError Answer)
  | [] => []
  | (client, change) :: order =>
      (client, change, (table.changed change).1) :: (table.changed change).2.results order

/-- The tables that changes leave one after another, without those that are refused. -/
def versions (table : Table) : List Change → List Table
  | [] => []
  | change :: changes =>
      match table.changed change with
      | (.ok _, next) => next :: next.versions changes
      | (.error _, next) => next.versions changes

theorem results_append
    (table : Table)
    (before after : List (Client × Change)) :
    table.results (before ++ after) =
      table.results before ++ (table.changedAll (before.map (·.2))).results after := by
  induction before generalizing table with
  | nil => rfl
  | cons first before induction => simp [results, changedAll, induction]

theorem changedAll_append
    (table : Table)
    (before after : List Change) :
    table.changedAll (before ++ after) = (table.changedAll before).changedAll after :=
  List.foldl_append

theorem versions_append
    (table : Table)
    (before after : List Change) :
    table.versions (before ++ after) =
      table.versions before ++ (table.changedAll before).versions after := by
  induction before generalizing table with
  | nil => rfl
  | cons change before induction =>
      cases changed : table.changed change with
      | mk result next =>
          cases result <;> simp [versions, changedAll, changed, induction]

end Table

end QueryGateway.Routing
