import QueryGateway.Proofs.Routing.Sharing

/-!
# Clients that share a table lose no change

However clients interleave their steps, the shared table goes through the same
versions as if the changes had been made one after another in the order in which
the lock was taken, and every client comes away with the result of that.  A
change that is refused before the lock is taken is refused by every table, so it
may stand anywhere in the order.  Whoever reads sees a table between two changes,
and no earlier one than anybody has seen before.

The invariant says who is inside the part that the lock guards: nobody, or the
holder alone, and the table that the holder has loaded is then still current.
-/

namespace QueryGateway.Routing

/-! ## Versions count changes -/

theorem ChangeEffect.version_of_ok
    {table next : Table}
    {change : Change}
    {answer : Answer}
    (effect : ChangeEffect table change (.ok answer) next) :
    next.version = table.version + 1 := by
  cases effect <;> rfl

theorem ChangeEffect.eq_of_error
    {table next : Table}
    {change : Change}
    {error : RoutingError}
    (effect : ChangeEffect table change (.error error) next) :
    next = table := by
  cases effect <;> rfl

namespace Table

theorem version_of_changed_ok
    {table next : Table}
    {change : Change}
    {answer : Answer}
    (changed : table.changed change = (.ok answer, next)) :
    next.version = table.version + 1 := by
  have effect := table.changeEffect_changed change
  rw [changed] at effect
  exact effect.version_of_ok

theorem eq_of_changed_error
    {table next : Table}
    {change : Change}
    {error : RoutingError}
    (changed : table.changed change = (.error error, next)) :
    next = table := by
  have effect := table.changeEffect_changed change
  rw [changed] at effect
  exact effect.eq_of_error

theorem version_le_changed
    (table : Table)
    (change : Change) :
    table.version ≤ (table.changed change).2.version := by
  cases changed : table.changed change with
  | mk result next =>
      cases result with
      | ok answer =>
          have version := version_of_changed_ok changed
          simp only
          omega
      | error error =>
          exact Nat.le_of_eq (congrArg Table.version (eq_of_changed_error changed).symm)

theorem version_changedAll
    {Client : Type}
    (table : Table)
    (order : List (Client × Change)) :
    (table.changedAll (order.map (·.2))).version =
      table.version + (table.results order).countP (·.2.2.isOk) := by
  induction order generalizing table with
  | nil => rfl
  | cons first order induction =>
      obtain ⟨client, change⟩ := first
      have later := induction (table.changed change).2
      cases changed : table.changed change with
      | mk result next =>
          rw [changed] at later
          cases result with
          | ok answer =>
              have version := version_of_changed_ok changed
              simp only [changedAll, results, List.map_cons, List.foldl_cons, changed,
                List.countP_cons, Except.isOk, Except.toBool] at later ⊢
              simp only [if_true]
              omega
          | error error =>
              have unchanged := eq_of_changed_error changed
              simp only [changedAll, results, List.map_cons, List.foldl_cons, changed,
                List.countP_cons, Except.isOk, Except.toBool] at later ⊢
              simpa [unchanged] using later

end Table

variable {Client : Type} [DecidableEq Client]

/-! ## What a client is about to do -/

namespace Stage

/-- The client is not in the part that the lock guards. -/
def IsOutside : Stage → Prop
  | .idle => True
  | .checked _ _ => True
  | _ => False

/-- The change that was checked and is not decided. -/
def plan? : Stage → Option (Change × Edit)
  | .checked change edit => some (change, edit)
  | .locked change edit => some (change, edit)
  | .loaded change edit _ => some (change, edit)
  | _ => none

/-- The change that is to be decided inside. -/
def undecided? : Stage → Option Change
  | .locked change _ => some change
  | .loaded change _ _ => some change
  | _ => none

/-- The change that is decided inside, with the result that is still to be told. -/
def untold? : Stage → Option (Change × Except RoutingError Answer)
  | .decided change result => some (change, result)
  | _ => none

theorem undecided?_of_isOutside
    {stage : Stage}
    (outside : stage.IsOutside) :
    stage.undecided? = none := by
  cases stage <;> first | rfl | cases outside

theorem untold?_of_isOutside
    {stage : Stage}
    (outside : stage.IsOutside) :
    stage.untold? = none := by
  cases stage <;> first | rfl | cases outside

end Stage

variable {Client : Type}

namespace Shared

variable (shared : Shared Client)

def undecided : List (Client × Change) :=
  (shared.holder.bind fun client =>
    (shared.stage client).undecided?.map (client, ·)).toList

/-- The change of the holder and its result, if it is decided. -/
def untold : List (Client × Change × Except RoutingError Answer) :=
  (shared.holder.bind fun client =>
    (shared.stage client).untold?.map (client, ·)).toList

end Shared

/-! ## What the lock guards -/

def ordered (results : List (Client × Change × Except RoutingError Answer)) :
    List (Client × Change) :=
  results.map fun result => (result.1, result.2.1)

/-- Only the holder is inside, and what it has loaded is current. -/
structure Stage.IsSound (current : Table) (holder : Option Client) (client : Client)
    (stage : Stage) : Prop where
  exclusive : stage.IsOutside ∨ holder = some client
  checked : ∀ change edit, stage.plan? = some (change, edit) → change.check = .ok edit
  fresh : ∀ change edit table, stage = .loaded change edit table → table = current

def Shared.IsGuarded (shared : Shared Client) : Prop :=
  ∀ client, (shared.stage client).IsSound shared.current shared.holder client

/-- What was done under the lock has been told, but for what the holder is about to do. -/
structure Accounted (actions : List (Action Client)) (shared : Shared Client) : Prop where
  order :
    actions.filterMap (·.locking?) =
      ordered (actions.filterMap (·.decision?)) ++ shared.undecided
  told : actions.filterMap (·.decision?) = actions.filterMap (·.release?) ++ shared.untold

/--
The clients whose changes are decided, with the changes, in the order in which
they took the lock.
-/
def decidedOrder (actions : List (Action Client)) : List (Client × Change) :=
  (actions.filterMap (·.locking?)).take (actions.filterMap (·.decision?)).length

theorem Accounted.ordered_eq
    {actions : List (Action Client)}
    {shared : Shared Client}
    (accounted : Accounted actions shared) :
    ordered (actions.filterMap (·.decision?)) = decidedOrder actions := by
  have length : (ordered (actions.filterMap (·.decision?))).length =
      (actions.filterMap (·.decision?)).length :=
    List.length_map _
  rw [decidedOrder, accounted.order, ← length, List.take_left]

/-- Who is outside does not depend on what the others do. -/
theorem Stage.IsSound.of_isOutside
    {current : Table}
    {holder : Option Client}
    {client : Client}
    {stage : Stage}
    (sound : stage.IsSound current holder client)
    (outside : stage.IsOutside)
    (otherCurrent : Table)
    (otherHolder : Option Client) :
    stage.IsSound otherCurrent otherHolder client where
  exclusive := .inl outside
  checked := sound.checked
  fresh := by
    rintro change edit table rfl
    exact outside.elim

namespace Shared.IsGuarded

variable
    {shared : Shared Client}
    {client : Client}

theorem holder_eq
    (guarded : shared.IsGuarded)
    (inside : ¬ (shared.stage client).IsOutside) :
    shared.holder = some client :=
  (guarded client).exclusive.resolve_left inside

theorem isOutside_of_ne
    (guarded : shared.IsGuarded)
    (inside : ¬ (shared.stage client).IsOutside)
    {other : Client}
    (different : other ≠ client) :
    (shared.stage other).IsOutside := by
  refine (guarded other).exclusive.resolve_right fun isHeld => different ?_
  rw [guarded.holder_eq inside] at isHeld
  exact (Option.some.inj isHeld).symm

end Shared.IsGuarded

/-! ## The tables that are published and read -/

/-- The current table, and what was published and read, are those of the decisions so far. -/
structure Recorded (first : Table) (actions : List (Action Client)) (current : Table) : Prop where
  results :
    actions.filterMap (·.decision?) = first.results (ordered (actions.filterMap (·.decision?)))
  isCurrent : current = first.changedAll ((ordered (actions.filterMap (·.decision?))).map (·.2))
  published :
    actions.filterMap (·.publication?) =
      first.versions ((ordered (actions.filterMap (·.decision?))).map (·.2))
  ascending :
    (actions.filterMap (·.reading?)).Pairwise fun earlier later =>
      earlier.2.version ≤ later.2.version
  newest : ∀ reading ∈ actions.filterMap (·.reading?), reading.2.version ≤ current.version

namespace Recorded

variable
    {first current : Table}
    {actions : List (Action Client)}
    {action : Action Client}

/-- Actions that decide and read nothing leave everything as it is. -/
theorem silent
    (recorded : Recorded first actions current)
    (noDecision : action.decision? = none)
    (noPublication : action.publication? = none)
    (noReading : action.reading? = none) :
    Recorded first (actions ++ [action]) current := by
  obtain ⟨results, isCurrent, published, ascending, newest⟩ := recorded
  constructor
  · simpa [noDecision] using results
  · simpa [noDecision] using isCurrent
  · simpa [noDecision, noPublication] using published
  · simpa [noReading] using ascending
  · simpa [noReading] using newest

/-- Whoever reads sees a table that is as new as all that were seen before. -/
theorem read
    (recorded : Recorded first actions current)
    (client : Client) :
    Recorded first (actions ++ [.read client current]) current := by
  obtain ⟨results, isCurrent, published, ascending, newest⟩ := recorded
  constructor
  · simpa [Action.decision?] using results
  · simpa [Action.decision?] using isCurrent
  · simpa [Action.decision?, Action.publication?] using published
  · simp only [List.filterMap_append, List.filterMap_cons, Action.reading?, List.filterMap_nil]
    refine List.pairwise_append.mpr ⟨ascending, List.pairwise_singleton _ _, ?_⟩
    intro earlier member later isNew
    rw [List.mem_singleton.mp isNew]
    exact newest earlier member
  · simp only [List.filterMap_append, List.filterMap_cons, Action.reading?, List.filterMap_nil]
    intro reading member
    rcases List.mem_append.mp member with member | isNew
    · exact newest reading member
    · obtain rfl := List.mem_singleton.mp isNew
      exact Nat.le_refl _

/-- A decision adds the result of one more change. -/
theorem decide
    {client : Client}
    {change : Change}
    (recorded : Recorded first actions current)
    (decision : action.decision? = some (client, change, (current.changed change).1))
    (publication : action.publication?.toList = current.versions [change])
    (noReading : action.reading? = none) :
    Recorded first (actions ++ [action]) (current.changed change).2 := by
  obtain ⟨results, isCurrent, published, ascending, newest⟩ := recorded
  have decisions : (actions ++ [action]).filterMap (·.decision?) =
      actions.filterMap (·.decision?) ++ [(client, change, (current.changed change).1)] := by
    simp [decision]
  have order : ordered ((actions ++ [action]).filterMap (·.decision?)) =
      ordered (actions.filterMap (·.decision?)) ++ [(client, change)] := by
    rw [decisions]
    simp [ordered]
  have publications : (actions ++ [action]).filterMap (·.publication?) =
      actions.filterMap (·.publication?) ++ current.versions [change] := by
    rw [← publication]
    cases isPublished : action.publication? <;> simp [isPublished]
  constructor
  · rw [order, Table.results_append, ← isCurrent, ← results, decisions]
    rfl
  · rw [order, List.map_append, Table.changedAll_append, ← isCurrent]
    rfl
  · rw [publications, order, List.map_append, Table.versions_append, ← isCurrent, ← published]
    rfl
  · simpa [noReading] using ascending
  · intro reading member
    have older : reading ∈ actions.filterMap (·.reading?) := by simpa [noReading] using member
    exact Nat.le_trans (newest reading older) (current.version_le_changed change)

end Recorded

/-! ## One step -/

variable [DecidableEq Client]

namespace Shared

/-- Stages satisfy a condition after one has changed if that one does and the others do. -/
theorem forall_stage_enter
    (shared : Shared Client)
    {condition : Client → Stage → Prop}
    {client : Client}
    {stage : Stage}
    (new : condition client stage)
    (others : ∀ other, other ≠ client → condition other (shared.stage other)) :
    ∀ other, condition other ((shared.enter client stage).stage other) :=
  (Function.forall_update_iff shared.stage condition).mpr ⟨new, others⟩

theorem undecided_enter_of_isOutside
    {shared : Shared Client}
    {client : Client}
    {stage : Stage}
    (wasOutside : (shared.stage client).IsOutside)
    (isOutside : stage.IsOutside) :
    (shared.enter client stage).undecided = shared.undecided ∧
      (shared.enter client stage).untold = shared.untold := by
  cases held : shared.holder with
  | none => simp [undecided, untold, enter, held]
  | some holder =>
      by_cases same : holder = client
      · subst same
        simp [undecided, untold, enter, held, Stage.undecided?_of_isOutside,
          Stage.untold?_of_isOutside, wasOutside, isOutside]
      · simp [undecided, untold, enter, held, Function.update_of_ne same]

theorem IsGuarded.step
    {shared next : Shared Client}
    {action : Action Client}
    (guarded : shared.IsGuarded)
    (step : Step shared action next) :
    next.IsGuarded := by
  cases step with
  | turnAway | read => exact guarded
  | check isIdle isChecked =>
      refine shared.forall_stage_enter ⟨.inl trivial, ?_, ?_⟩ fun other _ => guarded other
      · rintro change edit ⟨⟩
        exact isChecked
      · rintro change edit table ⟨⟩
  | @lock client change edit isChecked isFree =>
      refine shared.forall_stage_enter ⟨.inr rfl, ?_, ?_⟩ fun other _ => ?_
      · rintro _ _ ⟨⟩
        exact (guarded client).checked change edit (by rw [isChecked]; rfl)
      · rintro change edit table ⟨⟩
      · exact (guarded other).of_isOutside
          ((guarded other).exclusive.resolve_right (by simp [isFree])) _ _
  | @load client change edit isLocked =>
      have inside : ¬ (shared.stage client).IsOutside := by simp [isLocked, Stage.IsOutside]
      refine shared.forall_stage_enter ⟨.inr (guarded.holder_eq inside), ?_, ?_⟩
        fun other _ => guarded other
      · rintro _ _ ⟨⟩
        exact (guarded client).checked change edit (by rw [isLocked]; rfl)
      · rintro change edit table ⟨⟩
        rfl
  | @publish client _ _ _ _ _ isLoaded =>
      have inside : ¬ (shared.stage client).IsOutside := by simp [isLoaded, Stage.IsOutside]
      -- Nobody else has loaded the table that is outdated by the publication.
      refine shared.forall_stage_enter ⟨.inr (guarded.holder_eq inside), ?_, ?_⟩
        fun other different =>
          (guarded other).of_isOutside (guarded.isOutside_of_ne inside different) _ _
      · rintro change edit ⟨⟩
      · rintro change edit table ⟨⟩
  | @refuse client _ _ _ _ isLoaded =>
      have inside : ¬ (shared.stage client).IsOutside := by simp [isLoaded, Stage.IsOutside]
      refine shared.forall_stage_enter ⟨.inr (guarded.holder_eq inside), ?_, ?_⟩
        fun other _ => guarded other
      · rintro change edit ⟨⟩
      · rintro change edit table ⟨⟩
  | @release client _ _ isDecided =>
      have inside : ¬ (shared.stage client).IsOutside := by simp [isDecided, Stage.IsOutside]
      refine shared.forall_stage_enter ⟨.inl trivial, ?_, ?_⟩
        fun other different =>
          (guarded other).of_isOutside (guarded.isOutside_of_ne inside different) _ _
      · rintro change edit ⟨⟩
      · rintro change edit table ⟨⟩

end Shared

theorem Accounted.step
    {actions : List (Action Client)}
    {action : Action Client}
    {shared next : Shared Client}
    (accounted : Accounted actions shared)
    (guarded : shared.IsGuarded)
    (step : Step shared action next) :
    Accounted (actions ++ [action]) next := by
  obtain ⟨order, told⟩ := accounted
  cases step with
  | turnAway | read =>
      constructor
      · simpa [Action.locking?, Action.decision?] using order
      · simpa [Action.decision?, Action.release?] using told
  | @check client change edit isIdle _ =>
      have wasOutside : (shared.stage client).IsOutside := by rw [isIdle]; trivial
      have isOutside : (Stage.checked change edit).IsOutside := trivial
      obtain ⟨undecided, untold⟩ := Shared.undecided_enter_of_isOutside wasOutside isOutside
      constructor
      · simpa [Action.locking?, Action.decision?, undecided] using order
      · simpa [Action.decision?, Action.release?, untold] using told
  | @lock client change edit isChecked isFree =>
      constructor
      · simpa [Action.locking?, Action.decision?, Shared.undecided, Shared.enter, isFree,
          Stage.undecided?] using order
      · simpa [Action.decision?, Action.release?, Shared.untold, Shared.enter, isFree,
          Stage.untold?] using told
  | @load client change edit isLocked =>
      have inside : ¬ (shared.stage client).IsOutside := by simp [isLocked, Stage.IsOutside]
      have held := guarded.holder_eq inside
      constructor
      · simpa [Action.locking?, Action.decision?, Shared.undecided, Shared.enter, held, isLocked,
          Stage.undecided?] using order
      · simpa [Action.decision?, Action.release?, Shared.untold, Shared.enter, held, isLocked,
          Stage.untold?] using told
  | @publish client change edit _ _ _ isLoaded | @refuse client change edit _ _ isLoaded =>
      have inside : ¬ (shared.stage client).IsOutside := by simp [isLoaded, Stage.IsOutside]
      have held := guarded.holder_eq inside
      constructor
      · simpa [Action.locking?, Action.decision?, ordered, Shared.undecided, Shared.enter, held,
          isLoaded, Stage.undecided?] using order
      · simpa [Action.decision?, Action.release?, Shared.untold, Shared.enter, held, isLoaded,
          Stage.untold?] using told
  | @release client change result isDecided =>
      have inside : ¬ (shared.stage client).IsOutside := by simp [isDecided, Stage.IsOutside]
      have held := guarded.holder_eq inside
      constructor
      · simpa [Action.locking?, Action.decision?, Shared.undecided, Shared.enter, held, isDecided,
          Stage.undecided?] using order
      · simpa [Action.decision?, Action.release?, Shared.untold, Shared.enter, held, isDecided,
          Stage.untold?] using told

theorem Recorded.step
    {first : Table}
    {actions : List (Action Client)}
    {action : Action Client}
    {shared next : Shared Client}
    (recorded : Recorded first actions shared.current)
    (guarded : shared.IsGuarded)
    (step : Step shared action next) :
    Recorded first (actions ++ [action]) next.current := by
  cases step with
  | check | turnAway | lock | load | release => exact recorded.silent rfl rfl rfl
  | read client => exact recorded.read client
  | @publish client change edit table next answer isLoaded applied =>
      -- Nobody has published since, so what was loaded is current.
      obtain rfl := (guarded client).fresh change edit table isLoaded
      have checked := (guarded client).checked change edit (by rw [isLoaded]; rfl)
      have changed := Table.changed_of_applied checked applied
      have decision : (Action.publish client change answer next).decision? =
          some (client, change, (shared.current.changed change).1) := by
        rw [changed]
        rfl
      have publication : (Action.publish client change answer next).publication?.toList =
          shared.current.versions [change] := by
        simp [Table.versions, changed, Action.publication?]
      have recorded := recorded.decide decision publication rfl
      rwa [changed] at recorded
  | @refuse client change edit table error isLoaded refused =>
      obtain rfl := (guarded client).fresh change edit table isLoaded
      have checked := (guarded client).checked change edit (by rw [isLoaded]; rfl)
      have changed := Table.changed_of_refused checked refused
      have decision : (Action.refuse client change error).decision? =
          some (client, change, (shared.current.changed change).1) := by
        rw [changed]
        rfl
      have noPublication : (Action.refuse client change error).publication?.toList =
          shared.current.versions [change] := by
        simp [Table.versions, changed, Action.publication?]
      have recorded := recorded.decide decision noPublication rfl
      rwa [changed] at recorded

/-! ## Runs -/

theorem Run.invariant
    {first : Table}
    {actions : List (Action Client)}
    {last : Shared Client}
    (run : Run (.start first) actions last) :
    last.IsGuarded ∧ Accounted actions last ∧ Recorded first actions last.current := by
  induction run with
  | refl =>
      refine ⟨fun client => ⟨.inl trivial, ?_, ?_⟩, ⟨rfl, rfl⟩, ⟨rfl, rfl, rfl, .nil, ?_⟩⟩
      · rintro change edit ⟨⟩
      · rintro change edit table ⟨⟩
      · simp
  | snoc run step induction =>
      obtain ⟨guarded, accounted, recorded⟩ := induction
      exact ⟨guarded.step step, accounted.step guarded step, recorded.step guarded step⟩

/-- A change that is refused without the lock is refused by every table. -/
theorem Run.changed_of_turnAway
    {first last : Shared Client}
    {actions : List (Action Client)}
    (run : Run first actions last)
    {client : Client}
    {change : Change}
    {error : RoutingError}
    (turnedAway : .turnAway client change error ∈ actions)
    (table : Table) :
    table.changed change = (.error error, table) := by
  induction run with
  | refl => cases turnedAway
  | snoc run step induction =>
      rcases List.mem_append.mp turnedAway with earlier | isLast
      · exact induction earlier
      · obtain rfl := List.mem_singleton.mp isLast
        cases step with
        | turnAway _ fails => exact Table.changed_of_unchecked fails table

/-- What is read is the table that is current at that time. -/
theorem Run.eq_current_of_read
    {first last : Shared Client}
    {before after : List (Action Client)}
    {client : Client}
    {table : Table}
    (run : Run first (before ++ .read client table :: after) last) :
    ∃ shared, Run first before shared ∧ table = shared.current := by
  rw [← List.singleton_append, ← List.append_assoc] at run
  obtain ⟨_, withRead, _⟩ := run.exists_between
  obtain ⟨_, earlier, step⟩ := run_snoc_iff.mp withRead
  cases step with
  | read => exact ⟨_, earlier, rfl⟩

/-- What clients do to a table is as if they had made their changes one after another. -/
structure Serialized (first : Table) (actions : List (Action Client)) (last : Shared Client) :
    Prop where
  /-- The results are those of the changes in the order in which the lock was taken. -/
  decided : actions.filterMap (·.decision?) = first.results (decidedOrder actions)
  /-- At most one client that took the lock is still without a decision. -/
  undecided :
    (actions.filterMap (·.locking?)).length ≤ (actions.filterMap (·.decision?)).length + 1
  /-- Clients come away with these results. -/
  released : actions.filterMap (·.release?) <+: actions.filterMap (·.decision?)
  unreleased :
    (actions.filterMap (·.decision?)).length ≤ (actions.filterMap (·.release?)).length + 1
  /-- When nobody holds the lock, all clients that took it have come away with their results. -/
  settled :
    last.holder = none →
      actions.filterMap (·.release?) = first.results (actions.filterMap (·.locking?))
  published :
    actions.filterMap (·.publication?) = first.versions ((decidedOrder actions).map (·.2))
  current : last.current = first.changedAll ((decidedOrder actions).map (·.2))
  version :
    last.current.version =
      first.version + (actions.filterMap (·.decision?)).countP (·.2.2.isOk)
  /-- Changes that are refused without the lock may stand anywhere in the order. -/
  turnedAway :
    ∀ client change error,
      .turnAway client change error ∈ actions →
        ∀ table : Table, table.changed change = (.error error, table)
  /-- Whoever reads sees the table after the changes that are decided by then. -/
  read :
    ∀ before client table after,
      actions = before ++ .read client table :: after →
        table = first.changedAll ((decidedOrder before).map (·.2))
  ascending :
    (actions.filterMap (·.reading?)).Pairwise fun earlier later =>
      earlier.2.version ≤ later.2.version

/-- However clients interleave their steps, their changes are made one after another. -/
theorem Run.serialized
    {first : Table}
    {actions : List (Action Client)}
    {last : Shared Client}
    (run : Run (.start first) actions last) :
    Serialized first actions last := by
  obtain ⟨_, accounted, recorded⟩ := run.invariant
  have order := accounted.ordered_eq
  have decided := recorded.results
  have isCurrent := recorded.isCurrent
  rw [order] at decided isCurrent
  constructor
  case decided => exact decided
  case undecided =>
    rw [accounted.order, List.length_append, ordered, List.length_map]
    exact Nat.add_le_add_left (Option.length_toList_le ..) _
  case released => exact ⟨last.untold, accounted.told.symm⟩
  case unreleased =>
    rw [accounted.told, List.length_append]
    exact Nat.add_le_add_left (Option.length_toList_le ..) _
  case settled =>
    intro isFree
    have noneUndecided : last.undecided = [] := by simp [Shared.undecided, isFree]
    have noneUntold : last.untold = [] := by simp [Shared.untold, isFree]
    rw [accounted.order, noneUndecided, List.append_nil, ← recorded.results, accounted.told,
      noneUntold, List.append_nil]
  case published => rw [recorded.published, order]
  case current => exact isCurrent
  case version => rw [isCurrent, Table.version_changedAll, ← decided]
  case turnedAway => exact fun _ _ _ turnedAway => run.changed_of_turnAway turnedAway
  case read =>
    rintro before client table after rfl
    obtain ⟨shared, earlier, rfl⟩ := run.eq_current_of_read
    obtain ⟨_, accounted, recorded⟩ := earlier.invariant
    rw [← accounted.ordered_eq]
    exact recorded.isCurrent
  case ascending => exact recorded.ascending

/-! ## Two keepers of a pet shop -/

namespace PetShop

/-- One keeper takes the pets out, another one puts them in, and a visitor looks twice. -/
inductive Person where
  | remover
  | adder
  | visitor
deriving DecidableEq

def actions : List (Action Person) :=
  [.check .adder (.add pets), .check .remover (.delete "pets"), .lock .remover (.delete "pets"),
    .load .remover opened, .read .visitor opened,
    .publish .remover (.delete "pets") (.entry pets.entry) ⟨[toys], 1⟩,
    .read .visitor ⟨[toys], 1⟩, .release .remover (.delete "pets") (.ok (.entry pets.entry)),
    .lock .adder (.add pets), .load .adder ⟨[toys], 1⟩,
    .publish .adder (.add pets) (.entry pets.entry) ⟨[toys, pets], 2⟩,
    .release .adder (.add pets) (.ok (.entry pets.entry))]

theorem pets_deleted :
    Edit.apply opened (.remove "pets") = .ok (.entry pets.entry, ⟨[toys], 1⟩) := by
  have holds : opened.Holds "pets" [] pets [toys] := ⟨rfl, by decide +kernel, by simp⟩
  rw [Edit.apply, holds.delete_eq]
  rfl

theorem pets_added :
    Edit.apply ⟨[toys], 1⟩ (.append pets) = .ok (.entry pets.entry, ⟨[toys, pets], 2⟩) := by
  have isNew : pets.id ∉ Table.ids ⟨[toys], 1⟩ := by decide +kernel
  rw [Edit.apply, Table.add_of_new isNew]
  rfl

/-- The adder checks first, and the remover is the first to get the lock. -/
theorem run : ∃ last : Shared Person, Run (.start opened) actions last :=
  ⟨_, Run.refl
    |>.snoc (.check rfl rfl)
    |>.snoc (.check rfl rfl)
    |>.snoc (.lock rfl rfl)
    |>.snoc (.load rfl)
    |>.snoc (.read Person.visitor)
    |>.snoc (.publish rfl pets_deleted)
    |>.snoc (.read Person.visitor)
    |>.snoc (.release rfl)
    |>.snoc (.lock rfl rfl)
    |>.snoc (.load rfl)
    |>.snoc (.publish rfl pets_added)
    |>.snoc (.release rfl)⟩

theorem keepers_take_turns :
    ∃ last : Shared Person, Run (.start opened) actions last ∧ Serialized opened actions last := by
  obtain ⟨last, run⟩ := run
  exact ⟨last, run, run.serialized⟩

end PetShop

end QueryGateway.Routing
