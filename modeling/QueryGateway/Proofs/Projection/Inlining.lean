import Mathlib
import QueryGateway.Proofs.Projection.Simulation
import QueryGateway.Proofs.Query.Definitions

/-!
# Inlining does not change what is projected

A document in which spreads and inline fragments are replaced has the same
fields, on every object, up to what is replaced in their own selection sets.  So
it projects every source alike, with tasks that are the same up to what is
replaced in the selections they carry, and so on for what is fetched for them.

What is shown of a projection is its target, and the address and the node of
each of its tasks.  That is the same, along every way through the tasks.
-/

namespace QueryGateway.Projection

open Query

/-- An entry with some spreads and inline fragments replaced. -/
def Entry.Inlines (fragments : List (Fragment Argument)) (entry other : Entry) : Prop :=
  ∃ selections, Inlining fragments entry.selections selections ∧ other = { entry with selections }

/-- A task whose entry has some spreads and inline fragments replaced. -/
def Task.Inlines (fragments : List (Fragment Argument)) (task other : Task) : Prop :=
  ∃ entry, task.entry.Inlines fragments entry ∧ other = { task with entry }

section

variable
    {document other : Document}

/-! ## The same fields apply -/

theorem find?_rel
    {α β : Type}
    {related : α → β → Prop}
    {left : List α}
    {right : List β}
    (relates : List.Forall₂ related left right)
    {condition : α → Bool}
    {otherCondition : β → Bool}
    (sameCondition : ∀ value other, related value other → condition value = otherCondition other) :
    Option.Rel related (left.find? condition) (right.find? otherCondition) := by
  induction relates with
  | nil => exact .none
  | @cons value other _ _ first _ induction =>
      rw [List.find?_cons, List.find?_cons, sameCondition value other first]
      cases otherCondition other with
      | true => exact .some first
      | false => exact induction

theorem applicableFragment?_of_inlines
    (inlines : document.Inlines other)
    (name : String)
    (type : Option String) :
    Option.Rel (Fragment.Inlines document.fragments) (document.applicableFragment? name type)
      (other.applicableFragment? name type) := by
  refine find?_rel inlines.fragments ?_
  rintro fragment _ ⟨_, _, rfl⟩
  rfl

theorem FieldsOf.append
    {type : Option String}
    {selections others : List (Selection Argument)}
    {fields otherFields : List Field}
    (fieldsOf : FieldsOf document type selections fields)
    (fieldsOfOthers : FieldsOf document type others otherFields) :
    FieldsOf document type (selections ++ others) (fields ++ otherFields) := by
  induction fieldsOf with
  | nil => exact fieldsOfOthers
  | field _ induction => exact .field induction
  | spread applies inside _ _ induction =>
      rw [List.cons_append, List.append_assoc]
      exact .spread applies inside induction
  | unknown appliesNone _ induction => exact .unknown appliesNone induction
  | inline admitted inside _ _ induction =>
      rw [List.cons_append, List.append_assoc]
      exact .inline admitted inside induction
  | excluded notAdmitted _ induction => exact .excluded notAdmitted induction

/-- The only fragment of a name applies if its condition admits the type, and else none does. -/
theorem applicableFragment?_of_isOnly
    {fragment : Fragment Argument}
    (isOnly : document.fragments.filter (·.name = fragment.name) = [fragment])
    (type : Option String) :
    document.applicableFragment? fragment.name type =
      if admits (some fragment.condition) type then some fragment else none := by
  cases applies : document.applicableFragment? fragment.name type with
  | none =>
      have notApplicable := List.find?_eq_none.mp applies fragment (mem_of_isOnly isOnly)
      have notAdmitted : admits (some fragment.condition) type = false := by
        simpa [isApplicable] using notApplicable
      simp [notAdmitted]
  | some found =>
      obtain ⟨isFragment, isNamed⟩ := applicableFragment?_eq_some applies
      have isFiltered : found ∈ document.fragments.filter (·.name = fragment.name) :=
        List.mem_filter.mpr ⟨isFragment, by simpa using isNamed⟩
      rw [isOnly, List.mem_singleton] at isFiltered
      subst isFiltered
      have isApplicable := List.find?_some applies
      simp only [Query.isApplicable, Bool.and_eq_true] at isApplicable
      simp [isApplicable.2]

/-- The fields of a selection set are the same, up to what is replaced below them. -/
theorem FieldsOf.exists_inlines
    (inlines : document.Inlines other)
    {type : Option String}
    {selections : List (Selection Argument)}
    {fields : List Field}
    (fieldsOf : FieldsOf document type selections fields)
    {inlined : List (Selection Argument)}
    (inlining : Inlining document.fragments selections inlined) :
    ∃ others, FieldsOf other type inlined others ∧
      List.Forall₂ (Field.Inlines document.fragments) fields others := by
  induction fieldsOf generalizing inlined with
  | nil =>
      cases inlining
      exact ⟨[], .nil, .nil⟩
  | field _ induction =>
      cases inlining with
      | leaf rest =>
          obtain ⟨others, ofOthers, inlines⟩ := induction rest
          exact ⟨_, .field ofOthers, .cons ⟨none, .none, rfl⟩ inlines⟩
      | field inside rest =>
          obtain ⟨others, ofOthers, inlines⟩ := induction rest
          exact ⟨_, .field ofOthers, .cons ⟨_, .some inside, rfl⟩ inlines⟩
  | @spread name _ fragment _ _ _ applies _ _ insideInduction induction =>
      cases inlining with
      | spread rest =>
          have applicable := applicableFragment?_of_inlines inlines name type
          rw [applies] at applicable
          generalize alsoApplies : other.applicableFragment? name type = found at applicable
          cases applicable with
          | some fragmentInlines =>
              obtain ⟨_, inliningFragment, rfl⟩ := fragmentInlines
              obtain ⟨others, ofOthers, inlines⟩ := induction rest
              obtain ⟨inner, ofInner, innerInlines⟩ := insideInduction inliningFragment
              exact ⟨inner ++ others, .spread alsoApplies ofInner ofOthers,
                List.rel_append innerInlines inlines⟩
      | replaced isOnly _ inside rest =>
          rw [applicableFragment?_of_isOnly isOnly] at applies
          split at applies
          case isFalse => cases applies
          case isTrue admitted =>
            cases applies
            obtain ⟨others, ofOthers, inlines⟩ := induction rest
            obtain ⟨inner, ofInner, innerInlines⟩ := insideInduction inside
            exact ⟨inner ++ others, .inline admitted ofInner ofOthers,
              List.rel_append innerInlines inlines⟩
  | @unknown name _ _ _ appliesNone _ induction =>
      cases inlining with
      | spread rest =>
          have applicable := applicableFragment?_of_inlines inlines name type
          rw [appliesNone] at applicable
          generalize alsoApplies : other.applicableFragment? name type = found at applicable
          cases applicable with
          | none =>
              obtain ⟨others, ofOthers, inlines⟩ := induction rest
              exact ⟨others, .unknown alsoApplies ofOthers, inlines⟩
      | replaced isOnly _ inside rest =>
          rw [applicableFragment?_of_isOnly isOnly] at appliesNone
          split at appliesNone
          case isTrue => cases appliesNone
          case isFalse notAdmitted =>
            obtain ⟨others, ofOthers, inlines⟩ := induction rest
            exact ⟨others, .excluded (by simpa using notAdmitted) ofOthers, inlines⟩
  | inline admitted _ _ insideInduction induction =>
      cases inlining with
      | inline inside rest =>
          obtain ⟨others, ofOthers, inlines⟩ := induction rest
          obtain ⟨inner, ofInner, innerInlines⟩ := insideInduction inside
          exact ⟨inner ++ others, .inline admitted ofInner ofOthers,
            List.rel_append innerInlines inlines⟩
      | dissolved inside rest =>
          obtain ⟨others, ofOthers, inlines⟩ := induction rest
          obtain ⟨inner, ofInner, innerInlines⟩ := insideInduction inside
          exact ⟨inner ++ others, ofInner.append ofOthers, List.rel_append innerInlines inlines⟩
  | excluded notAdmitted _ induction =>
      cases inlining with
      | inline inside rest =>
          obtain ⟨others, ofOthers, inlines⟩ := induction rest
          exact ⟨others, .excluded notAdmitted ofOthers, inlines⟩
      | dissolved => cases notAdmitted

/-! ## The same links are followed -/

theorem linkTask_of_inlines
    (inlines : document.Inlines other)
    (directive : Directive Argument)
    (members : List (String × Json.Value)) :
    Agree (Task.Inlines document.fragments) (linkTask document directive members)
      (linkTask other directive members) := by
  rw [linkTask, linkTask]
  refine Agree.bind (agree_refl _) ?_
  rintro named _ rfl
  cases named with
  | none => exact .error _
  | some name =>
      refine Agree.bind (agree_refl _) ?_
      rintro address _ rfl
      cases Template.expand address members with
      | error key => exact .error _
      | ok url =>
          refine Agree.bind (agree_refl (.ok url)) ?_
          rintro url _ rfl
          refine Agree.bind (agree_refl _) ?_
          rintro type _ rfl
          have applicable := applicableFragment?_of_inlines inlines name type
          generalize document.applicableFragment? name type = found at applicable
          generalize other.applicableFragment? name type = otherFound at applicable
          cases applicable with
          | none => exact .error _
          | some fragmentInlines =>
              obtain ⟨selections, inlining, rfl⟩ := fragmentInlines
              exact .ok ⟨_, ⟨selections, inlining, rfl⟩, rfl⟩

theorem followLink_of_inlines
    (inlines : document.Inlines other)
    (directives : List (Directive Argument))
    (parent : Option String)
    (members : List (String × Json.Value)) :
    Agree (Option.Rel (Task.Inlines document.fragments))
      (followLink document directives parent members)
      (followLink other directives parent members) := by
  unfold followLink
  cases directives.find? (·.name = linkDirective) with
  | none => exact .ok .none
  | some directive =>
      simp only
      have tasks := linkTask_of_inlines inlines directive members
      generalize linkTask document directive members = result at tasks
      generalize linkTask other directive members = otherResult at tasks
      cases tasks with
      | error error => exact .error _
      | ok task => exact .ok (.some task)

/-! ## The same is visited -/

theorem alike_visitObject_of_inlines
    (accepted : SpreadGraph.check document.fragments = .ok ())
    (otherAccepted : SpreadGraph.check other.fragments = .ok ())
    (inlines : document.Inlines other)
    {entry otherEntry : Entry}
    (entryInlines : entry.Inlines document.fragments otherEntry)
    {members : List (String × Json.Value)}
    (alike : ∀ key value, (key, value) ∈ members → ∀ field otherField : Field,
      field.Inlines document.fragments otherField →
        Alike (Task.Inlines document.fragments) (visitValue document value field)
          (visitValue other value otherField)) :
    Alike (Task.Inlines document.fragments)
      (visitObject document entry members (memberVisits document members))
      (visitObject other otherEntry members (memberVisits other members)) := by
  obtain ⟨selections, inlining, rfl⟩ := entryInlines
  refine alike_visitObject ?_ (followLink_of_inlines inlines entry.directives entry.name members)
  have fields := fieldsOf_applicableFields accepted entry.name members entry.selections
  obtain ⟨others, ofOthers, fieldsInline⟩ := fields.exists_inlines inlines inlining
  rw [← (fieldsOf_iff_applicableFields otherAccepted).mp ofOthers]
  refine fieldsInline.imp ?_
  rintro field _ ⟨selections, relates, rfl⟩
  refine ⟨rfl, rfl, ?_, ?_⟩
  · rw [find?_memberVisits, find?_memberVisits, Option.map_eq_none_iff, Option.map_eq_none_iff]
  · intro visit otherVisit isVisit isOther
    rw [find?_memberVisits, Option.map_eq_some_iff] at isVisit isOther
    obtain ⟨value, isValue, rfl⟩ := isVisit
    obtain ⟨_, isOther, rfl⟩ := isOther
    cases isValue.symm.trans isOther
    exact alike _ value (Json.Members.mem_of_find? isValue) field _ ⟨selections, relates, rfl⟩

theorem alike_visitEach_of_mem
    {related : Task → Task → Prop}
    {visit otherVisit : Json.Value → Visited}
    {elements : List Json.Value}
    (alike : ∀ element ∈ elements, Alike related (visit element) (otherVisit element)) :
    Alike related (visitEach visit elements) (visitEach otherVisit elements) :=
  alike_visitEach (List.forall₂_same.mpr alike)

/-- Every value is visited alike under a field, whatever is replaced below the field. -/
theorem alike_visitValue_of_inlines
    (accepted : SpreadGraph.check document.fragments = .ok ())
    (otherAccepted : SpreadGraph.check other.fragments = .ok ())
    (inlines : document.Inlines other)
    (value : Json.Value)
    {field otherField : Field}
    (fieldInlines : field.Inlines document.fragments otherField) :
    Alike (Task.Inlines document.fragments) (visitValue document value field)
      (visitValue other value otherField) := by
  induction value using Json.Value.inside_induction generalizing field otherField with
  | scalar value isScalar =>
      rw [visitValue_of_isScalar document field isScalar,
        visitValue_of_isScalar other otherField isScalar]
      exact .ok ⟨rfl, .nil⟩
  | array elements induction =>
      rw [visitValue, visitValue, visitElements_eq, visitElements_eq]
      refine Agree.bind (alike_visitEach_of_mem fun element isElement =>
        induction element isElement fieldInlines) ?_
      rintro ⟨targets, found⟩ ⟨_, others⟩ ⟨rfl, tasks⟩
      exact .ok ⟨rfl, tasks⟩
  | object members induction =>
      obtain ⟨otherSelections, relates, rfl⟩ := fieldInlines
      rw [visitValue, visitValue]
      cases own : field.selections with
      | none =>
          rw [own] at relates
          cases relates
          refine Agree.bind
            (followLink_of_inlines inlines field.directives (some field.name) members) ?_
          intro task otherTask relates
          exact .ok ⟨rfl, forall₂_toList relates⟩
      | some selections =>
          rw [own] at relates
          cases relates with
          | some inlining =>
              refine alike_visitObject_of_inlines accepted otherAccepted inlines
                ⟨_, inlining, rfl⟩ ?_
              intro key value isMember field otherField fieldInlines
              exact induction key value isMember fieldInlines

theorem alike_visitRoot_of_inlines
    (accepted : SpreadGraph.check document.fragments = .ok ())
    (otherAccepted : SpreadGraph.check other.fragments = .ok ())
    (inlines : document.Inlines other)
    {entry otherEntry : Entry}
    (entryInlines : entry.Inlines document.fragments otherEntry)
    (source : Json.Value) :
    Alike (Task.Inlines document.fragments) (visitRoot document entry source)
      (visitRoot other otherEntry source) := by
  induction source using Json.Value.inside_induction with
  | scalar value isScalar =>
      rw [visitRoot_of_isScalar document entry isScalar,
        visitRoot_of_isScalar other otherEntry isScalar]
      exact .error _
  | array elements induction =>
      rw [visitRoot, visitRoot, visitRoots_eq, visitRoots_eq]
      refine Agree.bind (alike_visitEach_of_mem induction) ?_
      rintro ⟨targets, found⟩ ⟨_, others⟩ ⟨rfl, tasks⟩
      exact .ok ⟨rfl, tasks⟩
  | object members _ =>
      rw [visitRoot, visitRoot]
      refine alike_visitObject_of_inlines accepted otherAccepted inlines entryInlines ?_
      intro _ value _ field otherField fieldInlines
      exact alike_visitValue_of_inlines accepted otherAccepted inlines value fieldInlines

/-! ## The same is shown -/

/-- What is shown of a projection: its target, and the address and the node of each task. -/
def Projected.shown (projected : Projected) : Json.Value × List (String × Json.Value) :=
  (projected.target, projected.followUps.map fun task => (task.url, task.snapshot))

/--
The projection at the end of a way through the tasks.  Each step names a task by
its place and comes with the document that is fetched for it.
-/
def follow (document : Document) :
    Except ProjectionError Projected → List (Nat × Json.Value) →
      Option (Except ProjectionError Projected)
  | result, [] => some result
  | .error _, _ :: _ => none
  | .ok projected, (place, fetched) :: steps =>
      match projected.followUps[place]? with
      | none => none
      | some task => follow document (task.project document fetched) steps

/-- What is shown at the end of a way through the tasks, from the projection of a source. -/
def shownAlong (document : Document) (source : Json.Value) (steps : List (Nat × Json.Value)) :
    Option (Except ProjectionError (Json.Value × List (String × Json.Value))) :=
  (follow document (project document source) steps).map (·.map Projected.shown)

theorem map_shown_of_inlines
    {fragments : List (Fragment Argument)}
    {tasks others : List Task}
    (inlines : List.Forall₂ (Task.Inlines fragments) tasks others) :
    tasks.map (fun task => (task.url, task.snapshot)) =
      others.map fun task => (task.url, task.snapshot) := by
  induction inlines with
  | nil => rfl
  | cons first _ induction =>
      obtain ⟨_, _, rfl⟩ := first
      rw [List.map_cons, List.map_cons, induction]

theorem shown_of_same
    {fragments : List (Fragment Argument)}
    {left right : Projected}
    (same : SameProjected (Task.Inlines fragments) left right) :
    left.shown = right.shown := by
  rw [Projected.shown, Projected.shown, same.target, map_shown_of_inlines same.followUps]

theorem getElem?_rel
    {α β : Type}
    {related : α → β → Prop}
    {left : List α}
    {right : List β}
    (relates : List.Forall₂ related left right)
    (index : Nat) :
    Option.Rel related left[index]? right[index]? := by
  induction relates generalizing index with
  | nil => exact .none
  | cons first _ induction =>
      cases index with
      | zero => exact .some first
      | succ index => exact induction index

theorem shown_follow_of_agree
    (accepted : SpreadGraph.check document.fragments = .ok ())
    (otherAccepted : SpreadGraph.check other.fragments = .ok ())
    (inlines : document.Inlines other)
    {result otherResult : Except ProjectionError Projected}
    (agree : Agree (SameProjected (Task.Inlines document.fragments)) result otherResult)
    (steps : List (Nat × Json.Value)) :
    (follow document result steps).map (·.map Projected.shown) =
      (follow other otherResult steps).map (·.map Projected.shown) := by
  induction steps generalizing result otherResult with
  | nil =>
      cases agree with
      | error error => rfl
      | ok same => simp [follow, Except.map, shown_of_same same]
  | cons step steps induction =>
      obtain ⟨place, fetched⟩ := step
      cases agree with
      | error error => rfl
      | @ok projected otherProjected same =>
          rw [follow, follow]
          have atPlace := getElem?_rel same.followUps place
          generalize projected.followUps[place]? = found at atPlace
          generalize otherProjected.followUps[place]? = otherFound at atPlace
          cases atPlace with
          | none => rfl
          | some taskInlines =>
              obtain ⟨_, entryInlines, rfl⟩ := taskInlines
              exact induction (agree_enter
                (alike_visitRoot_of_inlines accepted otherAccepted inlines entryInlines fetched))

/-- Along every way through the tasks, the same is shown of every source. -/
theorem shownAlong_of_inlines
    (accepted : SpreadGraph.check document.fragments = .ok ())
    (otherAccepted : SpreadGraph.check other.fragments = .ok ())
    (inlines : document.Inlines other)
    (source : Json.Value)
    (steps : List (Nat × Json.Value)) :
    shownAlong document source steps = shownAlong other source steps := by
  refine shown_follow_of_agree accepted otherAccepted inlines ?_ steps
  have queries : Option.Rel (Operation.Inlines document.fragments) document.queryOperation?
      other.queryOperation? := by
    refine find?_rel inlines.operations ?_
    rintro operation _ ⟨_, _, rfl⟩
    rfl
  rw [project, project]
  generalize document.queryOperation? = query at queries
  generalize other.queryOperation? = otherQuery at queries
  cases queries with
  | none => exact .ok ⟨rfl, .nil⟩
  | some operationInlines =>
      obtain ⟨selections, inlining, rfl⟩ := operationInlines
      exact agree_enter (alike_visitRoot_of_inlines accepted otherAccepted inlines
        ⟨selections, inlining, rfl⟩ source)

/--
Spreads and inline fragments of a text that is accepted may be replaced.  Unless
the result nests too deep, and only then, it is that of a text; such a text is
accepted, and all that is ever shown is what it was.
-/
theorem shownAlong_of_inlinesAll
    {text : String}
    {definitions others : List (Definition WrittenArgument)}
    (written : writtenDefinitions? text = some definitions)
    {document : Document}
    (accepted : Document.ofString text = .ok document)
    (inlines : InlinesAll definitions others) :
    ∃ inlined, evaluateDefinitions others = .ok inlined ∧
      ((∃ otherText, writtenDefinitions? otherText = some others) ↔
        ∀ definition ∈ others, definition.nesting ≤ Grammar.nestingLimit) ∧
      (∀ otherText, writtenDefinitions? otherText = some others →
        Document.ofString otherText = .ok inlined) ∧
      ∀ source steps, shownAlong inlined source steps = shownAlong document source steps := by
  obtain ⟨inlined, evaluates, documentInlines, checked⟩ :=
    exists_inlined written accepted inlines
  refine ⟨inlined, evaluates, exists_text_iff written inlines, ?_, ?_⟩
  · intro otherText otherWritten
    exact (Document.ofString_eq_ok_iff otherWritten).mpr ⟨evaluates, checked⟩
  · intro source steps
    exact (shownAlong_of_inlines (Document.check_of_ofString accepted) checked documentInlines
      source steps).symm

end

/-! ## Owners of pets -/

namespace Owners

def query : String :=
  "\x7b ...Owner \x7d fragment Owner on Person " ++
    "\x7b ... \x7b name \x7d pet @GET(fragment: \"Pet\") \x7d fragment Pet on Pet \x7b tag \x7d"

def spelledOut : String :=
  "\x7b ... on Person \x7b name pet @GET(fragment: \"Pet\") \x7d \x7d fragment Owner on Person " ++
    "\x7b ... \x7b name \x7d pet @GET(fragment: \"Pet\") \x7d fragment Pet on Pet \x7b tag \x7d"

def field (name : String) : Selection WrittenArgument :=
  .field none name [] [] none

def pet : Selection WrittenArgument :=
  .field none "pet" [] [⟨"GET", [("fragment", some (.string "Pet"))]⟩] none

def owner : Fragment WrittenArgument :=
  ⟨"Owner", "Person", [], [.inline none [] [field "name"], pet]⟩

def fragments : List (Definition WrittenArgument) :=
  [.fragment owner, .fragment ⟨"Pet", "Pet", [], [field "tag"]⟩]

def definitions : List (Definition WrittenArgument) :=
  .operation ⟨.query, none, [], [.spread "Owner" []]⟩ :: fragments

def others : List (Definition WrittenArgument) :=
  .operation ⟨.query, none, [], [.inline (some "Person") [] [field "name", pet]]⟩ :: fragments

theorem inlines :
    InlinesAll definitions others := by
  have unchanged : ∀ own : Fragment WrittenArgument,
      Definition.Inlines (definitions.filterMap (·.fragment?)) (.fragment own) (.fragment own) :=
    fun own => .fragment ⟨own.selections, .refl own.selections, rfl⟩
  have isOnly : (definitions.filterMap (·.fragment?)).filter (·.name = owner.name) = [owner] := rfl
  refine .cons (.operation ⟨_, ?_, rfl⟩) (.cons (unchanged _) (.cons (unchanged _) .nil))
  -- The spread is replaced, and the inline fragment in what takes its place is dissolved.
  exact .replaced isOnly (.inl rfl) (.dissolved (.leaf .nil) (.leaf .nil)) .nil

def link : Directive Argument :=
  ⟨"GET", [⟨"fragment", .literal (.string "Pet")⟩]⟩

def document : Document :=
  ⟨[⟨.query, none, [], [.spread "Owner" []]⟩],
    [⟨"Owner", "Person", [],
        [.inline none [] [.field none "name" [] [] none], .field none "pet" [] [link] none]⟩,
      ⟨"Pet", "Pet", [], [.field none "tag" [] [] none]⟩]⟩

def reference : Json.Value :=
  .object [("href", .string "/pets/1")]

def source : Json.Value :=
  .object [("name", .string "Ann"), ("age", .number (.integer 7)), ("pet", reference)]

def target : Json.Value :=
  .object [("name", .string "Ann"), ("pet", reference)]

def task : Task :=
  ⟨⟨some "Pet", [], [.field none "tag" [] [] none]⟩, reference, "/pets/1"⟩

/-- The pet, as it is fetched. -/
def rex : Json.Value :=
  .object [("tag", .string "7"), ("name", .string "Rex")]

/-- The owner is shown with a task, and from there the tag of the pet. -/
theorem owner_is_spelled_out :
    InlinesAll definitions others ∧ Document.ofString query = .ok document ∧
      ∃ inlined, Document.ofString spelledOut = .ok inlined ∧
        (∀ source steps, shownAlong inlined source steps = shownAlong document source steps) ∧
        shownAlong inlined source [] = some (.ok (target, [("/pets/1", reference)])) ∧
        shownAlong inlined source [(0, rex)] =
          some (.ok (.object [("tag", .string "7")], [])) := by
  have written : writtenDefinitions? query = some definitions := by
    cbv
  have parsed : Document.ofString query = .ok document :=
    (Document.ofString_eq_ok_iff written).mpr ⟨rfl, rfl⟩
  have otherWritten : writtenDefinitions? spelledOut = some others := by
    cbv
  have projected : project document source = .ok ⟨target, [task]⟩ := rfl
  have fetched : task.project document rex = .ok ⟨.object [("tag", .string "7")], []⟩ := rfl
  obtain ⟨inlined, _, _, accepted, shown⟩ := shownAlong_of_inlinesAll written parsed inlines
  refine ⟨inlines, parsed, inlined, accepted _ otherWritten, shown, ?_, ?_⟩
  · rw [shown, shownAlong, projected]
    rfl
  · rw [shown, shownAlong, projected]
    simp [follow, fetched, Except.map, Projected.shown]

end Owners

/-! ## A thread of comments that is too deep -/

namespace Threads

variable
    {α : Type}

/-- Replies to replies. -/
def replies : Nat → List (Selection α) → List (Selection α)
  | 0, inside => inside
  | count + 1, inside => [.field none "reply" [] [] (some (replies count inside))]

theorem nestingOf_replies
    (count : Nat)
    (inside : List (Selection WrittenArgument)) :
    Selection.nestingOf (replies count inside) = count + Selection.nestingOf inside := by
  induction count with
  | zero => simp [replies]
  | succ count induction =>
      simp [replies, Selection.nestingOf, Selection.nesting, Literal.nestingOfEntries,
        nestingOfDirectives, induction]
      omega

theorem readableAll_replies
    {inside : List (Selection WrittenArgument)}
    (nonempty : inside ≠ [])
    (readable : Selection.ReadableAll inside)
    (count : Nat) :
    replies count inside ≠ [] ∧ Selection.ReadableAll (replies count inside) := by
  have isName : IsName "reply" := Token.readable_name (by decide) (by decide)
  induction count with
  | zero => exact ⟨nonempty, readable⟩
  | succ count induction =>
      refine ⟨List.cons_ne_nil _ _, ?_⟩
      simpa [replies, Selection.ReadableAll, Selection.Readable, Literal.ReadableEntries,
        ReadableDirectives] using ⟨isName, induction⟩

theorem inlining_replies
    {fragments : List (Fragment α)}
    {inside others : List (Selection α)}
    (inlining : Inlining fragments inside others)
    (count : Nat) :
    Inlining fragments (replies count inside) (replies count others) := by
  induction count with
  | zero => exact inlining
  | succ count induction => exact .field induction .nil

theorem evaluateSelections_replies
    {inside : List (Selection WrittenArgument)}
    {results : List (Selection Argument)}
    (evaluates : evaluateSelections inside = .ok results)
    (count : Nat) :
    evaluateSelections (replies count inside) = .ok (replies count results) := by
  induction count with
  | zero => exact evaluates
  | succ count induction =>
      exact evaluateSelections_cons_eq_ok_iff.mpr ⟨_, [],
        evaluateSelection_field_eq_ok_iff.mpr ⟨_, induction, [], rfl, [], rfl, rfl⟩, rfl, rfl⟩

theorem spreadNamesOf_replies
    (count : Nat)
    (inside : List (Selection α)) :
    Selection.spreadNamesOf (replies count inside) = Selection.spreadNamesOf inside := by
  induction count with
  | zero => rfl
  | succ count induction =>
      simp [replies, Selection.spreadNamesOf, Selection.spreadNames, induction]

def thread (count : Nat) : Fragment α :=
  ⟨"Thread", "Comment", [], replies count [.field none "id" [] [] none]⟩

def definitions (count : Nat) : List (Definition WrittenArgument) :=
  [.operation ⟨.query, none, [], replies count [.spread "Thread" []]⟩, .fragment (thread count)]

def document (count : Nat) : Document :=
  ⟨[⟨.query, none, [], replies count [.spread "Thread" []]⟩], [thread count]⟩

def others (count : Nat) : List (Definition WrittenArgument) :=
  [.operation ⟨.query, none, [],
      replies count [.inline (some "Comment") [] (thread count).selections]⟩,
    .fragment (thread count)]

theorem inlines
    (count : Nat) :
    InlinesAll (definitions count) (others count) := by
  have isOnly : ((definitions count).filterMap (·.fragment?)).filter
      (·.name = (thread count : Fragment WrittenArgument).name) = [thread count] := rfl
  refine .cons (.operation ⟨_, inlining_replies ?_ count, rfl⟩)
    (.cons (.fragment ⟨_, .refl _, rfl⟩) .nil)
  exact .replaced isOnly (.inl rfl) (.refl _) .nil

theorem written
    {count : Nat}
    (fits : count + 1 ≤ Grammar.nestingLimit) :
    writtenDefinitions? (writtenText (definitions count)) = some (definitions count) := by
  have isThread : IsName "Thread" := Token.readable_name (by decide) (by decide)
  have isComment : IsName "Comment" := Token.readable_name (by decide) (by decide)
  have isId : IsName "id" := Token.readable_name (by decide) (by decide)
  refine writtenDefinitions?_writtenText (List.cons_ne_nil _ _) ?_ ?_
  · have ofSpread : Selection.ReadableAll [Selection.spread "Thread" []] := by
      simpa [Selection.ReadableAll, Selection.Readable, ReadableDirectives] using isThread
    have ofId : Selection.ReadableAll [Selection.field none "id" [] [] none] := by
      simpa [Selection.ReadableAll, Selection.Readable, ReadableDirectives,
        Literal.ReadableEntries] using isId
    refine List.forall_mem_cons.mpr ⟨?_, List.forall_mem_singleton.mpr ?_⟩
    · exact ⟨nofun, List.forall_mem_nil _, readableAll_replies (by simp) ofSpread count⟩
    · exact ⟨isThread, by simp [thread], isComment, List.forall_mem_nil _,
        readableAll_replies (by simp) ofId count⟩
  · refine List.forall_mem_cons.mpr ⟨?_, List.forall_mem_singleton.mpr ?_⟩
    · simpa [Definition.nesting, nestingOf_replies, Selection.nestingOf, Selection.nesting,
        nestingOfDirectives] using fits
    · simpa [Definition.nesting, nestingOf_replies, thread, Selection.nestingOf,
        Selection.nesting, nestingOfDirectives, Literal.nestingOfEntries] using fits

theorem accepted
    {count : Nat}
    (fits : count + 1 ≤ Grammar.nestingLimit) :
    Document.ofString (writtenText (definitions count)) = .ok (document count) := by
  have ofSpread : evaluateSelections [.spread "Thread" []] = .ok [.spread "Thread" []] := rfl
  have ofId : evaluateSelections [.field none "id" [] [] none] =
      .ok [.field none "id" [] [] none] := rfl
  refine (Document.ofString_eq_ok_iff (written fits)).mpr ⟨?_, ?_⟩
  · simp only [definitions, document, thread, evaluateDefinitions, evaluateOperation,
      evaluateFragment, evaluateSelections_replies ofSpread, evaluateSelections_replies ofId]
    rfl
  · have noSpread : SpreadGraph.successors (document count).fragments "Thread" = [] := by
      simp [SpreadGraph.successors, document, thread, spreadNamesOf_replies,
        Selection.spreadNamesOf, Selection.spreadNames]
    have ordered : SpreadGraph.Ordered (document count).fragments ["Thread"] :=
      ⟨List.subset_nil.mpr noSpread, trivial⟩
    exact SpreadGraph.check_of_ordered ordered (List.Subset.refl _)

/-- The thread is accepted; spelled out in its place, it is read from no text. -/
theorem no_text_is_spelled_out :
    writtenDefinitions? (writtenText (definitions 400)) = some (definitions 400) ∧
      Document.ofString (writtenText (definitions 400)) = .ok (document 400) ∧
      InlinesAll (definitions 400) (others 400) ∧
      ∀ text, writtenDefinitions? text ≠ some (others 400) := by
  have fits : 400 + 1 ≤ Grammar.nestingLimit := by decide
  refine ⟨written fits, accepted fits, inlines 400, ?_⟩
  intro text isWritten
  have within := within_of_writtenDefinitions? isWritten _ List.mem_cons_self
  have fitsInside := within.2
  simp only [Definition.nesting, nestingOf_replies, thread, Selection.nestingOf,
    Selection.nesting, Grammar.nestingLimit] at fitsInside
  omega

end Threads

end QueryGateway.Projection
