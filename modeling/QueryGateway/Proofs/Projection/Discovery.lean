import Mathlib.Data.List.Forall2
import QueryGateway.Proofs.Projection.Failure
import QueryGateway.Proofs.Projection.Places

/-!
# The tasks that a projection discovers

The tasks of a projection are those of the visited objects with a link
directive, one for each visit, in the order in which the visits end.  A task
knows the object, where the link leads, and the fragment that is to be applied
there.

This settles the tasks: there is only one list of which it can be said.
-/

namespace QueryGateway.Projection

open Query

/-! ## Tasks -/

/-- Is there a link directive on the object? -/
def Node.IsLinked (node : Node) : Prop :=
  ∃ directive ∈ node.directives, directive.name = linkDirective

/-- The first fragment that has a name, and a type if one is given. -/
def IsFirstFragment (document : Document) (name : String) (type : Option String)
    (fragment : Fragment Argument) : Prop :=
  Suits name type fragment ∧
    ∃ before after, document.fragments = before ++ fragment :: after ∧
      ∀ other ∈ before, ¬ Suits name type other

/-- The task of the first link directive on an object. -/
inductive TaskOf (document : Document) (node : Node) : Task → Prop where
  | link
      {directive : Directive Argument}
      (isFirst : node.directives.find? (·.name = linkDirective) = some directive)
      {address url : String}
      (isAddress :
        (ownAddress? node.members).or (textArgument? directive "href") = some address)
      (expands : Template.expand address node.members = .ok url)
      {name : String}
      (isName : textArgument? directive "fragment" = some name)
      {fragment : Fragment Argument}
      (isFragment :
        IsFirstFragment document name (textArgument? directive "type") fragment) :
      TaskOf document node
        ⟨⟨some fragment.condition, fragment.directives, fragment.selections⟩,
          .object node.members, url⟩

/--
Of some visits, those of linked objects give tasks: each gives one, in the order
in which the visits end.
-/
def Discovers (document : Document) (visits : List Nat → Node → Prop) (tasks : List Task) :
    Prop :=
  ∃ places : List (List Nat),
    places.Pairwise Before ∧
      (∀ place, place ∈ places ↔ ∃ node, visits place node ∧ node.IsLinked) ∧
        List.Forall₂
          (fun place task => ∃ node, visits place node ∧ TaskOf document node task) places tasks

section

variable
    {document : Document}

/-! ## Links -/

theorem isFirstFragment_iff
    {name : String}
    {type : Option String}
    {fragment : Fragment Argument} :
    IsFirstFragment document name type fragment ↔
      document.applicableFragment? name type = some fragment := by
  rw [Document.applicableFragment?, List.find?_eq_some_iff_append, isApplicable_iff,
    IsFirstFragment]
  simp only [Bool.not_eq_true', ← Bool.not_eq_true, isApplicable_iff]

theorem taskOf_of_linkTask
    {directives : List (Directive Argument)}
    {directive : Directive Argument}
    (isFirst : directives.find? (·.name = linkDirective) = some directive)
    {members : List (String × Json.Value)}
    {task : Task}
    (isTask : linkTask document directive members = .ok task) :
    TaskOf document ⟨directives, members⟩ task := by
  rw [linkTask, bind_eq_ok] at isTask
  obtain ⟨name?, isName, isTask⟩ := isTask
  replace isName := (stringArgument?_eq_ok isName).1
  cases name? with
  | none => cases isTask
  | some name =>
      rw [bind_eq_ok] at isTask
      obtain ⟨address, isAddress, isTask⟩ := isTask
      simp only at isTask
      split at isTask
      case h_2 => cases isTask
      case h_1 url expands =>
        rw [bind_eq_ok] at isTask
        obtain ⟨_, isUrl, isTask⟩ := isTask
        cases isUrl
        rw [bind_eq_ok] at isTask
        obtain ⟨type, isType, isTask⟩ := isTask
        rw [(stringArgument?_eq_ok isType).1] at isTask
        split at isTask
        case h_1 => cases isTask
        case h_2 fragment applies =>
          cases isTask
          exact .link isFirst (linkAddress_eq_ok isAddress) expands isName.symm
            (isFirstFragment_iff.mpr applies)

/-- An object has a task if it is linked, and none otherwise. -/
theorem discovers_followLink
    {directives : List (Directive Argument)}
    {parent : Option String}
    {members : List (String × Json.Value)}
    {task? : Option Task}
    (followed : followLink document directives parent members = .ok task?) :
    Discovers document (fun place node => place = [] ∧ node = ⟨directives, members⟩)
      task?.toList := by
  rw [followLink] at followed
  split at followed
  case h_1 isNone =>
    cases followed
    refine ⟨[], .nil, ?_, .nil⟩
    rintro place
    constructor
    · intro isPlace
      cases isPlace
    · rintro ⟨node, ⟨_, rfl⟩, directive, isDirective, isLink⟩
      have notLink := List.find?_eq_none.mp isNone directive isDirective
      exact (notLink (decide_eq_true isLink)).elim
  case h_2 directive isFirst =>
    split at followed
    case h_1 task isTask =>
      cases followed
      have isLinked : Node.IsLinked ⟨directives, members⟩ :=
        ⟨directive, List.mem_of_find?_eq_some isFirst, by simpa using List.find?_some isFirst⟩
      refine ⟨[[]], List.pairwise_singleton _ _, ?_, ?_⟩
      · intro place
        constructor
        · intro isPlace
          exact ⟨_, ⟨List.mem_singleton.mp isPlace, rfl⟩, isLinked⟩
        · rintro ⟨_, ⟨rfl, _⟩, _⟩
          exact List.mem_singleton_self _
      · exact .cons ⟨_, ⟨rfl, rfl⟩, taskOf_of_linkTask isFirst isTask⟩ .nil
    case h_2 => cases followed

/-! ## Visits one after another -/

namespace Discovers

theorem congr
    {visits others : List Nat → Node → Prop}
    {tasks : List Task}
    (discovers : Discovers document visits tasks)
    (same : ∀ place node, visits place node ↔ others place node) :
    Discovers document others tasks := by
  have equal : visits = others := funext fun place => funext fun node => propext (same place node)
  exact equal ▸ discovers

theorem none
    {visits : List Nat → Node → Prop}
    (noVisit : ∀ place node, ¬ visits place node) :
    Discovers document visits [] := by
  refine ⟨[], .nil, ?_, .nil⟩
  intro place
  constructor
  · intro isPlace
    cases isPlace
  · rintro ⟨node, isVisit, _⟩
    exact (noVisit place node isVisit).elim

/-- Visits that come before others have their tasks before those of the others. -/
theorem append
    {visits others : List Nat → Node → Prop}
    {found more : List Task}
    (discovers : Discovers document visits found)
    (goesOn : Discovers document others more)
    (before :
      ∀ place node other otherNode, visits place node → others other otherNode →
        Before place other) :
    Discovers document (fun place node => visits place node ∨ others place node)
      (found ++ more) := by
  obtain ⟨places, ordered, arePlaces, areTasks⟩ := discovers
  obtain ⟨otherPlaces, otherOrdered, areOtherPlaces, areOtherTasks⟩ := goesOn
  refine ⟨places ++ otherPlaces, ?_, ?_, ?_⟩
  · refine List.pairwise_append.mpr ⟨ordered, otherOrdered, ?_⟩
    intro place isPlace other isOther
    obtain ⟨node, isVisit, _⟩ := (arePlaces place).mp isPlace
    obtain ⟨otherNode, isOtherVisit, _⟩ := (areOtherPlaces other).mp isOther
    exact before place node other otherNode isVisit isOtherVisit
  · intro place
    rw [List.mem_append, arePlaces, areOtherPlaces]
    constructor
    · rintro (⟨node, isVisit, isLinked⟩ | ⟨node, isVisit, isLinked⟩)
      · exact ⟨node, .inl isVisit, isLinked⟩
      · exact ⟨node, .inr isVisit, isLinked⟩
    · rintro ⟨node, isVisit | isVisit, isLinked⟩
      · exact .inl ⟨node, isVisit, isLinked⟩
      · exact .inr ⟨node, isVisit, isLinked⟩
  · refine List.rel_append (areTasks.imp ?_) (areOtherTasks.imp ?_)
    · rintro place task ⟨node, isVisit, isTask⟩
      exact ⟨node, .inl isVisit, isTask⟩
    · rintro place task ⟨node, isVisit, isTask⟩
      exact ⟨node, .inr isVisit, isTask⟩

/-- Entering what has a number puts the number in front of all places. -/
theorem enter
    {visits : List Nat → Node → Prop}
    {tasks : List Task}
    (discovers : Discovers document visits tasks)
    (step : Nat) :
    Discovers document (fun place node => ∃ rest, place = step :: rest ∧ visits rest node)
      tasks := by
  obtain ⟨places, ordered, arePlaces, areTasks⟩ := discovers
  refine ⟨places.map (step :: ·), ?_, ?_, ?_⟩
  · exact List.pairwise_map.mpr (ordered.imp .within)
  · intro place
    rw [List.mem_map]
    constructor
    · rintro ⟨rest, isPlace, rfl⟩
      obtain ⟨node, isVisit, isLinked⟩ := (arePlaces rest).mp isPlace
      exact ⟨node, ⟨rest, rfl, isVisit⟩, isLinked⟩
    · rintro ⟨node, ⟨rest, rfl, isVisit⟩, isLinked⟩
      exact ⟨rest, (arePlaces rest).mpr ⟨node, isVisit, isLinked⟩, rfl⟩
  · refine List.forall₂_map_left_iff.mpr (areTasks.imp ?_)
    rintro place task ⟨node, isVisit, isTask⟩
    exact ⟨node, ⟨place, rfl, isVisit⟩, isTask⟩

end Discovers

theorem Discovers.cons
    {α : Type}
    {visits : α → List Nat → Node → Prop}
    {start : Nat}
    {child : α}
    {children : List α}
    {found more : List Task}
    (ofChild : Discovers document (visits child) found)
    (ofChildren : Discovers document (Among visits (start + 1) children) more) :
    Discovers document (Among visits start (child :: children)) (found ++ more) := by
  refine ((ofChild.enter start).append ofChildren ?_).congr fun _ _ => among_cons.symm
  rintro _ _ _ _ ⟨rest, rfl, _⟩ ⟨index, _, _, _, rfl, _⟩
  exact .earlier (by omega)

theorem Discovers.nil
    {α : Type}
    (visits : α → List Nat → Node → Prop)
    (start : Nat) :
    Discovers document (Among visits start []) [] := by
  apply Discovers.none
  rintro place node ⟨index, child, rest, isChild, _⟩
  cases isChild

/-! ## Tasks of each kind of value -/

theorem discovers_visitEach
    {visit : Json.Value → Visited}
    {visits : Json.Value → List Nat → Node → Prop}
    {elements targets : List Json.Value}
    {found : List Task}
    (ofEach :
      ∀ element ∈ elements, ∀ target own,
        visit element = .ok (target, own) → Discovers document (visits element) own)
    (visited : visitEach visit elements = .ok (targets, found))
    (start : Nat) :
    Discovers document (Among visits start elements) found := by
  have visitsEach := visitEach_eq_ok visited
  clear visited
  induction visitsEach generalizing start with
  | nil => exact .nil visits start
  | cons first _ induction =>
      refine .cons (ofEach _ List.mem_cons_self _ _ first) (induction ?_ (start + 1))
      intro element isElement
      exact ofEach element (List.mem_cons_of_mem _ isElement)

theorem discovers_visitFields
    {members : List (String × Json.Value)}
    (ofMembers :
      ∀ key source, (key, source) ∈ members → ∀ field target own,
        visitValue document source field = .ok (target, own) →
          Discovers document (ValueVisit document field source) own)
    {fields : List Field}
    {target filled : List (String × Json.Value)}
    {found : List Task}
    (visited : visitFields (memberVisits document members) fields target = .ok (filled, found))
    (start : Nat) :
    Discovers document (Among (FieldVisit document members) start fields) found := by
  induction fields generalizing target filled found start with
  | nil =>
      cases visited
      exact .nil _ start
  | cons field fields induction =>
      rw [visitFields, find?_memberVisits] at visited
      cases isMember : Json.Members.find? members field.name with
      | none =>
          rw [isMember] at visited
          cases visited
      | some value =>
          rw [isMember] at visited
          simp only [Option.map_some] at visited
          rw [bind_eq_ok] at visited
          obtain ⟨⟨kept, own⟩, ofField, visited⟩ := visited
          rw [bind_eq_ok] at visited
          obtain ⟨⟨filled, more⟩, ofFields, result⟩ := visited
          cases result
          have isInside := Json.Members.mem_of_find? isMember
          refine .cons ?_ (induction ofFields (start + 1))
          refine (ofMembers field.name value isInside field kept own ofField).congr ?_
          intro place node
          simp [FieldVisit, isMember]

theorem discovers_visitObject
    (accepted : SpreadGraph.check document.fragments = .ok ())
    {members : List (String × Json.Value)}
    (ofMembers :
      ∀ key source, (key, source) ∈ members → ∀ field target own,
        visitValue document source field = .ok (target, own) →
          Discovers document (ValueVisit document field source) own)
    {entry : Entry}
    {target : Json.Value}
    {found : List Task}
    (visited :
      visitObject document entry members (memberVisits document members) = .ok (target, found)) :
    Discovers document (ObjectVisit document entry members) found := by
  obtain ⟨filled, inside, own, ofFields, followed, rfl, rfl⟩ := visitObject_eq_ok_iff.mp visited
  have ofInside := discovers_visitFields ofMembers ofFields 0
  -- the place of the object itself is behind all places inside it
  refine (ofInside.append (discovers_followLink followed) ?_).congr fun _ _ =>
    (objectVisit_iff accepted).symm
  rintro _ _ _ _ ⟨_, _, _, _, rfl, _⟩ ⟨rfl, _⟩
  exact .inside

theorem discovers_visitValue
    (accepted : SpreadGraph.check document.fragments = .ok ())
    {value : Json.Value}
    {field : Field}
    {target : Json.Value}
    {found : List Task}
    (visited : visitValue document value field = .ok (target, found)) :
    Discovers document (ValueVisit document field value) found := by
  induction value using Json.Value.inside_induction generalizing field target found with
  | scalar value isScalar =>
      rw [visitValue_of_isScalar document field isScalar] at visited
      cases visited
      exact .none (not_valueVisit_of_isScalar isScalar)
  | array elements induction =>
      rw [visitValue, visitElements_eq, bind_eq_ok] at visited
      obtain ⟨⟨targets, inside⟩, visited, result⟩ := visited
      cases result
      have ofElements := discovers_visitEach
        (fun element isElement target own => induction element isElement) visited 0
      exact ofElements.congr fun _ _ => valueVisit_array_iff.symm
  | object members induction =>
      rw [visitValue] at visited
      split at visited
      case h_1 selections hasSelections =>
        have ofObject := discovers_visitObject accepted
          (fun key source isMember field target own => induction key source isMember) visited
        exact ofObject.congr fun _ _ => (valueVisit_object_iff hasSelections).symm
      case h_2 noSelections =>
        rw [bind_eq_ok] at visited
        obtain ⟨own, followed, result⟩ := visited
        cases result
        exact (discovers_followLink followed).congr fun _ _ =>
          (valueVisit_whole_iff noSelections).symm

theorem discovers_visitRoot
    (accepted : SpreadGraph.check document.fragments = .ok ())
    {entry : Entry}
    {root target : Json.Value}
    {found : List Task}
    (visited : visitRoot document entry root = .ok (target, found)) :
    Discovers document (RootVisit document entry root) found := by
  induction root using Json.Value.inside_induction generalizing target found with
  | scalar value isScalar =>
      rw [visitRoot_of_isScalar document entry isScalar] at visited
      cases visited
  | array elements induction =>
      rw [visitRoot, visitRoots_eq, bind_eq_ok] at visited
      obtain ⟨⟨targets, inside⟩, visited, result⟩ := visited
      cases result
      have ofElements := discovers_visitEach
        (fun element isElement target own => induction element isElement) visited 0
      exact ofElements.congr fun _ _ => rootVisit_array_iff.symm
  | object members _ =>
      rw [visitRoot] at visited
      have ofObject := discovers_visitObject accepted
        (fun _ _ _ _ _ _ => discovers_visitValue accepted) visited
      exact ofObject.congr fun _ _ => rootVisit_object_iff.symm

theorem discovers_enter
    (accepted : SpreadGraph.check document.fragments = .ok ())
    {entry : Entry}
    {source : Json.Value}
    {projection : Projected}
    (entered : enter document entry source = .ok projection) :
    Discovers document (RootVisit document entry source) projection.followUps := by
  rw [enter, bind_eq_ok] at entered
  obtain ⟨⟨target, followUps⟩, visited, result⟩ := entered
  cases result
  exact discovers_visitRoot accepted visited

/-! ## There is one list of tasks -/

theorem TaskOf.unique
    {node : Node}
    {task other : Task}
    (left : TaskOf document node task)
    (right : TaskOf document node other) :
    task = other := by
  cases left with
  | link isFirst isAddress expands isName isFragment =>
      cases right with
      | link alsoFirst alsoAddress alsoExpands alsoName alsoFragment =>
          cases isFirst.symm.trans alsoFirst
          cases isAddress.symm.trans alsoAddress
          cases expands.symm.trans alsoExpands
          cases isName.symm.trans alsoName
          rw [isFirstFragment_iff] at isFragment alsoFragment
          cases isFragment.symm.trans alsoFragment
          rfl

theorem Discovers.unique
    {visits : List Nat → Node → Prop}
    (unambiguous : Unambiguous visits)
    {tasks others : List Task}
    (left : Discovers document visits tasks)
    (right : Discovers document visits others) :
    tasks = others := by
  obtain ⟨places, ordered, arePlaces, areTasks⟩ := left
  obtain ⟨otherPlaces, otherOrdered, areOtherPlaces, areOtherTasks⟩ := right
  -- two lists of the same places in the same order are equal
  have samePlaces : places = otherPlaces := by
    refine List.Perm.eq_of_pairwise ?_ ordered otherOrdered ?_
    · intro place other _ _ before after
      exact (before.asymm after).elim
    · refine (List.perm_ext_iff_of_nodup (Before.nodup ordered) (Before.nodup otherOrdered)).mpr ?_
      intro place
      rw [arePlaces, areOtherPlaces]
  subst samePlaces
  refine List.right_unique_forall₂' ?_ areTasks areOtherTasks
  rintro place task other ⟨node, isVisit, isTask⟩ ⟨otherNode, isOtherVisit, isOtherTask⟩
  cases unambiguous place node otherNode isVisit isOtherVisit
  exact isTask.unique isOtherTask

/-- As there is one list of tasks, it is the one that has been discovered. -/
theorem Discovers.eq_iff
    {visits : List Nat → Node → Prop}
    (unambiguous : Unambiguous visits)
    {tasks : List Task}
    (discovers : Discovers document visits tasks)
    (others : List Task) :
    tasks = others ↔ Discovers document visits others := by
  constructor
  · rintro rfl
    exact discovers
  · exact discovers.unique unambiguous

/-! ## Projections of a query -/

theorem discovers_project
    (accepted : SpreadGraph.check document.fragments = .ok ())
    {source : Json.Value}
    {projection : Projected}
    (projected : project document source = .ok projection) :
    Discovers document (QueryVisit document source) projection.followUps := by
  rw [project] at projected
  split at projected
  case h_1 noQuery =>
    cases projected
    apply Discovers.none
    rintro place node ⟨operation, isQuery, _⟩
    rw [noQuery] at isQuery
    cases isQuery
  case h_2 operation isQuery =>
    refine (discovers_enter accepted projected).congr ?_
    intro place node
    simp [QueryVisit, isQuery]

/--
For a query that has been read, a projection that succeeds has the tasks of the
linked objects that are visited, one for each visit, in the order in which the
visits end; and so has the projection of what is fetched for a task.
-/
theorem followUps_eq_iff
    {text : String}
    (parsed : Document.ofString text = .ok document) :
    (∀ source projection, project document source = .ok projection →
      ∀ tasks, projection.followUps = tasks ↔
        Discovers document (QueryVisit document source) tasks) ∧
    ∀ (task : Task) (source : Json.Value) (projection : Projected),
      task.project document source = .ok projection →
        ∀ tasks, projection.followUps = tasks ↔
          Discovers document (RootVisit document task.entry source) tasks := by
  have accepted := Document.check_of_ofString parsed
  constructor
  · intro source projection projected
    exact (discovers_project accepted projected).eq_iff (unambiguous_queryVisit accepted source)
  · intro task source projection projected
    exact (discovers_enter accepted projected).eq_iff
      (unambiguous_rootVisit accepted task.entry source)

end

/-! ## Toys that are selected twice -/

namespace TwiceSelected

def query : String :=
  "query @GET(fragment: \"Part\", href: \"/all\") \x7b " ++
    "toys @GET(fragment: \"Part\") \x7b id \x7d toys @GET(fragment: \"Part\") \x7d " ++
    "fragment Part on Part @GET(fragment: \"Part\", href: \"/parts/\x7bid\x7d\") \x7b id \x7d"

def link : Directive Argument :=
  ⟨"GET", [⟨"fragment", .literal (.string "Part")⟩]⟩

def linkTo (address : String) : Directive Argument :=
  ⟨"GET", [⟨"fragment", .literal (.string "Part")⟩, ⟨"href", .literal (.string address)⟩]⟩

def operation : Operation Argument :=
  ⟨.query, none, [linkTo "/all"],
    [.field none "toys" [] [link] (some [.field none "id" [] [] none]),
      .field none "toys" [] [link] none]⟩

def part : Fragment Argument :=
  ⟨"Part", "Part", [linkTo "/parts/\x7bid\x7d"], [.field none "id" [] [] none]⟩

def document : Document :=
  ⟨[operation], [part]⟩

def toy (id : String) : Json.Value :=
  .object [("href", .string "/toys/\x7bid\x7d"), ("id", .string id)]

/-- The toys are in arrays of different depths, and there is a null beside them. -/
def source : Json.Value :=
  .object [("toys", .array [toy "1", .null, .array [toy "2"]])]

def task (node : Json.Value) (url : String) : Task :=
  ⟨.ofFragment part, node, url⟩

/-- The toys come first, each of them twice, and the root comes last. -/
def tasks : List Task :=
  [task (toy "1") "/toys/1", task (toy "2") "/toys/2", task (toy "1") "/toys/1",
    task (toy "2") "/toys/2", task source "/all"]

/-- The parts of a toy, as they are fetched. -/
def parts : Json.Value :=
  .array [.object [("id", .string "3")], .array [.object [("id", .string "4")]]]

theorem discovers_toys_and_parts :
    Discovers document (QueryVisit document source) tasks ∧
      Discovers document (RootVisit document (task (toy "1") "/toys/1").entry parts)
        [task (.object [("id", .string "3")]) "/parts/3",
          task (.object [("id", .string "4")]) "/parts/4"] := by
  have parsed : Document.ofString query = .ok document := by
    cbv
  have projected : project document source = .ok ⟨source, tasks⟩ := rfl
  have fetched : (task (toy "1") "/toys/1").project document parts =
      .ok ⟨parts, [task (.object [("id", .string "3")]) "/parts/3",
        task (.object [("id", .string "4")]) "/parts/4"]⟩ := rfl
  obtain ⟨ofQuery, ofTasks⟩ := followUps_eq_iff parsed
  exact ⟨(ofQuery source _ projected _).mp rfl, (ofTasks _ parts _ fetched _).mp rfl⟩

end TwiceSelected

end QueryGateway.Projection
