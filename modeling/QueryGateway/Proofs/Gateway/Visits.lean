import Mathlib.Data.List.Forall2
import QueryGateway.Gateway.Stream
import QueryGateway.Proofs.Multipart.Polling
import QueryGateway.Proofs.Result

/-!
# The tree of follow-ups

A task that succeeds yields a part and further tasks, so the tasks of a request
form a tree.  `Walk.Unfolds` relates tasks to the trees that grow from them; it
is inductive, and so speaks about finite trees only.

A walk in depth carries tasks out one after another and knows of no tree.  The
tasks that a part brings up come before those that were waiting, and the first
failure is the last step.  A walk need not end, since a document may link to
itself, and is therefore unrolled only as far as somebody asks for steps.  On
finite trees it takes the tasks in pre-order, a task before those it brings up
and these before its next sibling.

What it means for a task to succeed is stated as a relation of its own: the
link is resolved and routed, the backend answers with a document, and the
document is projected with what the task selects.
-/

namespace QueryGateway.Gateway

open Message

/-! ## Tasks that succeed -/

/-- What was sent and received for a document, and what became of it. -/
structure Visit where
  request : Request
  response : Response
  projection : Projection.Projected

/-- The part that a visited document makes. -/
def Visit.part (visit : Visit) : Multipart.Part :=
  .complete (partHeaders visit.response.headers) (Bytes.ofString visit.projection.target.render)

/-- A backend's answer to a request, read as JSON within a limit. -/
structure Backend.Delivers (backend : Backend) (limit : Nat) (visit : Visit)
    (source : Json.Value) : Prop where
  answered : backend visit.request = .ok visit.response
  succeeded : visit.response.status < leastErrorStatus
  isJson :
    ∃ content, visit.response.body.read limit = .ok content ∧ Json.ofBytes? content = some source

/-- What it means that a task is carried out with success. -/
structure Walk.Completes (walk : Walk) (task : Projection.Task) (visit : Visit) : Prop where
  /-- The link is resolved, and routed if a mapping applies; the request goes where this leads. -/
  sent :
    ∃ url, walk.base.join task.url = .ok url ∧
      outbound "GET" ((walk.table.resolve? url.render).getD url.render) walk.headers .empty =
        .ok visit.request
  /-- The document that the backend answers with is projected. -/
  projected :
    ∃ source, walk.backend.Delivers walk.limit visit source ∧
      task.project walk.document source = .ok visit.projection

theorem fetch_of_success
    {backend : Backend}
    {request : Request}
    {response : Response}
    (limit : Nat)
    (answered : backend request = .ok response)
    (succeeded : response.status < leastErrorStatus) :
    fetch backend limit request = .ok response := by
  have noError : ¬ response.status ≥ leastErrorStatus := Nat.not_le.mpr succeeded
  rw [fetch, answered]
  exact if_neg noError

theorem readJson_of_success
    {limit : Nat}
    {body : Body}
    {content : Bytes}
    {source : Json.Value}
    (address : String)
    (read : body.read limit = .ok content)
    (isJson : Json.ofBytes? content = some source) :
    readJson limit address body = .ok source := by
  simp [readJson, read, isJson]

/-- A task that succeeds yields its part and the tasks that came up in it. -/
theorem Walk.Completes.carryOut_eq
    {walk : Walk}
    {task : Projection.Task}
    {visit : Visit}
    (completes : walk.Completes task visit) :
    walk.carryOut task =
      ⟨some visit.request, .ok (visit.part, visit.projection.followUps)⟩ := by
  obtain ⟨url, joined, sent⟩ := completes.sent
  obtain ⟨source, delivers, projected⟩ := completes.projected
  obtain ⟨content, read, isJson⟩ := delivers.isJson
  have address : walk.address task.url =
      .ok ((walk.table.resolve? url.render).getD url.render) := by
    rw [Walk.address, joined]
  have requested : walk.request ((walk.table.resolve? url.render).getD url.render) =
      .ok visit.request := sent
  have fetched := fetch_of_success walk.limit delivers.answered delivers.succeeded
  have wasRead := readJson_of_success
    ((walk.table.resolve? url.render).getD url.render) read isJson
  have part : walk.part task ((walk.table.resolve? url.render).getD url.render) visit.request =
      .ok (visit.part, visit.projection.followUps) := by
    simp only [Walk.part, fetched, Except.mapError, bind, Except.bind, wasRead, projected]
    rfl
  simp only [Walk.carryOut, address, requested, part]

theorem Walk.Completes.result_eq
    {walk : Walk}
    {task : Projection.Task}
    {visit : Visit}
    (completes : walk.Completes task visit) :
    (walk.carryOut task).result = .ok (visit.part, visit.projection.followUps) := by
  rw [completes.carryOut_eq]

/-! ## Trees -/

/-- A task with the trees of the tasks that it brought up. -/
inductive TaskTree where
  | node (task : Projection.Task) (children : List TaskTree)

mutual

/-- The tasks of a tree, each before those that it brought up. -/
def TaskTree.preorder : TaskTree → List Projection.Task
  | .node task children => task :: TaskTree.preorders children

/-- The tasks of some trees, those of a tree before those of the next one. -/
def TaskTree.preorders : List TaskTree → List Projection.Task
  | [] => []
  | tree :: trees => tree.preorder ++ TaskTree.preorders trees

end

/-- The tasks that a task brings up; a task that fails brings up none. -/
def Walk.discovered (walk : Walk) (task : Projection.Task) : List Projection.Task :=
  match (walk.carryOut task).result with
  | .ok (_, tasks) => tasks
  | .error _ => []

/-- The finite trees that grow from tasks. -/
inductive Walk.Unfolds (walk : Walk) : List Projection.Task → List TaskTree → Prop where
  | nil : walk.Unfolds [] []
  | cons
      {task : Projection.Task}
      {tasks : List Projection.Task}
      {children trees : List TaskTree}
      (below : walk.Unfolds (walk.discovered task) children)
      (beside : walk.Unfolds tasks trees) :
      walk.Unfolds (task :: tasks) (.node task children :: trees)

theorem Walk.discovered_of_success
    {walk : Walk}
    {task : Projection.Task}
    {part : Multipart.Part}
    {tasks : List Projection.Task}
    (succeeds : (walk.carryOut task).result = .ok (part, tasks)) :
    walk.discovered task = tasks := by
  rw [Walk.discovered, succeeds]

theorem Walk.discovered_of_failure
    {walk : Walk}
    {task : Projection.Task}
    {error : GatewayError}
    (fails : (walk.carryOut task).result = .error error) :
    walk.discovered task = [] := by
  rw [Walk.discovered, fails]

theorem Walk.Unfolds.append
    {walk : Walk}
    {first second : List Projection.Task}
    {firstTrees secondTrees : List TaskTree}
    (firstUnfolds : walk.Unfolds first firstTrees)
    (secondUnfolds : walk.Unfolds second secondTrees) :
    walk.Unfolds (first ++ second) (firstTrees ++ secondTrees) := by
  induction firstUnfolds with
  | nil => exact secondUnfolds
  | cons below _ _ induction => exact .cons below induction

theorem TaskTree.preorders_append
    (first second : List TaskTree) :
    preorders (first ++ second) = preorders first ++ preorders second := by
  induction first with
  | nil => rfl
  | cons tree first induction => simp [preorders, induction]

/-- Below a task come the trees that grow from it, and then those beside it. -/
theorem TaskTree.preorders_cons
    (task : Projection.Task)
    (children trees : List TaskTree) :
    preorders (.node task children :: trees) = task :: preorders (children ++ trees) := by
  simp [preorders, preorder, preorders_append]

/-- The tasks of a list stand in the pre-order of their trees, in their order. -/
theorem Walk.Unfolds.sublist_preorders
    {walk : Walk}
    {tasks : List Projection.Task}
    {trees : List TaskTree}
    (unfolds : walk.Unfolds tasks trees) :
    tasks.Sublist (TaskTree.preorders trees) := by
  induction unfolds with
  | nil => exact .slnil
  | @cons task tasks children trees _ _ _ besideInduction =>
      rw [TaskTree.preorders_cons, TaskTree.preorders_append]
      exact (besideInduction.trans (List.sublist_append_right _ _)).cons_cons task

/-! ## One task after another -/

/-- One step of a walk: a request that was sent, and what the body is given. -/
structure Step where
  sent : Option Request
  event : Multipart.Event GatewayError
deriving DecidableEq, Repr

namespace Walk

/--
The steps that carry out tasks, up to the end, to the first failure, or to a
greatest number of steps.
-/
def steps (walk : Walk) : Nat → List Projection.Task → List Step
  | 0, _ => []
  | _ + 1, [] => [⟨none, .ended⟩]
  | count + 1, task :: waiting =>
      let outcome := walk.carryOut task
      match outcome.result with
      | .ok (part, tasks) =>
          ⟨outcome.sent, .chunk part⟩ :: walk.steps count (tasks ++ waiting)
      | .error error => [⟨outcome.sent, .failed error⟩]

/-- What comes of a task: its part, or its error. -/
def item (walk : Walk) (task : Projection.Task) : Multipart.Event GatewayError :=
  match (walk.carryOut task).result with
  | .ok (part, _) => .chunk part
  | .error error => .failed error

/-- A task fails when it is carried out. -/
def Fails (walk : Walk) (task : Projection.Task) : Prop :=
  ∃ error, walk.item task = .failed error

/-- The tasks up to the first one that fails, which is the last one left. -/
def untilFailure (walk : Walk) : List Projection.Task → List Projection.Task
  | [] => []
  | task :: tasks =>
      match (walk.carryOut task).result with
      | .ok _ => task :: walk.untilFailure tasks
      | .error _ => [task]

variable
    {walk : Walk}
    {task : Projection.Task}

theorem item_of_success
    {part : Multipart.Part}
    {tasks : List Projection.Task}
    (succeeds : (walk.carryOut task).result = .ok (part, tasks)) :
    walk.item task = .chunk part := by
  rw [item, succeeds]

theorem item_of_failure
    {error : GatewayError}
    (fails : (walk.carryOut task).result = .error error) :
    walk.item task = .failed error := by
  rw [item, fails]

theorem exists_result_of_item
    {part : Multipart.Part}
    (isPart : walk.item task = .chunk part) :
    ∃ tasks, (walk.carryOut task).result = .ok (part, tasks) := by
  rw [item] at isPart
  split at isPart
  · next succeeds =>
      cases isPart
      exact ⟨_, succeeds⟩
  · cases isPart

theorem not_fails_of_item
    {part : Multipart.Part}
    (isPart : walk.item task = .chunk part) :
    ¬ walk.Fails task := by
  simp [Fails, isPart]

theorem Fails.exists_error
    (fails : walk.Fails task) :
    ∃ error, (walk.carryOut task).result = .error error ∧ walk.item task = .failed error := by
  obtain ⟨error, isFailed⟩ := fails
  cases result : (walk.carryOut task).result with
  | ok yielded => simp [item_of_success result] at isFailed
  | error error => exact ⟨error, rfl, item_of_failure result⟩

theorem untilFailure_of_success
    {yielded : Multipart.Part × List Projection.Task}
    (succeeds : (walk.carryOut task).result = .ok yielded)
    (tasks : List Projection.Task) :
    walk.untilFailure (task :: tasks) = task :: walk.untilFailure tasks := by
  simp [untilFailure, succeeds]

theorem untilFailure_of_failure
    {error : GatewayError}
    (fails : (walk.carryOut task).result = .error error)
    (tasks : List Projection.Task) :
    walk.untilFailure (task :: tasks) = [task] := by
  simp [untilFailure, fails]

theorem untilFailure_singleton
    (walk : Walk)
    (task : Projection.Task) :
    walk.untilFailure [task] = [task] := by
  rw [untilFailure]
  split <;> rfl

theorem untilFailure_append_of_succeed
    {first : List Projection.Task}
    (succeed : ∀ task ∈ first, ¬ walk.Fails task)
    (second : List Projection.Task) :
    walk.untilFailure (first ++ second) = first ++ walk.untilFailure second := by
  induction first with
  | nil => rfl
  | cons task first induction =>
      cases result : (walk.carryOut task).result with
      | ok yielded =>
          rw [List.cons_append, untilFailure_of_success result, List.cons_append,
            induction fun task member => succeed task (List.mem_cons_of_mem _ member)]
      | error error => exact (succeed task (by simp) ⟨error, item_of_failure result⟩).elim

theorem untilFailure_append_of_fails
    {first : List Projection.Task}
    (fails : ∃ task ∈ first, walk.Fails task)
    (second : List Projection.Task) :
    walk.untilFailure (first ++ second) = walk.untilFailure first := by
  induction first with
  | nil => simp at fails
  | cons task first induction =>
      cases result : (walk.carryOut task).result with
      | ok yielded =>
          have others : ∃ task ∈ first, walk.Fails task := by
            simpa [not_fails_of_item (item_of_success result)] using fails
          rw [List.cons_append, untilFailure_of_success result, untilFailure_of_success result,
            induction others]
      | error error =>
          rw [List.cons_append, untilFailure_of_failure result, untilFailure_of_failure result]

/-- A part that a task yields is complete. -/
theorem isLast_of_carryOut
    {part : Multipart.Part}
    {tasks : List Projection.Task}
    (succeeds : (walk.carryOut task).result = .ok (part, tasks)) :
    part.isLast = true := by
  rw [carryOut] at succeeds
  split at succeeds
  · cases succeeds
  · split at succeeds
    · cases succeeds
    · obtain ⟨_, _, succeeds⟩ := bind_eq_ok.mp succeeds
      obtain ⟨_, _, succeeds⟩ := bind_eq_ok.mp succeeds
      obtain ⟨_, _, succeeds⟩ := bind_eq_ok.mp succeeds
      cases succeeds
      rfl

end Walk

/-! ## How far a walk has come -/

/-- The walk has carried some tasks out, with success, and others are waiting. -/
inductive Walk.Leads (walk : Walk) (tasks : List Projection.Task) :
    List Projection.Task → List Projection.Task → Prop where
  | start : walk.Leads tasks [] tasks
  | onward
      {carriedOut waiting found : List Projection.Task}
      {task : Projection.Task}
      {part : Multipart.Part}
      (before : walk.Leads tasks carriedOut (task :: waiting))
      (succeeds : (walk.carryOut task).result = .ok (part, found)) :
      walk.Leads tasks (carriedOut ++ [task]) (found ++ waiting)

namespace Walk.Leads

variable
    {walk : Walk}
    {tasks carriedOut waiting : List Projection.Task}

/-- On finite trees, what has been carried out and what grows from the rest is the pre-order. -/
theorem exists_trees
    (leads : walk.Leads tasks carriedOut waiting)
    {trees : List TaskTree}
    (unfolds : walk.Unfolds tasks trees) :
    ∃ others, walk.Unfolds waiting others ∧
      TaskTree.preorders trees = carriedOut ++ TaskTree.preorders others := by
  induction leads with
  | start => exact ⟨trees, unfolds, rfl⟩
  | onward _ succeeds induction =>
      obtain ⟨others, waitingUnfolds, preorder⟩ := induction
      cases waitingUnfolds with
      | @cons _ _ children trees below beside =>
          rw [discovered_of_success succeeds] at below
          refine ⟨children ++ trees, below.append beside, ?_⟩
          rw [preorder, TaskTree.preorders_cons, List.append_assoc, List.singleton_append]

theorem exists_part
    (leads : walk.Leads tasks carriedOut waiting) :
    ∀ task ∈ carriedOut, ∃ part found, (walk.carryOut task).result = .ok (part, found) := by
  induction leads with
  | start => simp
  | onward _ succeeds induction =>
      intro task member
      rcases List.mem_append.mp member with before | now
      · exact induction task before
      · rw [List.mem_singleton.mp now]
        exact ⟨_, _, succeeds⟩

/-- What has been received of tasks that were carried out are their parts, which are complete. -/
theorem exists_parts
    (leads : walk.Leads tasks carriedOut waiting) :
    ∃ parts, carriedOut.map walk.item = Multipart.chunkEvents parts ∧
      ∀ part ∈ parts, part.isLast = true := by
  induction leads with
  | start => exact ⟨[], rfl, by simp⟩
  | @onward _ _ _ _ part _ succeeds induction =>
      obtain ⟨parts, areParts, complete⟩ := induction
      refine ⟨parts ++ [part], ?_, ?_⟩
      · simp [areParts, item_of_success succeeds, Multipart.chunkEvents]
      · intro other member
        rcases List.mem_append.mp member with before | now
        · exact complete other before
        · rw [List.mem_singleton.mp now]
          exact isLast_of_carryOut succeeds

theorem not_fails
    (leads : walk.Leads tasks carriedOut waiting) :
    ∀ task ∈ carriedOut, ¬ walk.Fails task := by
  intro task member
  obtain ⟨part, found, succeeds⟩ := leads.exists_part task member
  exact not_fails_of_item (item_of_success succeeds)

end Walk.Leads

/-! ## Tasks that succeed, in a list -/

section

variable
    {walk : Walk}
    {tasks : List Projection.Task}
    {visits : List Visit}

/-- What is received of tasks that succeed are the parts of their visits. -/
theorem Walk.map_item_of_completes
    (completes : List.Forall₂ walk.Completes tasks visits) :
    tasks.map walk.item = Multipart.chunkEvents (visits.map Visit.part) := by
  induction completes with
  | nil => rfl
  | cons first _ induction =>
      rw [List.map_cons, induction, item_of_success first.result_eq]
      rfl

/-- What is sent for tasks that succeed are the requests of their visits. -/
theorem Walk.sent_of_completes
    (completes : List.Forall₂ walk.Completes tasks visits) :
    walk.sent tasks = visits.map Visit.request := by
  induction completes with
  | nil => rfl
  | cons first _ induction =>
      rw [sent] at induction ⊢
      rw [List.filterMap_cons, first.carryOut_eq, induction]
      rfl

theorem Walk.not_fails_of_completes
    (completes : List.Forall₂ walk.Completes tasks visits) :
    ∀ task ∈ tasks, ¬ walk.Fails task := by
  induction completes with
  | nil => simp
  | cons first _ induction =>
      intro task member
      rcases List.mem_cons.mp member with rfl | member
      · exact not_fails_of_item (item_of_success first.result_eq)
      · exact induction task member

end

end QueryGateway.Gateway
