import QueryGateway.Administration.Api
import QueryGateway.Proofs.Message.Framing
import QueryGateway.Proofs.Routing.Operations
import QueryGateway.Proofs.Routing.Supply

/-!
# Administration and the operations of the table

What a request asks of the table is told by its path, its method and its body:
to add a mapping, to put another one in its place, or to take it out.  Most
requests ask nothing.

A request that asks something is answered as the operation of the table says,
and leaves the table that the operation gives.  Every other request leaves the
table as it is, as does every request that is answered with an error.  This
holds of each request in turn, so the requests that have been served do to the
table what their operations do.
-/

namespace QueryGateway.Administration

open Message Routing

/-! ## What is asked -/

/-- What a request may ask of the table. -/
inductive Command where
  | add (draft : Draft)
  | update (id ingress egress : String)
  | delete (id : String)

/-- The path is that of a mapping whose id is one segment. -/
structure NamesMapping (path segment : String) : Prop where
  path : path = "/admin/mappings/" ++ segment
  notEmpty : segment ≠ ""
  isSegment : '/' ∉ segment.toList

/-- A request asks something of the table: its path, its method and its body are all in order. -/
inductive Asks (request : Request) : Command → Prop where
  | add
      {draft : Draft}
      (path : request.target.shownPath = "/admin/mappings")
      (method : request.method = "POST")
      (body : requestedMapping request = .ok draft) :
      Asks request (.add draft)
  /-- The id is that of the path, whatever the body has. -/
  | update
      {segment id : String}
      {draft : Draft}
      (path : NamesMapping request.target.shownPath segment)
      (method : request.method = "PUT")
      (names : decodedId segment = .ok id)
      (body : requestedMapping request = .ok draft) :
      Asks request (.update id draft.ingress draft.egress)
  | delete
      {segment id : String}
      (path : NamesMapping request.target.shownPath segment)
      (method : request.method = "DELETE")
      (names : decodedId segment = .ok id) :
      Asks request (.delete id)

namespace Command

/-- The operation of the table; a mapping without an id gets the one that is drawn. -/
def perform (table : Table) (drawn : String) : Command → Except RoutingError (Entry × Table)
  | .add draft => do
      let mapping ← Mapping.compile (draft.id.getD drawn) draft.ingress draft.egress
      return (mapping.entry, ← table.add mapping)
  | .update id ingress egress => do
      let (mapping, next) ← table.update id ingress egress
      return (mapping.entry, next)
  | .delete id => do
      let (mapping, next) ← table.delete id
      return (mapping.entry, next)

/-- The answer that tells that the operation has succeeded. -/
def response (entry : Entry) : Command → Response
  | .add _ => jsonResponse 201 (entryDocument entry)
  | .update .. => jsonResponse 200 (entryDocument entry)
  | .delete _ => .bare 204

/-- The supply of ids when the operation has been performed. -/
def remaining (supply : IdSupply) : Command → IdSupply
  | .add draft => (supply.choose draft.id).2
  | .update .. | .delete _ => supply

end Command

/-- The id that is drawn next. -/
def State.nextId (state : State) : String :=
  state.supply.idAt state.supply.drawn

/-- What it means that a request is served as the operations of the table say. -/
structure IsServed (state : State) (request : Request) : Prop where
  performs : ∀ command entry next,
    Asks request command → command.perform state.table state.nextId = .ok (entry, next) →
      (state.serve request).1.status = (command.response entry).status ∧
        (state.serve request).1.body = (command.response entry).body ∧
        (state.serve request).2.table = next
  refuses : ∀ command error,
    Asks request command → command.perform state.table state.nextId = .error error →
      (state.serve request).1.status = errorStatus error ∧
        (state.serve request).2.table = state.table
  keeps : (∀ command, ¬ Asks request command) → (state.serve request).2.table = state.table
  failsSafely : 400 ≤ (state.serve request).1.status → (state.serve request).2.table = state.table
  lists : request.method = "GET" → request.target.shownPath = "/admin/mappings" →
    (state.serve request).1.status = 200 ∧
      (state.serve request).1.body.content =
        Bytes.ofString (Json.Value.array (state.table.entries.map entryDocument)).render
  reports : request.method = "GET" → request.target.shownPath = "/admin/status" →
    (state.serve request).1.status = 200 ∧
      ∃ document : Json.Value,
        (state.serve request).1.body.content = Bytes.ofString document.render ∧
          document.member? "mappings" = some (.number (.integer state.table.mappings.length)) ∧
          document.member? "routing_version" = some (.number (.integer state.table.version))

/-! ## Paths -/

theorem toList_eq_append_iff
    {path segment : String} :
    path.toList = mappingsPath ++ segment.toList ↔ path = "/admin/mappings/" ++ segment := by
  rw [← String.toList_inj]
  exact Iff.of_eq (congrArg (path.toList = ·) String.toList_append.symm)

theorem resource?_of_namesMapping
    {path segment : String}
    (names : NamesMapping path segment) :
    resource? path = some (.mapping segment) := by
  have characters := toList_eq_append_iff.mpr names.path
  have long : mappingsPath.length ≤ path.toList.length := by
    rw [characters, List.length_append]
    exact Nat.le_add_right _ _
  have notStatus : path ≠ "/admin/status" := by
    rintro rfl
    exact absurd long (by decide +kernel)
  have notMappings : path ≠ "/admin/mappings" := by
    rintro rfl
    exact absurd long (by decide +kernel)
  have notEmpty : segment.toList ≠ [] := by
    simpa using names.notEmpty
  simp [resource?, notStatus, notMappings, characters, notEmpty, names.isSegment]

theorem namesMapping_of_resource?
    {path segment : String}
    (isMapping : resource? path = some (.mapping segment)) :
    NamesMapping path segment := by
  simp only [resource?] at isMapping
  split at isMapping
  · cases isMapping
  split at isMapping
  · cases isMapping
  split at isMapping
  case isFalse => cases isMapping
  case isTrue isOne =>
    cases isMapping
    simp only [Bool.and_eq_true, Bool.not_eq_true', List.isPrefixOf_iff_prefix] at isOne
    obtain ⟨⟨⟨rest, characters⟩, notEmpty⟩, isSegment⟩ := isOne
    rw [← characters, List.drop_left] at notEmpty isSegment ⊢
    refine ⟨toList_eq_append_iff.mp ?_, ?_, ?_⟩
    · rw [← characters, String.toList_ofList]
    · simpa using notEmpty
    · simpa using isSegment

theorem path_of_resource?_eq_mappings
    {path : String}
    (isMappings : resource? path = some .mappings) :
    path = "/admin/mappings" := by
  simp only [resource?] at isMappings
  split at isMappings
  case isTrue => cases isMappings
  split at isMappings
  case isTrue isPath => exact isPath
  split at isMappings
  · cases isMappings
  · cases isMappings

/-! ## What is done about what is asked -/

/-- The answer to a request that asks something, before it is framed, and the next state. -/
inductive Outcome (state : State) (command : Command) : Response × State → Prop where
  | done
      {entry : Entry}
      {next : Table}
      (performed : command.perform state.table state.nextId = .ok (entry, next)) :
      Outcome state command (command.response entry, ⟨next, command.remaining state.supply⟩)
  | refused
      {error : RoutingError}
      {supply : IdSupply}
      (fails : command.perform state.table state.nextId = .error error)
      (draws : supply = state.supply ∨ supply = command.remaining state.supply) :
      Outcome state command (errorResponse error, ⟨state.table, supply⟩)

variable
    {state : State}
    {request : Request}
    {command : Command}

theorem compile_eq_map
    (draft : Draft)
    (supply : IdSupply) :
    draft.compile supply =
      (Mapping.compile (draft.id.getD (supply.idAt supply.drawn)) draft.ingress draft.egress).map
        (·, (supply.choose draft.id).2) := by
  rw [Draft.compile]
  cases draft.id with
  | none => cases Mapping.compile (supply.idAt supply.drawn) draft.ingress draft.egress <;> rfl
  | some id => cases Mapping.compile id draft.ingress draft.egress <;> rfl

theorem outcome_add
    {draft : Draft}
    (body : requestedMapping request = .ok draft)
    (state : State) :
    Outcome state (.add draft) (state.add request) := by
  have compiling := compile_eq_map draft state.supply
  simp only [State.add, body]
  cases compiled : Mapping.compile (draft.id.getD state.nextId) draft.ingress draft.egress with
  | error error =>
      have fails : (Command.add draft).perform state.table state.nextId = .error error := by
        rw [Command.perform, compiled]
        rfl
      rw [State.nextId] at compiled
      rw [compiling, compiled]
      exact .refused fails (.inl rfl)
  | ok mapping =>
      have performed : (Command.add draft).perform state.table state.nextId =
          (state.table.add mapping).map (mapping.entry, ·) := by
        rw [Command.perform, compiled]
        show (do return (mapping.entry, ← state.table.add mapping)) = _
        cases state.table.add mapping <;> rfl
      rw [State.nextId] at compiled
      rw [compiling, compiled]
      simp only [Except.map]
      cases added : state.table.add mapping with
      | error error =>
          rw [added] at performed
          exact .refused performed (.inr rfl)
      | ok next =>
          rw [added] at performed
          exact .done performed

theorem outcome_update
    {segment id : String}
    {draft : Draft}
    (names : decodedId segment = .ok id)
    (body : requestedMapping request = .ok draft)
    (state : State) :
    Outcome state (.update id draft.ingress draft.egress) (state.update segment request) := by
  have performed :
      (Command.update id draft.ingress draft.egress).perform state.table state.nextId =
        (state.table.update id draft.ingress draft.egress).map fun (mapping, next) =>
          (mapping.entry, next) := by
    rw [Command.perform]
    cases state.table.update id draft.ingress draft.egress <;> rfl
  simp only [State.update, names, body]
  cases updated : state.table.update id draft.ingress draft.egress with
  | error error =>
      rw [updated] at performed
      exact .refused performed (.inl rfl)
  | ok result =>
      rw [updated] at performed
      exact .done performed

theorem outcome_delete
    {segment id : String}
    (names : decodedId segment = .ok id)
    (state : State) :
    Outcome state (.delete id) (state.delete segment) := by
  have performed : (Command.delete id).perform state.table state.nextId =
      (state.table.delete id).map fun (mapping, next) => (mapping.entry, next) := by
    rw [Command.perform]
    cases state.table.delete id <;> rfl
  simp only [State.delete, names]
  cases deleted : state.table.delete id with
  | error error =>
      rw [deleted] at performed
      exact .refused performed (.inl rfl)
  | ok result =>
      rw [deleted] at performed
      exact .done performed

theorem serve_of_resource
    {resource : Resource}
    (isResource : resource? request.target.shownPath = some resource)
    (hasMethod : request.method ∈ resource.methods)
    (state : State) :
    state.serve request =
      ((state.answer request resource).1.framed request.method,
        (state.answer request resource).2) := by
  simp [State.serve, isResource, hasMethod]

theorem Asks.framed_eq
    (asks : Asks request command)
    (response : Response) :
    response.framed request.method = response.withLength := by
  apply framed_eq_withLength
  · cases asks <;> simp [*]
  · cases asks <;> simp [*]

/-- A request that asks something is answered with what is done about it. -/
theorem Asks.exists_outcome
    (asks : Asks request command)
    (state : State) :
    ∃ outcome, Outcome state command outcome ∧
      state.serve request = (outcome.1.withLength, outcome.2) := by
  have served : ∀ resource, resource? request.target.shownPath = some resource →
      request.method ∈ resource.methods → Outcome state command (state.answer request resource) →
        ∃ outcome, Outcome state command outcome ∧
          state.serve request = (outcome.1.withLength, outcome.2) := by
    intro resource isResource hasMethod outcome
    refine ⟨_, outcome, ?_⟩
    rw [serve_of_resource isResource hasMethod, asks.framed_eq]
  cases asks with
  | add path method body =>
      refine served .mappings (by rw [path]; rfl) (by simp [method, Resource.methods]) ?_
      simp only [State.answer, method, if_true]
      exact outcome_add body state
  | @update segment _ _ path method names body =>
      refine served (.mapping segment) (resource?_of_namesMapping path)
        (by simp [method, Resource.methods]) ?_
      simp only [State.answer, method, if_true]
      exact outcome_update names body state
  | @delete segment _ path method names =>
      refine served (.mapping segment) (resource?_of_namesMapping path)
        (by simp [method, Resource.methods]) ?_
      have notPut : ¬ request.method = "PUT" := by
        simp [method]
      simp only [State.answer, notPut, if_false]
      exact outcome_delete names state

/-- A request that asks nothing leaves everything as it is. -/
theorem serve_of_not_asks
    (asksNothing : ∀ command, ¬ Asks request command)
    (state : State) :
    (state.serve request).2 = state := by
  cases isResource : resource? request.target.shownPath with
  | none => simp [State.serve, isResource]
  | some resource =>
      by_cases hasMethod : request.method ∈ resource.methods
      case neg => simp [State.serve, isResource, hasMethod]
      rw [serve_of_resource isResource hasMethod]
      show (state.answer request resource).2 = state
      cases resource with
      | status => rfl
      | mappings =>
          by_cases isPost : request.method = "POST"
          case neg => simp [State.answer, isPost]
          simp only [State.answer, isPost, if_true, State.add]
          cases body : requestedMapping request with
          | error rejection => rfl
          | ok draft =>
              have path := path_of_resource?_eq_mappings isResource
              exact (asksNothing _ (.add path isPost body)).elim
      | mapping segment =>
          have path := namesMapping_of_resource? isResource
          cases names : decodedId segment with
          | error rejection =>
              by_cases isPut : request.method = "PUT" <;>
                simp [State.answer, isPut, State.update, State.delete, names]
          | ok id =>
              by_cases isPut : request.method = "PUT"
              · simp only [State.answer, isPut, if_true, State.update, names]
                cases body : requestedMapping request with
                | error rejection => rfl
                | ok draft => exact (asksNothing _ (.update path isPut names body)).elim
              · have isDelete : request.method = "DELETE" := by
                  simpa [Resource.methods, isPut] using hasMethod
                exact (asksNothing _ (.delete path isDelete names)).elim

theorem Command.response_status_lt
    (command : Command)
    (entry : Entry) :
    (command.response entry).status < 400 := by
  cases command <;> simp [response, jsonResponse, Response.typed, Response.bare]

/-- Every request is served as the operations of the table say. -/
theorem State.isServed
    (state : State)
    (request : Request) :
    IsServed state request where
  performs := by
    intro command entry next asks performed
    obtain ⟨_, outcome, served⟩ := asks.exists_outcome state
    rw [served]
    cases outcome with
    | refused fails => cases performed.symm.trans fails
    | done performs =>
        cases performed.symm.trans performs
        exact ⟨withLength_status _, withLength_body _, rfl⟩
  refuses := by
    intro command error asks fails
    obtain ⟨_, outcome, served⟩ := asks.exists_outcome state
    rw [served]
    cases outcome with
    | done performs => cases fails.symm.trans performs
    | refused fails' =>
        cases fails.symm.trans fails'
        exact ⟨withLength_status _, rfl⟩
  keeps asksNothing := by
    rw [serve_of_not_asks asksNothing]
  failsSafely failed := by
    by_cases asks : ∃ command, Asks request command
    case neg => rw [serve_of_not_asks (not_exists.mp asks)]
    obtain ⟨command, asks⟩ := asks
    obtain ⟨_, outcome, served⟩ := asks.exists_outcome state
    rw [served] at failed ⊢
    cases outcome with
    | refused => rfl
    | @done entry _ _ =>
        rw [withLength_status] at failed
        exact absurd (command.response_status_lt entry) (Nat.not_lt.mpr failed)
  lists := by
    intro isGet path
    have isResource : resource? request.target.shownPath = some .mappings := by
      rw [path]
      rfl
    have notPost : ¬ request.method = "POST" := by
      simp [isGet]
    rw [serve_of_resource isResource (by simp [isGet, Resource.methods]),
      framed_eq_withLength (by simp [isGet]) (by simp [isGet])]
    simp [State.answer, notPost, jsonResponse, Response.typed, Body.content, Body.ofBytes]
  reports := by
    intro isGet path
    have isResource : resource? request.target.shownPath = some .status := by
      rw [path]
      rfl
    rw [serve_of_resource isResource (by simp [isGet, Resource.methods]),
      framed_eq_withLength (by simp [isGet]) (by simp [isGet])]
    refine ⟨withLength_status _, statusDocument state.table, ?_, rfl, rfl⟩
    simp [State.answer, jsonResponse, Response.typed, Body.content, Body.ofBytes]

/-! ## Ids -/

namespace Command

end Command

variable
    {count : Nat}
    {used : List String}

/-- The state when requests have been served, one after another. -/
def State.after (state : State) (requests : List Request) : State :=
  requests.foldl (fun state request => (state.serve request).2) state

namespace PetShop

open Routing.PetShop (opened pets)

def shop : State where
  table := opened
  supply := ⟨fun index => "drawn " ++ toString index, 7⟩

def asking (method path body : String) : Request where
  method := method
  target := ⟨none, none, path, none⟩
  headers := ⟨[("content-type", Bytes.ofString "application/json")]⟩
  body := .ofBytes (Bytes.ofString body)

/-- A mapping without an id. -/
def addAll : Request :=
  asking "POST" "/admin/mappings" "[null, \".*\", \"http://all\"]"

/-- Another id is in the body than in the path, where a character is escaped. -/
def movePets : Request :=
  asking "PUT" "/admin/mappings/p%65ts" "[\"cats\", \"http://gateway/pets\", \"http://zoo\"]"

/-- There are no dogs. -/
def deleteDogs : Request :=
  asking "DELETE" "/admin/mappings/dogs" ""

def requests : List Request :=
  [addAll, movePets, deleteDogs]

end PetShop

end QueryGateway.Administration
