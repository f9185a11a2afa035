import QueryGateway.Proofs.Administration.Refinement
import QueryGateway.Proofs.Uri.Segment
import QueryGateway.Settings.Validation

/-!
# Mappings that can be managed

A mapping is addressed by a path that ends in its id, written as one segment.
The id may be any text: what a segment cannot hold is escaped, and there is
always a way to write it.  Whoever addresses a mapping takes out or replaces this
mapping and no other one, because the ids of a table are distinct.  They are so
from the start, and every request keeps them so.

The empty id is the exception.  It can be configured and it is listed, but the
path that ends in it is that of no resource, so nothing can be asked of it.
-/

namespace QueryGateway.Administration

open Message Routing

/-! ## Addresses -/

/-- The path of the mapping whose id a segment stands for. -/
def mappingPath (segment : List Char) : String :=
  "/admin/mappings/" ++ String.ofList segment

/-- The path of a request has an id as its last segment. -/
def Addresses (request : Request) (id : String) : Prop :=
  ∃ segment, Uri.StandsFor segment (Bytes.ofString id) ∧
    request.target.shownPath = mappingPath segment

variable
    {id : String}
    {segment : List Char}
    {request : Request}

/-- The id can be written, with as few escapes as there may be. -/
theorem standsFor_escapedId
    (id : String) :
    Uri.StandsFor (Uri.escape Uri.isKeptChar id.toList) (Bytes.ofString id) :=
  Uri.standsFor_escape (fun _ allowed => allowed) id.toList

/-- The path of a mapping is a target, unless it is too long. -/
theorem ofString?_mappingPath
    (standsFor : Uri.StandsFor segment (Bytes.ofString id))
    (fits : (mappingPath segment).utf8ByteSize ≤ Uri.Target.longestTarget) :
    Uri.Target.ofString? (mappingPath segment) = some ⟨none, none, mappingPath segment, none⟩ := by
  have characters : (mappingPath segment).toList = mappingsPath ++ segment := by
    rw [toList_eq_append_iff.mpr (show mappingPath segment = _ from rfl), String.toList_ofList]
  apply Uri.Target.ofString?_of_path fits characters
  rw [characters]
  intro character member
  rcases List.mem_append.mp member with inFront | inSegment
  · exact List.all_eq_true.mp (by decide +kernel : mappingsPath.all Uri.Target.isPathChar = true)
      character inFront
  · exact (standsFor.isPathChar character inSegment).1

theorem namesMapping_mappingPath
    (standsFor : Uri.StandsFor segment (Bytes.ofString id))
    (nonempty : id ≠ "") :
    NamesMapping (mappingPath segment) (String.ofList segment) where
  path := rfl
  notEmpty := by
    intro isEmpty
    have noCharacters : segment = [] := by
      simpa using isEmpty
    exact Bytes.ofString_ne_nil nonempty (standsFor.nil_iff.mp noCharacters)
  isSegment := by
    rw [String.toList_ofList]
    intro member
    exact (standsFor.isPathChar '/' member).2 rfl

theorem decodedId_of_standsFor
    (standsFor : Uri.StandsFor segment (Bytes.ofString id)) :
    decodedId (String.ofList segment) = .ok id := by
  rw [decodedId, Bytes.ofString, String.toList_ofList, standsFor.unescape_eq,
    Bytes.toString?_ofString]
  rfl

/-- A path with an id names a mapping, and the id is read from it again. -/
theorem Addresses.exists_segment
    (addresses : Addresses request id)
    (nonempty : id ≠ "") :
    ∃ written, NamesMapping request.target.shownPath written ∧ decodedId written = .ok id := by
  rcases addresses with ⟨segment, standsFor, path⟩
  rw [path]
  exact ⟨_, namesMapping_mappingPath standsFor nonempty, decodedId_of_standsFor standsFor⟩

theorem Addresses.asks_delete
    (addresses : Addresses request id)
    (nonempty : id ≠ "")
    (method : request.method = "DELETE") :
    Asks request (.delete id) := by
  rcases addresses.exists_segment nonempty with ⟨written, path, names⟩
  exact .delete path method names

theorem Addresses.asks_update
    {draft : Draft}
    (addresses : Addresses request id)
    (nonempty : id ≠ "")
    (method : request.method = "PUT")
    (body : requestedMapping request = .ok draft) :
    Asks request (.update id draft.ingress draft.egress) := by
  rcases addresses.exists_segment nonempty with ⟨written, path, names⟩
  exact .update path method names body

/-- No resource has a path that ends in the empty id, so nothing is asked by such a path. -/
theorem Addresses.serve_of_empty
    (addresses : Addresses request "")
    (state : State) :
    (state.serve request).1.status = 404 ∧ (state.serve request).2 = state := by
  rcases addresses with ⟨segment, standsFor, path⟩
  have noResource : resource? request.target.shownPath = none := by
    rw [path, standsFor.nil_iff.mpr rfl]
    decide +kernel
  constructor
  · simp [State.serve, noResource, Response.bare]
  · simp [State.serve, noResource]

/-! ## Ids stay distinct -/

/-- What a command does to a table is one of the changes of tables. -/
theorem Command.exists_change
    {command : Command}
    {table next : Table}
    {drawn : String}
    {entry : Entry}
    (performed : command.perform table drawn = .ok (entry, next)) :
    ∃ change, table.change change = .ok (.entry entry, next) := by
  cases command with
  | add draft =>
      rcases bind_eq_ok.mp performed with ⟨mapping, _, performed⟩
      rcases bind_eq_ok.mp performed with ⟨_, added, result⟩
      cases result
      exact ⟨.add mapping, bind_eq_ok.mpr ⟨_, added, rfl⟩⟩
  | update id ingress egress =>
      rcases bind_eq_ok.mp performed with ⟨_, updated, result⟩
      cases result
      exact ⟨.update id ingress egress, bind_eq_ok.mpr ⟨_, updated, rfl⟩⟩
  | delete id =>
      rcases bind_eq_ok.mp performed with ⟨_, deleted, result⟩
      cases result
      exact ⟨.delete id, bind_eq_ok.mpr ⟨_, deleted, rfl⟩⟩

variable
    {state : State}

theorem nodup_ids_serve
    (distinct : state.table.ids.Nodup)
    (request : Request) :
    (state.serve request).2.table.ids.Nodup := by
  by_cases asks : ∃ command, Asks request command
  case neg =>
    rw [serve_of_not_asks (not_exists.mp asks)]
    exact distinct
  rcases asks with ⟨command, asks⟩
  rcases asks.exists_outcome state with ⟨_, outcome, served⟩
  rw [served]
  cases outcome with
  | refused => exact distinct
  | @done entry next performed =>
      rcases Command.exists_change performed with ⟨change, changed⟩
      have isNext : (state.table.perform (.change change)).2 = next := by
        show (state.table.changed change).2 = next
        rw [Table.changed_of_ok changed]
      rw [← isNext]
      exact (state.table.effect_perform (.change change)).nodup_ids distinct

theorem nodup_ids_after
    (distinct : state.table.ids.Nodup)
    (requests : List Request) :
    (state.after requests).table.ids.Nodup := by
  induction requests generalizing state with
  | nil => exact distinct
  | cons request requests induction => exact induction (nodup_ids_serve distinct request)

/-! ## Managing -/

/-- The state at the start, with the mappings that are configured. -/
def State.ofConfiguration (supply : IdSupply) (configuration : Settings.Configuration) :
    Except RoutingError State := do
  let (mappings, rest) ← compileAll supply configuration.mappings
  return ⟨← Table.ofMappings mappings, rest⟩

theorem State.nodup_ids_of_ofConfiguration
    {supply : IdSupply}
    {configuration : Settings.Configuration}
    (starts : State.ofConfiguration supply configuration = .ok state) :
    state.table.ids.Nodup := by
  rcases bind_eq_ok.mp starts with ⟨⟨mappings, rest⟩, _, built⟩
  rcases bind_eq_ok.mp built with ⟨table, isTable, result⟩
  cases result
  rcases Table.ofMappings_eq_ok_iff.mp isTable with ⟨distinct, rfl⟩
  exact distinct

/-- A mapping can be taken out and replaced by its id, and no other one is touched by that. -/
structure IsManaged (state : State) (id : String) (front : List Mapping) (held : Mapping)
    (back : List Mapping) : Prop where
  holds : state.table.Holds id front held back
  isOnly : ∀ other ∈ front ++ back, other.id ≠ id
  deletes : ∀ request, Addresses request id → request.method = "DELETE" →
    (state.serve request).1.status = 204 ∧
      (state.serve request).2.table = state.table.publish (front ++ back)
  replaces : ∀ request draft pattern, Addresses request id → request.method = "PUT" →
    requestedMapping request = .ok draft → compilePattern draft.ingress = .ok pattern →
      (state.serve request).1.status = 200 ∧
        (state.serve request).2.table =
          state.table.publish (front ++ ⟨id, draft.ingress, draft.egress, pattern⟩ :: back)

section

variable
    {front back : List Mapping}
    {held : Mapping}

theorem serve_delete_of_holds
    (holds : state.table.Holds id front held back)
    (asks : Asks request (.delete id)) :
    (state.serve request).1.status = 204 ∧
      (state.serve request).2.table = state.table.publish (front ++ back) := by
  have performed : (Command.delete id).perform state.table state.nextId =
      .ok (held.entry, state.table.publish (front ++ back)) :=
    bind_eq_ok.mpr ⟨_, holds.delete_eq, rfl⟩
  rcases (state.isServed request).performs _ _ _ asks performed with ⟨status, _, next⟩
  exact ⟨status, next⟩

theorem serve_update_of_holds
    {ingress egress : String}
    {pattern : Pattern.Regex}
    (holds : state.table.Holds id front held back)
    (compiles : compilePattern ingress = .ok pattern)
    (asks : Asks request (.update id ingress egress)) :
    (state.serve request).1.status = 200 ∧
      (state.serve request).2.table =
        state.table.publish (front ++ ⟨id, ingress, egress, pattern⟩ :: back) := by
  let mapping : Mapping := ⟨id, ingress, egress, pattern⟩
  have isPut : state.table.put mapping = .ok (state.table.publish (front ++ mapping :: back)) :=
    Table.Holds.put_eq holds
  have updated : state.table.update id ingress egress =
      .ok (mapping, state.table.publish (front ++ mapping :: back)) := by
    rw [Table.update_eq, compiles]
    exact congrArg (Except.map (mapping, ·)) isPut
  have performed : (Command.update id ingress egress).perform state.table state.nextId =
      .ok (mapping.entry, state.table.publish (front ++ mapping :: back)) :=
    bind_eq_ok.mpr ⟨_, updated, rfl⟩
  rcases (state.isServed request).performs _ _ _ asks performed with ⟨status, _, next⟩
  exact ⟨status, next⟩

end

theorem exists_isManaged
    (distinct : state.table.ids.Nodup)
    (nonempty : id ≠ "")
    (known : id ∈ state.table.ids) :
    ∃ front held back, IsManaged state id front held back := by
  rcases Table.exists_holds known with ⟨front, held, back, holds⟩
  refine ⟨front, held, back, holds, ?_, ?_, ?_⟩
  · rintro other member rfl
    have notAgain := (List.nodup_cons.mp (holds.nodup_ids_iff.mp distinct)).1
    exact notAgain (List.mem_map_of_mem member)
  · intro request addresses method
    exact serve_delete_of_holds holds (addresses.asks_delete nonempty method)
  · intro request draft pattern addresses method body compiles
    exact serve_update_of_holds holds compiles (addresses.asks_update nonempty method body)

/-- An id can be written as a segment, and a path that ends in it is a target if it fits. -/
structure IsAddressable (id : String) : Prop where
  isWritten : ∃ segment, Uri.StandsFor segment (Bytes.ofString id)
  isTarget : ∀ segment, Uri.StandsFor segment (Bytes.ofString id) →
    (mappingPath segment).utf8ByteSize ≤ Uri.Target.longestTarget →
      Uri.Target.ofString? (mappingPath segment) = some ⟨none, none, mappingPath segment, none⟩

/--
Whatever is configured and whatever has been asked since, the mappings are listed
in their order, and each of them that has an id but the empty one can be addressed
by its id and managed.
-/
theorem State.listed_isManaged
    {supply : IdSupply}
    {configuration : Settings.Configuration}
    {start : State}
    (starts : State.ofConfiguration supply configuration = .ok start)
    (requests : List Request) :
    (∀ request, request.method = "GET" → request.target.shownPath = "/admin/mappings" →
      ((start.after requests).serve request).1.status = 200 ∧
        ((start.after requests).serve request).1.body.content =
          Bytes.ofString (Json.Value.array
            ((start.after requests).table.entries.map entryDocument)).render) ∧
    ∀ entry ∈ (start.after requests).table.entries, entry.id ≠ "" →
      IsAddressable entry.id ∧
        ∃ front held back, IsManaged (start.after requests) entry.id front held back := by
  constructor
  · intro request
    exact ((start.after requests).isServed request).lists
  · intro entry member nonempty
    have distinct := nodup_ids_after (State.nodup_ids_of_ofConfiguration starts) requests
    have known : entry.id ∈ (start.after requests).table.ids := by
      rcases List.mem_map.mp member with ⟨mapping, isMapping, rfl⟩
      exact List.mem_map_of_mem isMapping
    constructor
    · exact ⟨⟨_, standsFor_escapedId entry.id⟩, fun _ => ofString?_mappingPath⟩
    · exact exists_isManaged distinct nonempty known

/-! ## Mappings with unusual ids -/

namespace PetShop

def pair : Draft :=
  ⟨some "cats/dogs 100%", "http://gateway/pair", "http://pair"⟩

def nameless : Draft :=
  ⟨some "", "http://gateway/nameless", "http://nameless"⟩

def configuration (mappings : List Draft) : Settings.Configuration where
  listener := .standard
  mappings := mappings
  backend := .standard
  querying := .standard
  observability := .standard
  administration := .standard

/-- A slash, a space and a percent sign are escaped. -/
def pairPath : String :=
  "/admin/mappings/cats%2Fdogs%20100%25"

def taking (path : String) : Request :=
  asking "DELETE" path ""

/-- There is no id in the body. -/
def moving (path : String) : Request :=
  asking "PUT" path "[null, \".*\", \"http://all\"]"

theorem addresses_of_pairPath
    {request : Request}
    (path : request.target.shownPath = pairPath) :
    Addresses request "cats/dogs 100%" :=
  ⟨_, standsFor_escapedId _, path.trans (by decide +kernel)⟩

theorem addresses_of_noId
    {request : Request}
    (path : request.target.shownPath = "/admin/mappings/") :
    Addresses request "" :=
  ⟨[], .nil, path.trans (by decide +kernel)⟩

theorem exists_pattern :
    ∃ pattern, compilePattern ".*" = .ok pattern := by
  have compiles : (compilePattern ".*").isOk = true := by
    decide +kernel
  cases compiled : compilePattern ".*" with
  | error error =>
      rw [compiled] at compiles
      cases compiles
  | ok pattern => exact ⟨pattern, rfl⟩

theorem pair_is_managed :
    ∃ start, State.ofConfiguration shop.supply (configuration [pair]) = .ok start ∧
      (start.after [addAll]).table.ids = ["cats/dogs 100%", "drawn 7"] ∧
      ∃ front held back pattern,
        (start.after [addAll]).table.Holds "cats/dogs 100%" front held back ∧
        compilePattern ".*" = .ok pattern ∧
        (((start.after [addAll]).serve (taking pairPath)).1.status = 204 ∧
          ((start.after [addAll]).serve (taking pairPath)).2.table =
            (start.after [addAll]).table.publish (front ++ back)) ∧
        ((start.after [addAll]).serve (moving pairPath)).1.status = 200 ∧
          ((start.after [addAll]).serve (moving pairPath)).2.table =
            (start.after [addAll]).table.publish
              (front ++ ⟨"cats/dogs 100%", ".*", "http://all", pattern⟩ :: back) := by
  have computed : (State.ofConfiguration shop.supply (configuration [pair])).toOption.map
      (fun start => (start.after [addAll]).table.ids) = some ["cats/dogs 100%", "drawn 7"] := by
    decide +kernel
  have body : requestedMapping (moving pairPath) = .ok ⟨none, ".*", "http://all"⟩ := by
    decide +kernel
  rcases exists_pattern with ⟨pattern, compiled⟩
  cases starts : State.ofConfiguration shop.supply (configuration [pair]) with
  | error error =>
      rw [starts] at computed
      cases computed
  | ok start =>
      rw [starts] at computed
      have ids : (start.after [addAll]).table.ids = ["cats/dogs 100%", "drawn 7"] :=
        Option.some.inj computed
      have known : "cats/dogs 100%" ∈ (start.after [addAll]).table.ids := by
        simp [ids]
      rcases List.mem_map.mp known with ⟨mapping, isMapping, hasId⟩
      have isListed : mapping.entry ∈ (start.after [addAll]).table.entries :=
        List.mem_map_of_mem isMapping
      have nonempty : mapping.entry.id ≠ "" := by
        simp [Mapping.entry, hasId]
      rcases (State.listed_isManaged starts [addAll]).2 mapping.entry isListed nonempty with
        ⟨_, front, held, back, managed⟩
      rw [show mapping.entry.id = _ from hasId] at managed
      refine ⟨start, rfl, ids, front, held, back, pattern, managed.holds, compiled, ?_, ?_⟩
      · exact managed.deletes _ (addresses_of_pairPath (by decide +kernel)) rfl
      · exact managed.replaces _ _ pattern (addresses_of_pairPath (by decide +kernel)) rfl body
          compiled

/-- A mapping with the empty id is configured and listed, but it cannot be managed. -/
theorem nameless_is_not_managed :
    (configuration [nameless]).validate = .ok () ∧
      ∃ start, State.ofConfiguration shop.supply (configuration [nameless]) = .ok start ∧
        start.table.entries = [⟨"", "http://gateway/nameless", "http://nameless"⟩] ∧
        (Addresses (taking "/admin/mappings/") "" ∧
          (start.serve (taking "/admin/mappings/")).1.status = 404 ∧
          (start.serve (taking "/admin/mappings/")).2 = start) ∧
        (Addresses (moving "/admin/mappings/") "" ∧
          requestedMapping (moving "/admin/mappings/") = .ok ⟨none, ".*", "http://all"⟩ ∧
          (∃ pattern, compilePattern ".*" = .ok pattern) ∧
          (start.serve (moving "/admin/mappings/")).1.status = 404 ∧
          (start.serve (moving "/admin/mappings/")).2 = start) := by
  have isAccepted : (configuration [nameless]).validate = .ok () := by
    decide +kernel
  have listed : (State.ofConfiguration shop.supply (configuration [nameless])).toOption.map
      (·.table.entries) = some [⟨"", "http://gateway/nameless", "http://nameless"⟩] := by
    decide +kernel
  have takes : Addresses (taking "/admin/mappings/") "" :=
    addresses_of_noId (by decide +kernel)
  have moves : Addresses (moving "/admin/mappings/") "" :=
    addresses_of_noId (by decide +kernel)
  cases starts : State.ofConfiguration shop.supply (configuration [nameless]) with
  | error error =>
      rw [starts] at listed
      cases listed
  | ok start =>
      rw [starts] at listed
      refine ⟨isAccepted, start, rfl, Option.some.inj listed, ?_, ?_⟩
      · exact ⟨takes, takes.serve_of_empty start⟩
      · exact ⟨moves, by decide +kernel, exists_pattern, moves.serve_of_empty start⟩

end PetShop

end QueryGateway.Administration
