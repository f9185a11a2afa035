import QueryGateway.Administration.MediaType
import QueryGateway.Administration.RequestBody
import QueryGateway.Json.Printer
import QueryGateway.Message.Framing
import QueryGateway.Routing.Table
import QueryGateway.Uri.Percent

/-!
# Administration

The mappings of a table are resources.  They are listed, added to, replaced one
by one and taken out by requests, and each request is answered with the entry it
leaves or with the reason why it leaves everything as it was.
-/

namespace QueryGateway.Administration

open Message

/-- What requests are about. -/
inductive Resource where
  | status
  | mappings
  /-- One mapping, by its id as the path has it. -/
  | mapping (segment : String)
deriving DecidableEq, Repr

/-- What is in front of the id of a mapping. -/
def mappingsPath : List Char := "/admin/mappings/".toList

/-- The resource at a path. -/
def resource? (path : String) : Option Resource :=
  if path = "/admin/status" then some .status
  else if path = "/admin/mappings" then some .mappings
  else
    let segment := path.toList.drop mappingsPath.length
    if mappingsPath.isPrefixOf path.toList && !segment.isEmpty && !segment.contains '/' then
      some (.mapping (String.ofList segment))
    else
      none

/-- The methods of a resource. -/
def Resource.methods : Resource → List String
  | .status => ["GET", "HEAD"]
  | .mappings => ["GET", "HEAD", "POST"]
  | .mapping _ => ["PUT", "DELETE"]

/-- Why a request does not come to the table. -/
inductive Rejection where
  | notJsonType
  | tooLong
  | brokenBody
  | notJson
  | notMapping
  /-- The id in the path is no text. -/
  | invalidPath
deriving DecidableEq, Repr

/-- The status of a rejection. -/
def Rejection.status : Rejection → Nat
  | .notJsonType => 415
  | .tooLong => 413
  | .brokenBody => 400
  | .notJson => 400
  | .notMapping => 422
  | .invalidPath => 400

/-- The rejection in words. -/
def Rejection.message : Rejection → String
  | .notJsonType => "the content type has to be that of JSON"
  | .tooLong => "the body is too long"
  | .brokenBody => "the body cannot be read"
  | .notJson => "the body is not JSON"
  | .notMapping => "the body is not a mapping"
  | .invalidPath => "the path is not UTF-8"

/-- The answer that tells a rejection. -/
def Rejection.response (rejection : Rejection) : Response :=
  .typed rejection.status "text/plain; charset=utf-8" (Bytes.ofString rejection.message)

/-! ## Answers -/

/-- An answer in JSON. -/
def jsonResponse (status : Nat) (document : Json.Value) : Response :=
  .typed status "application/json" (Bytes.ofString document.render)

/-- An entry as it is answered. -/
def entryDocument (entry : Routing.Entry) : Json.Value :=
  .object [("id", .string entry.id), ("ingress", .string entry.ingress),
    ("egress", .string entry.egress)]

/-- The version of the program, as it is told. -/
def programVersion : String := "0.1.0"

/-- The state of a table as it is answered. -/
def statusDocument (table : Routing.Table) : Json.Value :=
  .object [("version", .string programVersion), ("status", .string "operational"),
    ("mappings", .number (.integer table.mappings.length)),
    ("routing_version", .number (.integer table.version))]

/-- The status of an error of the table. -/
def errorStatus : Routing.RoutingError → Nat
  | .duplicateId _ => 409
  | .notFound _ => 404
  | .invalidPattern .. => 400

/-- The type of an error of the table. -/
def errorLabel : Routing.RoutingError → String
  | .duplicateId _ => "duplicate_id"
  | .notFound _ => "not_found"
  | .invalidPattern .. => "invalid_pattern"

/-- The answer that tells an error of the table. -/
def errorResponse (error : Routing.RoutingError) : Response :=
  jsonResponse (errorStatus error) (.object [("error", .object [
    ("code", .number (.integer (errorStatus error))), ("type", .string (errorLabel error)),
    ("message", .string error.message)])])

/-! ## Requests -/

/-- The greatest body that is read: 2 MiB. -/
def greatestBody : Nat := 2 * 1024 * 1024

/-- Do the headers announce a body that is JSON? -/
def announcesJson (headers : Headers) : Bool :=
  ((headers.firstText? "content-type").bind MediaType.ofString?).any (·.isJson)

/-- The mapping in a request. -/
def requestedMapping (request : Request) : Except Rejection Routing.Draft :=
  if announcesJson request.headers then
    match request.body.read greatestBody with
    | .error .tooLong => .error .tooLong
    | .error (.broken _) => .error .brokenBody
    | .ok content =>
        match readBody content with
        | .ok draft => .ok draft
        | .error .notJson => .error .notJson
        | .error .notMapping => .error .notMapping
  else
    .error .notJsonType

/-- The id in a path, without its escapes. -/
def decodedId (segment : String) : Except Rejection String :=
  ((Uri.unescape (Bytes.ofString segment)).toString?).elim (.error .invalidPath) .ok

/-- The table that is administered, and the ids for new mappings. -/
structure State where
  table : Routing.Table
  supply : Routing.IdSupply

namespace State

/-- Add the mapping in a request. -/
def add (state : State) (request : Request) : Response × State :=
  match requestedMapping request with
  | .error rejection => (rejection.response, state)
  | .ok draft =>
      match draft.compile state.supply with
      | .error error => (errorResponse error, state)
      | .ok (mapping, supply) =>
          match state.table.add mapping with
          | .error error => (errorResponse error, { state with supply })
          | .ok table => (jsonResponse 201 (entryDocument mapping.entry), ⟨table, supply⟩)

/-- Put the mapping in a request in the place of an id, whatever id it has itself. -/
def update (state : State) (segment : String) (request : Request) : Response × State :=
  match decodedId segment with
  | .error rejection => (rejection.response, state)
  | .ok id =>
      match requestedMapping request with
      | .error rejection => (rejection.response, state)
      | .ok draft =>
          match state.table.update id draft.ingress draft.egress with
          | .error error => (errorResponse error, state)
          | .ok (mapping, table) =>
              (jsonResponse 200 (entryDocument mapping.entry), { state with table })

/-- Take the mapping of an id out. -/
def delete (state : State) (segment : String) : Response × State :=
  match decodedId segment with
  | .error rejection => (rejection.response, state)
  | .ok id =>
      match state.table.delete id with
      | .error error => (errorResponse error, state)
      | .ok (_, table) => (Response.bare 204, { state with table })

/-- Answer a request about a resource, whose method is one of the resource's methods. -/
def answer (state : State) (request : Request) : Resource → Response × State
  | .status => (jsonResponse 200 (statusDocument state.table), state)
  | .mappings =>
      if request.method = "POST" then state.add request
      else (jsonResponse 200 (.array (state.table.entries.map entryDocument)), state)
  | .mapping segment =>
      if request.method = "PUT" then state.update segment request else state.delete segment

/-- The answer to a method that a resource does not have. -/
def otherMethod (resource : Resource) : Response :=
  { Response.bare 405 with
    headers := ⟨[("allow", Bytes.ofString (",".intercalate resource.methods))]⟩ }

/-- Serve a request. -/
def serve (state : State) (request : Request) : Response × State :=
  let (response, state) :=
    match resource? request.target.shownPath with
    | none => (Response.bare 404, state)
    | some resource =>
        if resource.methods.contains request.method then state.answer request resource
        else (otherMethod resource, state)
  (response.framed request.method, state)

end State

end QueryGateway.Administration
