import QueryGateway.Proofs.Gateway.Delivery
import QueryGateway.Proofs.Gateway.Reading
import QueryGateway.Proofs.Gateway.Replies
import QueryGateway.Proofs.Json.Unambiguity
import QueryGateway.Proofs.Projection.Origins
import QueryGateway.Proofs.Query.SpreadGraph

/-!
# Scalars reach the client as they were found

What a client is shown of a document is a text, the projected document alone or
a part of a multipart body.  Every scalar in this text has one origin in the
backend's text, which the query decides, and is what becomes of the scalar there
when it is read and written again.
-/

namespace QueryGateway.Gateway

open Message

/-! ## What a client is shown -/

def partContent? : Multipart.Event GatewayError → Option Bytes
  | .chunk part => some part.content
  | _ => none

/-- The texts that are shown for a reply after so many happenings in the stream of follow-ups. -/
def Reply.texts (boundary : String) (concurrency : Nat) (schedule : Nat → Happening)
    (time : Nat) : Reply → List Bytes
  | .passthrough _ => []
  | .failed _ => []
  | .projected _ _ target => [Bytes.ofString target.render]
  | .multipart _ primary walk tasks =>
      let reading := walk.reading boundary concurrency primary tasks schedule time
      (.chunk primary :: reading.stream.received).filterMap partContent?

/--
A document that is visited for a request, for the query itself or for a task,
and what it is entered with.
-/
inductive Service.Visits (service : Service) (table : Routing.Table) (request : Request) :
    Query.Document → Option Projection.Entry → Visit → Prop where
  | query
      {extraction : Extraction}
      {primary : Primary}
      {document : Query.Document}
      {visit : Visit}
      (prepares : Prepares service table request extraction primary)
      (finds : service.Finds primary document visit) :
      service.Visits table request document (Projection.queryEntry document) visit
  | task
      {extraction : Extraction}
      {primary : Primary}
      {document : Query.Document}
      {base : Uri.Url}
      {first visit : Visit}
      {task : Projection.Task}
      (prepares : Prepares service table request extraction primary)
      (finds : service.Finds primary document first)
      (isUrl : Uri.Url.ofString primary.ingress = .ok base)
      (completes : (service.walk table primary document base).Completes task visit) :
      service.Visits table request document (some task.entry) visit

/-- A task that yields a part has been carried out with success. -/
theorem Walk.completes_of_carryOut
    {walk : Walk}
    {task : Projection.Task}
    {part : Multipart.Part}
    {tasks : List Projection.Task}
    (carriedOut : (walk.carryOut task).result = .ok (part, tasks)) :
    ∃ visit, walk.Completes task visit ∧ part = visit.part := by
  rw [Walk.carryOut] at carriedOut
  cases addressed : walk.address task.url with
  | error error =>
      rw [addressed] at carriedOut
      cases carriedOut
  | ok address =>
      cases requested : walk.request address with
      | error error =>
          simp only [addressed, requested] at carriedOut
          cases carriedOut
      | ok request =>
          simp only [addressed, requested, Walk.part] at carriedOut
          rcases bind_eq_ok.mp carriedOut with ⟨response, fetched, carriedOut⟩
          rcases bind_eq_ok.mp carriedOut with ⟨source, isRead, carriedOut⟩
          rcases bind_eq_ok.mp carriedOut with ⟨projection, projected, result⟩
          cases result
          rcases success_of_fetch (mapError_eq_ok.mp fetched) with ⟨answered, succeeded⟩
          refine ⟨⟨request, response, projection⟩, ⟨?_, source, ⟨answered, succeeded, ?_⟩, ?_⟩, rfl⟩
          · rw [Walk.address] at addressed
            split at addressed
            case h_1 => cases addressed
            case h_2 url joined =>
              cases addressed
              exact ⟨url, joined, requested⟩
          · exact isJson_of_readJson (mapError_eq_ok.mp isRead)
          · exact mapError_eq_ok.mp projected

/-- Every part that is received is that of a task that is carried out with success. -/
theorem Walk.exists_visit_of_received
    {walk : Walk}
    {boundary : String}
    {concurrency time : Nat}
    {primary part : Multipart.Part}
    {tasks : List Projection.Task}
    {schedule : Nat → Happening}
    (isReceived :
      .chunk part ∈
        (walk.reading boundary concurrency primary tasks schedule time).stream.received) :
    ∃ task visit, walk.Completes task visit ∧ part = visit.part := by
  rcases (walk.follows_reading boundary concurrency primary tasks schedule time).exists_tasks with
    ⟨yielded, received⟩
  rw [received] at isReceived
  rcases List.mem_map.mp isReceived with ⟨task, _, isItem⟩
  rcases Walk.exists_result_of_item isItem with ⟨found, succeeds⟩
  exact ⟨task, Walk.completes_of_carryOut succeeds⟩

/-- Every text that is shown is that of a visited document. -/
theorem exists_visit_of_mem_texts
    {service : Service}
    {table : Routing.Table}
    {drawn : Drawn}
    {schedule : Nat → Happening}
    {time : Nat}
    {request : Request}
    {reply : Reply}
    (replied : (service.serve table drawn schedule time request).reply = some reply)
    {text : Bytes}
    (isShown :
      text ∈
        reply.texts drawn.boundary service.concurrency schedule
          (readingTime request.method time)) :
    ∃ document entry visit,
      service.Visits table (identified drawn request) document entry visit ∧
        text = visit.part.content := by
  cases atPath : hasPath request.target with
  | false =>
      rw [serve_of_no_path atPath] at replied
      cases replied
  | true =>
      rcases answer_cases service table (identified drawn request) with
        ⟨error, answer⟩ | ⟨extraction, primary, prepares⟩
      · rw [serve_of_answer atPath answer] at replied
        cases replied
        cases isShown
      · rw [serve_of_answer atPath prepares.answer_eq] at replied
        have replies := replies_of_ask service table primary
        rw [Option.some.inj replied] at replies
        cases replies with
        | passthrough => cases isShown
        | refused => cases isShown
        | unprojected => cases isShown
        | baseless => cases isShown
        | projected finds =>
            exact ⟨_, _, _, .query prepares finds, List.mem_singleton.mp isShown⟩
        | multipart finds _ isUrl =>
            rcases List.mem_filterMap.mp isShown with ⟨event, isEvent, isText⟩
            cases event with
            | pending => cases isText
            | ended => cases isText
            | failed => cases isText
            | chunk part =>
                cases isText
                rcases List.mem_cons.mp isEvent with isFirst | isOther
                · cases isFirst
                  exact ⟨_, _, _, .query prepares finds, rfl⟩
                · rcases Walk.exists_visit_of_received isOther with ⟨task, visit, completes, rfl⟩
                  exact ⟨_, _, visit, .task prepares finds isUrl completes, rfl⟩

/-! ## What is kept of a visited document -/

theorem Prepares.check
    {service : Service}
    {table : Routing.Table}
    {request : Request}
    {extraction : Extraction}
    {primary : Primary}
    {document : Query.Document}
    (prepares : Prepares service table request extraction primary)
    (queried : primary.query = some document) :
    Query.SpreadGraph.check document.fragments = .ok () := by
  have parsed := prepares.parsed
  rw [queried] at parsed
  cases isQuery : extraction.query with
  | none =>
      rw [isQuery] at parsed
      cases parsed
  | some query =>
      rw [isQuery] at parsed
      rcases bind_eq_ok.mp parsed with ⟨_, isRead, result⟩
      cases result
      exact Query.Document.check_of_ofString (mapError_eq_ok.mp isRead)

/-- A visited document is delivered, and what is shown of it is what its entry keeps. -/
theorem Service.Visits.keeps
    {service : Service}
    {table : Routing.Table}
    {request : Request}
    {document : Query.Document}
    {entry : Option Projection.Entry}
    {visit : Visit}
    (visits : service.Visits table request document entry visit) :
    ∃ source, service.backend.Delivers service.limit visit source ∧
      Projection.Keeps document entry source visit.projection.target := by
  cases visits with
  | query prepares finds =>
      rcases finds.projected with ⟨source, delivers, projected⟩
      exact ⟨source, delivers, Projection.keeps_of_project (prepares.check finds.queried) projected⟩
  | task prepares finds _ completes =>
      rcases completes.projected with ⟨source, delivers, projected⟩
      exact ⟨source, delivers, Projection.keeps_of_task (prepares.check finds.queried) projected⟩

/-! ## Scalars -/

/--
The text shows what an entry keeps of a document.  Both are JSON text.  Each
scalar that is shown has one origin in the document, and is what becomes of the
scalar there when it is read and written again.
-/
structure Shows (document : Query.Document) (entry : Option Projection.Entry)
    (content text : Bytes) : Prop where
  isRead : ∃ source, Json.ofBytes? content = some source
  isText : ∃ shown, Json.IsText shown text
  scalars :
    ∀ source written shown, Json.ofBytes? content = some source → Json.IsText written content →
      Json.IsText shown text → ∀ path scalar, shown.Has path scalar → scalar.isScalar = true →
        ∃ origin original,
          (∀ other, Projection.IsOrigin document entry source path other ↔ other = origin) ∧
            written.at? origin = some original ∧ original.Rewrites scalar

theorem isText_render
    {value : Json.Value}
    (isHeld : value.IsHeld Json.nestingLimit) :
    Json.IsText value.tree (Bytes.ofString value.render) := by
  refine ⟨value.text, ?_, isHeld.isDocument⟩
  rw [Bytes.ofString, Json.Value.render, String.toList_ofList]

/-- What is shown of a document that is read are its scalars, read and written again. -/
theorem shows_of_keeps
    {document : Query.Document}
    {entry : Option Projection.Entry}
    {content : Bytes}
    {source target : Json.Value}
    (isJson : Json.ofBytes? content = some source)
    (keeps : Projection.Keeps document entry source target) :
    Shows document entry content (Bytes.ofString target.render) := by
  rcases Json.ofBytes?_eq_some_iff.mp isJson with ⟨tree, isTree, isValue⟩
  have isHeld := keeps.isHeld (isTree.isHeld isValue)
  refine ⟨⟨source, isJson⟩, ⟨target.tree, isText_render isHeld⟩, ?_⟩
  intro other written shown alsoJson isWritten isShown path scalar has isScalar
  cases isJson.symm.trans alsoJson
  cases isWritten.unique isTree
  cases isShown.unique (isText_render isHeld)
  rcases isHeld.exists_at?_of_has has with ⟨value, isFound, rfl⟩
  rw [Json.Value.isScalar_tree] at isScalar
  rcases keeps.exists_origin isFound isScalar with ⟨origin, isOrigin, atOrigin⟩
  rcases Json.Tree.exists_at?_of_value? isValue atOrigin with ⟨original, isOriginal, wasRead⟩
  exact ⟨origin, original, isOrigin, isOriginal, Json.Tree.rewrites_of_value? isScalar wasRead⟩

/-- A visited document is read, and its part shows what its entry keeps of it. -/
theorem Service.Visits.exists_shows
    {service : Service}
    {table : Routing.Table}
    {request : Request}
    {document : Query.Document}
    {entry : Option Projection.Entry}
    {visit : Visit}
    (visits : service.Visits table request document entry visit) :
    ∃ content, visit.response.body.read service.limit = .ok content ∧
      Shows document entry content visit.part.content := by
  rcases visits.keeps with ⟨source, delivers, keeps⟩
  rcases delivers.isJson with ⟨content, read, isJson⟩
  exact ⟨content, read, shows_of_keeps isJson keeps⟩

/--
Every text that a client is shown is that of a document that a backend answered
with.  Each scalar in it has one origin in the backend's text.  It is the same
null, boolean or string as the scalar there; a number is written as what it is
held as, which is the same number if the numeral there is kept.
-/
theorem serve_copies_scalars
    (service : Service)
    (table : Routing.Table)
    (drawn : Drawn)
    (schedule : Nat → Happening)
    (time : Nat)
    (request : Request) :
    (∀ reply text, (service.serve table drawn schedule time request).reply = some reply →
      text ∈
          reply.texts drawn.boundary service.concurrency schedule
            (readingTime request.method time) →
        ∃ document entry visit,
          service.Visits table (identified drawn request) document entry visit ∧
            text = visit.part.content) ∧
    ∀ document entry visit,
      service.Visits table (identified drawn request) document entry visit →
        ∃ content, visit.response.body.read service.limit = .ok content ∧
          Shows document entry content visit.part.content := by
  constructor
  · intro reply text replied isShown
    exact exists_visit_of_mem_texts replied isShown
  · intro document entry visit visits
    exact visits.exists_shows

/-! ## A long number and a short one -/

namespace PetStore

def chipQuery : String :=
  "\x7b chip weight \x7d"

def chipDocument : Query.Document where
  operations :=
    [⟨.query, none, [], [.field none "chip" [] [] none, .field none "weight" [] [] none]⟩]
  fragments := []

def chipText : String :=
  "\x7b\"chip\":12345678901234567890123,\"weight\":12.50\x7d"

def chipNumeral : Json.Numeral :=
  ⟨false, "12345678901234567890123".toList, [], none⟩

def weightNumeral : Json.Numeral :=
  ⟨false, ['1', '2'], ['5', '0'], none⟩

def chipTree : Json.Tree :=
  .object [("chip", .number chipNumeral), ("weight", .number weightNumeral)]

/-- The double that is nearest to the longer number. -/
def roundedChip : Binary64 :=
  ⟨false, 5886878443352970, 21⟩

def chipValue : Json.Value :=
  .object
    [("chip", .number (.double roundedChip)),
      ("weight", .number (.double ⟨false, 25 * 2 ^ 48, -49⟩))]

def chipShown : String :=
  "\x7b\"chip\":1.2345678901234568e+22,\"weight\":12.5\x7d"

def roundedNumeral : Json.Numeral :=
  ⟨false, ['1'], "2345678901234568".toList, some ⟨'e', some '+', ['2', '2']⟩⟩

def chipVisit : Visit where
  request := petVisit.request
  response := ⟨200, .empty, .ofBytes (Bytes.ofString chipText)⟩
  projection := ⟨chipValue, []⟩

def chipService : Service where
  backend _ := .ok chipVisit.response
  limit := 100
  concurrency := 4

def chipRequest : Request :=
  ⟨"GET", ⟨none, none, "/pets/1", none⟩,
    ⟨[("host", Bytes.ofString "gateway"), (queryHeader, Bytes.ofString chipQuery),
      (requestIdHeader, Bytes.ofString "7")]⟩, .empty⟩

theorem chipNumeral_isProper :
    chipNumeral.IsProper where
  nonempty := by decide
  whole := by decide
  noZero := by decide
  decimals := rfl
  exponent := nofun

theorem weightNumeral_isProper :
    weightNumeral.IsProper where
  nonempty := by decide
  whole := by decide
  noZero := by decide
  decimals := by decide
  exponent := nofun

theorem chipTree_value :
    chipTree.value? = some chipValue := by
  have chip : chipNumeral.number? = some (.double roundedChip) := by decide +kernel
  have weight : weightNumeral.number? = some (.double ⟨false, 25 * 2 ^ 48, -49⟩) := by
    decide +kernel
  simp only [chipTree, Json.Tree.value?, Json.Tree.entryValues?, chip, weight, Option.map_some]
  rfl

theorem chip_isText :
    Json.IsText chipTree (Bytes.ofString chipText) := by
  have entries := @Json.SpellsEntries.cons 126 _ _ _ [] _ [] [] _ [] _ rfl rfl rfl rfl
    (Json.spells_stringText "chip") (.number _ chipNumeral_isProper)
    (@Json.SpellsEntries.last 126 _ _ [] _ [] [] _ [] rfl rfl rfl rfl
      (Json.spells_stringText "weight") (.number _ weightNumeral_isProper))
  have spelled := Json.Spells.object entries
  refine ⟨chipText.toList, rfl, [], chipText.toList, [], by simp, rfl, rfl, ?_⟩
  convert spelled using 1
  · rfl
  · rfl
  · decide +kernel

theorem chip_isRead :
    Json.ofBytes? (Bytes.ofString chipText) = some chipValue :=
  Json.ofBytes?_eq_some_iff.mpr ⟨chipTree, chip_isText, chipTree_value⟩

theorem chip_render :
    Bytes.ofString chipValue.render = Bytes.ofString chipShown := by
  decide +kernel

theorem chip_read :
    chipVisit.response.body.read chipService.limit = .ok (Bytes.ofString chipText) := by
  decide +kernel

theorem chip_delivers :
    chipService.backend.Delivers chipService.limit chipVisit chipValue where
  answered := rfl
  succeeded := by decide +kernel
  isJson := ⟨Bytes.ofString chipText, chip_read, chip_isRead⟩

theorem chip_parsed :
    Query.Document.ofString chipQuery = .ok chipDocument := by
  cbv

theorem chip_projected :
    Projection.project chipDocument chipValue = .ok chipVisit.projection := by
  cbv

def chipQueried : Queried chipService table (identified drawn chipRequest) where
  ingress := "http://gateway/pets/1"
  egress := "http://pets/1"
  query := chipQuery
  place := .header
  body := .untouched .empty
  document := chipDocument
  base := base
  visit := chipVisit
  routed := by decide +kernel
  extracted := by decide +kernel
  parsed := chip_parsed
  isUrl := queried.isUrl
  sent := by decide +kernel
  projected := ⟨chipValue, chip_delivers, chip_projected⟩

theorem chip_reply :
    (chipService.serve table drawn polling 0 chipRequest).reply = some chipQueried.reply := by
  rw [chipQueried.serve_eq polling 0 (by decide) (by decide) (by decide +kernel)]

theorem chip_isShown :
    Bytes.ofString chipShown ∈
      chipQueried.reply.texts drawn.boundary chipService.concurrency polling
        (readingTime chipRequest.method 0) := by
  rw [← chip_render]
  exact List.mem_singleton_self _

theorem chip_visits :
    chipService.Visits table (identified drawn chipRequest) chipDocument
      (Projection.queryEntry chipDocument) chipVisit :=
  .query chipQueried.prepares ⟨rfl, rfl, chipQueried.projected⟩

theorem chip_is_copied :
    (chipService.serve table drawn polling 0 chipRequest).reply = some chipQueried.reply ∧
      Bytes.ofString chipShown ∈
        chipQueried.reply.texts drawn.boundary chipService.concurrency polling
          (readingTime chipRequest.method 0) ∧
      (∃ document entry visit,
        chipService.Visits table (identified drawn chipRequest) document entry visit ∧
          Bytes.ofString chipShown = visit.part.content) ∧
      chipService.Visits table (identified drawn chipRequest) chipDocument
        (Projection.queryEntry chipDocument) chipVisit ∧
      Shows chipDocument (Projection.queryEntry chipDocument) (Bytes.ofString chipText)
        (Bytes.ofString chipShown) := by
  have copies := serve_copies_scalars chipService table drawn polling 0 chipRequest
  refine ⟨chip_reply, chip_isShown, copies.1 chipQueried.reply _ chip_reply chip_isShown,
    chip_visits, ?_⟩
  rcases copies.2 _ _ _ chip_visits with ⟨content, read, shows⟩
  cases read.symm.trans chip_read
  rw [← chip_render]
  exact shows

theorem numeral_roundedChip :
    (Json.Number.double roundedChip).numeral = roundedNumeral := by
  decide +kernel

/-- The number is not the one that was rounded. -/
theorem value_roundedNumeral_ne :
    roundedNumeral.value ≠ chipNumeral.value := by
  have digits : chipNumeral.significand = 12345678901234567890123 := by decide +kernel
  have roundedDigits : roundedNumeral.significand = 12345678901234568 := by decide +kernel
  have scale : roundedNumeral.scale = 6 := by decide +kernel
  rw [Json.Numeral.value, Json.Numeral.value, digits, roundedDigits, scale]
  norm_num [chipNumeral, roundedNumeral, Json.Numeral.scale]

theorem chip_isOrigin :
    Projection.IsOrigin chipDocument (Projection.queryEntry chipDocument) chipValue
      [.key "chip"] [.key "chip"] :=
  .object (@Projection.ObjectOrigin.field _ _ _ _ _ ⟨none, "chip", [], [], none⟩ _ _ _
    (.field (.field .nil)) ⟨[], _, rfl, rfl, by decide⟩ rfl (.scalar rfl))

theorem chipShown_isText :
    Json.IsText chipValue.tree (Bytes.ofString chipShown) := by
  rw [← chip_render]
  exact isText_render (chip_isText.isHeld chipTree_value)

/-- The longer number is rounded, and another one is shown. -/
theorem chip_is_rounded :
    chipService.backend chipVisit.request =
        .ok ⟨200, .empty, .ofBytes (Bytes.ofString chipText)⟩ ∧
      (chipService.serve table drawn polling 0 chipRequest).response.body =
        .ofBytes (Bytes.ofString chipShown) ∧
      Json.ofBytes? (Bytes.ofString chipText) = some chipValue ∧
      Projection.IsOrigin chipDocument (Projection.queryEntry chipDocument) chipValue
        [.key "chip"] [.key "chip"] ∧
      ∃ written shown numeral other,
        Json.IsText written (Bytes.ofString chipText) ∧
          Json.IsText shown (Bytes.ofString chipShown) ∧
            written.at? [.key "chip"] = some (.number numeral) ∧
              shown.Has [.key "chip"] (.number other) ∧ other.value ≠ numeral.value := by
  have answered := chipQueried.serve_without_followUps polling 0 (by decide) (by decide)
    (by decide +kernel) rfl
  refine ⟨rfl, ?_, chip_isRead, chip_isOrigin, chipTree, chipValue.tree, chipNumeral,
    roundedNumeral, chip_isText, chipShown_isText, rfl, ?_, value_roundedNumeral_ne⟩
  · rw [answered.2.2, ← chip_render]
    rfl
  · rw [← numeral_roundedChip]
    exact .entry List.mem_cons_self (.here _)

end PetStore

end QueryGateway.Gateway
