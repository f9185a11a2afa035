import Mathlib
import QueryGateway.Proofs.Gateway.Scheduling

/-!
# Fair schedulers

A scheduler is fair if it polls the stream again and again, so that fetches
begin, and if no fetch is under way forever.  Then every item comes in the end.

Let a stream owe a part.  As long as it hands out nothing, it owes the same
tasks; the first poll that may begin fetches sees to it that the foremost fetch
is under way; this fetch finishes and stays the foremost one; and the next poll
hands out what it has fetched.
-/

namespace QueryGateway.Gateway

open Multipart (Event)

/-- A scheduler that lets everything happen that can. -/
structure Walk.IsFair (walk : Walk) (concurrency : Nat) (tasks : List Projection.Task)
    (schedule : Nat → Happening) : Prop where
  polled : ∀ time, ∃ later, time ≤ later ∧ ∃ begins, schedule later = .poll (begins + 1)
  finished :
    ∀ time number, (walk.stream concurrency tasks schedule time).IsUnderWay number →
      ∃ later, time ≤ later ∧ ¬ (walk.stream concurrency tasks schedule later).IsUnderWay number

/-! ## One happening -/

/-- No error has passed, and a part is owed. -/
def Stream.IsOwing (stream : Stream) : Prop :=
  AreOpen stream.levels ∧ owed stream.levels ≠ []

/-- A part is owed, and the fetch for it has come so far, or it has finished. -/
def Stream.Awaits (stream : Stream) (progress : Progress) : Prop :=
  stream.IsOwing ∧
    (foremost stream.levels = some progress ∨ foremost stream.levels = some .finished)

theorem isUnderWay_of_foremost
    {levels : List Level}
    {number : Nat}
    (isForemost : foremost levels = some (.underWay number)) :
    ∃ level ∈ levels, ∃ slot ∈ level.slots, slot.progress = .underWay number := by
  induction levels with
  | nil => cases isForemost
  | cons level nested induction =>
      rw [foremost] at isForemost
      split at isForemost
      · obtain ⟨slot, first, progress⟩ := Option.map_eq_some_iff.mp isForemost
        exact ⟨level, by simp, slot, List.mem_of_mem_head? first, progress⟩
      · obtain ⟨inner, member, isUnderWay⟩ := induction isForemost
        exact ⟨inner, List.mem_cons_of_mem _ member, isUnderWay⟩

section

variable
    (walk : Walk)
    (concurrency : Nat)
    {stream : Stream}

/-- What has been received stays received. -/
theorem Walk.received_prefix_next
    (stream : Stream)
    (happening : Happening) :
    stream.received <+: (walk.next concurrency stream happening).received := by
  cases happening with
  | poll begins => exact List.prefix_append _ _
  | finish number => exact List.prefix_refl _

/-- A poll of a stream that owes a part hands out an item or waits. -/
theorem Stream.IsOwing.poll
    (isOwing : stream.IsOwing)
    (begins : Nat) :
    stream.received.length < (walk.next concurrency stream (.poll begins)).received.length ∨
      (walk.next concurrency stream (.poll begins)).IsOwing ∧
        foremost stream.levels ≠ some .finished ∧
        (∀ number, foremost stream.levels = some (.underWay number) →
          foremost (walk.next concurrency stream (.poll begins)).levels =
            some (.underWay number)) ∧
        (begins ≠ 0 →
          ∃ number, foremost (walk.next concurrency stream (.poll begins)).levels =
            some (.underWay number)) := by
  have advances := walk.poll_advances concurrency begins stream.begun isOwing.1
  simp only [Walk.next, Stream.IsOwing]
  generalize walk.poll concurrency begins stream.begun stream.levels = polled at advances ⊢
  obtain ⟨event, levels, begun⟩ := polled
  simp only at advances ⊢
  cases advances with
  | part => exact .inl (by simp)
  | error => exact .inl (by simp)
  | done owesNothing => exact (isOwing.2 owesNothing).elim
  | wait owes rest areOpen unfinished kept begun =>
      rw [← rest] at owes
      exact .inr ⟨⟨areOpen, owes⟩, unfinished, kept, begun⟩

/-- A stream that owes a part goes on owing it until an item is handed out. -/
theorem Stream.IsOwing.next
    (isOwing : stream.IsOwing)
    (happening : Happening) :
    (walk.next concurrency stream happening).IsOwing ∨
      stream.received.length < (walk.next concurrency stream happening).received.length := by
  cases happening with
  | poll begins =>
      rcases isOwing.poll walk concurrency begins with received | ⟨still, _⟩
      · exact .inr received
      · exact .inl still
  | finish number =>
      refine .inl ⟨areOpen_finish number isOwing.1, ?_⟩
      rw [Walk.next, owed_finish]
      exact isOwing.2

/-- A fetch that has begun is awaited until an item is handed out. -/
theorem Stream.Awaits.next
    {progress : Progress}
    (hasBegun : progress ≠ .queued)
    (awaits : stream.Awaits progress)
    (happening : Happening) :
    (walk.next concurrency stream happening).Awaits progress ∨
      stream.received.length < (walk.next concurrency stream happening).received.length := by
  obtain ⟨isOwing, isForemost⟩ := awaits
  cases happening with
  | poll begins =>
      rcases isOwing.poll walk concurrency begins with received | ⟨still, unfinished, kept, _⟩
      · exact .inr received
      · refine .inl ⟨still, ?_⟩
        rcases isForemost with isForemost | finished
        · cases progress with
          | queued => exact (hasBegun rfl).elim
          | underWay number => exact .inl (kept number isForemost)
          | finished => exact (unfinished isForemost).elim
        · exact (unfinished finished).elim
  | finish number =>
      rcases isOwing.next walk concurrency (.finish number) with still | received
      · refine .inl ⟨still, ?_⟩
        rw [Walk.next, foremost_finish]
        rcases isForemost with isForemost | finished
        · by_cases isSame : progress = .underWay number
          · simp [isForemost, isSame, Progress.finish]
          · simp [isForemost, isSame, Progress.finish]
        · simp [finished, Progress.finish]
      · exact .inr received

end

/-! ## Runs -/

section

variable
    {walk : Walk}
    {concurrency : Nat}
    {tasks : List Projection.Task}
    {schedule : Nat → Happening}

theorem Walk.received_prefix_stream
    {time later : Nat}
    (isLater : time ≤ later) :
    (walk.stream concurrency tasks schedule time).received <+:
      (walk.stream concurrency tasks schedule later).received := by
  induction isLater with
  | refl => exact List.prefix_refl _
  | step isLater induction =>
      exact induction.trans (walk.received_prefix_next concurrency _ _)

/-- What holds of a stream until an item is handed out. -/
theorem Walk.holds_until_received
    (holds : Stream → Prop)
    (kept :
      ∀ stream happening, holds stream →
        holds (walk.next concurrency stream happening) ∨
          stream.received.length < (walk.next concurrency stream happening).received.length)
    {time later : Nat}
    (isLater : time ≤ later)
    (atFirst : holds (walk.stream concurrency tasks schedule time)) :
    holds (walk.stream concurrency tasks schedule later) ∨
      (walk.stream concurrency tasks schedule time).received.length <
        (walk.stream concurrency tasks schedule later).received.length := by
  induction isLater with
  | refl => exact .inl atFirst
  | @step later isLater induction =>
      have monotone :=
        (walk.received_prefix_next concurrency (walk.stream concurrency tasks schedule later)
          (schedule later)).length_le
      rcases induction with still | received
      · rcases kept _ (schedule later) still with next | received
        · exact .inl next
        · refine .inr (Nat.lt_of_le_of_lt ?_ received)
          exact (received_prefix_stream isLater).length_le
      · exact .inr (Nat.lt_of_lt_of_le received monotone)

/-- A part stays owed until an item is handed out. -/
theorem Walk.owing_until_received
    {time later : Nat}
    (isLater : time ≤ later)
    (isOwing : (walk.stream concurrency tasks schedule time).IsOwing) :
    (walk.stream concurrency tasks schedule later).IsOwing ∨
      (walk.stream concurrency tasks schedule time).received.length <
        (walk.stream concurrency tasks schedule later).received.length := by
  refine holds_until_received Stream.IsOwing ?_ isLater isOwing
  intro stream happening isOwing
  exact isOwing.next walk concurrency happening

/-- A fetch that has begun is awaited until an item is handed out. -/
theorem Walk.awaits_until_received
    {progress : Progress}
    (hasBegun : progress ≠ .queued)
    {time later : Nat}
    (isLater : time ≤ later)
    (awaits : (walk.stream concurrency tasks schedule time).Awaits progress) :
    (walk.stream concurrency tasks schedule later).Awaits progress ∨
      (walk.stream concurrency tasks schedule time).received.length <
        (walk.stream concurrency tasks schedule later).received.length := by
  refine holds_until_received (Stream.Awaits · progress) ?_ isLater awaits
  intro stream happening awaits
  exact awaits.next walk concurrency hasBegun happening

namespace Walk.IsFair

/-- The fetch for a part that is owed begins. -/
theorem exists_begun
    (fair : walk.IsFair concurrency tasks schedule)
    {time : Nat}
    (isOwing : (walk.stream concurrency tasks schedule time).IsOwing) :
    ∃ later, time ≤ later ∧
      ((∃ number, (walk.stream concurrency tasks schedule later).IsOwing ∧
          foremost (walk.stream concurrency tasks schedule later).levels =
            some (.underWay number)) ∨
        (walk.stream concurrency tasks schedule time).received.length <
          (walk.stream concurrency tasks schedule later).received.length) := by
  obtain ⟨polling, isLater, begins, polled⟩ := fair.polled time
  rcases owing_until_received isLater isOwing with stillOwing | received
  · refine ⟨polling + 1, Nat.le_succ_of_le isLater, ?_⟩
    rw [Walk.stream, polled]
    rcases stillOwing.poll walk concurrency (begins + 1) with received | ⟨owing, _, _, begun⟩
    · refine .inr (Nat.lt_of_le_of_lt ?_ received)
      exact (received_prefix_stream isLater).length_le
    · obtain ⟨number, isForemost⟩ := begun (Nat.succ_ne_zero begins)
      exact .inl ⟨number, owing, isForemost⟩
  · exact ⟨polling, isLater, .inr received⟩

/-- The fetch for a part that is owed finishes. -/
theorem exists_finished
    (fair : walk.IsFair concurrency tasks schedule)
    {time number : Nat}
    (isOwing : (walk.stream concurrency tasks schedule time).IsOwing)
    (isForemost :
      foremost (walk.stream concurrency tasks schedule time).levels = some (.underWay number)) :
    ∃ later, time ≤ later ∧
      ((walk.stream concurrency tasks schedule later).Awaits .finished ∨
        (walk.stream concurrency tasks schedule time).received.length <
          (walk.stream concurrency tasks schedule later).received.length) := by
  obtain ⟨later, isLater, notUnderWay⟩ :=
    fair.finished time number (isUnderWay_of_foremost isForemost)
  have hasBegun : Progress.underWay number ≠ .queued := by
    simp
  refine ⟨later, isLater, ?_⟩
  rcases awaits_until_received hasBegun isLater ⟨isOwing, .inl isForemost⟩ with
    ⟨owing, underWay | finished⟩ | received
  · exact (notUnderWay (isUnderWay_of_foremost underWay)).elim
  · exact .inl ⟨owing, .inl finished⟩
  · exact .inr received

/-- A part that has been fetched is handed out. -/
theorem exists_handedOut
    (fair : walk.IsFair concurrency tasks schedule)
    {time : Nat}
    (awaits : (walk.stream concurrency tasks schedule time).Awaits .finished) :
    ∃ later,
      (walk.stream concurrency tasks schedule time).received.length <
        (walk.stream concurrency tasks schedule later).received.length := by
  obtain ⟨polling, isLater, begins, polled⟩ := fair.polled time
  have hasBegun : Progress.finished ≠ .queued := by
    simp
  rcases awaits_until_received hasBegun isLater awaits with ⟨owing, isForemost⟩ | received
  · refine ⟨polling + 1, ?_⟩
    rw [Walk.stream, polled]
    rcases owing.poll walk concurrency (begins + 1) with received | ⟨_, unfinished, _⟩
    · refine Nat.lt_of_le_of_lt ?_ received
      exact (received_prefix_stream isLater).length_le
    · exact (unfinished (isForemost.elim id id)).elim
  · exact ⟨polling, received⟩

/-- An item comes as long as a part is owed. -/
theorem exists_received
    (fair : walk.IsFair concurrency tasks schedule)
    {time : Nat}
    (isOwing : (walk.stream concurrency tasks schedule time).IsOwing) :
    ∃ later,
      (walk.stream concurrency tasks schedule time).received.length <
        (walk.stream concurrency tasks schedule later).received.length := by
  obtain ⟨beginning, isBeginning, ⟨number, owing, isForemost⟩ | received⟩ :=
    fair.exists_begun isOwing
  · have sinceThen : (walk.stream concurrency tasks schedule time).received.length ≤
        (walk.stream concurrency tasks schedule beginning).received.length :=
      (received_prefix_stream isBeginning).length_le
    obtain ⟨ending, isEnding, awaits | received⟩ := fair.exists_finished owing isForemost
    · obtain ⟨later, received⟩ := fair.exists_handedOut awaits
      have untilEnding : (walk.stream concurrency tasks schedule beginning).received.length ≤
          (walk.stream concurrency tasks schedule ending).received.length :=
        (received_prefix_stream isEnding).length_le
      exact ⟨later, by omega⟩
    · exact ⟨ending, by omega⟩
  · exact ⟨beginning, received⟩

/-- So many items come, unless the walk yields fewer. -/
theorem exists_length
    (fair : walk.IsFair concurrency tasks schedule)
    (count : Nat) :
    ∃ time,
      count ≤ (walk.stream concurrency tasks schedule time).received.length ∨
        ∀ other, walk.items other tasks <+:
          (walk.stream concurrency tasks schedule time).received := by
  induction count with
  | zero => exact ⟨0, .inl (Nat.zero_le _)⟩
  | succ count induction =>
      obtain ⟨time, enough | all⟩ := induction
      · cases walk.follows_stream concurrency tasks schedule time with
        | running first areOpen received ending =>
            by_cases nothing : owed (walk.stream concurrency tasks schedule time).levels = []
            · have isFinal (more : Nat) : walk.items (first + more) tasks =
                  (walk.stream concurrency tasks schedule time).received := by
                rw [received more, nothing, items_nil, List.append_nil]
              exact ⟨time, .inr (Walk.items_prefix_of_final isFinal)⟩
            · obtain ⟨later, longer⟩ := fair.exists_received ⟨areOpen, nothing⟩
              exact ⟨later, .inl (Nat.lt_of_le_of_lt enough longer)⟩
        | failed first isClosed received =>
            exact ⟨time, .inr (Walk.items_prefix_of_final received)⟩
      · exact ⟨time, .inr all⟩

/-- Every item of the walk comes in the end. -/
theorem exists_items_prefix
    (fair : walk.IsFair concurrency tasks schedule)
    (count : Nat) :
    ∃ time, walk.items count tasks <+:
      (walk.stream concurrency tasks schedule time).received := by
  obtain ⟨time, enough | all⟩ := fair.exists_length count
  · obtain ⟨steps, received⟩ :=
      (walk.follows_stream concurrency tasks schedule time).exists_count
    refine ⟨time, ?_⟩
    have atMost := length_items_le steps walk tasks
    rw [received] at enough ⊢
    exact items_prefix_of_le count walk tasks (by omega)
  · exact ⟨time, all count⟩

end Walk.IsFair

end

/-! ## A fair scheduler -/

/-- Polls and fetches that finish take turns, and every fetch has its turn again and again. -/
def takingTurns (time : Nat) : Happening :=
  if time % 2 = 0 then .poll 1 else .finish (time / 2).unpair.1

/-- A fetch that finishes is under way no more. -/
theorem Walk.not_isUnderWay_of_finish
    (walk : Walk)
    (concurrency : Nat)
    (stream : Stream)
    (number : Nat) :
    ¬ (walk.next concurrency stream (.finish number)).IsUnderWay number := by
  rintro ⟨level, isLevel, slot, isSlot, underWay⟩
  obtain ⟨levelBefore, _, rfl⟩ := List.mem_map.mp isLevel
  obtain ⟨slotBefore, _, rfl⟩ := List.mem_map.mp isSlot
  rw [Slot.progress_finish, Progress.finish] at underWay
  split at underWay
  · cases underWay
  · contradiction

theorem Walk.isFair_takingTurns
    (walk : Walk)
    (concurrency : Nat)
    (tasks : List Projection.Task) :
    walk.IsFair concurrency tasks takingTurns where
  polled := by
    intro time
    exact ⟨2 * time, by omega, 0, by simp [takingTurns]⟩
  finished := by
    intro time number _
    have isLater := Nat.right_le_pair number time
    have turn : takingTurns (2 * Nat.pair number time + 1) = .finish number := by
      have half : (2 * Nat.pair number time + 1) / 2 = Nat.pair number time := by omega
      simp [takingTurns, half]
    refine ⟨2 * Nat.pair number time + 1 + 1, by omega, ?_⟩
    rw [Walk.stream, turn]
    exact walk.not_isUnderWay_of_finish concurrency _ number

/-! ## Every scheduler -/

/--
The items of a stream of follow-ups are those of the walk that carries out one
task after another, up to its first error: at any time the stream has received
the items of some first steps, it has received all of them when it ends, and a
fair scheduler lets every item come.  An error is the last item.
-/
theorem Walk.stream_independent_of_schedule
    (walk : Walk)
    (concurrency : Nat)
    (tasks : List Projection.Task)
    (schedule : Nat → Happening) :
    (∀ time, ∃ count,
      (walk.stream concurrency tasks schedule time).received = walk.items count tasks) ∧
    (∀ time, (walk.stream concurrency tasks schedule time).hasEnded = true →
      ∀ count, walk.items count tasks <+:
        (walk.stream concurrency tasks schedule time).received) ∧
    (walk.IsFair concurrency tasks schedule →
      ∀ count, ∃ time, walk.items count tasks <+:
        (walk.stream concurrency tasks schedule time).received) ∧
    (∀ time before error after,
      (walk.stream concurrency tasks schedule time).received = before ++ .failed error :: after →
        after = [] ∧ ∀ event ∈ before, ∃ part, event = .chunk part) := by
  refine ⟨?_, ?_, ?_, ?_⟩
  · intro time
    exact (walk.follows_stream concurrency tasks schedule time).exists_count
  · intro time hasEnded
    exact (walk.follows_stream concurrency tasks schedule time).items_prefix_of_ended hasEnded
  · intro fair count
    exact fair.exists_items_prefix count
  · intro time before error after split
    obtain ⟨count, received⟩ :=
      (walk.follows_stream concurrency tasks schedule time).exists_count
    rw [received] at split
    exact error_is_last count walk tasks split

/-! ## Pets of a kennel -/

namespace Kennel

open Message

/-- The directive for a link that a fragment is entered with. -/
def follow (fragment : String) : Query.Directive Query.Argument :=
  ⟨"GET", [⟨"fragment", .literal (.string fragment)⟩]⟩

def toySelections : List (Query.Selection Query.Argument) :=
  [.field none "name" [] [] none]

def petSelections : List (Query.Selection Query.Argument) :=
  [.field none "name" [] [] none, .field none "toys" [] [follow "Toy"] none]

def document : Query.Document where
  operations := [⟨.query, none, [], [.field none "pets" [] [follow "Pet"] none]⟩]
  fragments := [⟨"Pet", "Pet", [], petSelections⟩, ⟨"Toy", "Toy", [], toySelections⟩]

/-- The kennel is served by a backend of its own. -/
def table : Routing.Table :=
  match Routing.Mapping.compile "kennel" "http://gateway/kennel" "http://kennel/pets" with
  | .ok mapping => ⟨[mapping], 0⟩
  | .error _ => ⟨[], 0⟩

def link (url : String) : Json.Value :=
  .object [("href", .string url)]

def petTask (url : String) : Projection.Task :=
  ⟨⟨some "Pet", [], petSelections⟩, link url, url⟩

def toyTask (url : String) : Projection.Task :=
  ⟨⟨some "Toy", [], toySelections⟩, link url, url⟩

def pets : List Projection.Task :=
  [petTask "/rex", petTask "/tom", petTask "/kit"]

/-- A request as it is sent for the client's. -/
def asked (authority path : String) : Request :=
  ⟨"GET", ⟨some "http", some authority, path, none⟩,
    ⟨[("x-request-id", Bytes.ofString "7"), ("host", Bytes.ofString authority)]⟩, .empty⟩

def told (text : String) : Response :=
  ⟨200, .empty, .ofBytes (Bytes.ofString text)⟩

/-- There are three pets, of which the first one has a toy. -/
def kennelText : String :=
  "\x7b\"pets\":[\x7b\"href\":\"/rex\"\x7d,\x7b\"href\":\"/tom\"\x7d,\x7b\"href\":\"/kit\"\x7d]\x7d"

def rexText : String :=
  "\x7b\"name\":\"rex\",\"toys\":[\x7b\"href\":\"/ball\"\x7d]\x7d"

def ballText : String :=
  "\x7b\"name\":\"ball\"\x7d"

def tomText : String :=
  "\x7b\"name\":\"tom\",\"toys\":[]\x7d"

def kitText : String :=
  "\x7b\"name\":\"kit\",\"toys\":[]\x7d"

/-- The second pet may be gone. -/
def backend (isGone : Bool) : Backend := fun request =>
  if request.target.path = "/pets" then .ok (told kennelText)
  else if request.target.path = "/rex" then .ok (told rexText)
  else if request.target.path = "/ball" then .ok (told ballText)
  else if request.target.path = "/kit" then .ok (told kitText)
  else if isGone then .ok ⟨404, .empty, .empty⟩
  else .ok (told tomText)

def base : Uri.Url :=
  (Uri.Url.ofString "http://gateway/kennel").toOption.get (by decide +kernel)

def walk (isGone : Bool) : Walk where
  backend := backend isGone
  table := table
  document := document
  base := base
  headers := ⟨[("x-request-id", Bytes.ofString "7")]⟩
  limit := 100

/-- What is found at a link, of which everything is shown. -/
structure Page where
  task : Projection.Task
  address : Uri.Url
  path : String
  text : String
  target : Json.Value
  followUps : List Projection.Task
  joined : (walk false).base.join task.url = .ok address
  sent :
    outbound "GET" (((walk false).table.resolve? address.render).getD address.render)
      (walk false).headers .empty = .ok (asked "gateway" path)
  read : (told text).body.read 100 = .ok (Bytes.ofString text)
  isJson : Json.ofBytes? (Bytes.ofString text) = some target
  projected : task.project document target = .ok ⟨target, followUps⟩

namespace Page

def visit (page : Page) : Visit :=
  ⟨asked "gateway" page.path, told page.text, ⟨page.target, page.followUps⟩⟩

def part (page : Page) : Multipart.Part :=
  page.visit.part

theorem completes
    {isGone : Bool}
    (page : Page)
    (answered : backend isGone (asked "gateway" page.path) = .ok (told page.text)) :
    (walk isGone).Completes page.task page.visit where
  sent := ⟨page.address, page.joined, page.sent⟩
  projected :=
    ⟨page.target,
      ⟨answered, by simp [visit, told, leastErrorStatus], Bytes.ofString page.text, page.read,
        page.isJson⟩,
      page.projected⟩

end Page

def rex : Page where
  task := petTask "/rex"
  address := (Uri.Url.ofString "http://gateway/rex").toOption.get (by decide +kernel)
  path := "/rex"
  text := rexText
  target := .object [("name", .string "rex"), ("toys", .array [link "/ball"])]
  followUps := [toyTask "/ball"]
  joined := by decide +kernel
  sent := by decide +kernel
  read := by decide +kernel
  isJson := by cbv
  projected := by cbv

def ball : Page where
  task := toyTask "/ball"
  address := (Uri.Url.ofString "http://gateway/ball").toOption.get (by decide +kernel)
  path := "/ball"
  text := ballText
  target := .object [("name", .string "ball")]
  followUps := []
  joined := by decide +kernel
  sent := by decide +kernel
  read := by decide +kernel
  isJson := by cbv
  projected := by cbv

def tom : Page where
  task := petTask "/tom"
  address := (Uri.Url.ofString "http://gateway/tom").toOption.get (by decide +kernel)
  path := "/tom"
  text := tomText
  target := .object [("name", .string "tom"), ("toys", .array [])]
  followUps := []
  joined := by decide +kernel
  sent := by decide +kernel
  read := by decide +kernel
  isJson := by cbv
  projected := by cbv

def kit : Page where
  task := petTask "/kit"
  address := (Uri.Url.ofString "http://gateway/kit").toOption.get (by decide +kernel)
  path := "/kit"
  text := kitText
  target := .object [("name", .string "kit"), ("toys", .array [])]
  followUps := []
  joined := by decide +kernel
  sent := by decide +kernel
  read := by decide +kernel
  isJson := by cbv
  projected := by cbv

theorem rex_completes
    (isGone : Bool) :
    (walk isGone).Completes (petTask "/rex") rex.visit :=
  rex.completes (by cases isGone <;> rfl)

theorem ball_completes
    (isGone : Bool) :
    (walk isGone).Completes (toyTask "/ball") ball.visit :=
  ball.completes (by cases isGone <;> rfl)

theorem kit_completes
    (isGone : Bool) :
    (walk isGone).Completes (petTask "/kit") kit.visit :=
  kit.completes (by cases isGone <;> rfl)

theorem tom_completes :
    (walk false).Completes (petTask "/tom") tom.visit :=
  tom.completes rfl

/-- Later fetches finish before earlier ones. -/
def outOfOrder (time : Nat) : Happening :=
  [.poll 3, .finish 1, .poll 3, .finish 0, .poll 3, .poll 3, .finish 3, .finish 2, .poll 3,
    .poll 3, .poll 3, .finish 3].getD time (.poll 3)

/-- The items of the pets and the toy, however many are asked for. -/
theorem items_pets
    (more : Nat) :
    (walk false).items (4 + more) pets =
      [.chunk rex.part, .chunk ball.part, .chunk tom.part, .chunk kit.part] := by
  rw [Nat.add_comm, pets, Walk.items_of_success _ (rex_completes false).result_eq]
  refine congrArg (_ :: ·) ?_
  refine (Walk.items_of_success _ (ball_completes false).result_eq _).trans ?_
  refine congrArg (_ :: ·) ?_
  refine (Walk.items_of_success _ tom_completes.result_eq _).trans ?_
  refine congrArg (_ :: ·) ?_
  refine (Walk.items_of_success _ (kit_completes false).result_eq _).trans ?_
  exact congrArg (_ :: ·) (Walk.items_nil _ _)

/--
The second pet is fetched before the first one, which has a toy; it is received
behind the toy.
-/
theorem stream_keeps_order :
    ((walk false).stream 2 pets outOfOrder 14).begun.map (·.url) =
        ["/rex", "/tom", "/ball", "/kit"] ∧
      ((walk false).stream 2 pets outOfOrder 14).received =
        [.chunk rex.part, .chunk ball.part, .chunk tom.part, .chunk kit.part] ∧
      ∃ time, [.chunk rex.part, .chunk ball.part, .chunk tom.part, .chunk kit.part] <+:
        ((walk false).stream 2 pets takingTurns time).received := by
  have hasEnded : ((walk false).stream 2 pets outOfOrder 14).hasEnded = true := by
    decide +kernel
  obtain ⟨some, whole, _⟩ :=
    (walk false).stream_independent_of_schedule 2 pets outOfOrder
  obtain ⟨_, _, fair, _⟩ :=
    (walk false).stream_independent_of_schedule 2 pets takingTurns
  refine ⟨by decide +kernel, ?_, ?_⟩
  · obtain ⟨count, received⟩ := some 14
    have noMore := Walk.items_prefix_of_final items_pets count
    have noLess := whole 14 hasEnded 4
    rw [← received] at noMore
    rw [items_pets 0] at noLess
    exact noMore.eq_of_length_le noLess.length_le
  · obtain ⟨time, received⟩ := fair ((walk false).isFair_takingTurns 2 pets) 4
    rw [items_pets 0] at received
    exact ⟨time, received⟩

end Kennel

end QueryGateway.Gateway
