import Mathlib
import QueryGateway.Proofs.Gateway.Delivery
import QueryGateway.Proofs.Uri.Fragment

/-!
# Links with a fragment

The fragment of a link is no part of any request, so a follow-up should not
depend on it.  It does not where the fragment comes to no more than the end of
the address that is asked: two addresses that differ behind the first `#` at
most, and fit into a request both or neither, are sent the same request, and
what comes of it is the same or fails in the same way.

But the fragment is a part of the address that is looked up in the routing
table.  A mapping applies to whole addresses; it may apply to an address with a
fragment and not to the one without it, or the other way round, and may copy the
fragment to any place.
-/

namespace QueryGateway.Gateway

open Message

/-! ## Outcomes that are alike -/

/-- The error, apart from the address that it tells and from why that is no address. -/
def BackendError.kind : BackendError → BackendError
  | .status _ code body => .status "" code body
  | .transport _ reason => .transport "" reason
  | .timeout _ limit => .timeout "" limit
  | .invalidJson _ reason => .invalidJson "" reason
  | .unreadableBody _ reason => .unreadableBody "" reason
  | .invalidAddress _ _ => .invalidAddress "" ""

/-- The error, apart from the address that it tells. -/
def GatewayError.kind : GatewayError → GatewayError
  | .backend error => .backend error.kind
  | other => other

/-- Two attempts have the same result, or fail in the same way. -/
inductive SameUpTo {ε α : Type} (kind : ε → ε) : Except ε α → Except ε α → Prop where
  | succeeded
      (result : α) :
      SameUpTo kind (.ok result) (.ok result)
  | failed
      {error other : ε}
      (sameKind : kind error = kind other) :
      SameUpTo kind (.error error) (.error other)

namespace SameUpTo

variable
    {ε α β : Type}
    {kind : ε → ε}

theorem refl
    (attempt : Except ε α) :
    SameUpTo kind attempt attempt := by
  cases attempt with
  | error error => exact .failed rfl
  | ok result => exact .succeeded result

theorem bind
    {attempt other : Except ε α}
    {next otherNext : α → Except ε β}
    (same : SameUpTo kind attempt other)
    (goOn : ∀ result, SameUpTo kind (next result) (otherNext result)) :
    SameUpTo kind (attempt >>= next) (other >>= otherNext) := by
  cases same with
  | succeeded result => exact goOn result
  | failed sameKind => exact .failed sameKind

theorem backend
    {attempt other : Except BackendError α}
    (same : SameUpTo BackendError.kind attempt other) :
    SameUpTo GatewayError.kind (attempt.mapError .backend) (other.mapError .backend) := by
  cases same with
  | succeeded result => exact .succeeded result
  | @failed error otherError sameKind =>
      have stillSame :
          (GatewayError.backend error).kind = (GatewayError.backend otherError).kind :=
        congrArg GatewayError.backend sameKind
      exact .failed stillSame

end SameUpTo

/-- The same request is sent, and it yields the same, or fails in the same way. -/
structure Outcome.Resembles (outcome other : Outcome) : Prop where
  sent : outcome.sent = other.sent
  result : SameUpTo GatewayError.kind outcome.result other.result

/-! ## Addresses that differ in their fragments -/

/-- Two addresses differ in their fragments at most, and neither or both are too long. -/
structure SameApartFromFragment (address other : String) : Prop where
  characters : Uri.upToFragment address = Uri.upToFragment other
  fits :
    address.utf8ByteSize ≤ Uri.Target.longestTarget ↔
      other.utf8ByteSize ≤ Uri.Target.longestTarget

theorem outbound_eq_error
    {method address : String}
    {headers : Headers}
    {body : Body}
    {error : BackendError}
    (fails : outbound method address headers body = .error error) :
    ∃ reason, error = .invalidAddress address reason := by
  rw [outbound] at fails
  split at fails
  · cases fails
    exact ⟨_, rfl⟩
  · split at fails <;> cases fails
    · exact ⟨_, rfl⟩
    · exact ⟨_, rfl⟩

namespace SameApartFromFragment

variable
    {address other : String}
    (same : SameApartFromFragment address other)
    {method : String}
    {headers : Headers}
    {body : Body}

include same

theorem symm :
    SameApartFromFragment other address :=
  ⟨same.characters.symm, same.fits.symm⟩

theorem outbound_eq_ok
    {sent : Request}
    (isSent : outbound method address headers body = .ok sent) :
    outbound method other headers body = .ok sent := by
  obtain ⟨target, authority, isTarget, hasScheme, hasAuthority, rfl⟩ :=
    outbound_eq_ok_iff.mp isSent
  obtain ⟨fits, isAbsolute⟩ := (Uri.Target.ofString?_eq_some_iff hasScheme).mp isTarget
  refine outbound_eq_ok_iff.mpr ⟨target, authority, ?_, hasScheme, hasAuthority, rfl⟩
  exact (Uri.Target.ofString?_eq_some_iff hasScheme).mpr
    ⟨same.fits.mp fits, same.characters ▸ isAbsolute⟩

theorem outbound_same :
    SameUpTo BackendError.kind (outbound method address headers body)
      (outbound method other headers body) := by
  cases isSent : outbound method address headers body with
  | ok sent =>
      rw [same.outbound_eq_ok isSent]
      exact .succeeded sent
  | error error =>
      cases isSentToo : outbound method other headers body with
      | ok sent =>
          rw [same.symm.outbound_eq_ok isSentToo] at isSent
          cases isSent
      | error otherError =>
          obtain ⟨reason, rfl⟩ := outbound_eq_error isSent
          obtain ⟨otherReason, rfl⟩ := outbound_eq_error isSentToo
          exact .failed rfl

end SameApartFromFragment

theorem readJson_same
    (limit : Nat)
    (address other : String)
    (body : Body) :
    SameUpTo BackendError.kind (readJson limit address body) (readJson limit other body) := by
  rw [readJson, readJson]
  cases body.read limit with
  | error error => exact .failed rfl
  | ok content =>
      simp only
      cases Json.ofBytes? content with
      | none => exact .failed rfl
      | some source => exact .succeeded source

/-! ## Follow-ups -/

/-- The task of the same link with a fragment. -/
def withFragment (task : Projection.Task) (fragment : String) : Projection.Task :=
  { task with url := task.url ++ "#" ++ fragment }

namespace Walk

/-- The address to ask for a URL: the one it is routed to, or else its own. -/
def destination (walk : Walk) (url : Uri.Url) : String :=
  (walk.table.resolve? url.render).getD url.render

section

variable
    (walk : Walk)
    {task other : Projection.Task}
    (sameEntry : task.entry = other.entry)

include sameEntry

/-- Where an answer was asked for shows in errors only. -/
theorem part_same
    (address otherAddress : String)
    (request : Request) :
    SameUpTo GatewayError.kind (walk.part task address request)
      (walk.part other otherAddress request) := by
  refine .bind (.refl _) fun response => ?_
  have read := readJson_same walk.limit address otherAddress response.body
  refine .bind read.backend fun source => ?_
  rw [Projection.Task.project, Projection.Task.project, sameEntry]
  exact .refl _

theorem carryOut_resembles
    {address otherAddress : String}
    (isAddress : walk.address task.url = .ok address)
    (isAddressToo : walk.address other.url = .ok otherAddress)
    (same : SameApartFromFragment address otherAddress) :
    (walk.carryOut task).Resembles (walk.carryOut other) := by
  have requests : SameUpTo BackendError.kind (walk.request address) (walk.request otherAddress) :=
    same.outbound_same
  simp only [carryOut, isAddress, isAddressToo]
  generalize walk.request address = attempt at requests
  generalize walk.request otherAddress = otherAttempt at requests
  cases requests with
  | succeeded sent => exact ⟨rfl, walk.part_same sameEntry address otherAddress sent⟩
  | failed sameKind => exact ⟨rfl, SameUpTo.backend (.failed sameKind)⟩

end

theorem carryOut_of_error
    {walk : Walk}
    {task : Projection.Task}
    {error : Uri.UrlError}
    (fails : walk.base.join task.url = .error error) :
    walk.carryOut task = ⟨none, .error (.backend (.invalidAddress task.url error.message))⟩ := by
  have noAddress : walk.address task.url = .error (.invalidAddress task.url error.message) := by
    rw [address, fails]
  rw [carryOut, noAddress]

theorem address_of_join
    {walk : Walk}
    {link : String}
    {url : Uri.Url}
    (joined : walk.base.join link = .ok url) :
    walk.address link = .ok (walk.destination url) := by
  rw [address, joined]
  rfl

theorem sent_of_tooLong
    {walk : Walk}
    {task : Projection.Task}
    {address : String}
    (isAddress : walk.address task.url = .ok address)
    (tooLong : Uri.Target.longestTarget < address.utf8ByteSize) :
    (walk.carryOut task).sent = none := by
  have noTarget : Uri.Target.ofString? address = none := by
    rw [Uri.Target.ofString?, if_pos tooLong]
  have noRequest : walk.request address = .error (.invalidAddress address targetDetail) := by
    rw [request, outbound, noTarget]
  simp only [carryOut, isAddress, noRequest]

theorem sameApartFromFragment_unrouted
    {walk : Walk}
    {url other : Uri.Url}
    {fragment : String}
    (isRender : other.render = url.render ++ "#" ++ fragment)
    (unrouted : walk.table.resolve? url.render = none)
    (unroutedToo : walk.table.resolve? other.render = none)
    (fits :
      url.render.utf8ByteSize ≤ Uri.Target.longestTarget →
        other.render.utf8ByteSize ≤ Uri.Target.longestTarget) :
    SameApartFromFragment (walk.destination url) (walk.destination other) := by
  rw [destination, destination, unrouted, unroutedToo]
  constructor
  · exact isRender ▸ (Uri.upToFragment_append_fragment url.render fragment).symm
  · have shorter : url.render.utf8ByteSize ≤ other.render.utf8ByteSize := by
      rw [isRender, String.utf8ByteSize_append, String.utf8ByteSize_append]
      omega
    exact ⟨fits, shorter.trans⟩

/--
A fragment behind a link that bears one is a part of the URL only.  The same request is
sent, with the same outcome, wherever the addresses to ask agree up to their fragments;
so they do where the table knows neither URL.
-/
theorem carryOut_ignores_fragment
    {walk : Walk}
    {task : Projection.Task}
    (bears : Uri.BearsFragment walk.base task.url)
    (fragment : String) :
    (∃ error,
        walk.base.join task.url = .error error ∧
        walk.base.join (withFragment task fragment).url = .error error ∧
        (walk.carryOut task).Resembles (walk.carryOut (withFragment task fragment))) ∨
      ∃ url marked,
        walk.base.join task.url = .ok url ∧
        walk.base.join (withFragment task fragment).url = .ok marked ∧
        marked = url.withFragment (Uri.shownFragment fragment) ∧
        marked.render = url.render ++ "#" ++ Uri.shownFragment fragment ∧
        (SameApartFromFragment (walk.destination url) (walk.destination marked) →
          (walk.carryOut task).Resembles (walk.carryOut (withFragment task fragment))) ∧
        (walk.table.resolve? url.render = none → walk.table.resolve? marked.render = none →
          (url.render.utf8ByteSize ≤ Uri.Target.longestTarget →
            marked.render.utf8ByteSize ≤ Uri.Target.longestTarget) →
            (walk.carryOut task).Resembles (walk.carryOut (withFragment task fragment))) := by
  have joins := bears.addsFragment fragment
  change Uri.AddsFragment _ _ (walk.base.join (withFragment task fragment).url) at joins
  generalize isJoined : walk.base.join task.url = joined at joins
  generalize isJoinedToo : walk.base.join (withFragment task fragment).url = joinedToo at joins
  cases joins with
  | failed error =>
      refine .inl ⟨error, rfl, rfl, ?_⟩
      rw [carryOut_of_error isJoined, carryOut_of_error isJoinedToo]
      exact ⟨rfl, .failed rfl⟩
  | @read url noFragment =>
      have isRender := Uri.Url.render_withFragment noFragment (Uri.shownFragment fragment)
      have resembles
          (same : SameApartFromFragment (walk.destination url)
            (walk.destination (url.withFragment (Uri.shownFragment fragment)))) :
          (walk.carryOut task).Resembles (walk.carryOut (withFragment task fragment)) :=
        walk.carryOut_resembles rfl (address_of_join isJoined) (address_of_join isJoinedToo) same
      exact .inr ⟨url, _, rfl, rfl, rfl, isRender, resembles, fun unrouted unroutedToo fits =>
        resembles (sameApartFromFragment_unrouted isRender unrouted unroutedToo fits)⟩

end Walk

namespace PetStore

theorem toyTask_bears_fragment :
    Uri.BearsFragment queried.walk.base toyTask.url where
  noMark := by decide
  endsFirmly := by
    have noneTrailing : Uri.trailing toyTask.url = [] := by decide +kernel
    simp [noneTrailing]
  notLoneAt := by decide +kernel
  related := fun isBlank => absurd isBlank (by decide +kernel)

/-- The toy is asked for as before if its link has a fragment. -/
theorem toy_is_found_with_fragment :
    Uri.BearsFragment queried.walk.base toyTask.url ∧
      (queried.walk.carryOut toyTask).Resembles
        (queried.walk.carryOut (withFragment toyTask "colour")) := by
  refine ⟨toyTask_bears_fragment, ?_⟩
  rcases Walk.carryOut_ignores_fragment toyTask_bears_fragment "colour" with
    ⟨_, _, _, resembles⟩ | ⟨url, marked, joined, joinedToo, _, isRender, _, unrouted⟩
  · exact resembles
  · have isUrl : (queried.walk.base.join toyTask.url).toOption.map (·.render) =
        some "http://gateway/toys/2" := by
      decide +kernel
    rw [joined] at isUrl
    have isRenderUrl : url.render = "http://gateway/toys/2" := Option.some.inj isUrl
    rw [isRender, isRenderUrl] at unrouted
    exact unrouted (by decide +kernel) (by decide +kernel) fun _ => by decide +kernel

/-- A link without a fragment, for which something else is sent if it has one. -/
structure Separates (walk : Walk) (link fragment : String) : Prop where
  noMark : '#' ∉ link.toList
  sent :
    (walk.carryOut { toyTask with url := link }).sent ≠
      (walk.carryOut (withFragment { toyTask with url := link } fragment)).sent

/-- A walk with a table that knows the address of toys only. -/
def toyWalk (base : Uri.Url) (ingress : String) : Walk :=
  match Routing.Mapping.compile "toys" ingress "http://toys/2" with
  | .ok mapping => { queried.walk with base, table := ⟨[mapping], 0⟩ }
  | .error _ => queried.walk

/-- An address that links are not relative to. -/
def mailBase : Uri.Url :=
  ⟨"mailto", "", "", none, none, .rootless "pet", none, none⟩

/-- A fragment with which no address is short enough. -/
def longFragment : String :=
  String.ofList (List.replicate Uri.Target.longestTarget 'x')

theorem utf8ByteSize_replicate
    (count : Nat) :
    (String.ofList (List.replicate count 'x')).utf8ByteSize = count := by
  rw [String.utf8ByteSize_ofList]
  induction count with
  | zero => rfl
  | succ count induction =>
      rw [List.replicate_succ, String.utf8Len_cons, induction]
      rfl

theorem shownFragment_longFragment :
    Uri.shownFragment longFragment = longFragment := by
  refine Uri.shownFragment_of_kept fun character member => ?_
  rw [longFragment, String.toList_ofList] at member
  rw [List.eq_of_mem_replicate member]
  decide

theorem not_sent_with_longFragment :
    (Walk.carryOut { queried.walk with table := ⟨[], 0⟩ } (withFragment toyTask longFragment)).sent =
      none := by
  generalize isWalk : { queried.walk with table := ⟨[], 0⟩ : Walk } = walk
  have joins := toyTask_bears_fragment.addsFragment longFragment
  have sameBase : queried.walk.base = walk.base := isWalk ▸ rfl
  rw [shownFragment_longFragment, sameBase] at joins
  change Uri.AddsFragment _ _ (walk.base.join (withFragment toyTask longFragment).url) at joins
  generalize walk.base.join toyTask.url = joined at joins
  generalize isJoined : walk.base.join (withFragment toyTask longFragment).url = joinedToo at joins
  cases joins with
  | failed error => rw [Walk.carryOut_of_error isJoined]
  | @read url noFragment =>
      refine Walk.sent_of_tooLong (Walk.address_of_join isJoined) ?_
      have unrouted : ∀ address, walk.table.resolve? address = none := fun _ => isWalk ▸ rfl
      rw [Walk.destination, unrouted, Option.getD_none, Uri.Url.render_withFragment noFragment,
        String.utf8ByteSize_append, String.utf8ByteSize_append, longFragment,
        utf8ByteSize_replicate]
      have markSize : ("#" : String).utf8ByteSize = 1 := rfl
      omega

theorem longFragment_separates :
    Separates { queried.walk with table := ⟨[], 0⟩ } "/toys/2" longFragment := by
  refine ⟨by decide, ?_⟩
  have isSent :
      (Walk.carryOut { queried.walk with table := ⟨[], 0⟩ } toyTask).sent =
        some toyVisit.request := by
    decide +kernel
  exact fun same => absurd (isSent.symm.trans (same.trans not_sent_with_longFragment)) nofun

/--
With a fragment, a link that the table knows is not routed, a space at the end of a
link is kept, and an address may get too long.  An `@` for a host is in order
without a fragment only, and a fragment alone is relative to what has no hierarchy.
-/
theorem fragment_matters :
    Separates (toyWalk base "http://gateway/toys/2") "/toys/2" "colour" ∧
      Separates queried.walk "/toys/2 " "colour" ∧
      Separates { queried.walk with table := ⟨[], 0⟩ } "/toys/2" longFragment ∧
      Separates (toyWalk base "toy://.*") "toy://@" "colour" ∧
      Separates (toyWalk mailBase "mailto:.*") "" "colour" :=
  ⟨⟨by decide, by decide +kernel⟩, ⟨by decide, by decide +kernel⟩, longFragment_separates,
    ⟨by decide, by decide +kernel⟩, ⟨by decide, by decide +kernel⟩⟩

end PetStore

end QueryGateway.Gateway
