import QueryGateway.Gateway.HeaderRules
import QueryGateway.Proofs.Message.Headers

/-!
# What passes from one connection to another

A header speaks about one connection if its name says so, or if a readable
`connection` header lists its name.  All other headers pass, with all their
values in their order.
-/

namespace QueryGateway.Gateway

open Message

/-- Headers that always speak about one connection, and have no `proxy-` in front. -/
def framingHeaders : List String :=
  ["connection", "keep-alive", "te", "trailer", "transfer-encoding", "upgrade"]

/-- Does a header of the name always speak about one connection? -/
def ConcernsConnection (name : String) : Prop :=
  name ∈ framingHeaders ∨ "proxy-".toList <+: name.toList

/-- Is the name one of those that stand between commas in a readable `connection` header? -/
def IsListed (headers : Headers) (name : String) : Prop :=
  ∃ value ∈ headers.values "connection", ∃ text, readable? value = some text ∧
    ∃ token ∈ text.toList.splitOnP (· == ','), headerName? (trim token) = some name

/-- Do headers of the name pass from one connection to another? -/
def Passes (headers : Headers) (name : String) : Prop :=
  ¬ ConcernsConnection name ∧ ¬ IsListed headers name

theorem isHopByHop_iff
    (name : String) :
    isHopByHop name = true ↔ ConcernsConnection name := by
  have concerned : ∀ header ∈ connectionHeaders, header ∈ framingHeaders ∨
      "proxy-".toList <+: header.toList := by
    decide
  have announced : ∀ header ∈ framingHeaders, header ∈ connectionHeaders := by
    decide
  rw [isHopByHop, Bool.or_eq_true, List.contains_iff_mem, List.isPrefixOf_iff_prefix]
  constructor
  · rintro (member | proxy)
    · exact concerned name member
    · exact .inr proxy
  · rintro (member | proxy)
    · exact .inl (announced name member)
    · exact .inr proxy

theorem mem_connectionNames_iff
    (headers : Headers)
    (name : String) :
    name ∈ connectionNames headers ↔ IsListed headers name := by
  simp only [connectionNames, listedNames, List.mem_flatMap, List.mem_filterMap, IsListed]
  constructor
  · rintro ⟨text, ⟨value, member, readable⟩, token, between, isName⟩
    exact ⟨value, member, text, readable, token, between, isName⟩
  · rintro ⟨value, member, text, readable, token, between, isName⟩
    exact ⟨text, ⟨value, member, readable⟩, token, between, isName⟩

theorem passes_iff
    (headers : Headers)
    (name : String) :
    Passes headers name ↔
      (!isHopByHop name && !(connectionNames headers).contains name) = true := by
  simp [Passes, ← isHopByHop_iff, ← mem_connectionNames_iff]

theorem values_withoutHopByHop_of_passes
    {headers : Headers}
    {name : String}
    (passes : Passes headers name) :
    (withoutHopByHop headers).values name = headers.values name := by
  rw [withoutHopByHop, Headers.values_keep]
  exact if_pos ((passes_iff headers name).mp passes)

theorem values_withoutHopByHop_of_not_passes
    {headers : Headers}
    {name : String}
    (stays : ¬ Passes headers name) :
    (withoutHopByHop headers).values name = [] := by
  rw [withoutHopByHop, Headers.values_keep]
  exact if_neg (mt (passes_iff headers name).mpr stays)

end QueryGateway.Gateway
