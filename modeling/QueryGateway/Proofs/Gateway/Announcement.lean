import QueryGateway.Proofs.Gateway.Listing
import QueryGateway.Proofs.Gateway.PartHeaders
import QueryGateway.Proofs.Multipart.Interruption

/-!
# What a part announces

The content of a part is written by the gateway, so its headers tell the type
that the backend told, or else the type of all that the gateway writes, and they
tell neither a length nor an encoding.  What spoke about the backend's
connection is left out, and everything readable besides is taken over.

Whether there is a type is asked of the backend's headers, but only readable
values get into a part.  So a part has a type unless the backend's types are
all unreadable.
-/

namespace QueryGateway

namespace Multipart

/-- The lines of headers are told apart by their ends, whatever stands behind them. -/
theorem cutAll_headerLines
    {headers : List (String × String)}
    (isLine : ∀ header ∈ headers, IsLine header)
    (rest : Bytes) :
    cutAll lineEnd 0 (headerLines headers ++ rest) =
      headers.map line ++ cutAll lineEnd 0 rest := by
  induction headers with
  | nil => rfl
  | cons header headers induction =>
      have unmarked : Unmarked lineEnd (line header)
          (lineEnd ++ (headerLines headers ++ rest)) :=
        Unmarked.of_head_not_mem (isLine header List.mem_cons_self).return_not_mem _
      have others := induction fun other member => isLine other (List.mem_cons_of_mem header member)
      rw [headerLines_cons, List.append_assoc, List.append_assoc,
        cutAll_append_mark lineEnd_ne_nil unmarked, others]
      rfl

/-- The head of a part has a line for each header, between the boundary and an empty line. -/
theorem cutAll_opening
    {boundary : String}
    {headers : List (String × String)}
    (isBoundary : IsBoundary boundary)
    (isLine : ∀ header ∈ headers, IsLine header) :
    cutAll lineEnd 0 (opening boundary headers) =
      mark boundary :: (headers.map line ++ [[], []]) := by
  have noReturn : 0x0D ∉ mark boundary := by
    have absent := isBoundary.not_mem 0x0D (by decide) (by decide)
    simp [mark, dashes, absent]
  have unmarked : Unmarked lineEnd (mark boundary)
      (lineEnd ++ (headerLines headers ++ lineEnd)) :=
    Unmarked.of_head_not_mem noReturn _
  rw [opening_eq, cutAll_append_mark lineEnd_ne_nil unmarked, cutAll_headerLines isLine]
  rfl

end Multipart

namespace Gateway

open Message Multipart

/-- The texts under a name in the headers of a part, in their order. -/
def textsOf (headers : List (String × String)) (name : String) : List String :=
  headers.filterMap fun (other, text) => if other = name then some text else none

/-- Headers about a content that the gateway writes anew. -/
def contentHeaders : List String :=
  ["content-length", "content-encoding"]

/-- Headers of a part that tell what a backend's headers tell, and a type. -/
structure Announces (headers : Headers) (entries : List (String × String)) : Prop where
  /-- There is a type, unless the backend told types of which none is readable. -/
  noType_iff :
    textsOf entries "content-type" = [] ↔
      ¬ SpeaksOfConnection headers "content-type" ∧ headers.values "content-type" ≠ [] ∧
        ∀ value ∈ headers.values "content-type", readable? value = none
  ownType :
    ¬ SpeaksOfConnection headers "content-type" → headers.values "content-type" ≠ [] →
      textsOf entries "content-type" = (headers.values "content-type").filterMap readable?
  defaultType :
    SpeaksOfConnection headers "content-type" ∨ headers.values "content-type" = [] →
      textsOf entries "content-type" = ["application/json"]
  dropped :
    ∀ name, name ≠ "content-type" → name ∈ contentHeaders ∨ SpeaksOfConnection headers name →
      textsOf entries name = []
  kept :
    ∀ name, name ≠ "content-type" → name ∉ contentHeaders → ¬ SpeaksOfConnection headers name →
      textsOf entries name = (headers.values name).filterMap readable?
  unbroken :
    ∀ entry ∈ entries, ∀ text ∈ [entry.1, entry.2], '\r' ∉ text.toList ∧ '\n' ∉ text.toList
  /-- Between the boundary and an empty line, the head has one line for each entry. -/
  oneLineEach :
    ∀ boundary, IsBoundary boundary →
      cutAll lineEnd 0 (opening boundary entries) =
        mark boundary :: (entries.map line ++ [[], []])

theorem textsOf_readable
    (headers : Headers)
    (name : String) :
    textsOf (headers.fields.filterMap fun (other, value) => (readable? value).map (other, ·)) name =
      (headers.values name).filterMap readable? := by
  rw [textsOf, Headers.values, List.filterMap_filterMap, List.filterMap_filterMap]
  refine List.filterMap_congr fun field _ => ?_
  by_cases same : field.1 = name <;> cases read : readable? field.2 <;> simp [same, read]

theorem textsOf_partHeaders
    (headers : Headers)
    (name : String) :
    textsOf (partHeaders headers) name =
      ((ownBodyHeaders headers).values name).filterMap readable? ++
        if name = "content-type" ∧ (ownBodyHeaders headers).values name = [] then
          ["application/json"]
        else [] := by
  rw [partHeaders, textsOf, List.filterMap_append, ← textsOf, ← textsOf, textsOf_readable,
    Headers.contains_eq]
  congr 1
  by_cases isType : name = "content-type"
  · subst isType
    cases (ownBodyHeaders headers).values "content-type" <;> simp [textsOf]
  · split <;> simp [textsOf, isType, Ne.symm isType]

theorem values_ownBodyHeaders_of_dropped
    {headers : Headers}
    {name : String}
    (isDropped : name ∈ contentHeaders ∨ SpeaksOfConnection headers name) :
    (ownBodyHeaders headers).values name = [] := by
  rw [ownBodyHeaders, Headers.values_without]
  split
  · rfl
  · rename_i notContent
    refine values_withoutHopByHop_of_not_passes fun passes => ?_
    rcases isDropped with content | speaks
    · exact notContent content
    · exact passes_iff_not_speaks.mp passes speaks

theorem values_ownBodyHeaders_of_kept
    {headers : Headers}
    {name : String}
    (notContent : name ∉ contentHeaders)
    (silent : ¬ SpeaksOfConnection headers name) :
    (ownBodyHeaders headers).values name = headers.values name := by
  rw [ownBodyHeaders, Headers.values_without, ← contentHeaders, if_neg notContent]
  exact values_withoutHopByHop_of_passes (passes_iff_not_speaks.mpr silent)

theorem type_notContent :
    "content-type" ∉ contentHeaders := by
  decide

section

variable {headers : Headers}

theorem types_of_default
    (noType :
      SpeaksOfConnection headers "content-type" ∨ headers.values "content-type" = []) :
    textsOf (partHeaders headers) "content-type" = ["application/json"] := by
  have noneKept : (ownBodyHeaders headers).values "content-type" = [] := by
    by_cases speaks : SpeaksOfConnection headers "content-type"
    · exact values_ownBodyHeaders_of_dropped (.inr speaks)
    · rw [values_ownBodyHeaders_of_kept type_notContent speaks]
      exact noType.resolve_left speaks
  simp [textsOf_partHeaders, noneKept]

theorem types_of_own
    (silent : ¬ SpeaksOfConnection headers "content-type")
    (hasType : headers.values "content-type" ≠ []) :
    textsOf (partHeaders headers) "content-type" =
      (headers.values "content-type").filterMap readable? := by
  rw [textsOf_partHeaders, values_ownBodyHeaders_of_kept type_notContent silent,
    if_neg fun both => hasType both.2, List.append_nil]

theorem textsOf_partHeaders_of_dropped
    {name : String}
    (notType : name ≠ "content-type")
    (isDropped : name ∈ contentHeaders ∨ SpeaksOfConnection headers name) :
    textsOf (partHeaders headers) name = [] := by
  simp [textsOf_partHeaders, values_ownBodyHeaders_of_dropped isDropped, notType]

theorem textsOf_partHeaders_of_kept
    {name : String}
    (notType : name ≠ "content-type")
    (notContent : name ∉ contentHeaders)
    (silent : ¬ SpeaksOfConnection headers name) :
    textsOf (partHeaders headers) name = (headers.values name).filterMap readable? := by
  simp [textsOf_partHeaders, values_ownBodyHeaders_of_kept notContent silent, notType]

/--
The headers of a part announce a type, nothing about the backend's connection or
about the content as it came, and everything else that is readable.  There is no type
only if the backend told types and none of them is readable.
-/
theorem partHeaders_announce
    (named : headers.AreNamed) :
    Announces headers (partHeaders headers) := by
  have isLine : ∀ entry ∈ partHeaders headers, IsLine entry :=
    fun entry member => isLine_of_mem_partHeaders named member
  refine ⟨?_, types_of_own, types_of_default, ?_, ?_, ?_, ?_⟩
  · by_cases noType :
        SpeaksOfConnection headers "content-type" ∨ headers.values "content-type" = []
    · rw [types_of_default noType]
      refine iff_of_false (List.cons_ne_nil _ _) ?_
      rintro ⟨silent, hasType, _⟩
      exact noType.elim silent hasType
    · obtain ⟨silent, hasType⟩ := not_or.mp noType
      rw [types_of_own silent hasType, List.filterMap_eq_nil_iff]
      exact ⟨fun unreadable => ⟨silent, hasType, unreadable⟩, fun spec => spec.2.2⟩
  · exact fun name notType isDropped => textsOf_partHeaders_of_dropped notType isDropped
  · exact fun name notType notContent silent =>
      textsOf_partHeaders_of_kept notType notContent silent
  · intro entry member text isText
    obtain ⟨_, _, noReturn, noFeed⟩ := isLine entry member
    rcases List.mem_pair.mp isText with rfl | rfl
    · exact ⟨noReturn.1, noFeed.1⟩
    · exact ⟨noReturn.2, noFeed.2⟩
  · exact fun boundary isBoundary => cutAll_opening isBoundary isLine

end

/-! ## Parts of a pet -/

namespace PartTypes

/-- The backend told its type twice, and the second value is not readable. -/
def pet : Headers :=
  ⟨[("content-type", Bytes.ofString "application/hal+json"), ("etag", Bytes.ofString "1"),
    ("content-length", Bytes.ofString "999"), ("connection", Bytes.ofString "X-Hop"),
    ("content-type", [0xE9]), ("x-hop", Bytes.ofString "a"), ("etag", Bytes.ofString "2")]⟩

theorem pet_announces :
    pet.AreNamed ∧
      textsOf (partHeaders pet) "content-type" = ["application/hal+json"] ∧
      textsOf (partHeaders pet) "etag" = ["1", "2"] := by
  have named : pet.AreNamed := by decide +kernel
  have announces := partHeaders_announce named
  have silent : ∀ name, Passes pet name → ¬ SpeaksOfConnection pet name :=
    fun _ => passes_iff_not_speaks.mp
  have typeIsSilent := silent "content-type" ((passes_iff pet _).mpr (by decide +kernel))
  have etagIsSilent := silent "etag" ((passes_iff pet _).mpr (by decide +kernel))
  have types := announces.ownType typeIsSilent (by decide +kernel)
  have etags := announces.kept "etag" (by decide) (by decide) etagIsSilent
  exact ⟨named, types.trans (by decide +kernel), etags.trans (by decide +kernel)⟩

/-- The only type that the backend told is not readable. -/
def fish : Headers :=
  ⟨[("content-type", [0xC3, 0xA9])]⟩

theorem fish_has_no_type :
    fish.AreNamed ∧ ¬ SpeaksOfConnection fish "content-type" ∧
      textsOf (partHeaders fish) "content-type" = [] := by
  have passes : Passes fish "content-type" :=
    (passes_iff fish "content-type").mpr (by decide +kernel)
  exact ⟨by decide +kernel, passes_iff_not_speaks.mp passes, by decide +kernel⟩

end PartTypes

end Gateway

end QueryGateway
