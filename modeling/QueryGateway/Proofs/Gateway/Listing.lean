import QueryGateway.Proofs.Gateway.Passing

/-!
# What a connection header lists

A `connection` header is a text of tokens with commas between them.  A token
names a header if it is the header's name in any case, with blanks around it.
Everything else in such a header is passed over: empty tokens, and tokens that
are no names.

The headers that are taken out are told by these texts and not by the way in
which they are read, and taking them out once leaves nothing to take out.
-/

namespace QueryGateway.Gateway

open Message

/-! ## Tokens of a text -/

/-- A token of a text stands between commas or the ends of the text. -/
def IsToken (text token : List Char) : Prop :=
  ',' ∉ token ∧
    ∃ front back, text = front ++ (token ++ back) ∧
      (front = [] ∨ ∃ others, front = others ++ [',']) ∧
      (back = [] ∨ ∃ others, back = ',' :: others)

/-- A token that is the name of a header, in any case and with blanks around it. -/
def Names (token : List Char) (name : String) : Prop :=
  ∃ left word right, token = left ++ (word ++ right) ∧
    (∀ character ∈ left ++ right, character = ' ' ∨ character = '\t') ∧
    word ≠ [] ∧
    (∀ character ∈ word, isNameChar character = true) ∧
    name = String.ofList (word.map Char.toLower)

/-- Does a `connection` header have a token that names the header? -/
def IsMentioned (headers : Headers) (name : String) : Prop :=
  ∃ value ∈ headers.values "connection", ∃ text, readable? value = some text ∧
    ∃ token, IsToken text.toList token ∧ Names token name

theorem IsToken.behind
    {text token : List Char}
    (isToken : IsToken text token)
    (front : List Char) :
    IsToken (front ++ ',' :: text) token := by
  obtain ⟨noComma, before, back, rfl, begins, ends⟩ := isToken
  refine ⟨noComma, front ++ ',' :: before, back, by simp, .inr ?_, ends⟩
  rcases begins with rfl | ⟨others, rfl⟩
  · exact ⟨front, rfl⟩
  · exact ⟨front ++ ',' :: others, by simp⟩

/-- A text is its first token alone, or a comma follows that token. -/
theorem exists_first_token
    (text : List Char) :
    ∃ first, ',' ∉ first ∧ (text = first ∨ ∃ rest, text = first ++ ',' :: rest) := by
  induction text with
  | nil => exact ⟨[], List.not_mem_nil, .inl rfl⟩
  | cons character text induction =>
      by_cases isComma : character = ','
      · exact ⟨[], List.not_mem_nil, .inr ⟨text, by rw [isComma]; rfl⟩⟩
      · obtain ⟨first, noComma, whole⟩ := induction
        refine ⟨character :: first, by simp [Ne.symm isComma, noComma], ?_⟩
        rcases whole with rfl | ⟨rest, rfl⟩
        · exact .inl rfl
        · exact .inr ⟨rest, rfl⟩

theorem splitOnP_of_token
    {token : List Char}
    (noComma : ',' ∉ token) :
    token.splitOnP (· == ',') = [token] := by
  refine List.splitOnP_eq_singleton fun character member => beq_eq_false_iff_ne.mpr ?_
  rintro rfl
  exact noComma member

theorem splitOnP_append_comma
    (front back : List Char) :
    (front ++ ',' :: back).splitOnP (· == ',') =
      front.splitOnP (· == ',') ++ back.splitOnP (· == ',') :=
  List.splitOnP_append_cons front back rfl

theorem isToken_of_mem_splitOnP
    {text token : List Char}
    (member : token ∈ text.splitOnP (· == ',')) :
    IsToken text token := by
  -- The tokens behind the first one are those of a shorter text.
  induction count : text.length using Nat.strongRecOn generalizing text with
  | _ length induction =>
      obtain ⟨first, noComma, rfl | ⟨rest, rfl⟩⟩ := exists_first_token text
      · rw [splitOnP_of_token noComma, List.mem_singleton] at member
        subst member
        exact ⟨noComma, [], [], by simp, .inl rfl, .inl rfl⟩
      · rw [splitOnP_append_comma, splitOnP_of_token noComma, List.singleton_append,
          List.mem_cons] at member
        rcases member with rfl | later
        · exact ⟨noComma, [], ',' :: rest, rfl, .inl rfl, .inr ⟨rest, rfl⟩⟩
        · have shorter : rest.length < length := by
            rw [← count]
            simp
            omega
          exact (induction _ shorter later rfl).behind first

theorem mem_splitOnP_of_isToken
    {text token : List Char}
    (isToken : IsToken text token) :
    token ∈ text.splitOnP (· == ',') := by
  obtain ⟨noComma, front, back, rfl, begins, ends⟩ := isToken
  have first : token ∈ (token ++ back).splitOnP (· == ',') := by
    rcases ends with rfl | ⟨others, rfl⟩
    · rw [List.append_nil, splitOnP_of_token noComma]
      exact List.mem_singleton_self token
    · rw [splitOnP_append_comma, splitOnP_of_token noComma]
      exact List.mem_cons_self
  rcases begins with rfl | ⟨others, rfl⟩
  · exact first
  · rw [List.append_assoc, List.singleton_append, splitOnP_append_comma]
    exact List.mem_append_right _ first

theorem mem_splitOnP_iff
    {text token : List Char} :
    token ∈ text.splitOnP (· == ',') ↔ IsToken text token :=
  ⟨isToken_of_mem_splitOnP, mem_splitOnP_of_isToken⟩

/-! ## Names in tokens -/

theorem isHeaderBlank_iff
    {character : Char} :
    isHeaderBlank character = true ↔ character = ' ' ∨ character = '\t' := by
  simp [isHeaderBlank]

theorem exists_trim
    (text : List Char) :
    ∃ left right, text = left ++ (trim text ++ right) ∧
      ∀ character ∈ left ++ right, character = ' ' ∨ character = '\t' := by
  have blank : ∀ {part : List Char} {character : Char},
      character ∈ part.takeWhile isHeaderBlank → character = ' ' ∨ character = '\t' :=
    fun member => isHeaderBlank_iff.mp (List.all_eq_true.mp List.all_takeWhile _ member)
  refine ⟨text.takeWhile isHeaderBlank,
    ((text.dropWhile isHeaderBlank).reverse.takeWhile isHeaderBlank).reverse, ?_, ?_⟩
  · rw [trim, ← List.reverse_append, List.takeWhile_append_dropWhile, List.reverse_reverse,
      List.takeWhile_append_dropWhile]
  · intro character member
    rcases List.mem_append.mp member with inLeft | inRight
    · exact blank inLeft
    · exact blank (List.mem_reverse.mp inRight)

theorem dropWhile_solid
    {word : List Char}
    (solid : ∀ character ∈ word, isHeaderBlank character = false)
    (nonempty : word ≠ [])
    (rest : List Char) :
    (word ++ rest).dropWhile isHeaderBlank = word ++ rest := by
  obtain ⟨first, others, rfl⟩ := List.exists_cons_of_ne_nil nonempty
  exact List.dropWhile_cons_of_neg (by simp [solid first List.mem_cons_self])

theorem trim_of_blanks
    {left word right : List Char}
    (blanks : ∀ character ∈ left ++ right, isHeaderBlank character = true)
    (solid : ∀ character ∈ word, isHeaderBlank character = false)
    (nonempty : word ≠ []) :
    trim (left ++ (word ++ right)) = word := by
  have rightBlank : ∀ character ∈ right.reverse, isHeaderBlank character = true :=
    fun character member => blanks character (List.mem_append_right _ (List.mem_reverse.mp member))
  have solidBack : ∀ character ∈ word.reverse, isHeaderBlank character = false :=
    fun character member => solid character (List.mem_reverse.mp member)
  have kept := dropWhile_solid solidBack (List.reverse_ne_nil_iff.mpr nonempty) []
  rw [List.append_nil] at kept
  rw [trim, List.dropWhile_append_of_pos fun character member =>
      blanks character (List.mem_append_left _ member), dropWhile_solid solid nonempty,
    List.reverse_append, List.dropWhile_append_of_pos rightBlank, kept, List.reverse_reverse]

theorem not_isHeaderBlank_of_isNameChar
    {character : Char}
    (isName : isNameChar character = true) :
    isHeaderBlank character = false := by
  rw [← Bool.not_eq_true, isHeaderBlank_iff]
  rintro (rfl | rfl) <;> revert isName <;> decide

theorem headerName?_eq_some_iff
    {text : List Char}
    {name : String} :
    headerName? text = some name ↔
      text ≠ [] ∧ (∀ character ∈ text, isNameChar character = true) ∧
        name = String.ofList (text.map Char.toLower) := by
  rw [headerName?]
  split
  · rename_i faulty
    refine iff_of_false (by simp) fun ⟨nonempty, allNames, _⟩ => ?_
    rw [List.all_eq_true.mpr allNames, Bool.not_true, Bool.or_false, List.isEmpty_iff] at faulty
    exact nonempty faulty
  · rename_i wellFormed
    simp only [Bool.or_eq_true, not_or, List.isEmpty_iff, Bool.not_eq_true',
      Bool.not_eq_false, List.all_eq_true] at wellFormed
    rw [Option.some.injEq]
    exact ⟨fun same => ⟨wellFormed.1, wellFormed.2, same.symm⟩, fun spec => spec.2.2.symm⟩

theorem headerName?_trim_iff
    {token : List Char}
    {name : String} :
    headerName? (trim token) = some name ↔ Names token name := by
  rw [headerName?_eq_some_iff]
  constructor
  · rintro ⟨nonempty, allNames, rfl⟩
    obtain ⟨left, right, split, blanks⟩ := exists_trim token
    exact ⟨left, trim token, right, split, blanks, nonempty, allNames, rfl⟩
  · rintro ⟨left, word, right, rfl, blanks, nonempty, allNames, rfl⟩
    have trimmed := trim_of_blanks
      (fun character member => isHeaderBlank_iff.mpr (blanks character member))
      (fun character member => not_isHeaderBlank_of_isNameChar (allNames character member))
      nonempty
    rw [trimmed]
    exact ⟨nonempty, allNames, rfl⟩

theorem isListed_iff
    {headers : Headers}
    {name : String} :
    IsListed headers name ↔ IsMentioned headers name := by
  simp only [IsListed, IsMentioned, mem_splitOnP_iff, headerName?_trim_iff]

/-! ## What is taken out -/

/-- Does a header of the name speak about the connection by which the headers came? -/
def SpeaksOfConnection (headers : Headers) (name : String) : Prop :=
  ConcernsConnection name ∨ IsMentioned headers name

theorem passes_iff_not_speaks
    {headers : Headers}
    {name : String} :
    Passes headers name ↔ ¬ SpeaksOfConnection headers name := by
  rw [Passes, isListed_iff, SpeaksOfConnection, not_or]

theorem concernsConnection_connection :
    ConcernsConnection "connection" :=
  .inl (by decide)

/-- A `connection` header is taken out whatever it lists. -/
theorem withoutHopByHop_append_connection
    (headers : Headers)
    (value : Bytes) :
    withoutHopByHop (headers.append "connection" value) =
      headers.keep fun name =>
        !isHopByHop name &&
          !(connectionNames (headers.append "connection" value)).contains name := by
  have concerns := (isHopByHop_iff "connection").mpr concernsConnection_connection
  simp [withoutHopByHop, Headers.keep, Headers.append, concerns]

theorem isMentioned_append_iff
    {headers : Headers}
    {value : Bytes}
    {text : List Char}
    {name : String}
    (readable : readable? value = some (String.ofList text)) :
    IsMentioned (headers.append "connection" value) name ↔
      IsMentioned headers name ∨ ∃ token ∈ text.splitOnP (· == ','), Names token name := by
  simp [IsMentioned, mem_splitOnP_iff, or_and_right, exists_or, readable]

/-- A token that is empty or no name makes no difference among others. -/
theorem withoutHopByHop_ignores
    {headers : Headers}
    {front junk back : List Char}
    {value other : Bytes}
    (noComma : ',' ∉ junk)
    (noName : ∀ name, ¬ Names junk name)
    (readable : readable? value = some (String.ofList (front ++ ',' :: (junk ++ ',' :: back))))
    (readableOther : readable? other = some (String.ofList (front ++ ',' :: back))) :
    withoutHopByHop (headers.append "connection" value) =
      withoutHopByHop (headers.append "connection" other) := by
  have sameNames : ∀ name,
      (connectionNames (headers.append "connection" value)).contains name =
        (connectionNames (headers.append "connection" other)).contains name := by
    intro name
    rw [Bool.eq_iff_iff]
    simp only [List.contains_iff_mem, mem_connectionNames_iff, isListed_iff,
      isMentioned_append_iff readable, isMentioned_append_iff readableOther,
      splitOnP_append_comma, splitOnP_of_token noComma, List.mem_append, List.mem_singleton,
      or_and_right, exists_or, exists_eq_left, noName name, false_or]
  rw [withoutHopByHop_append_connection, withoutHopByHop_append_connection]
  simp only [sameNames]

/-- What is left does not speak about the connection any more. -/
theorem withoutHopByHop_idempotent
    (headers : Headers) :
    withoutHopByHop (withoutHopByHop headers) = withoutHopByHop headers := by
  have noConnection : (withoutHopByHop headers).values "connection" = [] :=
    values_withoutHopByHop_of_not_passes fun passes => passes.1 concernsConnection_connection
  have noneListed : connectionNames (withoutHopByHop headers) = [] := by
    rw [connectionNames, noConnection]
    rfl
  have allPass : ∀ field ∈ (withoutHopByHop headers).fields, isHopByHop field.1 = false := by
    intro field member
    have passes := (List.mem_filter.mp member).2
    simp only [Bool.and_eq_true, Bool.not_eq_true'] at passes
    exact passes.1
  rw [withoutHopByHop, noneListed, Headers.keep]
  congr 1
  exact List.filter_eq_self.mpr fun field member => by simp [allPass field member]

/--
The headers that speak about the connection are taken out with all their
values, and all others keep all of theirs in their order.  What is no name in
a `connection` header does not count, and nothing is left to be taken out.
-/
theorem withoutHopByHop_is_exact
    (headers : Headers) :
    (∀ name, SpeaksOfConnection headers name → (withoutHopByHop headers).values name = []) ∧
      (∀ name, ¬ SpeaksOfConnection headers name →
        (withoutHopByHop headers).values name = headers.values name) ∧
      (∀ front junk back value other, ',' ∉ junk → (∀ name, ¬ Names junk name) →
        readable? value = some (String.ofList (front ++ ',' :: (junk ++ ',' :: back))) →
        readable? other = some (String.ofList (front ++ ',' :: back)) →
        withoutHopByHop (headers.append "connection" value) =
          withoutHopByHop (headers.append "connection" other)) ∧
      withoutHopByHop (withoutHopByHop headers) = withoutHopByHop headers := by
  refine ⟨fun name speaks => ?_, fun name silent => ?_, ?_, withoutHopByHop_idempotent headers⟩
  · exact values_withoutHopByHop_of_not_passes fun passes =>
      passes_iff_not_speaks.mp passes speaks
  · exact values_withoutHopByHop_of_passes (passes_iff_not_speaks.mpr silent)
  · intro front junk back value other noComma noName readable readableOther
    exact withoutHopByHop_ignores noComma noName readable readableOther

example :
    withoutHopByHop (.ofFields
      [("Connection", Bytes.ofString "close ,, X-Private\t"), ("x-private", Bytes.ofString "1"),
        ("Accept", Bytes.ofString "text/html"), ("Connection", Bytes.ofString "no name, TE"),
        ("accept", Bytes.ofString "text/plain"), ("Proxy-Any", Bytes.ofString "2")]) =
      ⟨[("accept", Bytes.ofString "text/html"), ("accept", Bytes.ofString "text/plain")]⟩ := by
  decide +kernel

end QueryGateway.Gateway
