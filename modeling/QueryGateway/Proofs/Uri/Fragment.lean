import QueryGateway.Proofs.Uri.Target
import QueryGateway.Uri.Url

/-!
# References with a fragment

What follows the first `#` of a reference is its fragment.  It does not matter
for the other parts of the URL: the functions that read a text after its scheme,
after the slashes in front of a host, or relative to another URL, all yield the
same for a text without `#` and for the same text with a fragment, apart from
the fragment.  `AddsFragment` says so of two results, and is shown for one
reader after another, from the paths up to whole references.

Three things set a reference apart from the same reference with a fragment.
Spaces at its end are dropped, but would be kept in front of a `#`.  Nothing at
all is relative to a hierarchy only, but a fragment alone is relative to any
URL.  And under schemes whose references are not put right, an `@` alone in the
place of a host is dropped at the end of the text, but an error elsewhere.
-/

namespace QueryGateway.Uri

/-! ## Paths, queries and fragments -/

/-- The URL with another fragment. -/
def Url.withFragment (url : Url) (fragment : String) : Url :=
  { url with fragment := some fragment }

/-- A fragment as it stands in a URL. -/
def escapedFragment (text : List Char) : String :=
  String.ofList (escape isFragmentChar text)

/-- Two texts are read alike, and only the second has a fragment. -/
inductive AddsFragment (fragment : String) :
    Except UrlError Url → Except UrlError Url → Prop where
  | failed
      (error : UrlError) :
      AddsFragment fragment (.error error) (.error error)
  | read
      {url : Url}
      (noFragment : url.fragment = none) :
      AddsFragment fragment (.ok url) (.ok (url.withFragment fragment))

section

variable
    {text : List Char}
    (noMark : '#' ∉ text)
    (rest : List Char)

include noMark

theorem tail_append_fragment
    (scheme : String) :
    tail scheme text = ((tail scheme text).1, none) ∧
      tail scheme (text ++ '#' :: rest) =
        ((tail scheme text).1, some (escapedFragment rest)) := by
  have dropped := dropWhile_append_mark (!endsPath ·) rfl text rest
  have noMarkBehind : '#' ∉ text.dropWhile (!endsPath ·) :=
    fun member => noMark ((List.dropWhile_sublist _).subset member)
  have head := List.head?_dropWhile_not (!endsPath ·) text
  rw [tail, tail, dropped]
  cases behind : text.dropWhile (!endsPath ·) with
  | nil => exact ⟨rfl, by simp [escapedFragment]⟩
  | cons first others =>
      rw [behind] at noMarkBehind head
      obtain ⟨notMark, noMarkAfter⟩ := not_or.mp (mt List.mem_cons.mpr noMarkBehind)
      have isQuestion : first = '?' := by
        simpa [endsPath, Ne.symm notMark] using head
      subst isQuestion
      have noneAfter : others.dropWhile (· != '#') = [] :=
        List.dropWhile_eq_nil_iff.mpr fun character member =>
          bne_iff_ne.mpr (ne_of_mem_of_not_mem member noMarkAfter)
      have marked := dropWhile_append_mark (· != '#') rfl others rest
      have taken := takeWhile_append_mark (· != '#') rfl others rest
      rw [noneAfter] at marked
      simp [noneAfter, marked, taken, escapedFragment]

theorem addsFragment_withTail
    (url : Url) :
    AddsFragment (escapedFragment rest) (.ok (url.withTail text))
      (.ok (url.withTail (text ++ '#' :: rest))) := by
  obtain ⟨unmarked, marked⟩ := tail_append_fragment noMark rest url.scheme
  rw [Url.withTail, Url.withTail, unmarked, marked]
  exact .read rfl

omit noMark in
theorem pathFrom_append_fragment
    (scheme : String)
    (segments : List String) :
    pathFrom scheme segments (text ++ '#' :: rest) = pathFrom scheme segments text := by
  rw [pathFrom, pathFrom, takeWhile_append_mark _ rfl]

omit noMark in
theorem rootedPath_append_fragment
    (scheme : String) :
    rootedPath scheme (text ++ '#' :: rest) = rootedPath scheme text := by
  cases text with
  | nil =>
      have noSlash : isSlash (isCommonScheme scheme) '#' = false := by
        simp [isSlash]
      have fromNothing : pathFrom scheme [] ([] ++ '#' :: rest) = pathFrom scheme [] [] :=
        pathFrom_append_fragment rest scheme []
      rw [List.nil_append, rootedPath, rootedPath, noSlash, if_neg Bool.false_ne_true]
      exact fromNothing
  | cons first others =>
      rw [List.cons_append, rootedPath, rootedPath]
      split
      · exact pathFrom_append_fragment rest scheme []
      · rw [← List.cons_append]
        exact pathFrom_append_fragment rest scheme []

theorem addsFragment_withRooted
    (url : Url) :
    AddsFragment (escapedFragment rest)
      (.ok (Url.withTail { url with path := rootedPath url.scheme text } text))
      (.ok (Url.withTail { url with path := rootedPath url.scheme (text ++ '#' :: rest) }
        (text ++ '#' :: rest))) := by
  rw [rootedPath_append_fragment]
  exact addsFragment_withTail noMark rest _

theorem addsFragment_withFrom
    (url : Url)
    (segments : List String) :
    AddsFragment (escapedFragment rest)
      (.ok (Url.withTail { url with path := pathFrom url.scheme segments text } text))
      (.ok (Url.withTail { url with path := pathFrom url.scheme segments (text ++ '#' :: rest) }
        (text ++ '#' :: rest))) := by
  rw [pathFrom_append_fragment]
  exact addsFragment_withTail noMark rest _

end

/-! ## Authorities -/

/-- What stands between the slashes and the path of a URL. -/
structure Place where
  username : String
  password : String
  host : Host
  port : Option Nat
  /-- What was taken for a part of the authority, but belongs to the path. -/
  surplus : List Char

/-- Read an authority. -/
def readPlace (scheme : String) (authority : List Char) : Except UrlError Place :=
  let reversed := authority.reverse
  let own := credentials ((reversed.dropWhile (· != '@')).drop 1).reverse
  let parts := splitHost false (reversed.takeWhile (· != '@')).reverse
  match hostOf scheme parts.1 with
  | .error error => .error error
  | .ok host =>
      if parts.1.isEmpty && !(parts.2.isEmpty && own.1.isEmpty && own.2.isEmpty) then
        .error .emptyHost
      else if parts.2.isEmpty then
        .ok ⟨own.1, own.2, host, none, []⟩
      else
        (port scheme (parts.2.drop 1)).map fun read => ⟨own.1, own.2, host, read.1, read.2⟩

/-- The path at the front of a text behind an authority. -/
def pathBehind (scheme : String) (text : List Char) : Path :=
  if !isCommonScheme scheme && (text.isEmpty || text.head?.any endsPath) then .rooted []
  else rootedPath scheme text

/-- The URL at a place that is followed by a text. -/
def Place.url (scheme : String) (place : Place) (rest : List Char) : Url :=
  let rest := place.surplus ++ rest
  Url.withTail
    ⟨scheme, place.username, place.password, some place.host, place.port, pathBehind scheme rest,
      none, none⟩
    rest

/-- Does the character end an authority? -/
def endsPlace (scheme : String) (character : Char) : Bool :=
  endsPath character || isSlash (isCommonScheme scheme) character

theorem afterSlashes_eq
    (scheme : String)
    (text : List Char) :
    afterSlashes scheme text =
      if text.takeWhile (!endsPlace scheme ·) == ['@'] &&
          !(text.dropWhile (!endsPlace scheme ·)).isEmpty then
        .error .emptyHost
      else
        (readPlace scheme (text.takeWhile (!endsPlace scheme ·))).map
          (·.url scheme (text.dropWhile (!endsPlace scheme ·))) := by
  by_cases isLoneAt : (text.takeWhile (!endsPlace scheme ·) == ['@'] &&
      !(text.dropWhile (!endsPlace scheme ·)).isEmpty) = true
  · rw [if_pos isLoneAt]
    simp only [endsPlace] at isLoneAt
    simp only [afterSlashes, isLoneAt]
    rfl
  · rw [if_neg isLoneAt]
    simp only [endsPlace] at isLoneAt
    simp only [afterSlashes, endsPlace, readPlace, isLoneAt]
    cases hostOf scheme _ with
    | error error => rfl
    | ok host =>
        simp only [bind, Except.bind, pure, Except.pure, Bool.false_eq_true, if_false]
        -- The same two questions are asked on both sides, with different proofs of decidability,
        -- so that one side is split and the other one simplified.
        split
        · rename_i noHost
          simp only [noHost, if_true]
          rfl
        · rename_i hasHost
          simp only [hasHost]
          split
          · rename_i noPort
            simp only [noPort]
            rfl
          · rename_i hasPort
            simp only [hasPort]
            cases port scheme _ <;> rfl

theorem splitHost_snd_suffix
    (text : List Char) :
    ∀ bracketed, (splitHost bracketed text).2 <:+ text := by
  induction text with
  | nil => exact fun _ => List.suffix_rfl
  | cons character rest induction =>
      intro bracketed
      rw [splitHost]
      split
      · exact List.suffix_rfl
      · exact (induction _).trans (List.suffix_cons _ _)

theorem port_snd_suffix
    {scheme : String}
    {text : List Char}
    {read : Option Nat × List Char}
    (isPort : port scheme text = .ok read) :
    read.2 <:+ text := by
  rw [port] at isPort
  split at isPort
  · cases isPort
  · split at isPort <;>
    · cases isPort
      exact List.dropWhile_suffix _

theorem surplus_subset_of_readPlace
    {scheme : String}
    {authority : List Char}
    {place : Place}
    (isPlace : readPlace scheme authority = .ok place) :
    place.surplus ⊆ authority := by
  have behindHost :
      (splitHost false (authority.reverse.takeWhile (· != '@')).reverse).2 ⊆ authority :=
    fun character member =>
      List.mem_reverse.mp ((List.takeWhile_sublist _).subset
        (List.mem_reverse.mp ((splitHost_snd_suffix _ _).subset member)))
  simp only [readPlace] at isPlace
  split at isPlace
  · cases isPlace
  · split at isPlace
    · cases isPlace
    · split at isPlace
      · cases isPlace
        exact List.nil_subset _
      · cases isPort : port scheme _ with
        | error error =>
            rw [isPort] at isPlace
            cases isPlace
        | ok read =>
            rw [isPort] at isPlace
            cases isPlace
            exact fun character member =>
              behindHost (List.mem_of_mem_drop ((port_snd_suffix isPort).subset member))

theorem pathBehind_append_fragment
    (scheme : String)
    (text rest : List Char) :
    pathBehind scheme (text ++ '#' :: rest) = pathBehind scheme text := by
  rw [pathBehind, pathBehind, rootedPath_append_fragment]
  cases text with
  | nil => rfl
  | cons first others => rfl

theorem addsFragment_url
    {scheme : String}
    {place : Place}
    {text : List Char}
    (noMark : '#' ∉ place.surplus ++ text)
    (rest : List Char) :
    AddsFragment (escapedFragment rest) (.ok (place.url scheme text))
      (.ok (place.url scheme (text ++ '#' :: rest))) := by
  simp only [Place.url, ← List.append_assoc, pathBehind_append_fragment]
  exact addsFragment_withTail noMark rest _

/-- Is nothing but an `@` behind the slashes, and a missing host not put right? -/
def isLoneAt (scheme : String) (text : List Char) : Bool :=
  text == ['@'] && !isCommonScheme scheme

theorem readPlace_loneAt
    {scheme : String}
    (isCommon : isCommonScheme scheme = true) :
    readPlace scheme ['@'] = .error .emptyHost := by
  have noHost : hostOf scheme [] = .error .emptyHost := by
    rw [hostOf, if_pos isCommon]
    rfl
  simp [readPlace, splitHost, noHost]

theorem addsFragment_afterSlashes
    {scheme : String}
    {text : List Char}
    (noMark : '#' ∉ text)
    (notLoneAt : isLoneAt scheme text = false)
    (rest : List Char) :
    AddsFragment (escapedFragment rest) (afterSlashes scheme text)
      (afterSlashes scheme (text ++ '#' :: rest)) := by
  have stops : (!endsPlace scheme '#') = false := by
    simp [endsPlace, endsPath]
  have split := List.takeWhile_append_dropWhile (p := (!endsPlace scheme ·)) (l := text)
  rw [afterSlashes_eq, afterSlashes_eq, dropWhile_append_mark (!endsPlace scheme ·) stops,
    takeWhile_append_mark (!endsPlace scheme ·) stops]
  generalize text.takeWhile (!endsPlace scheme ·) = authority at split ⊢
  generalize text.dropWhile (!endsPlace scheme ·) = behind at split ⊢
  subst split
  obtain ⟨noMarkBefore, noMarkBehind⟩ := not_or.mp (mt List.mem_append.mpr noMark)
  cases isAt : authority == ['@'] with
  | true =>
      cases behind with
      | nil =>
          have isCommon : isCommonScheme scheme = true := by
            simpa [isLoneAt, isAt] using notLoneAt
          rw [eq_of_beq isAt, readPlace_loneAt isCommon]
          exact .failed _
      | cons first others => exact .failed _
  | false =>
      cases isPlace : readPlace scheme authority with
      | error error => exact .failed error
      | ok place =>
          refine addsFragment_url ?_ rest
          rw [List.mem_append, not_or]
          exact ⟨fun member => noMarkBefore (surplus_subset_of_readPlace isPlace member),
            noMarkBehind⟩

/-! ## References -/

/-- The URL of a host, without anything else. -/
def Url.ofHost (scheme : String) (host : Host) : Url :=
  ⟨scheme, "", "", some host, none, .rooted [], none, none⟩

theorem addsFragment_ofFile
    {scheme : String}
    {text : List Char}
    (noMark : '#' ∉ text)
    (rest : List Char) :
    AddsFragment (escapedFragment rest) (ofFile scheme text)
      (ofFile scheme (text ++ '#' :: rest)) := by
  match text with
  | [] =>
      cases rest with
      | nil => exact addsFragment_withRooted noMark [] _
      | cons first others => exact addsFragment_withRooted noMark (first :: others) _
  | [first] =>
      have oneSlash : (isSlash true first && isSlash true '#') = false := by
        simp [isSlash]
      simp only [ofFile, List.cons_append, List.nil_append, oneSlash]
      exact addsFragment_withRooted noMark rest (.ofHost scheme (.name ""))
  | first :: second :: others =>
      have noMarkAfter : '#' ∉ others :=
        fun member => noMark (.tail _ (.tail _ member))
      simp only [ofFile, List.cons_append]
      rw [takeWhile_append_mark _ (by rfl), dropWhile_append_mark _ (by rfl)]
      cases isSlash true first && isSlash true second with
      | false => exact addsFragment_withRooted noMark rest (.ofHost scheme (.name ""))
      | true =>
          generalize isHost : others.takeWhile _ = hostText
          cases hostText.isEmpty || isDrive [':', '|'] hostText with
          | true => exact addsFragment_withRooted noMarkAfter rest (.ofHost scheme (.name ""))
          | false =>
              cases Host.ofDomain hostText with
              | error error => exact .failed error
              | ok host =>
                  refine addsFragment_withRooted (fun member => noMarkAfter ?_) rest
                    (.ofHost scheme (if host = .name "localhost" then .name "" else host))
                  exact (List.dropWhile_sublist _).subset member

/-- What follows the two slashes at the front of a relative reference. -/
def beyondSlashes? (text : List Char) : Option (List Char) :=
  match text with
  | first :: second :: rest =>
      if isSlash true first && isSlash true second then
        some (if first == '/' && second == '/' then rest else rest.dropWhile (isSlash true))
      else
        none
  | _ => none

theorem beyondSlashes?_append_fragment
    (text rest : List Char) :
    beyondSlashes? (text ++ '#' :: rest) = (beyondSlashes? text).map (· ++ '#' :: rest) := by
  match text with
  | [] =>
      cases rest with
      | nil => rfl
      | cons first others => rfl
  | [first] => simp [beyondSlashes?, isSlash]
  | first :: second :: others =>
      simp only [beyondSlashes?, List.cons_append]
      rw [dropWhile_append_mark _ (by rfl)]
      split
      · split <;> rfl
      · rfl

theorem beyondSlashes?_suffix
    {text beyond : List Char}
    (isBeyond : beyondSlashes? text = some beyond) :
    beyond <:+ text := by
  match text with
  | [] => cases isBeyond
  | [_] => cases isBeyond
  | first :: second :: rest =>
      have behindTwo : rest <:+ first :: second :: rest := ⟨[first, second], rfl⟩
      rw [beyondSlashes?] at isBeyond
      split at isBeyond
      · cases isBeyond
        split
        · exact behindTwo
        · exact (List.dropWhile_suffix _).trans behindTwo
      · cases isBeyond

/-- The segments that lead to the directory of a URL. -/
def Url.directory (url : Url) : List String :=
  match url.path with
  | .rooted segments => segments.dropLast
  | .rootless _ => []

theorem relative_cons
    {base : Url}
    {first : Char}
    (notMark : first ≠ '#')
    (notQuestion : first ≠ '?')
    (rest : List Char) :
    relative base (first :: rest) =
      match beyondSlashes? (first :: rest) with
      | some beyond => afterSlashes base.scheme beyond
      | none =>
          if isSlash true first then
            .ok (Url.withTail { base with path := pathFrom base.scheme [] rest } rest)
          else
            .ok (Url.withTail
              { base with path := pathFrom base.scheme base.directory (first :: rest) }
              (first :: rest)) := by
  rw [relative]
  case x => exact notMark
  case x_1 => exact notQuestion
  cases rest with
  | nil => cases isSlash true first <;> rfl
  | cons second others =>
      simp only [beyondSlashes?, List.head?_cons, Option.any_some, List.drop_one, List.tail_cons]
      cases isFirst : isSlash true first with
      | false => rfl
      | true =>
          cases isSecond : isSlash true second with
          | false => rfl
          | true => simp [isSecond]

theorem addsFragment_relative
    {base : Url}
    {text : List Char}
    (noMark : '#' ∉ text)
    (notLoneAt : ∀ beyond, beyondSlashes? text = some beyond → isLoneAt base.scheme beyond = false)
    (rest : List Char) :
    AddsFragment (escapedFragment rest) (relative base text)
      (relative base (text ++ '#' :: rest)) := by
  match text with
  | [] => exact .read rfl
  | first :: others =>
      have notMark : first ≠ '#' :=
        fun isMark => noMark (isMark ▸ .head _)
      have noMarkAfter : '#' ∉ others :=
        fun member => noMark (.tail _ member)
      by_cases isQuestion : first = '?'
      · subst isQuestion
        exact addsFragment_withTail noMark rest _
      · have beyondMarked := beyondSlashes?_append_fragment (first :: others) rest
        rw [List.cons_append] at beyondMarked ⊢
        rw [relative_cons notMark isQuestion, relative_cons notMark isQuestion, beyondMarked]
        cases isBeyond : beyondSlashes? (first :: others) with
        | some beyond =>
            refine addsFragment_afterSlashes (fun member => noMark ?_) (notLoneAt _ isBeyond) rest
            exact (beyondSlashes?_suffix isBeyond).subset member
        | none =>
            cases isSlash true first with
            | true => exact addsFragment_withFrom noMarkAfter rest base []
            | false => exact addsFragment_withFrom noMark rest base base.directory

theorem splitScheme?_append_fragment
    (text rest : List Char) :
    splitScheme? (text ++ '#' :: rest) =
      (splitScheme? text).map fun (scheme, behind) => (scheme, behind ++ '#' :: rest) := by
  rw [splitScheme?, splitScheme?, dropWhile_append_mark _ (by rfl),
    takeWhile_append_mark _ (by rfl)]
  cases text with
  | nil => rfl
  | cons first others =>
      cases (first :: others).dropWhile isSchemeRest with
      | nil => rfl
      | cons stop behind =>
          by_cases isColon : stop = ':'
          · subst isColon
            cases isLetter : first.isAlpha with
            | true => simp [isLetter]
            | false => simp [isLetter]
          · simp [isColon]

theorem splitScheme?_suffix
    {text behind : List Char}
    {scheme : String}
    (isSplit : splitScheme? text = some (scheme, behind)) :
    behind <:+ text := by
  rw [splitScheme?] at isSplit
  split at isSplit
  · rename_i dropped
    split at isSplit
    · cases isSplit
      exact (dropped ▸ List.suffix_cons _ _ : behind <:+ text.dropWhile isSchemeRest).trans
        (List.dropWhile_suffix _)
    · cases isSplit
  · cases isSplit

/--
Is nothing but an `@` behind two slashes, under a scheme whose references are not put
right?  There the `@` is dropped, unless something follows it.
-/
def endsInLoneAt (base : Url) (text : List Char) : Bool :=
  match splitScheme? text with
  | some (scheme, '/' :: '/' :: rest) => isLoneAt scheme rest
  | some _ => false
  | none => (beyondSlashes? text).any (isLoneAt base.scheme)

theorem afterScheme_common
    {scheme : String}
    (notFile : isFileScheme scheme = false)
    (isCommon : isCommonScheme scheme = true)
    (base : Url)
    (text : List Char) :
    afterScheme (some base) scheme text =
      if (text.takeWhile (isSlash true)).length < 2 && base.scheme == scheme then
        relative base text
      else
        afterSlashes scheme (text.drop (text.takeWhile (isSlash true)).length) := by
  rw [afterScheme, notFile, isCommon]
  rfl

section

variable
    {scheme : String}
    (isUncommon : isCommonScheme scheme = false)
    (base : Option Url)

include isUncommon

theorem isFileScheme_of_uncommon :
    isFileScheme scheme = false :=
  (Bool.or_eq_false_iff.mp isUncommon).1

theorem afterScheme_slashes
    (text : List Char) :
    afterScheme base scheme ('/' :: '/' :: text) = afterSlashes scheme text := by
  rw [afterScheme, isFileScheme_of_uncommon isUncommon, isUncommon]
  rfl

theorem afterScheme_slash
    {text : List Char}
    (oneSlash : text.head? ≠ some '/') :
    afterScheme base scheme ('/' :: text) =
      .ok (Url.withTail ⟨scheme, "", "", none, none, pathFrom scheme [] text, none, none⟩ text) := by
  rw [afterScheme, isFileScheme_of_uncommon isUncommon, isUncommon]
  cases text with
  | nil => rfl
  | cons first others =>
      have notSlash : first ≠ '/' :=
        fun isSlash => oneSlash (congrArg some isSlash)
      simp [notSlash]

theorem afterScheme_rootless
    {text : List Char}
    (noSlash : text.head? ≠ some '/') :
    afterScheme base scheme text =
      .ok (Url.withTail
        ⟨scheme, "", "", none, none,
          .rootless (String.ofList (escape Host.isPrintable (text.takeWhile (!endsPath ·)))),
          none, none⟩
        text) := by
  rw [afterScheme, isFileScheme_of_uncommon isUncommon, isUncommon]
  cases text with
  | nil => rfl
  | cons first others =>
      have notSlash : first ≠ '/' :=
        fun isSlash => noSlash (congrArg some isSlash)
      simp [notSlash]

end

theorem head?_append_mark
    {text : List Char}
    (noSlash : text.head? ≠ some '/')
    (rest : List Char) :
    (text ++ '#' :: rest).head? ≠ some '/' := by
  cases text with
  | nil => simp
  | cons first others => exact noSlash

theorem addsFragment_uncommon
    {scheme : String}
    {text : List Char}
    (isUncommon : isCommonScheme scheme = false)
    (base : Option Url)
    (noMark : '#' ∉ text)
    (notLoneAt : ∀ behind, text = '/' :: '/' :: behind → isLoneAt scheme behind = false)
    (rest : List Char) :
    AddsFragment (escapedFragment rest) (afterScheme base scheme text)
      (afterScheme base scheme (text ++ '#' :: rest)) := by
  by_cases noSlash : text.head? = some '/'
  · obtain ⟨behind, rfl⟩ := List.head?_eq_some_iff.mp noSlash
    have noMarkBehind : '#' ∉ behind := fun member => noMark (.tail _ member)
    by_cases oneSlash : behind.head? = some '/'
    · obtain ⟨beyond, rfl⟩ := List.head?_eq_some_iff.mp oneSlash
      have noMarkBeyond : '#' ∉ beyond := fun member => noMarkBehind (.tail _ member)
      rw [List.cons_append, List.cons_append, afterScheme_slashes isUncommon,
        afterScheme_slashes isUncommon]
      exact addsFragment_afterSlashes noMarkBeyond (notLoneAt _ rfl) rest
    · rw [List.cons_append, afterScheme_slash isUncommon base oneSlash,
        afterScheme_slash isUncommon base (head?_append_mark oneSlash rest),
        pathFrom_append_fragment]
      exact addsFragment_withTail noMarkBehind rest _
  · rw [afterScheme_rootless isUncommon base noSlash,
      afterScheme_rootless isUncommon base (head?_append_mark noSlash rest),
      takeWhile_append_mark _ (by rfl)]
    exact addsFragment_withTail noMark rest _

theorem addsFragment_afterScheme
    {scheme : String}
    {text : List Char}
    (base : Url)
    (noMark : '#' ∉ text)
    (notLoneAt : ∀ behind, text = '/' :: '/' :: behind → isLoneAt scheme behind = false)
    (rest : List Char) :
    AddsFragment (escapedFragment rest) (afterScheme (some base) scheme text)
      (afterScheme (some base) scheme (text ++ '#' :: rest)) := by
  cases isFile : isFileScheme scheme with
  | true =>
      rw [afterScheme, afterScheme, isFile]
      exact addsFragment_ofFile noMark rest
  | false =>
      cases isCommon : isCommonScheme scheme with
      | false => exact addsFragment_uncommon isCommon (some base) noMark notLoneAt rest
      | true =>
          have neverLone : ∀ behind, isLoneAt scheme behind = false := by
            simp [isLoneAt, isCommon]
          have fits : (text.takeWhile (isSlash true)).length ≤ text.length :=
            (List.takeWhile_sublist _).length_le
          rw [afterScheme_common isFile isCommon, afterScheme_common isFile isCommon,
            takeWhile_append_mark (isSlash true) rfl, List.drop_append_of_le_length fits]
          split
          · rename_i isRelative
            have sameScheme : base.scheme = scheme :=
              eq_of_beq (Bool.and_eq_true_iff.mp isRelative).2
            exact addsFragment_relative noMark (fun behind _ => sameScheme ▸ neverLone behind) rest
          · exact addsFragment_afterSlashes
              (fun member => noMark (List.mem_of_mem_drop member)) (neverLone _) rest

/-! ## What surrounds a reference -/

/-- The characters of a fragment that count. -/
def significantFragment (fragment : String) : List Char :=
  ((fragment.toList.reverse.dropWhile isSurrounding).reverse).filter (!isBreak ·)

/-- What becomes of a fragment of a reference. -/
def shownFragment (fragment : String) : String :=
  escapedFragment (significantFragment fragment)

theorem isSurrounding_of_isFragmentChar
    {character : Char}
    (isKept : isFragmentChar character = true) :
    isSurrounding character = false := by
  simp only [isFragmentChar, isPrintableBut, Host.isPrintable, Bool.and_eq_true,
    decide_eq_true_eq, Bool.not_eq_true'] at isKept
  obtain ⟨⟨notControl, _⟩, notOther⟩ := isKept
  have notSpace : character.toNat ≠ 0x20 := by
    intro isSpace
    have sameChar : character = ' ' := Char.toNat_inj.mp isSpace
    rw [sameChar] at notOther
    cases notOther
  have isBeyond : ¬ character.toNat ≤ 0x20 := by omega
  exact decide_eq_false isBeyond

theorem isBreak_of_not_isSurrounding
    {character : Char}
    (notSurrounding : isSurrounding character = false) :
    isBreak character = false := by
  rw [Bool.eq_false_iff] at notSurrounding ⊢
  intro breaks
  simp only [isBreak, Bool.or_eq_true, beq_iff_eq] at breaks
  rcases breaks with (rfl | rfl) | rfl <;> exact notSurrounding rfl

theorem escape_of_kept
    {isKept : Char → Bool}
    {text : List Char}
    (kept : ∀ character ∈ text, isKept character = true) :
    escape isKept text = text := by
  induction text with
  | nil => rfl
  | cons character text induction =>
      have rest := induction fun other member => kept other (.tail _ member)
      rw [escape] at rest ⊢
      rw [List.flatMap_cons, if_pos (kept character (.head _)), rest, List.singleton_append]

/-- A fragment of characters that may stand in it is shown as it is written. -/
theorem shownFragment_of_kept
    {fragment : String}
    (kept : ∀ character ∈ fragment.toList, isFragmentChar character = true) :
    shownFragment fragment = fragment := by
  have noBlank : fragment.toList.reverse.dropWhile isSurrounding = fragment.toList.reverse := by
    rw [List.dropWhile_eq_self_iff]
    intro nonempty
    exact Bool.eq_false_iff.mp (isSurrounding_of_isFragmentChar
      (kept _ (List.mem_reverse.mp (List.getElem_mem nonempty))))
  have allCount : significantFragment fragment = fragment.toList := by
    rw [significantFragment, noBlank, List.reverse_reverse, List.filter_eq_self]
    intro character member
    rw [isBreak_of_not_isSurrounding (isSurrounding_of_isFragmentChar (kept character member))]
    rfl
  rw [shownFragment, allCount, escapedFragment, escape_of_kept kept, String.ofList_toList]

/-- The spaces and control characters at the end of a reference, unless it consists of them. -/
def trailing (reference : String) : List Char :=
  (reference.toList.dropWhile isSurrounding).reverse.takeWhile isSurrounding

section

variable
    {reference : String}
    (endsFirmly : ∀ character ∈ trailing reference, isBreak character = true)

include endsFirmly

theorem filter_eq_significant :
    (reference.toList.dropWhile isSurrounding).filter (!isBreak ·) = significant reference := by
  have noneKept : (trailing reference).filter (!isBreak ·) = [] :=
    List.filter_eq_nil_iff.mpr fun character member => by simp [endsFirmly character member]
  have split := List.takeWhile_append_dropWhile (p := isSurrounding)
    (l := (reference.toList.dropWhile isSurrounding).reverse)
  change trailing reference ++ _ = _ at split
  have reversed := congrArg List.reverse split
  rw [List.reverse_append, List.reverse_reverse] at reversed
  calc
    (reference.toList.dropWhile isSurrounding).filter (!isBreak ·) =
        significant reference ++ ((trailing reference).filter (!isBreak ·)).reverse := by
      rw [← reversed, List.filter_append, List.filter_reverse (l := trailing reference)]
      rfl
    _ = significant reference := by rw [noneKept, List.reverse_nil, List.append_nil]

theorem significant_append_fragment
    (fragment : String) :
    significant (reference ++ "#" ++ fragment) =
      significant reference ++ '#' :: significantFragment fragment := by
  have characters :
      (reference ++ "#" ++ fragment).toList = reference.toList ++ '#' :: fragment.toList := by
    simp
  have markKept : isBreak '#' = false := rfl
  rw [significant, characters, dropWhile_append_mark _ (by rfl)]
  simp only [List.reverse_append, List.reverse_cons, List.append_assoc, List.singleton_append]
  rw [dropWhile_append_mark _ (by rfl)]
  simp [filter_eq_significant endsFirmly, significantFragment, markKept]

end

theorem mem_of_mem_significant
    {reference : String}
    {character : Char}
    (member : character ∈ significant reference) :
    character ∈ reference.toList := by
  have trimmed := List.mem_reverse.mp (List.mem_filter.mp member).1
  exact (List.dropWhile_sublist _).subset
    (List.mem_reverse.mp ((List.dropWhile_sublist _).subset trimmed))

/-! ## References with a fragment -/

/-- What stands behind a `#` at the end of the reference is its fragment, and nothing else. -/
structure BearsFragment (base : Url) (reference : String) : Prop where
  noMark : '#' ∉ reference.toList
  /-- What is dropped at the end of the reference is dropped inside it too. -/
  endsFirmly : ∀ character ∈ trailing reference, isBreak character = true
  notLoneAt : endsInLoneAt base (significant reference) = false
  /-- A fragment alone is relative to every URL, but nothing at all to hierarchies only. -/
  related : significant reference = [] → ∃ segments, base.path = .rooted segments

theorem BearsFragment.addsFragment
    {base : Url}
    {reference : String}
    (bears : BearsFragment base reference)
    (fragment : String) :
    AddsFragment (shownFragment fragment) (base.join reference)
      (base.join (reference ++ "#" ++ fragment)) := by
  obtain ⟨noMark, endsFirmly, notLoneAt, related⟩ := bears
  have noMarkIn : '#' ∉ significant reference :=
    fun member => noMark (mem_of_mem_significant member)
  have split := splitScheme?_append_fragment (significant reference) (significantFragment fragment)
  rw [Url.join, Url.join, Url.read, Url.read, significant_append_fragment endsFirmly, split]
  rw [endsInLoneAt] at notLoneAt
  generalize significant reference = text at *
  cases isSplit : splitScheme? text with
  | some parts =>
      obtain ⟨scheme, behind⟩ := parts
      rw [isSplit] at notLoneAt
      refine addsFragment_afterScheme base
        (fun member => noMarkIn ((splitScheme?_suffix isSplit).subset member)) ?_ _
      rintro rest rfl
      exact notLoneAt
  | none =>
      rw [isSplit] at notLoneAt
      cases isPath : base.path with
      | rooted segments =>
          refine addsFragment_relative noMarkIn (fun beyond isBeyond => ?_) _
          simpa [isBeyond] using notLoneAt
      | rootless path =>
          cases text with
          | nil => simp [isPath] at related
          | cons first others =>
              have notMark : first ≠ '#' := fun isMark => noMarkIn (isMark ▸ .head _)
              simp only [List.cons_append, List.head?_cons, beq_iff_eq, Option.some.injEq, notMark,
                if_false]
              exact .failed _

theorem Url.render_withFragment
    {url : Url}
    (noFragment : url.fragment = none)
    (fragment : String) :
    (url.withFragment fragment).render = url.render ++ "#" ++ fragment := by
  simp [render, withFragment, noFragment, shownAuthority, shownCredentials, shownPath,
    String.append_assoc]

end QueryGateway.Uri
