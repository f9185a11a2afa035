import QueryGateway.Message.Headers

/-!
# Which headers pass the gateway

Headers that speak about one connection never pass, in either direction: those
that always do, those with `proxy-` in front, and those that a `connection`
header lists.  Further headers are taken out where the gateway sends another
body, another host or another query than it received.
-/

namespace QueryGateway.Gateway

open Message

/-- The header that may hold a query. -/
def queryHeader : String := "x-meshcaline-query"

/-- The header that identifies a request. -/
def requestIdHeader : String := "x-request-id"

/-- Headers that always speak about one connection. -/
def connectionHeaders : List String :=
  ["connection", "keep-alive", "proxy-authenticate", "proxy-authorization", "proxy-connection",
    "te", "trailer", "transfer-encoding", "upgrade"]

/-- Does the header always speak about one connection? -/
def isHopByHop (name : String) : Bool :=
  connectionHeaders.contains name || "proxy-".toList.isPrefixOf name.toList

/-- Is the character a space or a tab? -/
def isHeaderBlank (character : Char) : Bool :=
  character == ' ' || character == '\t'

/-- A text without the blanks around it. -/
def trim (text : List Char) : List Char :=
  ((text.dropWhile isHeaderBlank).reverse.dropWhile isHeaderBlank).reverse

/-- The header names in a list with commas; what is no name is passed over. -/
def listedNames (value : String) : List String :=
  (value.toList.splitOnP (· == ',')).filterMap fun token => headerName? (trim token)

/-- The header names that the readable `connection` headers list. -/
def connectionNames (headers : Headers) : List String :=
  ((headers.values "connection").filterMap readable?).flatMap listedNames

/-- The headers that do not speak about one connection. -/
def withoutHopByHop (headers : Headers) : Headers :=
  let listed := connectionNames headers
  headers.keep fun name => !isHopByHop name && !listed.contains name

/-- What is special about a request that is forwarded. -/
structure Forwarding where
  /-- Is another body sent than the one that came? -/
  bodyRebuilt : Bool
  /-- Will the answer be read by the gateway? -/
  queryPresent : Bool
deriving DecidableEq, Repr

/-- The headers to send to the backend. -/
def forwardHeaders (headers : Headers) (forwarding : Forwarding) : Headers :=
  (withoutHopByHop headers).without (
    ["host", queryHeader] ++
    (if forwarding.bodyRebuilt then ["content-length"] else []) ++
    (if forwarding.queryPresent then ["accept-encoding"] else []))

/-- The headers to send with follow-ups, which have no body. -/
def followUpHeaders (forwarded : Headers) : Headers :=
  forwarded.without ["content-length", "content-type"]

/-- The headers of an answer whose body the gateway writes. -/
def ownBodyHeaders (headers : Headers) : Headers :=
  (withoutHopByHop headers).without ["content-length", "content-encoding"]

/--
The headers of a part: those of the backend's answer that are readable, and a
type if the backend told none.
-/
def partHeaders (headers : Headers) : List (String × String) :=
  let kept := ownBodyHeaders headers
  kept.fields.filterMap (fun (name, value) => (readable? value).map (name, ·)) ++
    (if kept.contains "content-type" then [] else [("content-type", "application/json")])

/-! ## Media types -/

/-- The media type of a `content-type` value, without its parameters. -/
def mediaType (value : String) : List Char :=
  (trim (value.toList.takeWhile (· ≠ ';'))).map Char.toLower

/-- Do the headers announce JSON? -/
def announcesJson (headers : Headers) : Bool :=
  match headers.firstText? "content-type" with
  | none => false
  | some value =>
      mediaType value == "application/json".toList || "+json".toList.isSuffixOf (mediaType value)

end QueryGateway.Gateway
