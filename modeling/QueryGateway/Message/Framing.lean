import QueryGateway.Message.Exchange

/-!
# What a server adds to its answers

A server announces the length of a body if it is known, and it leaves the body
out where the method asks for none: always for `HEAD`, and for a successful
`CONNECT`, whose answer is not to have a body, if there would be one.
-/

namespace QueryGateway.Message

/-- Is it the status of a success? -/
def isSuccess (status : Nat) : Bool :=
  200 ≤ status && status < 300

namespace Response

/-- Does the response announce content? -/
def announcesContent (response : Response) : Bool :=
  response.headers.contains "content-length" ||
    response.headers.contains "transfer-encoding" || response.body.length?.getD 0 ≠ 0

/-- The response with the length of its body, if that is known and not told already. -/
def withLength (response : Response) : Response :=
  match response.body.length? with
  | some length =>
      if response.headers.contains "content-length" then response
      else
        { response with
          headers := response.headers.append "content-length" (Bytes.ofString (toString length)) }
  | none => response

/-- The response as it is sent in answer to a method. -/
def framed (method : String) (response : Response) : Response :=
  if method = "CONNECT" && isSuccess response.status then
    if response.announcesContent then { response with body := .empty } else response
  else if method = "HEAD" then
    { response.withLength with body := .empty }
  else
    response.withLength

end Response

end QueryGateway.Message
