import QueryGateway.Message.Framing

/-!
# Answers as they are sent

An answer is sent as it is, with the length of its body if that is known, unless
its method is one that asks for no body.
-/

namespace QueryGateway.Message

theorem framed_eq_withLength
    {method : String}
    (notHead : method ≠ "HEAD")
    (notConnect : method ≠ "CONNECT")
    (response : Response) :
    response.framed method = response.withLength := by
  simp [Response.framed, notHead, notConnect]

@[simp]
theorem withLength_status
    (response : Response) :
    response.withLength.status = response.status := by
  unfold Response.withLength
  grind

@[simp]
theorem withLength_body
    (response : Response) :
    response.withLength.body = response.body := by
  unfold Response.withLength
  grind

@[simp]
theorem framed_status
    (response : Response)
    (method : String) :
    (response.framed method).status = response.status := by
  unfold Response.framed
  grind [withLength_status]

theorem first?_append
    {headers : Headers}
    {name : String}
    {value : Bytes}
    (found : headers.first? name = some value)
    (other : String)
    (added : Bytes) :
    (headers.append other added).first? name = some value := by
  rw [Headers.first?, Headers.append, List.lookup_append]
  rw [Headers.first?] at found
  rw [found]
  rfl

theorem withLength_first?
    {response : Response}
    {name : String}
    {value : Bytes}
    (found : response.headers.first? name = some value) :
    response.withLength.headers.first? name = some value := by
  unfold Response.withLength
  split
  · split
    · exact found
    · exact first?_append found _ _
  · exact found

end QueryGateway.Message
