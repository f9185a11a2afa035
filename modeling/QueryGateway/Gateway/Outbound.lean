import QueryGateway.Gateway.Error

/-!
# Where requests come in and go out

The routing table speaks about whole addresses.  The address of a request that
comes in is made from its target and its host; the address of a request that
goes out becomes its target, and its authority the host.
-/

namespace QueryGateway.Gateway

open Message

/-- The host that a request is for: the one in its target, or else its `host` header. -/
def requestedHost? (request : Request) : Option String :=
  match request.target.authority with
  | some authority => some authority
  | none => request.headers.firstText? "host"

/-- The address that a request is for. -/
def ingressAddress (request : Request) : Except GatewayError String :=
  match requestedHost? request with
  | none => .error (.badRequest "request has no host")
  | some host => .ok ("http://" ++ host ++ request.target.pathAndQuery)

/-- What is told about an address that is no target. -/
def targetDetail : String := "the address is not a valid request target"

/-- The request to an address. -/
def outbound (method address : String) (headers : Headers) (body : Body) :
    Except BackendError Request :=
  match Uri.Target.ofString? address with
  | none => .error (.invalidAddress address targetDetail)
  | some target =>
      match target.scheme, target.authority with
      | none, _ => .error (.invalidAddress address "missing scheme")
      | some _, none => .error (.invalidAddress address "missing authority")
      | some _, some authority => .ok ⟨method, target, headers.putText "host" authority, body⟩

end QueryGateway.Gateway
