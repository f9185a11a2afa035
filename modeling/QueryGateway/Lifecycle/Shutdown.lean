/-!
# The shutdown signal

A signal is sent to whoever has subscribed before it.  The channel keeps the
last signal only: a subscriber that has not taken an older one is told how many
it missed before it takes the one that is kept.

A signal that is sent while nobody is subscribed is lost.
-/

namespace QueryGateway.Lifecycle

/-- Subscribers, each with the number of signals sent since it last took one. -/
structure Shutdown where
  waiting : List (String × Nat)
deriving DecidableEq, Repr

/-- What a subscriber receives. -/
inductive Reception where
  | received
  | empty
  /-- So many signals were missed. -/
  | lagged (count : Nat)
deriving DecidableEq, Repr

/-- The number of signals that the channel keeps. -/
def capacity : Nat := 1

namespace Shutdown

/-- The signal before anybody subscribed. -/
def start : Shutdown := ⟨[]⟩

/-- The number of subscribers. -/
def receiverCount (shutdown : Shutdown) : Nat :=
  shutdown.waiting.length

/-- Take a subscriber out, if there is one of the name. -/
def drop (shutdown : Shutdown) (name : String) : Shutdown :=
  ⟨shutdown.waiting.filter (·.1 ≠ name)⟩

/-- Subscribe under a name, in place of the one who had it. -/
def subscribe (shutdown : Shutdown) (name : String) : Shutdown :=
  ⟨(shutdown.drop name).waiting ++ [(name, 0)]⟩

/-- Send a signal; the result is the number of subscribers it is sent to. -/
def trigger (shutdown : Shutdown) : Nat × Shutdown :=
  (shutdown.receiverCount, ⟨shutdown.waiting.map fun (name, count) => (name, count + 1)⟩)

/-- Let a subscriber take a signal. -/
def receive? (shutdown : Shutdown) (name : String) : Option (Reception × Shutdown) :=
  let set (count : Nat) : Shutdown :=
    ⟨shutdown.waiting.map fun (other, old) => (other, if other = name then count else old)⟩
  (shutdown.waiting.lookup name).map fun count =>
    if count = 0 then (.empty, shutdown)
    else if count > capacity then (.lagged (count - capacity), set capacity)
    else (.received, set (count - 1))

end Shutdown

end QueryGateway.Lifecycle
