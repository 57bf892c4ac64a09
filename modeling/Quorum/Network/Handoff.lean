import Quorum.Event

/-!
# The hand-off queue

Accepted connections wait in a bounded queue until the loop of their node takes them. Offering a
connection never blocks: when the queue is full, or when nobody will ever take from it, the
connection is refused.
-/

namespace Quorum

/-- A bounded queue of accepted connections, oldest first. -/
structure HandoffQueue where
  capacity : Nat
  waiting : List ConnId := []
  /-- Cleared when the receiving side is gone. -/
  receiving : Bool := true
  deriving DecidableEq, Repr, Inhabited

namespace HandoffQueue

/-- The most connections that a queue can be made for. -/
def mostCapacity : Nat := 2305843009213693951

/-- A queue has room for one connection at least, and for `mostCapacity` at most. -/
def ofCapacity (capacity : Nat) : Except Fault HandoffQueue :=
  if capacity = 0 then .error .emptyQueue
  else if mostCapacity < capacity then .error .tooLarge
  else .ok { capacity }

/-- Whether the queue takes another connection. -/
def accepts (queue : HandoffQueue) : Bool :=
  queue.receiving && decide (queue.waiting.length < queue.capacity)

/-- Offer a connection; a queue that does not take it stays as it is. -/
def offer (queue : HandoffQueue) (conn : ConnId) : HandoffQueue :=
  if queue.accepts then { queue with waiting := queue.waiting ++ [conn] } else queue

/-- The queue after everything has been taken. -/
def drained (queue : HandoffQueue) : HandoffQueue := { queue with waiting := [] }

/-- The queue after the receiving side is gone. -/
def closed (queue : HandoffQueue) : HandoffQueue :=
  { queue with waiting := [], receiving := false }

end HandoffQueue

end Quorum
