import Ranging.Fault
import Ranging.Observation

/-!
Where the items for the estimator go.

A sink takes an item or refuses it, at once. There are a collector that takes everything, a bounded
channel, and a bounded queue that also counts what it refuses.
-/
namespace Ranging.Estimator

/-- Something that takes or refuses items; true when it took the item. -/
class Sink (σ : Type) where
  offer : σ → EstimatorItem → σ × Bool

/-- Everything offered so far, in order. -/
structure Collector where
  items : List EstimatorItem
  deriving Repr, DecidableEq, Inhabited

instance : Sink Collector where
  offer c item := (⟨c.items ++ [item]⟩, true)

/-- A first-in first-out channel with bounded room. Its receiver looks in and never waits, so with
no room at all a channel takes no item; there is nobody to hand one to. -/
structure Channel where
  capacity : Nat
  /-- The items not yet received, oldest first. -/
  waiting : List EstimatorItem
  /-- Whether the receiving end is still there. -/
  isOpen : Bool
  deriving Repr, DecidableEq, Inhabited

namespace Channel

def bounded (capacity : Nat) : Channel := ⟨capacity, [], true⟩

/-- The bytes of one place in a channel: an item and a stamp that says whose turn it is. -/
def placeSize : Nat := 48

/-- The most places that a channel can have; all of them together stay below `2 ^ 63` bytes. A
machine may have less to give. -/
def greatestCapacity : Nat := (2 ^ 63 - 1) / placeSize

/-- A channel with nothing in it, if there can be room for it. -/
def create (capacity : Nat) : Except Fault Channel :=
  if capacity ≤ greatestCapacity then .ok (bounded capacity) else .error .noRoom

/-- Takes an item if there is room and a receiving end. -/
def send (c : Channel) (item : EstimatorItem) : Channel × Bool :=
  if c.isOpen && c.waiting.length < c.capacity then
    ({ c with waiting := c.waiting ++ [item] }, true)
  else (c, false)

/-- Receives up to `count` items, oldest first. -/
def receive (c : Channel) (count : Nat) : Channel × List EstimatorItem :=
  ({ c with waiting := c.waiting.drop count }, c.waiting.take count)

/-- Gives up the receiving end and what waits at it. -/
def close (c : Channel) : Channel := { c with waiting := [], isOpen := false }

end Channel

instance : Sink Channel := ⟨Channel.send⟩

/-- A channel that counts what it refuses, with a single handle on it that owns both. -/
structure Queue where
  channel : Channel
  /-- Items refused so far; wraps at 32 bits. -/
  refused : UInt32
  deriving Repr, DecidableEq, Inhabited

namespace Queue

def bounded (capacity : Nat) : Queue := ⟨.bounded capacity, 0⟩

/-- A queue with nothing in it, if there can be room for it. -/
def create (capacity : Nat) : Except Fault Queue :=
  (Channel.create capacity).map fun channel => ⟨channel, 0⟩

/-- Takes an item or counts it as refused. -/
def send (q : Queue) (item : EstimatorItem) : Queue × Bool :=
  let (channel, taken) := q.channel.send item
  if taken then ({ q with channel := channel }, true)
  else (⟨channel, q.refused + 1⟩, false)

/-- Receives up to `count` items, oldest first. -/
def receive (q : Queue) (count : Nat) : Queue × List EstimatorItem :=
  let (channel, items) := q.channel.receive count
  ({ q with channel := channel }, items)

/-- Gives up the receiving end; from then on everything is refused. -/
def close (q : Queue) : Queue := { q with channel := q.channel.close }

end Queue

instance : Sink Queue := ⟨Queue.send⟩

end Ranging.Estimator
